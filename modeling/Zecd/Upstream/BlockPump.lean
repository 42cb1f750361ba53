import Zecd.Foundation.Hex
import Zecd.Foundation.Text
import Zecd.Foundation.Window
import Zecd.Upstream.BlockReader

/-! # The block stream of a full node

A full node serves a compact block in two calls that depend on each other, so a task keeps the
calls of many blocks going at once and hands the blocks on in the order of their heights. At every
interleaving of its replies, the sync engine is answered what the blocks fetched one after the
other would have answered it.
-/

namespace Zecd.BlockPump

open Runs

open Relay (direct)

open BlockReader (CompactBlock CompactTx ChainMetadata TxOut downloadFrom)

open LoadShed (StreamError StreamItem)

/-! ## Blocks, as parsed -/

structure TxId where
  bytes : List UInt8
  length_bytes : bytes.length = 32

def TxId.number (t : TxId) : ℕ := t.bytes.foldr (fun b n => b.toNat + 256 * n) 0

theorem txIdFromBytes_bytes (t : TxId) : BlockReader.txIdFromBytes t.bytes = some t.number :=
  if_pos t.length_bytes

structure TxIn where
  prevoutHash : TxId
  prevoutN : ℕ

structure TransparentBundle where
  isCoinbase : Bool
  vin : List TxIn
  vout : List TxOut

structure SaplingBundle where
  spends : List (List UInt8)
  outputs : List (List UInt8)
  deriving DecidableEq

structure Transaction where
  txid : TxId
  transparent : Option TransparentBundle
  sapling : Option SaplingBundle
  /-- The actions of the Orchard bundle, in the compact encoding. -/
  orchard : Option (List (List UInt8))
  ironwood : Option (List (List UInt8))
  /-- The whole transaction. -/
  encoded : List UInt8

structure Block where
  hash : List UInt8
  prevBlock : List UInt8
  time : ℕ
  /-- The height its coinbase claims. -/
  claimedHeight : ℕ
  vtx : List Transaction

/-! ## What is made of a block -/

def bundleOutputs (height : ℕ) (tx : Transaction) (bundle : TransparentBundle) :
    List LoadShed.TransparentUtxo :=
  let coinbaseTx := if bundle.isCoinbase then some tx.encoded else none
  bundle.vout.zipIdx.map fun (out, index) =>
    ⟨tx.txid.number, index % 2 ^ 32, out.value, out.scriptPubKey, some height, coinbaseTx,
      coinbaseTx.isSome⟩

/-- Every transparent output, those of the coinbase with their whole transaction. -/
def blockTransparentOutputs (block : Block) (height : ℕ) : List LoadShed.TransparentUtxo :=
  block.vtx.flatMap fun tx => (tx.transparent.map (bundleOutputs height tx)).getD []

def bundleSpends (height : ℕ) (tx : Transaction) (bundle : TransparentBundle) :
    List LoadShed.TransparentSpend :=
  if bundle.isCoinbase then []
  else bundle.vin.map fun input =>
    ⟨input.prevoutHash.number, input.prevoutN, tx.txid.number, height⟩

/-- Every transparent input, but the one of the coinbase. -/
def blockTransparentSpends (block : Block) (height : ℕ) : List LoadShed.TransparentSpend :=
  block.vtx.flatMap fun tx => (tx.transparent.map (bundleSpends height tx)).getD []

def compactTx (tx : Transaction) (index : ℕ) : CompactTx where
  index := index
  txid := tx.txid.bytes
  spends := (tx.sapling.map SaplingBundle.spends).getD []
  outputs := (tx.sapling.map SaplingBundle.outputs).getD []
  actions := tx.orchard.getD []
  ironwoodActions := tx.ironwood.getD []

def blockToCompact (block : Block) (saplingSize orchardSize ironwoodSize : ℕ) : CompactBlock where
  height := block.claimedHeight
  hash := block.hash
  prevHash := block.prevBlock
  time := block.time
  vtx := block.vtx.zipIdx.map fun (tx, index) => compactTx tx index
  chainMetadata := some ⟨saplingSize, orchardSize, ironwoodSize⟩

abbrev MaterializedBlock :=
  CompactBlock × List LoadShed.TransparentUtxo × List LoadShed.TransparentSpend

/-! ## The node -/

/-- The tree sizes that a node tells: a pool that is not active has none. -/
structure Trees where
  sapling : Option ℕ
  orchard : Option ℕ
  ironwood : Option ℕ
  deriving DecidableEq, Repr

/-- What a node replies to `getblock`, of a height in full and of a hash with its trees. -/
structure Node where
  getBlock : ℕ → Except String (List Char)
  getTrees : List Char → Except String (Option Trees)
  /-- `Block::read`. -/
  read : List UInt8 → Option Block

def u16Max : ℕ := 65535

section Node

variable (node : Node)

def blockRaw (height : ℕ) : Except StreamError (List UInt8) :=
  match node.getBlock height with
  | .error e => .error (.other e)
  | .ok text =>
    match Hex.decode (Text.trim text) with
    | none => .error (.other "decoding raw block hex")
    | some bytes => .ok bytes

/-- The hash as it is displayed: its bytes from the last. -/
def displayHash (hash : List UInt8) : List Char := Hex.encode hash.reverse

def blockTrees (hash : List Char) : Except StreamError (ℕ × ℕ × ℕ) :=
  match node.getTrees hash with
  | .error e => .error (.other e)
  | .ok trees =>
    let trees := trees.getD ⟨none, none, none⟩
    .ok (trees.sapling.getD 0, trees.orchard.getD 0, trees.ironwood.getD 0)

/-- The first call, and the checks that the node served the block asked for. -/
def fetchBlock (height : ℕ) : Except StreamError Block := do
  let raw ← blockRaw node height
  match node.read raw with
  | none => .error (.other s!"parsing block {height}")
  | some block =>
    if block.claimedHeight ≠ height then
      .error (.other (s!"zebra served block claiming height {block.claimedHeight} for " ++
        s!"requested height {height}"))
    else if u16Max < block.vtx.length then
      .error (.other (s!"zebra served block {height} with {block.vtx.length} transactions, " ++
        s!"exceeding the {u16Max} the scanner supports"))
    else .ok block

def materializeBlock (includeTransparent : Bool) (height : ℕ) :
    Except StreamError MaterializedBlock := do
  let block ← fetchBlock node height
  let (sapling, orchard, ironwood) ← blockTrees node (displayHash block.hash)
  let (transparent, spends) :=
    if includeTransparent then
      (blockTransparentOutputs block height, blockTransparentSpends block height)
    else ([], [])
  .ok (blockToCompact block sapling orchard ironwood, transparent, spends)

/-- The calls that a block takes: the second is not made where the first has failed. -/
def replies (height : ℕ) : ℕ :=
  match fetchBlock node height with
  | .error _ => 1
  | .ok _ => 2

/-! ## The pump -/

def blockFetchConcurrency : ℕ := 32

def blockFetchBuffer : ℕ := 64

def pumpBlocks (includeTransparent : Bool) : Window.Config ℕ StreamError MaterializedBlock where
  replies := replies node
  outcome := materializeBlock node includeTransparent
  width := blockFetchConcurrency
  capacity := blockFetchBuffer

def heights (first last : ℕ) : List ℕ := List.range' first (last + 1 - first)

/-- The pump and the engine, after the steps in their order. -/
def pumps (includeTransparent : Bool) (first last : ℕ) (steps : List Window.Event) :
    Window.State ℕ StreamError MaterializedBlock :=
  run (Window.step (pumpBlocks node includeTransparent)) (.start (heights first last)) steps

/-- What a materialized block is to the engine. -/
def item (block : MaterializedBlock) : StreamItem where
  block := ⟨block.1.height, block.1.vtx.map fun tx => ⟨tx.outputs, tx.actions⟩⟩
  tOuts := block.2.1
  tIns := block.2.2

def nexts (s : Window.State ℕ StreamError MaterializedBlock) :
    List (Except StreamError (Option StreamItem)) :=
  s.answers.map (Except.map (Option.map item))

end Node

/-! ## In order -/

variable (node : Node)

theorem claimedHeight_of_fetchBlock {node : Node} {height : ℕ} {block : Block}
    (h : fetchBlock node height = .ok block) : block.claimedHeight = height := by
  unfold fetchBlock at h
  cases hraw : blockRaw node height with
  | error e => simp [hraw, bind, Except.bind] at h
  | ok raw =>
    simp only [hraw, bind, Except.bind] at h
    split at h
    · cases h
    · split at h
      · cases h
      next hclaimed =>
        split at h
        · cases h
        · obtain rfl := Except.ok.inj h
          exact not_not.mp hclaimed

theorem inv_pumps (includeTransparent : Bool) (first last : ℕ) (steps : List Window.Event) :
    Window.Inv (pumpBlocks node includeTransparent) (heights first last)
      (pumps node includeTransparent first last steps) :=
  Window.inv_run (Nat.succ_pos 31) steps

/-- At every interleaving of the replies and the engine, the calls of `next` are answered what the
blocks fetched one after the other would have answered, with no more blocks in flight than the
pump's window has and no more ahead of the engine than its channel. -/
theorem pumped_in_order (includeTransparent : Bool) (first last : ℕ) (steps : List Window.Event) :
    let s := pumps node includeTransparent first last steps
    s.answers = (List.range s.answers.length).map
        (direct ((heights first last).map (materializeBlock node includeTransparent))) ∧
      s.window.length ≤ blockFetchConcurrency ∧ s.queue.length ≤ blockFetchBuffer := by
  intro s
  have h := inv_pumps node includeTransparent first last steps
  exact ⟨h.answered, h.narrow, h.short⟩

/-! ## A download over the pump -/

section Download

variable {A : Type} [DecidableEq A] (recipientAddress : List UInt8 → Option A)
  (encode : LoadShed.CompactBlock → List UInt8) (transparent : Option (Finset A))

/-- The loop of `download_range_once` over blocks fetched one after the other, none if a block was
pushed out of order. -/
def sequentially (includeTransparent : Bool) :
    List ℕ → LoadShed.DownloadProgress A →
      Option (LoadShed.DownloadProgress A × Option StreamError)
  | [], p => some (p, none)
  | height :: rest, p =>
    match materializeBlock node includeTransparent height with
    | .error e => some (p, some e)
    | .ok block =>
      match p.fold recipientAddress encode transparent (item block) with
      | none => none
      | some p => sequentially includeTransparent rest p

theorem sequentially_eq (includeTransparent : Bool) (hs : List ℕ) :
    ∃ (blocks : List MaterializedBlock) (last : Option StreamError),
      direct (hs.map (materializeBlock node includeTransparent)) =
        direct (blocks.map .ok ++ last.toList.map .error) ∧
      ∀ p : LoadShed.DownloadProgress A,
        sequentially node recipientAddress encode transparent includeTransparent hs p =
          ((blocks.map item).foldlM
            (LoadShed.DownloadProgress.fold recipientAddress encode transparent) p).map
              (·, last) := by
  induction hs with
  | nil => exact ⟨[], none, rfl, fun p => rfl⟩
  | cons height rest ih =>
    cases hblock : materializeBlock node includeTransparent height with
    | error e =>
      refine ⟨[], some e, ?_, fun p => ?_⟩
      · rw [List.map_cons, hblock]
        exact Relay.direct_append_error [] e _
      · simp [sequentially, hblock]
    | ok block =>
      obtain ⟨blocks, last, hdirect, hseq⟩ := ih
      refine ⟨block :: blocks, last, ?_, fun p => ?_⟩
      · rw [List.map_cons, hblock]
        funext n
        cases n with
        | zero => rfl
        | succ n => exact congrFun hdirect n
      · rw [sequentially, hblock]
        simp only [List.map_cons, List.foldlM_cons, Option.bind_eq_bind]
        cases p.fold recipientAddress encode transparent (item block) with
        | none => rfl
        | some p => exact hseq p

theorem download_eq (includeTransparent : Bool) (first last : ℕ) :
    ∃ (items : List StreamItem) (stop : Option StreamError),
      (∀ n, direct (items.map .ok ++ stop.toList.map .error) n = Except.map (Option.map item)
        (direct ((heights first last).map (materializeBlock node includeTransparent)) n)) ∧
      (∀ (p : LoadShed.DownloadProgress A) (steps : List Window.Event),
        downloadFrom recipientAddress encode transparent p
            (nexts (pumps node includeTransparent first last steps)) =
          downloadFrom recipientAddress encode transparent p
            ((List.range (pumps node includeTransparent first last steps).answers.length).map
              (direct (items.map .ok ++ stop.toList.map .error)))) ∧
      ∀ p : LoadShed.DownloadProgress A,
        sequentially node recipientAddress encode transparent includeTransparent
          (heights first last) p =
        (items.foldlM (LoadShed.DownloadProgress.fold recipientAddress encode transparent) p).map
          (·, stop) := by
  obtain ⟨blocks, stop, hdirect, hseq⟩ := sequentially_eq node recipientAddress encode
    transparent includeTransparent (heights first last)
  have hitems (n : ℕ) : direct ((blocks.map item).map .ok ++ stop.toList.map .error) n =
      Except.map (Option.map item)
        (direct ((heights first last).map (materializeBlock node includeTransparent)) n) := by
    rw [hdirect, ← Relay.direct_map]
    cases stop <;> simp [Except.map, Function.comp_def]
  refine ⟨blocks.map item, stop, hitems, fun p steps => ?_, hseq⟩
  have h := inv_pumps node includeTransparent first last steps
  dsimp only [nexts]
  conv_lhs => rw [h.answered]
  rw [List.map_map]
  congr 1
  exact List.map_congr_left fun n _ => (hitems n).symm

theorem download_cases (includeTransparent : Bool) (first last : ℕ)
    (p : LoadShed.DownloadProgress A) (steps : List Window.Event) :
    let download := downloadFrom recipientAddress encode transparent p
      (nexts (pumps node includeTransparent first last steps))
    download = none ∨ download = some (sequentially node recipientAddress encode transparent
      includeTransparent (heights first last) p) := by
  intro download
  obtain ⟨items, stop, -, hdownload, hseq⟩ := download_eq node recipientAddress encode transparent
    includeTransparent first last
  dsimp only [download]
  rw [hdownload, hseq]
  exact BlockReader.downloadFrom_cases _ stop p _

theorem steps_le (includeTransparent : Bool) (first last : ℕ) :
    ((heights first last).map fun h =>
      (pumpBlocks node includeTransparent).replies h + 4).sum ≤
        6 * (heights first last).length := by
  have hsix : ∀ n ∈ (heights first last).map fun h =>
      (pumpBlocks node includeTransparent).replies h + 4, n ≤ 6 := by
    intro n hn
    obtain ⟨h, -, rfl⟩ := List.mem_map.mp hn
    have : replies node h ≤ 2 := by
      unfold replies
      split <;> omega
    exact Nat.add_le_add_right this 4
  have hsum := List.sum_le_card_nsmul _ 6 hsix
  rwa [List.length_map, smul_eq_mul, Nat.mul_comm] at hsum

/-- A download over the pump ends as one over blocks fetched one after the other, at every
interleaving of the replies and the engine. It does end, where the oldest call is replied to, and
pump and engine get their turns. -/
theorem download_over_pump (includeTransparent : Bool) (first last : ℕ)
    (p : LoadShed.DownloadProgress A) :
    let download (steps : List Window.Event) :=
      downloadFrom recipientAddress encode transparent p
        (nexts (pumps node includeTransparent first last steps))
    let oneByOne := sequentially node recipientAddress encode transparent includeTransparent
      (heights first last) p
    (∀ steps, download steps = none ∨ download steps = some oneByOne) ∧
    ∀ rounds : List (List Window.Event),
      (∀ round ∈ rounds, .drop ∉ round ∧ ∀ t : Window.Turn, t.event ∈ round) →
      6 * (heights first last).length + 2 ≤ rounds.length →
      download rounds.flatten = some oneByOne := by
  intro download oneByOne
  refine ⟨fun steps => download_cases node recipientAddress encode transparent includeTransparent
    first last p steps, fun rounds hrounds hlength => ?_⟩
  obtain ⟨items, stop, hdirect, hdownload, hseq⟩ := download_eq node recipientAddress encode
    transparent includeTransparent first last
  obtain ⟨m, hm, hend⟩ := Window.told_of_rounds
    (Nat.succ_pos 31) (Nat.succ_pos 63)
    (fun round hr => (hrounds round hr).1) (fun round hr => (hrounds round hr).2)
    ((Nat.add_le_add_right (steps_le node includeTransparent first last) 2).trans hlength)
  dsimp only [download, oneByOne]
  rw [hdownload, hseq]
  apply BlockReader.downloadFrom_of_told p hm
  rw [hdirect]
  exact congrArg (Except.map (Option.map item)) hend

end Download

/-- A node that has one block, and fails to serve any other. -/
def oneBlockNode : Node where
  getBlock height := if height = 7 then .ok ['0', '0'] else .error "zebra rpc getblock failed"
  getTrees _ := .ok none
  read _ := some ⟨[], [], 0, 7, []⟩

/-- One round's turns, the second call's reply first. -/
def repliesFirst : List Window.Event := [.reply 1, .reply 0, .poll, .send, .recv]

theorem download_over_pump_oneBlock :
    downloadFrom (A := ℕ) (fun _ => none) (fun _ => []) none (.new none)
        (nexts (pumps oneBlockNode true 7 8 (List.replicate 14 repliesFirst).flatten)) =
      some (sequentially oneBlockNode (fun _ => none) (fun _ => []) none true
        (heights 7 8) (.new none)) := by
  apply (download_over_pump oneBlockNode (fun _ => none) (fun _ => []) none true 7 8 _).2
  · intro round hround
    rw [List.eq_of_mem_replicate hround]
    refine ⟨by decide, fun t => ?_⟩
    cases t <;> decide
  · decide

end Zecd.BlockPump
