import Zecd.Foundation.Relay
import Zecd.Sync.LoadShed

/-! # The block stream of a light server

A task drains `GetBlockRange` ahead of the sync engine, into a buffer bounded in bytes. At every
interleaving of the two, the engine is answered what the stream itself would have answered, each
block with its transparent data. A block larger than the buffer takes it whole and is not waited
for forever.
-/

namespace Zecd.BlockReader

open Runs Relay

/-! ## Compact blocks, as received -/

structure CompactTxIn where
  prevoutTxid : List UInt8
  prevoutIndex : ℕ
  deriving DecidableEq, Repr

structure TxOut where
  value : ℕ
  scriptPubKey : List UInt8
  deriving DecidableEq, Repr

structure CompactTx where
  /-- The transaction's position in its block. -/
  index : ℕ
  txid : List UInt8
  fee : ℕ := 0
  spends : List (List UInt8) := []
  outputs : List (List UInt8) := []
  actions : List (List UInt8) := []
  ironwoodActions : List (List UInt8) := []
  vin : List CompactTxIn := []
  vout : List TxOut := []
  deriving DecidableEq, Repr

/-- The sizes of the commitment trees after a block. -/
structure ChainMetadata where
  saplingCommitmentTreeSize : ℕ
  orchardCommitmentTreeSize : ℕ
  ironwoodCommitmentTreeSize : ℕ
  deriving DecidableEq, Repr

structure CompactBlock where
  height : ℕ
  hash : List UInt8 := []
  prevHash : List UInt8 := []
  time : ℕ := 0
  header : List UInt8 := []
  vtx : List CompactTx := []
  chainMetadata : Option ChainMetadata := none
  deriving DecidableEq, Repr

def txIdFromBytes (bytes : List UInt8) : Option ℕ :=
  if bytes.length = 32 then some (bytes.foldr (fun b n => b.toNat + 256 * n) 0) else none

def u32TryFrom (n : ℕ) : Option ℕ := if n ≤ u32Max then some n else none

def txOutputs (height : Option ℕ) (tx : CompactTx) : List LoadShed.TransparentUtxo :=
  match txIdFromBytes tx.txid with
  | none => []
  | some txid =>
    tx.vout.zipIdx.map fun (out, index) =>
      ⟨txid, index % 2 ^ 32, out.value, out.scriptPubKey, height, none, tx.index = 0⟩

/-- Every transparent output, at its position in its transaction. -/
def blockTransparentOutputs (block : CompactBlock) : List LoadShed.TransparentUtxo :=
  block.vtx.flatMap (txOutputs (u32TryFrom block.height))

def txSpends (height : ℕ) (tx : CompactTx) : List LoadShed.TransparentSpend :=
  match txIdFromBytes tx.txid with
  | none => []
  | some spendingTxid =>
    tx.vin.filterMap fun input =>
      (txIdFromBytes input.prevoutTxid).map (⟨·, input.prevoutIndex, spendingTxid, height⟩)

def blockTransparentSpends (block : CompactBlock) : List LoadShed.TransparentSpend :=
  match u32TryFrom block.height with
  | none => []
  | some height => block.vtx.flatMap (txSpends height)

/-! ## The reader -/

/-- 32 MiB. -/
def blockBufferBytes : ℕ := 32 * 1024 * 1024

section Reader

variable (encodedLen : CompactBlock → ℕ) (bufferBytes : ℕ)

/-- The permits a block is charged: its size, no more than the buffer holds, and never none. -/
def cost (block : CompactBlock) : ℕ := max 1 (min (encodedLen block) bufferBytes) % 2 ^ 32

variable {Status : Type}

def spawnBlockReader (stream : List (Except Status CompactBlock)) :
    Relay.State Status CompactBlock :=
  .start bufferBytes stream

/-- The reader task and the consumer, after the steps in their order. -/
def reads (stream : List (Except Status CompactBlock)) (steps : List Relay.Event) :
    Relay.State Status CompactBlock :=
  run (step (cost encodedLen bufferBytes)) (spawnBlockReader bufferBytes stream) steps

/-- What `LwdBlockStream::next` makes of a block. -/
def harvest (extractTransparent : Bool) (block : CompactBlock) : LoadShed.StreamItem where
  block := ⟨block.height, block.vtx.map fun tx => ⟨tx.outputs, tx.actions⟩⟩
  tOuts := if extractTransparent then blockTransparentOutputs block else []
  tIns := if extractTransparent then blockTransparentSpends block else []

def nexts (extractTransparent : Bool) (s : Relay.State Status CompactBlock) :
    List (Except Status (Option LoadShed.StreamItem)) :=
  s.answers.map (Except.map (Option.map (harvest extractTransparent)))

end Reader

/-! ## The buffer -/

variable {encodedLen : CompactBlock → ℕ} {bufferBytes : ℕ} {Status : Type}
  {stream : List (Except Status CompactBlock)} {steps : List Relay.Event}

theorem cost_eq (hfit : bufferBytes < 2 ^ 32) (hpos : 0 < bufferBytes) (block : CompactBlock) :
    cost encodedLen bufferBytes block = max 1 (min (encodedLen block) bufferBytes) :=
  Nat.mod_eq_of_lt (by omega)

variable (encodedLen) in
theorem cost_le (hfit : bufferBytes < 2 ^ 32) (hpos : 0 < bufferBytes) (block : CompactBlock) :
    cost encodedLen bufferBytes block ≤ bufferBytes := by
  rw [cost_eq hfit hpos]
  omega

theorem cost_pos (hfit : bufferBytes < 2 ^ 32) (hpos : 0 < bufferBytes) (block : CompactBlock) :
    0 < cost encodedLen bufferBytes block := by
  rw [cost_eq hfit hpos]
  omega

/-- What is received and not yet worked: it fits into the buffer, or it is one block that does
not. -/
def WithinBuffer (encodedLen : CompactBlock → ℕ) (bufferBytes : ℕ) (blocks : List CompactBlock) :
    Prop :=
  (blocks.map encodedLen).sum ≤ bufferBytes ∨
    ∃ block, blocks = [block] ∧ bufferBytes < encodedLen block

theorem withinBuffer_of_inv {s : Relay.State Status CompactBlock} (hfit : bufferBytes < 2 ^ 32)
    (hpos : 0 < bufferBytes)
    (h : Relay.Inv (cost encodedLen bufferBytes) bufferBytes stream s) :
    WithinBuffer encodedLen bufferBytes (s.buffered.map Prod.fst) := by
  by_cases hsmall : ∀ w ∈ s.buffered, encodedLen w.1 ≤ bufferBytes
  · left
    rw [List.map_map]
    apply le_trans _ h.cost_buffered
    apply List.sum_le_sum
    intro w hw
    have := hsmall w hw
    rw [cost_eq hfit hpos]
    dsimp only [Function.comp]
    omega
  · push Not at hsmall
    obtain ⟨w, hw, hlarge⟩ := hsmall
    right
    refine ⟨w.1, ?_, hlarge⟩
    rw [h.alone (cost_pos hfit hpos) hw (by rw [cost_eq hfit hpos]; omega)]
    rfl

variable (encodedLen bufferBytes) in
theorem nexts_reads (extractTransparent : Bool) (stream : List (Except Status CompactBlock))
    (steps : List Relay.Event) :
    nexts extractTransparent (reads encodedLen bufferBytes stream steps) =
      (List.range (reads encodedLen bufferBytes stream steps).answers.length).map
        (direct (stream.map (Except.map (harvest extractTransparent)))) := by
  have h : Relay.Inv (cost encodedLen bufferBytes) bufferBytes stream
    (reads encodedLen bufferBytes stream steps) := inv_run steps
  unfold nexts
  conv_lhs => rw [h.answered]
  rw [List.map_map]
  exact List.map_congr_left fun n _ => (direct_map _ _ n).symm

/-- At every interleaving of the reader and the engine, the calls of `next` are answered what the
stream itself would have answered, no more is held than the buffer allows, and the permits held and
those that are free make up the buffer. -/
theorem reads_ahead (hfit : bufferBytes < 2 ^ 32) (hpos : 0 < bufferBytes)
    (extractTransparent : Bool) (stream : List (Except Status CompactBlock))
    (steps : List Relay.Event) :
    let s := reads encodedLen bufferBytes stream steps
    nexts extractTransparent s = (List.range s.answers.length).map
        (direct (stream.map (Except.map (harvest extractTransparent)))) ∧
      WithinBuffer encodedLen bufferBytes (s.buffered.map Prod.fst) ∧
      s.permits + (s.buffered.map Prod.snd).sum = bufferBytes := by
  intro s
  have h : Relay.Inv (cost encodedLen bufferBytes) bufferBytes stream s := inv_run steps
  exact ⟨nexts_reads encodedLen bufferBytes extractTransparent stream steps,
    withinBuffer_of_inv hfit hpos h, h.permits⟩

/-- A block larger than the buffer, then a failure: both arrive, in their order. -/
theorem reads_ahead_of_large :
    nexts true (reads (fun _ => 40 * 1024 * 1024) blockBufferBytes [.ok { height := 7 }, .error ()]
        [.poll, .acquire, .poll, .recv, .answer, .recv]) =
      [.ok (some (harvest true { height := 7 })), .error ()] :=
  (reads_ahead (by decide) (by decide) true [.ok { height := 7 }, .error ()]
    [.poll, .acquire, .poll, .recv, .answer, .recv]).1.trans rfl

/-! ## A download over the buffer -/

section Download

open LoadShed (StreamItem StreamError StreamRun downloadRangeOnce)

variable {A : Type} [DecidableEq A] (recipientAddress : List UInt8 → Option A)
  (encode : LoadShed.CompactBlock → List UInt8) (transparent : Option (Finset A))

/-- The loop of `download_range_once` over what `next` returned, none while it waits for more.
Inside, none if a block was pushed out of order. -/
def downloadFrom (p : LoadShed.DownloadProgress A) :
    List (Except StreamError (Option StreamItem)) →
      Option (Option (LoadShed.DownloadProgress A × Option StreamError))
  | [] => none
  | .ok none :: _ => some (some (p, none))
  | .error e :: _ => some (some (p, some e))
  | .ok (some x) :: rest =>
    match p.fold recipientAddress encode transparent x with
    | none => some none
    | some p => downloadFrom p rest

/-- What the server sends: the whole range, or its first blocks and an error. -/
def sent (served : ℕ → CompactBlock) (next rangeEnd : ℕ) :
    StreamRun → List (Except StreamError CompactBlock)
  | .complete => ((List.range' next (rangeEnd + 1 - next)).map served).map .ok
  | .broken k e =>
    (((List.range' next (rangeEnd + 1 - next)).map served).take k).map .ok ++ [.error e]

variable {recipientAddress encode transparent}

theorem downloadFrom_direct (items : List StreamItem) (last : Option StreamError)
    (p : LoadShed.DownloadProgress A) (m : ℕ) :
    downloadFrom recipientAddress encode transparent p
        ((List.range m).map (direct (items.map .ok ++ last.toList.map .error))) =
      if m ≤ items.length ∧ ((items.take m).foldlM
          (LoadShed.DownloadProgress.fold recipientAddress encode transparent) p).isSome then none
      else some
        ((items.foldlM (LoadShed.DownloadProgress.fold recipientAddress encode transparent) p).map
          (·, last)) := by
  induction items generalizing p m with
  | nil =>
    cases m with
    | zero => simp [downloadFrom]
    | succ m =>
      rw [List.range_succ_eq_map, List.map_cons]
      cases last <;> simp [downloadFrom, direct]
  | cons x items ih =>
    cases m with
    | zero => simp [downloadFrom]
    | succ m =>
      rw [List.range_succ_eq_map, List.map_cons, List.map_map, List.map_cons, List.cons_append]
      cases hfold : p.fold recipientAddress encode transparent x with
      | none => simp [downloadFrom, hfold]
      | some p' =>
        have hih := ih p' m
        simp only [direct_ok_zero, downloadFrom, hfold, List.take_succ_cons, List.foldlM_cons,
          Option.bind_eq_bind, Option.bind_some, List.length_cons, Nat.add_le_add_iff_right]
        exact hih

theorem downloadFrom_cases (items : List StreamItem) (last : Option StreamError)
    (p : LoadShed.DownloadProgress A) (m : ℕ) :
    let answered := downloadFrom recipientAddress encode transparent p
      ((List.range m).map (direct (items.map .ok ++ last.toList.map .error)))
    answered = none ∨ answered = some
      ((items.foldlM (LoadShed.DownloadProgress.fold recipientAddress encode transparent) p).map
        (·, last)) := by
  intro answered
  dsimp only [answered]
  rw [downloadFrom_direct]
  split
  · exact .inl rfl
  · exact .inr rfl

theorem downloadFrom_of_told {items : List StreamItem} {last : Option StreamError} {k m : ℕ}
    (p : LoadShed.DownloadProgress A) (hk : k < m)
    (hend : direct (items.map .ok ++ last.toList.map .error) k = .ok none) :
    downloadFrom recipientAddress encode transparent p
        ((List.range m).map (direct (items.map .ok ++ last.toList.map .error))) =
      some ((items.foldlM
        (LoadShed.DownloadProgress.fold recipientAddress encode transparent) p).map
          (·, last)) := by
  have hitems : items.length ≤ k := by
    by_contra hlt
    rw [direct_of_lt items _ (not_le.mp hlt)] at hend
    cases hend
  rw [downloadFrom_direct, if_neg]
  rintro ⟨hle, -⟩
  exact absurd (hitems.trans_lt hk) (not_lt.mpr hle)

variable (recipientAddress encode transparent) in
theorem sent_eq (served : ℕ → CompactBlock) (next rangeEnd : ℕ) (r : StreamRun) :
    ∃ (blocks : List CompactBlock) (last : Option StreamError),
      sent served next rangeEnd r = blocks.map .ok ++ last.toList.map .error ∧
      ∀ (extract : Bool) (p : LoadShed.DownloadProgress A),
        downloadRangeOnce recipientAddress encode transparent (harvest extract ∘ served) next
          rangeEnd p r =
        ((blocks.map (harvest extract)).foldlM
          (LoadShed.DownloadProgress.fold recipientAddress encode transparent) p).map
            (·, last) := by
  cases r with
  | complete =>
    refine ⟨(List.range' next (rangeEnd + 1 - next)).map served, none, ?_, fun extract p => ?_⟩
    · exact (List.append_nil _).symm
    · rw [List.map_map]
      rfl
  | broken k e =>
    refine ⟨((List.range' next (rangeEnd + 1 - next)).map served).take k, some e, rfl,
      fun extract p => ?_⟩
    rw [List.map_take, List.map_map]
    rfl

theorem map_sent (extract : Bool) (blocks : List CompactBlock) (last : Option StreamError) :
    (blocks.map .ok ++ last.toList.map .error : List (Except StreamError CompactBlock)).map
        (Except.map (harvest extract)) =
      (blocks.map (harvest extract)).map .ok ++ last.toList.map .error := by
  cases last <;> simp [Except.map, Function.comp_def]

variable (recipientAddress encode transparent encodedLen) in
theorem download_eq (bufferBytes : ℕ) (extract : Bool) (served : ℕ → CompactBlock)
    (next rangeEnd : ℕ) (r : StreamRun) : ∃ (items : List StreamItem) (last : Option StreamError),
      (∀ n, direct (items.map .ok ++ last.toList.map .error) n = Except.map
        (Option.map (harvest extract)) (direct (sent served next rangeEnd r) n)) ∧
      (∀ (p : LoadShed.DownloadProgress A) (steps : List Relay.Event),
        downloadFrom recipientAddress encode transparent p
            (nexts extract (reads encodedLen bufferBytes (sent served next rangeEnd r) steps)) =
          downloadFrom recipientAddress encode transparent p
            ((List.range (reads encodedLen bufferBytes (sent served next rangeEnd r)
              steps).answers.length).map (direct (items.map .ok ++ last.toList.map .error)))) ∧
      ∀ p : LoadShed.DownloadProgress A,
        downloadRangeOnce recipientAddress encode transparent (harvest extract ∘ served) next
          rangeEnd p r =
        (items.foldlM (LoadShed.DownloadProgress.fold recipientAddress encode transparent) p).map
          (·, last) := by
  obtain ⟨blocks, last, hsent, hunbuffered⟩ :=
    sent_eq recipientAddress encode transparent served next rangeEnd r
  refine ⟨blocks.map (harvest extract), last, fun n => ?_, fun p steps => ?_, hunbuffered extract⟩
  · rw [← map_sent, ← hsent, direct_map]
  · rw [nexts_reads encodedLen bufferBytes extract (sent served next rangeEnd r) steps, hsent,
      map_sent]

theorem download_cases (extract : Bool) (served : ℕ → CompactBlock) (next rangeEnd : ℕ)
    (p : LoadShed.DownloadProgress A) (r : StreamRun) (steps : List Relay.Event) :
    let download := downloadFrom recipientAddress encode transparent p
      (nexts extract (reads encodedLen bufferBytes (sent served next rangeEnd r) steps))
    download = none ∨ download = some (downloadRangeOnce recipientAddress encode transparent
      (harvest extract ∘ served) next rangeEnd p r) := by
  intro download
  obtain ⟨items, last, -, hdownload, hunbuffered⟩ := download_eq encodedLen recipientAddress encode
    transparent bufferBytes extract served next rangeEnd r
  dsimp only [download]
  rw [hdownload, hunbuffered]
  exact downloadFrom_cases _ last p _

/-- A download over the buffered stream ends as one over the stream the server sends, at every
interleaving with the reader. It does end, where reader and engine both get their turns. -/
theorem download_over_buffer (hfit : bufferBytes < 2 ^ 32) (hpos : 0 < bufferBytes)
    (extract : Bool) (served : ℕ → CompactBlock) (next rangeEnd : ℕ)
    (p : LoadShed.DownloadProgress A) (r : StreamRun) :
    let download (steps : List Relay.Event) :=
      downloadFrom recipientAddress encode transparent p
        (nexts extract (reads encodedLen bufferBytes (sent served next rangeEnd r) steps))
    let unbuffered := downloadRangeOnce recipientAddress encode transparent
      (harvest extract ∘ served) next rangeEnd p r
    (∀ steps, download steps = none ∨ download steps = some unbuffered) ∧
    ∀ rounds : List (List Relay.Event), (∀ round ∈ rounds, ∀ e, e ∈ round ↔ e ≠ .drop) →
      4 * (sent served next rangeEnd r).length + 1 < rounds.length →
      download rounds.flatten = some unbuffered := by
  intro download unbuffered
  refine ⟨fun steps => download_cases extract served next rangeEnd p r steps,
    fun rounds hround hlength => ?_⟩
  obtain ⟨items, last, hdirect, hdownload, hunbuffered⟩ := download_eq encodedLen
    recipientAddress encode transparent bufferBytes extract served next rangeEnd r
  obtain ⟨m, hm, hend⟩ := told_end_of_rounds (cost_le encodedLen hfit hpos) hround hlength
  dsimp only [download, unbuffered]
  rw [hdownload, hunbuffered]
  apply downloadFrom_of_told p hm
  rw [hdirect, hend]
  rfl

def engineFirst : List Relay.Event := [.recv, .answer, .acquire, .poll]

theorem download_over_buffer_of_large :
    downloadFrom (A := ℕ) (fun _ => none) (fun _ => []) none (.new none)
        (nexts true (reads (fun _ => 40 * 1024 * 1024) blockBufferBytes
          (sent (fun height => { height }) 7 7 (.broken 1 .loadShed))
          (List.replicate 10 engineFirst).flatten)) =
      some (downloadRangeOnce (fun _ => none) (fun _ => []) none
        (harvest true ∘ fun height => { height }) 7 7 (.new none) (.broken 1 .loadShed)) := by
  apply (download_over_buffer (by decide) (by decide) true _ 7 7 _ _).2
  · intro round hround e
    rw [List.eq_of_mem_replicate hround]
    cases e <;> decide
  · decide

end Download

end Zecd.BlockReader
