import Mathlib.Data.Finset.Basic
import Zecd.Foundation.Resume
import Zecd.Sync.Chain
import Zecd.Sync.Engine

/-! # Downloads resumed after load sheds

A client-side load shed kills a block stream, not the blocks it already delivered. The download
resumes after the last block it holds, carrying its counters, its matches and its watch set. A
download that survives its sheds leaves exactly what one unbroken stream leaves, and one that
cannot advance gives up after a bounded number of attempts.
-/

namespace Zecd.LoadShed

/-! ## The block cache -/

/-- The wire encodings of a batch, and the height of each. -/
structure MemBlockCache where
  blocks : List (List UInt8)
  heights : List ℕ
  deriving DecidableEq, Repr

namespace MemBlockCache

def new : MemBlockCache := ⟨[], []⟩

/-- A block that is not above the last one is refused: the assertion panics. -/
def push (c : MemBlockCache) (height : ℕ) (encoded : List UInt8) : Option MemBlockCache :=
  if c.heights.getLast?.all (· < height) then
    some ⟨c.blocks ++ [encoded], c.heights ++ [height]⟩
  else none

def len (c : MemBlockCache) : ℕ := c.blocks.length

def lastHeight (c : MemBlockCache) : Option ℕ := c.heights.getLast?

def byteLen (c : MemBlockCache) : ℕ := (c.blocks.map List.length).sum

end MemBlockCache

/-! ## What a stream carries -/

/-- A transaction's compact outputs and actions, each in its wire encoding. -/
structure CompactTx where
  outputs : List (List UInt8)
  actions : List (List UInt8)
  deriving DecidableEq, Repr

structure CompactBlock where
  height : ℕ
  vtx : List CompactTx
  deriving DecidableEq, Repr

/-- A transparent output of a block, with its whole coinbase transaction where the backend has
it. -/
structure TransparentUtxo where
  txid : ℕ
  index : ℕ
  valueZat : ℕ
  script : List UInt8
  height : Option ℕ
  coinbaseTx : Option (List UInt8)
  coinbase : Bool
  deriving DecidableEq, Repr

/-- A transparent input of a block: the outpoint it consumes, and its transaction. -/
structure TransparentSpend where
  prevoutTxid : ℕ
  prevoutIndex : ℕ
  spendingTxid : ℕ
  height : ℕ
  deriving DecidableEq, Repr

structure StreamItem where
  block : CompactBlock
  tOuts : List TransparentUtxo
  tIns : List TransparentSpend

/-! ## What a download accumulates -/

structure RangeShape where
  blocks : ℕ
  bytes : ℕ
  txs : ℕ
  saplingOutputs : ℕ
  orchardActions : ℕ
  deriving DecidableEq, Repr

structure WalletTransparentOutput (A : Type) where
  outpoint : OutPoint
  value : ℕ
  script : List UInt8
  minedHeight : Option ℕ
  recipientAddress : A
  deriving DecidableEq, Repr

structure MatchedTransparentReceive (A : Type) where
  output : WalletTransparentOutput A
  coinbaseTx : Option (List UInt8)
  coinbase : Bool
  deriving DecidableEq, Repr

structure MatchedTransparentSpend where
  spendingTxid : ℕ
  height : ℕ
  deriving DecidableEq, Repr

structure DownloadProgress (A : Type) where
  blocks : MemBlockCache
  shape : RangeShape
  received : List (MatchedTransparentReceive A)
  spent : List MatchedTransparentSpend
  watch : Option (Finset OutPoint)
  deriving DecidableEq

structure DownloadedRange (A : Type) where
  blocks : MemBlockCache
  shape : RangeShape
  received : List (MatchedTransparentReceive A)
  spent : List MatchedTransparentSpend
  deriving DecidableEq, Repr

variable {A : Type} [DecidableEq A] (recipientAddress : List UInt8 → Option A)
  (encode : CompactBlock → List UInt8) (transparent : Option (Finset A))

/-- The output of `u`, if its value is valid and its script pays one of `addresses`. -/
def ownedTransparentOutput (addresses : Finset A) (u : TransparentUtxo) :
    Option (WalletTransparentOutput A) :=
  if u.valueZat ≤ maxMoney then
    match recipientAddress u.script with
    | none => none
    | some address =>
      if address ∈ addresses then
        some ⟨(u.txid, u.index), u.valueZat, u.script, u.height, address⟩
      else none
  else none

namespace DownloadProgress

def new (unspent : Option (Finset OutPoint)) : DownloadProgress A :=
  ⟨.new, ⟨0, 0, 0, 0, 0⟩, [], [], unspent⟩

/-- The block's transactions, counted. -/
def count (p : DownloadProgress A) (block : CompactBlock) : DownloadProgress A :=
  { p with shape := { p.shape with
    saplingOutputs := p.shape.saplingOutputs + (block.vtx.map (·.outputs.length)).sum
    orchardActions := p.shape.orchardActions + (block.vtx.map (·.actions.length)).sum
    txs := p.shape.txs + block.vtx.length } }

def matchOutput (addresses : Finset A) (p : DownloadProgress A) (u : TransparentUtxo) :
    DownloadProgress A :=
  match ownedTransparentOutput recipientAddress addresses u with
  | none => p
  | some output =>
    { p with
      watch := p.watch.map (insert output.outpoint)
      received := p.received ++ [⟨output, u.coinbaseTx, u.coinbase⟩] }

/-- A watched outpoint is retired by the input that consumes it, whose transaction is listed
once. -/
def matchInput (p : DownloadProgress A) (i : TransparentSpend) : DownloadProgress A :=
  match p.watch with
  | none => p
  | some w =>
    if (i.prevoutTxid, i.prevoutIndex) ∈ w then
      { p with
        watch := some (w.erase (i.prevoutTxid, i.prevoutIndex))
        spent := if ⟨i.spendingTxid, i.height⟩ ∈ p.spent then p.spent
          else p.spent ++ [⟨i.spendingTxid, i.height⟩] }
    else p

/-- What a block adds to everything but the cache: outputs are matched before inputs. -/
def scan (p : DownloadProgress A) (x : StreamItem) : DownloadProgress A :=
  let p := p.count x.block
  let p := match transparent with
    | some addresses => x.tOuts.foldl (matchOutput recipientAddress addresses) p
    | none => p
  x.tIns.foldl matchInput p

def fold (p : DownloadProgress A) (x : StreamItem) : Option (DownloadProgress A) :=
  let p := p.scan recipientAddress transparent x
  (p.blocks.push x.block.height (encode x.block)).map fun blocks => { p with blocks }

end DownloadProgress

/-! ## The download -/

inductive StreamError where
  /-- The client library's own load shed, which the download resumes after. -/
  | loadShed
  | other (message : String)
  deriving DecidableEq, Repr

/-- How one stream ends: after its last block, or by an error after at most `delivered`
blocks. -/
inductive StreamRun where
  | complete
  | broken (delivered : ℕ) (error : StreamError)
  deriving DecidableEq, Repr

def StreamRun.delivered : StreamRun → Option ℕ
  | complete => none
  | broken k _ => some k

inductive DownloadError where
  /-- A block was pushed out of order. -/
  | panicked
  /-- No progress across repeated load-shed reconnects. -/
  | stalled
  | stream (error : StreamError)
  deriving DecidableEq, Repr

/-- The blocks `next` to `rangeEnd`, as the chain serves them. -/
def compactBlockRange (served : ℕ → StreamItem) (next rangeEnd : ℕ) : List StreamItem :=
  (List.range' next (rangeEnd + 1 - next)).map served

/-- One streaming attempt: what it leaves, and the error that broke it. -/
def downloadRangeOnce (served : ℕ → StreamItem) (next rangeEnd : ℕ) (p : DownloadProgress A) :
    StreamRun → Option (DownloadProgress A × Option StreamError)
  | .complete =>
    ((compactBlockRange served next rangeEnd).foldlM
      (DownloadProgress.fold recipientAddress encode transparent) p).map (·, none)
  | .broken k e =>
    (((compactBlockRange served next rangeEnd).take k).foldlM
      (DownloadProgress.fold recipientAddress encode transparent) p).map (·, some e)

/-- Where to resume, none once too many attempts in a row made no progress, and the count of
those. -/
def planLoadShedResume (madeProgress : Bool) (lastReceived : Option ℕ)
    (resumeFrom stalledRestarts : ℕ) : Option ℕ × ℕ :=
  let resumeAt := (lastReceived.map (saturatingAdd · 1)).getD resumeFrom
  if madeProgress then (some resumeAt, 0)
  else if maxStalledStreamRestarts < stalledRestarts + 1 then (none, stalledRestarts + 1)
  else (some resumeAt, stalledRestarts + 1)

/-- The loop of `download_blocks` over the streams it opens, none out of fuel. -/
def downloadLoop (served : ℕ → StreamItem) (rangeEnd : ℕ) :
    ℕ → (ℕ → StreamRun) → ℕ → ℕ → DownloadProgress A →
      Option (Except DownloadError (DownloadProgress A))
  | 0, _, _, _, _ => none
  | fuel + 1, streams, next, stalledRestarts, p =>
    if next ≤ rangeEnd then
      match downloadRangeOnce recipientAddress encode transparent served next rangeEnd p
        (streams 0) with
      | none => some (.error .panicked)
      | some (p', none) => some (.ok p')
      | some (p', some .loadShed) =>
        match planLoadShedResume (decide (p.blocks.len < p'.blocks.len)) p'.blocks.lastHeight next
          stalledRestarts with
        | (none, _) => some (.error .stalled)
        | (some resumeAt, stalledRestarts) =>
          downloadLoop served rangeEnd fuel (fun j => streams (j + 1)) resumeAt stalledRestarts p'
      | some (_, some e) => some (.error (.stream e))
    else some (.ok p)

def DownloadProgress.finish (p : DownloadProgress A) : DownloadedRange A :=
  ⟨p.blocks, { p.shape with blocks := p.blocks.len % 2 ^ 32, bytes := p.blocks.byteLen },
    p.received, p.spent⟩

structure BlockRange where
  start : ℕ
  stop : ℕ
  start_le : start ≤ stop
  stop_le : stop ≤ u32Max

namespace BlockRange

/-- The last height asked for, as the source subtracts it: saturating. -/
def rangeEnd (r : BlockRange) : ℕ := r.stop - 1

def heights (r : BlockRange) : List ℕ := List.range' r.start (r.rangeEnd + 1 - r.start)

end BlockRange

def downloadBlocks (served : ℕ → StreamItem) (streams : ℕ → StreamRun) (r : BlockRange)
    (unspent : Option (Finset OutPoint)) (fuel : ℕ) :
    Option (Except DownloadError (DownloadedRange A)) :=
  (downloadLoop recipientAddress encode transparent served r.rangeEnd fuel streams r.start 0
    (.new unspent)).map (Except.map DownloadProgress.finish)

/-! ## One unbroken stream -/

variable {recipientAddress encode transparent}

namespace DownloadProgress

@[simp] theorem matchOutput_blocks (addresses : Finset A) (p : DownloadProgress A)
    (u : TransparentUtxo) : (matchOutput recipientAddress addresses p u).blocks = p.blocks := by
  unfold matchOutput
  split <;> rfl

omit [DecidableEq A] in
@[simp] theorem matchInput_blocks (p : DownloadProgress A) (i : TransparentSpend) :
    (matchInput p i).blocks = p.blocks := by
  unfold matchInput
  split
  · rfl
  · split <;> rfl

omit [DecidableEq A] in
theorem foldl_blocks {β : Type} {f : DownloadProgress A → β → DownloadProgress A}
    (hf : ∀ p x, (f p x).blocks = p.blocks) (xs : List β) (p : DownloadProgress A) :
    (xs.foldl f p).blocks = p.blocks := by
  induction xs generalizing p with
  | nil => rfl
  | cons x xs ih => exact (ih _).trans (hf p x)

variable (recipientAddress transparent) in
@[simp] theorem scan_blocks (p : DownloadProgress A) (x : StreamItem) :
    (p.scan recipientAddress transparent x).blocks = p.blocks := by
  unfold scan
  rw [foldl_blocks matchInput_blocks]
  cases transparent with
  | none => rfl
  | some addresses => exact foldl_blocks (matchOutput_blocks addresses) _ _

end DownloadProgress

variable {served : ℕ → StreamItem} {start rangeEnd k n : ℕ} {unspent : Option (Finset OutPoint)}
  {p p' : DownloadProgress A}

variable (recipientAddress encode transparent served unspent start k) in
/-- `p` is what the first `k` blocks from `start` leave, each held once and in order. -/
structure Held (p : DownloadProgress A) : Prop where
  fold : ((List.range' start k).map served).foldlM
    (DownloadProgress.fold recipientAddress encode transparent) (.new unspent) = some p
  heights : p.blocks.heights = List.range' start k
  blocks : p.blocks.blocks = (List.range' start k).map fun h => encode (served h).block

theorem Held.unique (h : Held recipientAddress encode transparent served start k unspent p)
    (h' : Held recipientAddress encode transparent served start k unspent p') : p = p' :=
  Option.some.inj (h.fold.symm.trans h'.fold)

theorem Held.len (h : Held recipientAddress encode transparent served start k unspent p) :
    p.blocks.len = k := by
  simp [MemBlockCache.len, h.blocks]

theorem Held.next (hserved : ∀ h, (served h).block.height = h)
    (h : Held recipientAddress encode transparent served start k unspent p) :
    ∃ p', p.fold recipientAddress encode transparent (served (start + k)) = some p' ∧
      Held recipientAddress encode transparent served start (k + 1) unspent p' := by
  have hlast : p.blocks.heights.getLast?.all (· < start + k) = true := by
    rw [h.heights]
    cases k with
    | zero => rfl
    | succ k => simp [List.getLast?_range']
  have hfold : p.fold recipientAddress encode transparent (served (start + k)) =
      some { p.scan recipientAddress transparent (served (start + k)) with
        blocks := ⟨p.blocks.blocks ++ [encode (served (start + k)).block],
          p.blocks.heights ++ [start + k]⟩ } := by
    simp only [DownloadProgress.fold, DownloadProgress.scan_blocks, MemBlockCache.push, hserved]
    rw [if_pos hlast]
    rfl
  refine ⟨_, hfold, ?_, ?_, ?_⟩
  · rw [List.range'_1_concat, List.map_append, List.foldlM_append, h.fold]
    simpa using hfold
  · simp [h.heights, List.range'_1_concat]
  · simp [h.blocks, List.range'_1_concat]

variable (recipientAddress encode transparent unspent) in
theorem exists_held (hserved : ∀ h, (served h).block.height = h) (start k : ℕ) :
    ∃ p, Held recipientAddress encode transparent served start k unspent p := by
  induction k with
  | zero => exact ⟨.new unspent, rfl, rfl, rfl⟩
  | succ k ih =>
    obtain ⟨p, hp⟩ := ih
    obtain ⟨p', _, hp'⟩ := hp.next hserved
    exact ⟨p', hp'⟩

theorem Held.extend (hserved : ∀ h, (served h).block.height = h)
    (h : Held recipientAddress encode transparent served start k unspent p) (n : ℕ) :
    ∃ p', ((List.range' (start + k) n).map served).foldlM
        (DownloadProgress.fold recipientAddress encode transparent) p = some p' ∧
      Held recipientAddress encode transparent served start (k + n) unspent p' := by
  obtain ⟨p', hp'⟩ := exists_held recipientAddress encode transparent unspent hserved start (k + n)
  refine ⟨p', ?_, hp'⟩
  have hfold := hp'.fold
  rw [← List.range'_append_1, List.map_append, List.foldlM_append, h.fold] at hfold
  simpa using hfold

/-! ## One attempt -/

variable (rangeEnd) in
theorem Held.broken (hserved : ∀ h, (served h).block.height = h)
    (h : Held recipientAddress encode transparent served start k unspent p) (j : ℕ)
    (e : StreamError) :
    ∃ p', downloadRangeOnce recipientAddress encode transparent served (start + k) rangeEnd p
        (.broken j e) = some (p', some e) ∧
      Held recipientAddress encode transparent served start
        (k + min j (rangeEnd + 1 - (start + k))) unspent p' := by
  obtain ⟨p', hfold, hp'⟩ := h.extend hserved (min j (rangeEnd + 1 - (start + k)))
  have htake : (compactBlockRange served (start + k) rangeEnd).take j =
      (List.range' (start + k) (min j (rangeEnd + 1 - (start + k)))).map served := by
    rw [compactBlockRange, ← List.map_take]
    congr 1
    rcases le_total j (rangeEnd + 1 - (start + k)) with hj | hj
    · rw [List.take_range'_of_length_ge hj, min_eq_left hj]
    · rw [List.take_range'_of_length_le hj, min_eq_right hj]
  refine ⟨p', ?_, hp'⟩
  simp only [downloadRangeOnce, htake, hfold, Option.map_some]

variable (rangeEnd) in
theorem Held.complete (hserved : ∀ h, (served h).block.height = h)
    (h : Held recipientAddress encode transparent served start k unspent p) :
    ∃ p', downloadRangeOnce recipientAddress encode transparent served (start + k) rangeEnd p
        .complete = some (p', none) ∧
      Held recipientAddress encode transparent served start (k + (rangeEnd + 1 - (start + k)))
        unspent p' := by
  obtain ⟨p', hfold, hp'⟩ := h.extend hserved (rangeEnd + 1 - (start + k))
  refine ⟨p', ?_, hp'⟩
  simp only [downloadRangeOnce, compactBlockRange, hfold, Option.map_some]

theorem Held.resumeAt (h : Held recipientAddress encode transparent served start n unspent p)
    (hk : k ≤ n) (hmax : start + n ≤ u32Max) :
    (p.blocks.lastHeight.map (saturatingAdd · 1)).getD (start + k) =
      if n = 0 then start + k else start + n := by
  rw [MemBlockCache.lastHeight, h.heights, List.getLast?_range']
  split
  · rfl
  · simp only [Option.map_some, Option.getD_some, saturatingAdd]
    omega

/-! ## The loop -/

/-- The download is a worker with `maxStalledStreamRestarts` restarts to spare: it leaves what
one unbroken stream leaves when that worker finishes, and fails when it gives up. -/
theorem downloadLoop_eq (hserved : ∀ h, (served h).block.height = h)
    {pEnd : DownloadProgress A} (hEnd : Held recipientAddress encode transparent served start
      (rangeEnd + 1 - start) unspent pEnd)
    (hmax : rangeEnd + 1 ≤ u32Max) (hk : start + k ≤ max start (rangeEnd + 1))
    (h : Held recipientAddress encode transparent served start k unspent p)
    {streams : ℕ → StreamRun} (hsheds : ∀ i j e, streams i = .broken j e → e = .loadShed)
    (fuel stalledRestarts : ℕ) :
    downloadLoop recipientAddress encode transparent served rangeEnd fuel streams (start + k)
        stalledRestarts p =
      (resume maxStalledStreamRestarts fuel (fun i => (streams i).delivered)
        (rangeEnd + 1 - (start + k)) stalledRestarts).map
          fun finished => if finished then .ok pEnd else .error .stalled := by
  induction fuel generalizing streams k p stalledRestarts with
  | zero => rfl
  | succ fuel ih =>
    by_cases hnext : start + k ≤ rangeEnd
    · have hleft : rangeEnd + 1 - (start + k) ≠ 0 := by omega
      simp only [downloadLoop, resume, if_pos hnext, if_neg hleft]
      have hlater : ∀ i j e, streams (i + 1) = .broken j e → e = .loadShed :=
        fun i => hsheds (i + 1)
      cases hs : streams 0 with
      | complete =>
        obtain ⟨p', honce, hp'⟩ := h.complete rangeEnd hserved
        rw [show k + (rangeEnd + 1 - (start + k)) = rangeEnd + 1 - start by omega] at hp'
        obtain rfl := hp'.unique hEnd
        simp only [honce, StreamRun.delivered, Option.map_some, if_true]
      | broken j e =>
        obtain rfl := hsheds 0 j e hs
        obtain ⟨p', honce, hp'⟩ := h.broken rangeEnd hserved j .loadShed
        have hresume := hp'.resumeAt (Nat.le_add_right k _) (by omega)
        simp only [honce, StreamRun.delivered, planLoadShedResume, hresume, h.len, hp'.len]
        cases j with
        | zero =>
          simp only [Nat.zero_min, Nat.add_zero, lt_irrefl, decide_false, Bool.false_eq_true,
            if_false] at hp' ⊢
          by_cases hstall : maxStalledStreamRestarts < stalledRestarts + 1
          · simp only [if_pos hstall, Option.map_some, Bool.false_eq_true, if_false]
          · simp only [if_neg hstall, ite_self]
            exact ih hk hp' hlater _
        | succ j =>
          have hmade : k < k + min (j + 1) (rangeEnd + 1 - (start + k)) := by omega
          have hrest : rangeEnd + 1 - (start + k) - (j + 1) =
              rangeEnd + 1 - (start + (k + min (j + 1) (rangeEnd + 1 - (start + k)))) := by omega
          simp only [hmade, decide_true, if_true, hrest,
            if_neg (show k + min (j + 1) (rangeEnd + 1 - (start + k)) ≠ 0 by omega)]
          exact ih (by omega) hp' hlater _
    · have hleft : rangeEnd + 1 - (start + k) = 0 := by omega
      simp only [downloadLoop, resume, if_neg hnext, if_pos hleft, Option.map_some, if_true]
      rw [show k = rangeEnd + 1 - start by omega] at h
      rw [h.unique hEnd]

theorem resume_unbroken (limit fuel n : ℕ) :
    resume limit (fuel + 1) (fun _ => none) n 0 = some true := by
  simp [resume]

variable (recipientAddress encode transparent) in
/-- One range, served by one chain: its unbroken stream leaves each block once, in ascending
order, and a download broken by load sheds, after any prefixes, leaves the same unless more than
`maxStalledStreamRestarts` attempts in a row deliver no block. Then it fails, and in every case
it ends. -/
theorem downloadBlocks_resumed (served : ℕ → StreamItem)
    (hserved : ∀ h, (served h).block.height = h) (r : BlockRange)
    (unspent : Option (Finset OutPoint)) :
    ∃ d : DownloadedRange A,
      (∀ fuel, 0 < fuel → downloadBlocks recipientAddress encode transparent served
        (fun _ => .complete) r unspent fuel = some (.ok d)) ∧
      d.blocks.heights = r.heights ∧
      d.blocks.blocks = r.heights.map (fun h => encode (served h).block) ∧
      ∀ streams : ℕ → StreamRun, (∀ i j e, streams i = .broken j e → e = .loadShed) →
        ∀ fuel, (maxStalledStreamRestarts + 1) * (r.heights.length + 1) ≤ fuel →
          (GivesUp maxStalledStreamRestarts (fun i => (streams i).delivered) r.heights.length →
            downloadBlocks recipientAddress encode transparent served streams r unspent fuel =
              some (.error .stalled)) ∧
          (¬ GivesUp maxStalledStreamRestarts (fun i => (streams i).delivered) r.heights.length →
            downloadBlocks recipientAddress encode transparent served streams r unspent fuel =
              some (.ok d)) := by
  obtain ⟨pEnd, hEnd⟩ := exists_held recipientAddress encode transparent unspent hserved r.start
    (r.rangeEnd + 1 - r.start)
  have hstart : Held recipientAddress encode transparent served r.start 0 unspent
      (.new unspent) := ⟨rfl, rfl, rfl⟩
  have hmax : r.rangeEnd + 1 ≤ u32Max := by
    have hstop := r.stop_le
    simp only [BlockRange.rangeEnd, u32Max] at hstop ⊢
    omega
  have hloop (streams : ℕ → StreamRun) (hsheds : ∀ i j e, streams i = .broken j e → e = .loadShed)
      (fuel : ℕ) :
      downloadBlocks recipientAddress encode transparent served streams r unspent fuel =
        (resume maxStalledStreamRestarts fuel (fun i => (streams i).delivered)
          r.heights.length 0).map
            fun finished => if finished then .ok pEnd.finish else .error .stalled := by
    have h := downloadLoop_eq hserved hEnd hmax (by omega) hstart hsheds fuel 0
    rw [downloadBlocks, ← Nat.add_zero r.start, h, Option.map_map]
    simp only [BlockRange.heights, List.length_range', Nat.add_zero]
    congr 1
    funext finished
    cases finished <;> rfl
  refine ⟨pEnd.finish, fun fuel hfuel => ?_, hEnd.heights, hEnd.blocks,
    fun streams hsheds fuel hfuel => ?_⟩
  · obtain ⟨fuel, rfl⟩ := Nat.exists_eq_succ_of_ne_zero hfuel.ne'
    rw [hloop _ (by simp)]
    simp only [StreamRun.delivered, Nat.succ_eq_add_one, resume_unbroken, Option.map_some, if_true]
  · have hspec := resume_spec (fun i => (streams i).delivered)
      (Nat.zero_le maxStalledStreamRestarts) (by rw [← Nat.mul_succ]; exact hfuel)
    rw [givesUpAfter_zero] at hspec
    rw [hloop streams hsheds fuel]
    constructor
    · intro hgives
      rcases hspec with ⟨hrun, _⟩ | ⟨_, hnot⟩
      · rw [hrun]
        rfl
      · exact absurd hgives hnot
    · intro hnot
      rcases hspec with ⟨_, hgives⟩ | ⟨hrun, _⟩
      · exact absurd hgives hnot
      · rw [hrun]
        rfl

/-- Block 10 pays a watched address, and block 11 spends that output. -/
def receiveThenSpend (h : ℕ) : StreamItem where
  block := ⟨h, [⟨[[1]], [[2], [3]]⟩]⟩
  tOuts := if h = 10 then [⟨4, 0, 5000, [7], some 10, none, false⟩] else []
  tIns := if h = 11 then [⟨4, 0, 6, 11⟩] else []

def tenToTwelve : BlockRange := ⟨10, 13, by decide, by decide⟩

/-- One block, then nothing, then the rest. -/
def brokenTwice : ℕ → StreamRun
  | 0 => .broken 1 .loadShed
  | 1 => .broken 0 .loadShed
  | _ => .complete

theorem brokenTwice_resumed :
    downloadBlocks List.head? (fun b => [UInt8.ofNat b.height]) (some {7}) receiveThenSpend
        brokenTwice tenToTwelve (some ∅) 16 =
      some (.ok ⟨⟨[[10], [11], [12]], [10, 11, 12]⟩, ⟨3, 3, 3, 3, 6⟩,
        [⟨⟨(4, 0), 5000, [7], some 10, 7⟩, none, false⟩], [⟨6, 11⟩]⟩) ∧
    downloadBlocks List.head? (fun b => [UInt8.ofNat b.height]) (some {7}) receiveThenSpend
        (fun _ => .broken 0 .loadShed) tenToTwelve (some ∅) 16 = some (.error .stalled) := by
  obtain ⟨d, hunbroken, _, _, hbroken⟩ := downloadBlocks_resumed List.head?
    (fun b => [UInt8.ofNat b.height]) (some {7}) receiveThenSpend (fun _ => rfl) tenToTwelve
    (some ∅)
  constructor
  · have hsheds : ∀ i j e, brokenTwice i = .broken j e → e = .loadShed := by
      intro i j e h
      match i with
      | 0 => exact (StreamRun.broken.inj h).2.symm
      | 1 => exact (StreamRun.broken.inj h).2.symm
      | _ + 2 => cases h
    refine ((hbroken brokenTwice hsheds 16 (by decide)).2 ?_).trans
      ((hunbroken 1 one_pos).symm.trans rfl)
    rintro ⟨m, _, _, hrow⟩
    have hdone := hrow 2 (by decide)
    cases hdone
  · refine (hbroken _ (fun _ _ _ h => (StreamRun.broken.inj h).2.symm) 16 (by decide)).1 ?_
    exact ⟨0, by simp, by decide, fun _ _ => rfl⟩

end Zecd.LoadShed
