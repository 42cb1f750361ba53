import Zecd.Foundation.Runs
import Zecd.Foundation.Tiling
import Zecd.Sync.Engine

/-! # The next range, fetched ahead

A batch of the block scan is the beginning of the range ranked first. While it is scanned, the
range the next batch is expected to select is downloaded, and that batch takes the download only
if it selects exactly this range.
-/

namespace Zecd.Prefetch

open Runs

/-! ## Ranges -/

abbrev BlockHeight := Fin (2 ^ 32)

@[ext] structure ScanRange (π : Type) where
  start : BlockHeight
  stop : BlockHeight
  start_le : start ≤ stop
  priority : π
  deriving DecidableEq

/-- What the scan uses of the wallet library: which priority is `Verify`, the height some blocks
further on, and a range split in two at a height. -/
structure RangeLibrary (π : Type) where
  verify : π
  add : BlockHeight → Fin (2 ^ 32) → BlockHeight
  splitAt : ScanRange π → BlockHeight → Option (ScanRange π × ScanRange π)

/-- Heights add without wrapping, and a range is split only strictly inside it. -/
structure RangeLibrary.Lawful {π : Type} (lib : RangeLibrary π) : Prop where
  add_val (h : BlockHeight) (n : Fin (2 ^ 32)) : (lib.add h n).val = saturatingAdd h n
  splitAt_inside (r : ScanRange π) (p : BlockHeight) (hp : r.start < p) (hp' : p < r.stop) :
    lib.splitAt r p =
      some (⟨r.start, p, hp.le, r.priority⟩, ⟨p, r.stop, hp'.le, r.priority⟩)
  splitAt_outside (r : ScanRange π) (p : BlockHeight) (hp : ¬ (r.start < p ∧ p < r.stop)) :
    lib.splitAt r p = none

variable {π : Type} [DecidableEq π] (lib : RangeLibrary π) (batchSize : Fin (2 ^ 32))

/-! ## One batch -/

/-- The batch that `sync_one_batch` selects from the range ranked first. -/
def selectBatch (first : ScanRange π) : ScanRange π :=
  if first.priority = lib.verify then first
  else
    match lib.splitAt first (lib.add first.start batchSize) with
    | some (cur, _) => cur
    | none => first

def nextRangeGuess (scanRanges : List (ScanRange π)) (scanning : ScanRange π) :
    Option (ScanRange π) :=
  match scanRanges with
  | [] => none
  | first :: _ =>
    if first.priority = lib.verify then none
    else
      match lib.splitAt first scanning.stop with
      | none => none
      | some (_, rest) =>
        match lib.splitAt rest (lib.add rest.start batchSize) with
        | some (next, _) => some next
        | none => some rest

def scanRange (scanRanges : List (ScanRange π)) : Option (ScanRange π) :=
  scanRanges.head?.map (selectBatch lib batchSize)

/-- What a batch meets: whether its blocks can be downloaded, and whether the scan of them ends
in a rewind, absent if it fails. -/
structure Scan where
  downloaded : Bool
  reorged : Option Bool
  deriving DecidableEq, Repr

/-- The range of the download handed to a batch, and whether it may start another. -/
structure BatchParams (π : Type) where
  prefetched : Option (ScanRange π)
  prefetch : Bool

structure BatchOutcome (π : Type) where
  worked : Bool
  reorged : Bool
  prefetchHit : Bool
  nextPrefetch : Option (ScanRange π)

/-- `sync_one_batch`, none where it fails. -/
def syncOneBatch (params : BatchParams π) (scanRanges : List (ScanRange π)) (scan : Scan) :
    Option (BatchOutcome π) :=
  match scanRange lib batchSize scanRanges with
  | none => some ⟨false, false, false, none⟩
  | some scanRange =>
    let prefetchHit := decide (params.prefetched = some scanRange)
    -- a hit is not downloaded again
    if prefetchHit || scan.downloaded then
      let nextPrefetch :=
        if params.prefetch then nextRangeGuess lib batchSize scanRanges scanRange else none
      scan.reorged.map fun reorged =>
        ⟨true, reorged, prefetchHit, if reorged then none else nextPrefetch⟩
    else none

/-! ## The loop -/

/-- The ranges the wallet suggests, and the range of the download under way. -/
structure SyncState (π : Type) where
  scanRanges : List (ScanRange π)
  prefetch : Option (ScanRange π)

/-- What a pass meets: whether the download under way arrives whole, the scan, and the ranges the
wallet suggests after it. -/
structure PassEvent (π : Type) where
  delivered : Bool
  scan : Scan
  after : List (ScanRange π)

/-- The outcome of a pass. A wallet that receives transparently fetches nothing ahead. -/
def passOutcome (transparentEnabled : Bool) (s : SyncState π) (e : PassEvent π) :
    Option (BatchOutcome π) :=
  syncOneBatch lib batchSize ⟨if e.delivered then s.prefetch else none, !transparentEnabled⟩
    s.scanRanges e.scan

/-- The download under way is taken up before the batch, which leaves none if it fails. -/
def pass (transparentEnabled : Bool) (s : SyncState π) (e : PassEvent π) : SyncState π where
  scanRanges := e.after
  prefetch := (passOutcome lib batchSize transparentEnabled s e).bind BatchOutcome.nextPrefetch

/-! ## What a batch selects -/

def ScanRange.toEngine (r : ScanRange π) : Zecd.ScanRange :=
  ⟨r.start, r.stop, decide (r.priority = lib.verify)⟩

variable {lib batchSize} {first scanning rest : ScanRange π} {others after : List (ScanRange π)}

structure IsBatch (batchSize : Fin (2 ^ 32)) (first batch : ScanRange π) : Prop where
  start : batch.start = first.start
  stop : batch.stop.val = min first.stop.val (first.start + batchSize)
  priority : batch.priority = first.priority

theorem selectBatch_isBatch (hlib : lib.Lawful) (hbatch : 1 ≤ batchSize.val)
    (hverify : first.priority ≠ lib.verify) :
    IsBatch batchSize first (selectBatch lib batchSize first) := by
  have hadd := hlib.add_val first.start batchSize
  have hle : first.start.val ≤ first.stop.val := first.start_le
  have hstop := first.stop.isLt
  unfold saturatingAdd u32Max at hadd
  rw [selectBatch, if_neg hverify]
  by_cases hp : first.start < lib.add first.start batchSize ∧
      lib.add first.start batchSize < first.stop
  · rw [hlib.splitAt_inside _ _ hp.1 hp.2]
    refine ⟨rfl, ?_, rfl⟩
    have hinside : (lib.add first.start batchSize).val < first.stop.val := hp.2
    change (lib.add first.start batchSize).val = _
    omega
  · -- the addition saturates only past every range
    rw [hlib.splitAt_outside _ _ hp]
    refine ⟨rfl, ?_, rfl⟩
    change first.stop.val = _
    have houtside : ¬ (first.start.val < (lib.add first.start batchSize).val ∧
      (lib.add first.start batchSize).val < first.stop.val) := hp
    omega

theorem toEngine_selectBatch (hlib : lib.Lawful) (hbatch : 1 ≤ batchSize.val) :
    (selectBatch lib batchSize first).toEngine lib =
      (first.toEngine lib).batch batchSize := by
  by_cases hverify : first.priority = lib.verify
  · simp [selectBatch, ScanRange.toEngine, ScanRange.batch, hverify]
  · have h := selectBatch_isBatch hlib hbatch hverify
    simp [ScanRange.toEngine, ScanRange.batch, hverify, h.start, h.stop, h.priority]

/-- A scan that retires its batch and nothing else leaves the rest of the range ranked first. -/
def LeavesRemainder (first scanning : ScanRange π) (after : List (ScanRange π)) : Prop :=
  scanning.stop < first.stop ∧ ∃ rest others, after = rest :: others ∧
    rest.start = scanning.stop ∧ rest.stop = first.stop ∧ rest.priority = first.priority

theorem nextRangeGuess_eq (hlib : lib.Lawful) (hverify : first.priority ≠ lib.verify)
    (hrest : rest.start = scanning.stop) (hstop : rest.stop = first.stop)
    (hpriority : rest.priority = first.priority) (hstart : first.start < scanning.stop)
    (hlt : scanning.stop < first.stop) :
    nextRangeGuess lib batchSize (first :: others) scanning =
      some (selectBatch lib batchSize rest) := by
  have hsplit := hlib.splitAt_inside first scanning.stop hstart hlt
  have heq : rest = ⟨scanning.stop, first.stop, hlt.le, first.priority⟩ :=
    ScanRange.ext hrest hstop hpriority
  rw [← heq] at hsplit
  rw [nextRangeGuess, if_neg hverify, hsplit, selectBatch, if_neg (hpriority ▸ hverify)]
  dsimp only
  cases lib.splitAt rest (lib.add rest.start batchSize) <;> rfl

omit [DecidableEq π] in
theorem IsBatch.start_lt {batch : ScanRange π} (h : IsBatch batchSize first batch)
    (hbatch : 1 ≤ batchSize.val) (hlt : batch.stop < first.stop) : first.start < batch.stop := by
  have hstop := h.stop
  have hlt : batch.stop.val < first.stop.val := hlt
  change first.start.val < batch.stop.val
  omega

omit [DecidableEq π] in
theorem IsBatch.stop_le {batch : ScanRange π} (h : IsBatch batchSize first batch) :
    batch.stop ≤ first.stop := by
  change batch.stop.val ≤ first.stop.val
  rw [h.stop]
  exact min_le_left _ _

theorem guess_of_leavesRemainder (hlib : lib.Lawful) (hbatch : 1 ≤ batchSize.val)
    (hverify : first.priority ≠ lib.verify)
    (h : LeavesRemainder first (selectBatch lib batchSize first) after)
    (others : List (ScanRange π)) :
    ∃ r, nextRangeGuess lib batchSize (first :: others) (selectBatch lib batchSize first) = some r ∧
      scanRange lib batchSize after = some r := by
  obtain ⟨hlt, rest, others', rfl, hstart, hstop, hpriority⟩ := h
  have hbegin := (selectBatch_isBatch hlib hbatch hverify).start_lt hbatch hlt
  exact ⟨_, nextRangeGuess_eq hlib hverify hstart hstop hpriority hbegin hlt, rfl⟩

theorem guess_eq_none_iff (hlib : lib.Lawful) (hbatch : 1 ≤ batchSize.val)
    (hverify : first.priority ≠ lib.verify) :
    nextRangeGuess lib batchSize (first :: others) (selectBatch lib batchSize first) = none ↔
      (selectBatch lib batchSize first).stop = first.stop := by
  have h := selectBatch_isBatch hlib hbatch hverify
  rcases lt_or_eq_of_le h.stop_le with hlt | heq
  · have hguess : nextRangeGuess lib batchSize (first :: others) (selectBatch lib batchSize first) =
        some (selectBatch lib batchSize ⟨_, _, hlt.le, first.priority⟩) :=
      nextRangeGuess_eq hlib hverify rfl rfl rfl (h.start_lt hbatch hlt) hlt
    rw [hguess]
    exact iff_of_false (Option.some_ne_none _) (ne_of_lt hlt)
  · have hend : ¬ (first.start < (selectBatch lib batchSize first).stop ∧
        (selectBatch lib batchSize first).stop < first.stop) := fun h => (ne_of_lt h.2) heq
    rw [nextRangeGuess, if_neg hverify, hlib.splitAt_outside _ _ hend]
    exact iff_of_true rfl heq

/-! ## A range, batch by batch -/

variable (lib batchSize) in
/-- The batches selected one after another, from the suggested ranges on, while each scan retires
its own batch and leaves the rest of the range first, until nothing is left of the range. -/
inductive Drains : List (ScanRange π) → List (ScanRange π) → Prop
  | last {first : ScanRange π} (others : List (ScanRange π))
      (hstop : (selectBatch lib batchSize first).stop = first.stop) :
      Drains (first :: others) [selectBatch lib batchSize first]
  | more {first : ScanRange π} {after batches : List (ScanRange π)}
      (others : List (ScanRange π))
      (hafter : LeavesRemainder first (selectBatch lib batchSize first) after)
      (hrest : Drains after batches) :
      Drains (first :: others) (selectBatch lib batchSize first :: batches)

def ScanRange.bounds (r : ScanRange π) : BlockHeight × BlockHeight := (r.start, r.stop)

variable {batches : List (ScanRange π)}

theorem Drains.tiles (hlib : lib.Lawful) (hbatch : 1 ≤ batchSize.val)
    (hverify : first.priority ≠ lib.verify) (h : Drains lib batchSize (first :: others) batches) :
    Tiles first.start first.stop (batches.map ScanRange.bounds) := by
  generalize hranges : first :: others = ranges at h
  induction h generalizing first others with
  | last _ hstop =>
    obtain ⟨rfl, -⟩ := List.cons.inj hranges
    have hspec := selectBatch_isBatch hlib hbatch hverify
    refine tiles_singleton.mpr ⟨Prod.ext hspec.start hstop, first.start_le⟩
  | more _ hafter hrest ih =>
    obtain ⟨rfl, -⟩ := List.cons.inj hranges
    have hspec := selectBatch_isBatch hlib hbatch hverify
    obtain ⟨hlt, rest, others', rfl, hstart, hstop, hpriority⟩ := hafter
    have htiles := ih (hpriority ▸ hverify) rfl
    rw [hstart, hstop] at htiles
    exact ⟨hspec.start, (selectBatch lib batchSize _).start_le, htiles⟩

theorem Drains.sized (hlib : lib.Lawful) (hbatch : 1 ≤ batchSize.val)
    (hverify : first.priority ≠ lib.verify) (h : Drains lib batchSize (first :: others) batches) :
    ∀ b ∈ batches, b.stop.val - b.start.val ≤ batchSize ∧ b.priority = first.priority := by
  have hsized {first : ScanRange π} (hverify : first.priority ≠ lib.verify) :
      (selectBatch lib batchSize first).stop.val - (selectBatch lib batchSize first).start.val ≤
        batchSize := by
    have hspec := selectBatch_isBatch hlib hbatch hverify
    rw [hspec.start, hspec.stop]
    omega
  generalize hranges : first :: others = ranges at h
  induction h generalizing first others with
  | last _ hstop =>
    obtain ⟨rfl, -⟩ := List.cons.inj hranges
    refine List.forall_mem_singleton.mpr ⟨hsized hverify, ?_⟩
    exact (selectBatch_isBatch hlib hbatch hverify).priority
  | more _ hafter hrest ih =>
    obtain ⟨rfl, -⟩ := List.cons.inj hranges
    obtain ⟨-, rest, others', rfl, -, -, hpriority⟩ := hafter
    refine List.forall_mem_cons.mpr ⟨⟨hsized hverify, ?_⟩, ?_⟩
    · exact (selectBatch_isBatch hlib hbatch hverify).priority
    · rw [← hpriority]
      exact ih (hpriority ▸ hverify) rfl

theorem exists_drains_of_le (hlib : lib.Lawful) (hbatch : 1 ≤ batchSize.val) (n : ℕ)
    (first : ScanRange π) (hverify : first.priority ≠ lib.verify)
    (hn : first.stop.val - first.start.val ≤ n) :
    ∃ batches, Drains lib batchSize (first :: others) batches := by
  induction n generalizing first with
  | zero =>
    have hspec := selectBatch_isBatch hlib hbatch hverify
    refine ⟨_, .last others (Fin.ext ?_)⟩
    rw [hspec.stop]
    omega
  | succ n ih =>
    have hspec := selectBatch_isBatch hlib hbatch hverify
    rcases eq_or_lt_of_le hspec.stop_le with heq | hlt
    · exact ⟨_, .last others heq⟩
    · have hbegin : first.start.val < (selectBatch lib batchSize first).stop.val :=
        hspec.start_lt hbatch hlt
      obtain ⟨batches, hrest⟩ := ih ⟨_, _, hlt.le, first.priority⟩ hverify (by
        change first.stop.val - (selectBatch lib batchSize first).stop.val ≤ n
        omega)
      have hafter : LeavesRemainder first (selectBatch lib batchSize first)
          (⟨_, _, hlt.le, first.priority⟩ :: others) := ⟨hlt, _, others, rfl, rfl, rfl, rfl⟩
      exact ⟨_, .more others hafter hrest⟩

/-- While each scan retires its own batch and leaves the rest of its range first, what is guessed
before a scan is what is selected after it, and the batches of a range tile it. -/
theorem rangeGuess_exact (hlib : lib.Lawful) (hbatch : 1 ≤ batchSize.val)
    (hverify : first.priority ≠ lib.verify) (others : List (ScanRange π)) :
    (∀ after, LeavesRemainder first (selectBatch lib batchSize first) after →
      ∃ r, nextRangeGuess lib batchSize (first :: others) (selectBatch lib batchSize first) =
          some r ∧ scanRange lib batchSize after = some r) ∧
    (nextRangeGuess lib batchSize (first :: others) (selectBatch lib batchSize first) = none ↔
      (selectBatch lib batchSize first).stop = first.stop) ∧
    (∃ batches, Drains lib batchSize (first :: others) batches) ∧
    ∀ batches, Drains lib batchSize (first :: others) batches →
      Tiles first.start first.stop (batches.map ScanRange.bounds) ∧
      (∀ h, batches.countP (fun b => decide (b.start ≤ h ∧ h < b.stop)) =
        if first.start ≤ h ∧ h < first.stop then 1 else 0) ∧
      ∀ b ∈ batches, b.stop.val - b.start.val ≤ batchSize ∧ b.priority = first.priority := by
  refine ⟨fun after hafter => guess_of_leavesRemainder hlib hbatch hverify hafter others,
    guess_eq_none_iff hlib hbatch hverify, exists_drains_of_le hlib hbatch _ first hverify le_rfl,
    fun batches hbatches => ?_⟩
  have htiles := hbatches.tiles hlib hbatch hverify
  refine ⟨htiles, fun h => ?_, hbatches.sized hlib hbatch hverify⟩
  have hcount := htiles.countP_eq (y := h)
  rwa [List.countP_map] at hcount

inductive Priority where
  | historic | chainTip | verify
  deriving DecidableEq, Repr

/-- The ranges of a wallet library that does as documented. -/
def checkedLibrary : RangeLibrary Priority where
  verify := .verify
  add h n := ⟨saturatingAdd h n, by unfold saturatingAdd u32Max; omega⟩
  splitAt r p :=
    if hp : r.start < p ∧ p < r.stop then
      some (⟨r.start, p, hp.1.le, r.priority⟩, ⟨p, r.stop, hp.2.le, r.priority⟩)
    else none

theorem checkedLibrary_lawful : checkedLibrary.Lawful where
  add_val _ _ := rfl
  splitAt_inside _ _ hp hp' := dif_pos ⟨hp, hp'⟩
  splitAt_outside _ _ hp := dif_neg hp

def tipRange (start stop : BlockHeight) (h : start ≤ stop) : ScanRange Priority :=
  ⟨start, stop, h, .chainTip⟩

/-- The tail of a range, shorter than a batch, is guessed whole and selected next. -/
theorem shortTail_guessed :
    nextRangeGuess checkedLibrary 25000 [tipRange 100 30000 (by decide)]
        (tipRange 100 25100 (by decide)) = some (tipRange 25100 30000 (by decide)) ∧
    (∃ batches, Drains checkedLibrary 25000 [tipRange 100 30000 (by decide)] batches) ∧
    ∀ batches, Drains checkedLibrary 25000 [tipRange 100 30000 (by decide)] batches →
      Tiles 100 30000 (batches.map ScanRange.bounds) := by
  have hselect : selectBatch checkedLibrary 25000 (tipRange 100 30000 (by decide)) =
      tipRange 100 25100 (by decide) := by decide
  have hspec := rangeGuess_exact checkedLibrary_lawful
    (show 1 ≤ (25000 : Fin (2 ^ 32)).val by decide)
    (show (tipRange 100 30000 (by decide)).priority ≠ checkedLibrary.verify by decide) []
  obtain ⟨hnext, -, hexists, htiles⟩ := hspec
  rw [hselect] at hnext
  have hleaves : LeavesRemainder (tipRange 100 30000 (by decide)) (tipRange 100 25100 (by decide))
      [tipRange 25100 30000 (by decide)] :=
    ⟨by decide, _, [], rfl, rfl, rfl, rfl⟩
  obtain ⟨r, hguess, hr⟩ := hnext _ hleaves
  have htail : r = tipRange 25100 30000 (by decide) := Option.some.inj (hr.symm.trans (by decide))
  exact ⟨htail ▸ hguess, hexists, fun batches h => (htiles batches h).1⟩

/-! ## The loop fetches ahead -/

/-- The download under way arrives, the batch is scanned, and the scan leaves the rest of the
range ranked first. -/
structure LeavesRest (lib : RangeLibrary π) (batchSize : Fin (2 ^ 32)) (s : SyncState π)
    (e : PassEvent π) : Prop where
  delivered : e.delivered = true
  scanned : e.scan = ⟨true, some false⟩
  leaves : ∀ first ∈ s.scanRanges.head?,
    LeavesRemainder first (selectBatch lib batchSize first) e.after

/-- The download under way is of the range the next batch selects. -/
def Ahead (lib : RangeLibrary π) (batchSize : Fin (2 ^ 32)) (s : SyncState π) : Prop :=
  ∃ first others, s.scanRanges = first :: others ∧ first.priority ≠ lib.verify ∧
    s.prefetch = some (selectBatch lib batchSize first)

variable {s : SyncState π} {e : PassEvent π} {es : List (PassEvent π)}

theorem Ahead.hit (h : Ahead lib batchSize s) (he : LeavesRest lib batchSize s e) :
    ∃ outcome, passOutcome lib batchSize false s e = some outcome ∧
      outcome.prefetchHit = true := by
  obtain ⟨first, others, hranges, -, hprefetch⟩ := h
  simp [passOutcome, syncOneBatch, scanRange, hranges, hprefetch, he.delivered, he.scanned]

/-- A pass that leaves the range from this height on. -/
def scannedTo (height tip : BlockHeight) (h : height ≤ tip) : PassEvent Priority :=
  ⟨true, ⟨true, some false⟩, [tipRange height tip h]⟩

end Zecd.Prefetch
