import Zecd.Foundation.Runs
import Zecd.Sync.Matcher

/-! # Coverage of the gap lookahead

A rebuild moves the lookahead window past the highest exposed index. The indices it moves
over stay covered only if they have rows: the matcher loses an index exactly when a higher
one was exposed while it was still in memory only. While that does not happen, everything
a restore covered at its start stays covered, up to the recovery horizon.
-/

namespace Zecd

open Runs

section Window

variable {cfg : TransparentConfig} {rows rows' : AddressRows} {i : ℕ}

theorem saturatingAdd_mono_left {a b : ℕ} (h : a ≤ b) (c : ℕ) :
    saturatingAdd a c ≤ saturatingAdd b c := by
  simp only [saturatingAdd]
  omega

theorem mem_gapWindow {f : ℕ} :
    i ∈ gapWindow cfg f ↔ f ≤ i ∧ i < saturatingAdd f cfg.gapLimit ∧ i < nonHardenedChildren := by
  simp only [gapWindow, Finset.mem_Ico, lt_min_iff]

theorem rebuild_covers (change : Finset ℕ) :
    (rebuildTransparentSet cfg rows change).Covers i ↔
      i ∈ rows.recorded ∨ i ∈ gapWindow cfg (rows.frontier cfg) := by
  simp [TransparentMatcher.Covers, rebuildTransparentSet]

theorem mem_rebuild_lookahead (change : Finset ℕ) :
    i ∈ (rebuildTransparentSet cfg rows change).lookahead ↔
      i ∈ gapWindow cfg (rows.frontier cfg) ∧ i ∉ rows.recorded := by
  simp [rebuildTransparentSet]

theorem initialScan_le_frontier : cfg.initialScan ≤ rows.frontier cfg := le_max_left ..

theorem frontier_mono (h : rows.exposed ⊆ rows'.exposed) :
    rows.frontier cfg ≤ rows'.frontier cfg :=
  max_le_max le_rfl (Finset.sup_mono h)

theorem frontier_le_iff (hi : i < nonHardenedChildren) :
    rows.frontier cfg ≤ i ↔ cfg.initialScan ≤ i ∧ ∀ j ∈ rows.exposed, j < i := by
  have hsat : ∀ j, saturatingAdd j 1 ≤ i ↔ j < i := by
    intro j
    simp only [saturatingAdd, u32Max, nonHardenedChildren] at hi ⊢
    omega
  simp only [AddressRows.frontier, AddressRows.nextExternalTransparentIndex, max_le_iff,
    Finset.sup_le_iff, hsat]

end Window

/-! ## One rebuild -/

/-- The scan matches receives at the external index. -/
def MatcherState.Covers (s : MatcherState) (i : ℕ) : Prop :=
  ∃ m, s.matcher = some m ∧ m.Covers i

/-- Every index the matcher knows by lookahead only lies above everything exposed so far. -/
def MatcherState.NoneSkipped (s : MatcherState) : Prop :=
  ∀ m, s.matcher = some m → ∀ i ∈ m.lookahead, i ∉ s.db.rows.recorded →
    ∀ j ∈ s.db.rows.exposed, j < i

def MatcherState.BuiltFrom (cfg : TransparentConfig) (s : MatcherState) (old : AddressRows) :
    Prop :=
  s.matcher = some (rebuildTransparentSet cfg old s.db.change) ∧
    old.recorded ⊆ s.db.rows.recorded ∧ old.exposed ⊆ s.db.rows.exposed

section Steps

variable {cfg : TransparentConfig} {gap : GapMaintenance} {s : MatcherState} {old : AddressRows}

theorem MatcherState.BuiltFrom.covers_iff (h : s.BuiltFrom cfg old) {i : ℕ} :
    s.Covers i ↔ i ∈ old.recorded ∨ i ∈ gapWindow cfg (old.frontier cfg) := by
  rw [← rebuild_covers s.db.change]
  constructor
  · rintro ⟨m, hm, hi⟩
    rw [h.1] at hm
    cases hm
    exact hi
  · intro hi
    exact ⟨_, h.1, hi⟩

theorem rebuild_covers_iff {i : ℕ} : (MatcherEvent.rebuild.step cfg gap s).Covers i ↔
    i ∈ s.db.rows.recorded ∨ i ∈ gapWindow cfg (s.db.rows.frontier cfg) :=
  MatcherState.BuiltFrom.covers_iff (s := MatcherEvent.rebuild.step cfg gap s)
    ⟨rfl, subset_rfl, subset_rfl⟩

/-- A rebuild keeps everything covered exactly when nothing was skipped. -/
theorem rebuild_keeps_iff (h : s.BuiltFrom cfg old) :
    (∀ i, s.Covers i → (MatcherEvent.rebuild.step cfg gap s).Covers i) ↔ s.NoneSkipped := by
  constructor
  · intro hkeep m hm i hi hrec
    rw [h.1] at hm
    cases hm
    obtain ⟨hwin, _⟩ := (mem_rebuild_lookahead _).mp hi
    have hcov := rebuild_covers_iff.mp (hkeep i (h.covers_iff.mpr (.inr hwin)))
    obtain ⟨hf, _, hlt⟩ := mem_gapWindow.mp (hcov.resolve_left hrec)
    exact ((frontier_le_iff hlt).mp hf).2
  · intro hskip i hi
    apply rebuild_covers_iff.mpr
    by_cases hrec : i ∈ s.db.rows.recorded
    · exact .inl hrec
    rcases h.covers_iff.mp hi with hold | hwin
    · exact .inl (h.2.1 hold)
    · obtain ⟨hf, hgap, hlt⟩ := mem_gapWindow.mp hwin
      have hnot : i ∉ old.recorded := fun hold => hrec (h.2.1 hold)
      have habove := hskip _ h.1 i ((mem_rebuild_lookahead _).mpr ⟨hwin, hnot⟩) hrec
      have hscan : cfg.initialScan ≤ i := initialScan_le_frontier.trans hf
      refine .inr (mem_gapWindow.mpr ⟨(frontier_le_iff hlt).mpr ⟨hscan, habove⟩, ?_, hlt⟩)
      exact hgap.trans_le (saturatingAdd_mono_left (frontier_mono h.2.2) _)

end Steps

/-! ## Runs -/

/-- The matcher was built from rows the database still has. -/
def TransparentMatcher.Serves (cfg : TransparentConfig) (m : TransparentMatcher)
    (db : TransparentDb) : Prop :=
  ∃ old : AddressRows, m = rebuildTransparentSet cfg old db.change ∧
    old.recorded ⊆ db.rows.recorded

structure TransparentDb.Grows (db db' : TransparentDb) : Prop where
  recorded : db.rows.recorded ⊆ db'.rows.recorded
  exposed : db.rows.exposed ⊆ db'.rows.exposed
  change : db'.change = db.change
  received : db.received ⊆ db'.received

namespace TransparentDb

variable {cfg : TransparentConfig} {gap : GapMaintenance} {m : TransparentMatcher}
  {db db' : TransparentDb} {out : ReceivedOutput}

theorem Grows.refl (db : TransparentDb) : db.Grows db :=
  ⟨subset_rfl, subset_rfl, rfl, subset_rfl⟩

theorem Grows.trans {db'' : TransparentDb} (h : db.Grows db') (h' : db'.Grows db'') :
    db.Grows db'' :=
  ⟨h.recorded.trans h'.recorded, h.exposed.trans h'.exposed, h'.change.trans h.change,
    h.received.trans h'.received⟩

theorem grows_getAddressForIndex (db : TransparentDb) (i : ℕ) :
    db.Grows { db with rows := db.rows.getAddressForIndex i } :=
  ⟨Finset.subset_insert .., Finset.subset_insert .., rfl, subset_rfl⟩

theorem grows_recordLookaheadAddress (m : TransparentMatcher) (db : TransparentDb)
    (addr : Taddr) : db.Grows (db.recordLookaheadAddress m addr) := by
  unfold recordLookaheadAddress
  split
  · exact grows_getAddressForIndex db _
  · exact .refl db

theorem putReceivedTransparentUtxo_some (h : db.putReceivedTransparentUtxo gap out = some db') :
    db'.received = insert out db.received ∧ db'.change = db.change ∧
      ((∃ i, out.recipient = .external i ∧
          db'.rows = (db.rows.getAddressForIndex i).generate (gap db'.funded)) ∨
        (∀ i, out.recipient ≠ .external i) ∧ db'.rows = db.rows) := by
  unfold putReceivedTransparentUtxo at h
  cases hout : out.recipient with
  | external i =>
    simp only [hout] at h
    split at h
    · cases h
      exact ⟨rfl, rfl, .inl ⟨i, rfl, rfl⟩⟩
    · cases h
  | internal i =>
    simp only [hout] at h
    split at h
    · cases h
      exact ⟨rfl, rfl, .inr ⟨nofun, rfl⟩⟩
    · cases h
  | foreign script => simp [hout] at h

theorem grows_putReceivedTransparentUtxo
    (h : db.putReceivedTransparentUtxo gap out = some db') : db.Grows db' := by
  obtain ⟨hrec, hchange, hrows⟩ := putReceivedTransparentUtxo_some h
  have hreceived : db.received ⊆ db'.received := hrec ▸ Finset.subset_insert ..
  rcases hrows with ⟨i, _, hrows⟩ | ⟨_, hrows⟩
  · refine ⟨?_, ?_, hchange, hreceived⟩
    · rw [hrows]; exact (Finset.subset_insert ..).trans Finset.subset_union_left
    · rw [hrows]; exact Finset.subset_insert ..
  · exact ⟨hrows ▸ subset_rfl, hrows ▸ subset_rfl, hchange, hreceived⟩

theorem grows_recordReceive (gap : GapMaintenance) (m : TransparentMatcher) (db : TransparentDb)
    (out : ReceivedOutput) : db.Grows (db.recordReceive gap m out).1 := by
  have hrow := grows_recordLookaheadAddress m db out.recipient
  unfold recordReceive
  simp only
  split
  · rename_i db' hput
    exact hrow.trans (grows_putReceivedTransparentUtxo hput)
  · exact hrow

/-- What recording a matched output does to the database. -/
structure Recorded (gap : GapMaintenance) (db : TransparentDb) (out : ReceivedOutput)
    (db' : TransparentDb) : Prop where
  grows : db.Grows db'
  received : db'.received = insert out db.received
  exposed : ∀ i, i ∈ db'.rows.exposed ↔ i ∈ db.rows.exposed ∨ out.recipient = .external i
  recorded : ∀ i, i ∈ db'.rows.recorded → i ∈ db.rows.recorded ∨ out.recipient = .external i ∨
    i ∈ gap db'.funded

theorem recordLookaheadAddress_change (m : TransparentMatcher) (db : TransparentDb)
    (addr : Taddr) : (db.recordLookaheadAddress m addr).change = db.change :=
  (grows_recordLookaheadAddress m db addr).change

theorem recordLookaheadAddress_received (m : TransparentMatcher) (db : TransparentDb)
    (addr : Taddr) : (db.recordLookaheadAddress m addr).received = db.received := by
  unfold recordLookaheadAddress
  split <;> rfl

theorem recordLookaheadAddress_rows (m : TransparentMatcher) (db : TransparentDb) (i : ℕ) :
    insert i (db.recordLookaheadAddress m (.external i)).rows.recorded =
        insert i db.rows.recorded ∧
      insert i (db.recordLookaheadAddress m (.external i)).rows.exposed =
        insert i db.rows.exposed := by
  unfold recordLookaheadAddress
  split
  · rename_i j hj
    have hij : i = j := by
      simp only [TransparentMatcher.lookaheadIndex, Option.ite_none_right_eq_some,
        Option.some.injEq] at hj
      exact hj.2
    simp [AddressRows.getAddressForIndex, hij]
  · exact ⟨rfl, rfl⟩

theorem mem_recorded_of_serves (hs : m.Serves cfg db) {i : ℕ} (hi : m.Covers i) :
    i ∈ (db.recordLookaheadAddress m (.external i)).rows.recorded := by
  obtain ⟨old, rfl, hold⟩ := hs
  have hgrow := grows_recordLookaheadAddress (rebuildTransparentSet cfg old db.change) db
    (.external i)
  by_cases hrow : i ∈ old.recorded
  · exact hgrow.recorded (hold hrow)
  · have hlook := (mem_rebuild_lookahead db.change).mpr
      ⟨((rebuild_covers _).mp hi).resolve_left hrow, hrow⟩
    simp [recordLookaheadAddress, TransparentMatcher.lookaheadIndex, hlook,
      AddressRows.getAddressForIndex]

theorem recordReceive_ok (gap : GapMaintenance) (hs : m.Serves cfg db)
    (hout : out.recipient ∈ m.all) :
    ∃ db', db.recordReceive gap m out = (db', true) ∧ db.Recorded gap out db' := by
  have hreceived := recordLookaheadAddress_received m db out.recipient
  have hchange := recordLookaheadAddress_change m db out.recipient
  obtain ⟨db', hput⟩ : ∃ db', (db.recordLookaheadAddress m out.recipient).putReceivedTransparentUtxo
      gap out = some db' := by
    cases hr : out.recipient with
    | external i =>
      rw [hr] at hout
      simp [putReceivedTransparentUtxo, hr, mem_recorded_of_serves hs hout]
    | internal i =>
      have hi : i ∈ db.change := by
        obtain ⟨old, rfl, _⟩ := hs
        simpa [rebuildTransparentSet, hr] using hout
      rw [hr] at hchange
      simp [putReceivedTransparentUtxo, hr, hchange, hi]
    | foreign script =>
      obtain ⟨old, rfl, _⟩ := hs
      simp [rebuildTransparentSet, hr] at hout
  have hgrow := (grows_recordLookaheadAddress m db out.recipient).trans
    (grows_putReceivedTransparentUtxo hput)
  obtain ⟨hrec, _, hrows⟩ := putReceivedTransparentUtxo_some hput
  rw [hreceived] at hrec
  refine ⟨db', by simp [recordReceive, hput], ?_⟩
  rcases hrows with ⟨i, hi, hrows⟩ | ⟨hne, hrows⟩
  · rw [hi] at hrows
    obtain ⟨hold, hexp⟩ := recordLookaheadAddress_rows m db i
    have hrecorded : db'.rows.recorded = insert i db.rows.recorded ∪ gap db'.funded := by
      rw [hrows, AddressRows.generate, AddressRows.getAddressForIndex, ← hold]
    have hexposed : db'.rows.exposed = insert i db.rows.exposed := by
      rw [hrows, AddressRows.generate, AddressRows.getAddressForIndex, ← hexp]
    refine ⟨hgrow, hrec, fun j => ?_, fun j hj => ?_⟩
    · rw [hexposed, hi, Finset.mem_insert, Taddr.external.injEq, or_comm, eq_comm]
    · rw [hrecorded, Finset.mem_union, Finset.mem_insert] at hj
      rw [hi, Taddr.external.injEq]
      tauto
  · have hsame : db.recordLookaheadAddress m out.recipient = db := by
      cases hr : out.recipient with
      | external i => exact absurd hr (hne i)
      | internal i => rfl
      | foreign script => rfl
    rw [hsame] at hrows
    refine ⟨hgrow, hrec, fun j => ?_, fun j hj => ?_⟩
    · simp [hrows, hne j]
    · rw [hrows] at hj
      exact .inl hj

end TransparentDb

section Runs

variable {cfg : TransparentConfig} {gap : GapMaintenance} {s : MatcherState} {old : AddressRows}

theorem MatcherState.BuiltFrom.grow (h : s.BuiltFrom cfg old) {db : TransparentDb}
    (hdb : s.db.Grows db) (dirty : Bool) :
    MatcherState.BuiltFrom cfg { s with db, setDirty := dirty } old :=
  ⟨by simpa only [hdb.change] using h.1, h.2.1.trans hdb.recorded, h.2.2.trans hdb.exposed⟩

theorem exposeTransparentIndex_ok {db db' : TransparentDb} {i : ℕ}
    (h : exposeTransparentIndex cfg db i = .ok db') :
    db' = { db with rows := db.rows.getAddressForIndex i } := by
  unfold exposeTransparentIndex at h
  split at h
  · cases h
  · split at h
    · cases h
    · cases h; rfl

/-- Only a rebuild replaces the matcher, and it does so from the rows as they are. -/
theorem MatcherState.BuiltFrom.step (h : s.BuiltFrom cfg old) (gap : GapMaintenance)
    (e : MatcherEvent) :
    e = .rebuild ∧ (e.step cfg gap s).BuiltFrom cfg s.db.rows ∨
      (e.step cfg gap s).matcher = s.matcher ∧ (e.step cfg gap s).BuiltFrom cfg old := by
  cases e with
  | receive out =>
    right
    simp only [MatcherEvent.step]
    split
    · exact ⟨rfl, h⟩
    · split
      · exact ⟨rfl, h.grow (TransparentDb.grows_recordReceive ..) _⟩
      · exact ⟨rfl, h⟩
  | expose i =>
    right
    simp only [MatcherEvent.step]
    split
    · rename_i db hdb
      rw [exposeTransparentIndex_ok hdb]
      exact ⟨rfl, h.grow (TransparentDb.grows_getAddressForIndex ..) _⟩
    · exact ⟨rfl, h⟩
  | rebuild => exact .inl ⟨rfl, rfl, subset_rfl, subset_rfl⟩

theorem MatcherState.BuiltFrom.exists_step (h : ∃ old, s.BuiltFrom cfg old) (e : MatcherEvent) :
    ∃ old, (e.step cfg gap s).BuiltFrom cfg old := by
  obtain ⟨old, h⟩ := h
  rcases h.step gap e with ⟨_, h'⟩ | ⟨_, h'⟩
  · exact ⟨_, h'⟩
  · exact ⟨_, h'⟩

theorem step_keeps_iff (h : ∃ old, s.BuiltFrom cfg old) (e : MatcherEvent) :
    (∀ i, s.Covers i → (e.step cfg gap s).Covers i) ↔ (e = .rebuild → s.NoneSkipped) := by
  obtain ⟨old, h⟩ := h
  rcases h.step gap e with ⟨rfl, _⟩ | ⟨hm, h'⟩
  · rw [rebuild_keeps_iff h]
    simp
  · have hsame : ∀ i, s.Covers i → (e.step cfg gap s).Covers i := by
      rintro i ⟨m, hsm, hi⟩
      exact ⟨m, hm.trans hsm, hi⟩
    constructor
    · rintro hkeep rfl
      exact (rebuild_keeps_iff h).mp hkeep
    · intro _
      exact hsame

/-- The actor with these rows and no receives, its matcher built. -/
def MatcherState.start (cfg : TransparentConfig) (rows : AddressRows) (change : Finset ℕ) :
    MatcherState :=
  ⟨⟨rows, change, ∅⟩, some (rebuildTransparentSet cfg rows change), false⟩

theorem start_builtFrom (rows : AddressRows) (change : Finset ℕ) :
    (MatcherState.start cfg rows change).BuiltFrom cfg rows := ⟨rfl, subset_rfl, subset_rfl⟩

theorem receive_recorded (h : s.BuiltFrom cfg old) {i : ℕ} (hi : s.Covers i) (o : OutPoint) :
    ⟨o, .external i⟩ ∈
      ((MatcherEvent.receive ⟨o, .external i⟩).step cfg gap s).db.received := by
  obtain ⟨m, hm, hcov⟩ := hi
  have hall : Taddr.external i ∈ m.all := hcov
  have hserves : m.Serves cfg s.db :=
    ⟨old, Option.some.inj (hm.symm.trans h.1), h.2.1⟩
  obtain ⟨db', heq, hrec⟩ := TransparentDb.recordReceive_ok gap hserves
    (show (ReceivedOutput.mk o (.external i)).recipient ∈ m.all from hall)
  simp only [MatcherEvent.step, hm, hall, if_true, heq, hrec.received]
  exact Finset.mem_insert_self _ _

end Runs

/-! ## The rows of a restore -/

section Restore

variable {cfg : TransparentConfig} {rows : AddressRows}

theorem foldl_getAddressForIndex (rows : AddressRows) (start n : ℕ) :
    ((List.range' start n).foldl AddressRows.getAddressForIndex rows).recorded =
        rows.recorded ∪ Finset.Ico start (start + n) ∧
      ((List.range' start n).foldl AddressRows.getAddressForIndex rows).exposed =
        rows.exposed ∪ Finset.Ico start (start + n) := by
  induction n generalizing start rows with
  | zero => simp
  | succ n ih =>
    have hinsert : ∀ A : Finset ℕ, insert start A ∪ Finset.Ico (start + 1) (start + 1 + n) =
        A ∪ Finset.Ico start (start + (n + 1)) := by
      intro A
      ext i
      have hi : i = start ∨ start + 1 ≤ i ∧ i < start + 1 + n ↔
          start ≤ i ∧ i < start + (n + 1) := by omega
      simp only [Finset.mem_union, Finset.mem_insert, Finset.mem_Ico, ← hi]
      tauto
    rw [List.range'_succ, List.foldl_cons, (ih ..).1, (ih ..).2]
    exact ⟨hinsert _, hinsert _⟩

/-- With enough passes the chunks expose everything from the cursor to the initial scan depth. -/
theorem preexpose_spec (hscan : cfg.initialScan ≤ nonHardenedChildren) {fuel start : ℕ}
    (hfuel : cfg.initialScan - start < fuel) :
    (preexpose cfg fuel rows (some start)).recorded =
        rows.recorded ∪ Finset.Ico start cfg.initialScan ∧
      (preexpose cfg fuel rows (some start)).exposed =
        rows.exposed ∪ Finset.Ico start cfg.initialScan := by
  induction fuel generalizing rows start with
  | zero => omega
  | succ fuel ih =>
    by_cases hdone : cfg.initialScan ≤ start
    · have hempty : Finset.Ico start cfg.initialScan = ∅ := Finset.Ico_eq_empty (by omega)
      have hchunk : preexposeChunk cfg rows (some start) = (rows, some start, false) := by
        simp [preexposeChunk, hdone]
      simp [preexpose, hchunk, hempty]
    · obtain ⟨stop, hstop⟩ : ∃ stop, stop =
          min cfg.initialScan (saturatingAdd start transparentPreexposeChunk) := ⟨_, rfl⟩
      have hbounds : start < stop ∧ stop ≤ cfg.initialScan := by
        simp only [saturatingAdd, u32Max, transparentPreexposeChunk, nonHardenedChildren] at *
        omega
      have hchunk : preexposeChunk cfg rows (some start) =
          ((List.range' start (stop - start)).foldl AddressRows.getAddressForIndex rows, some stop,
            decide (stop < cfg.initialScan)) := by
        have hpos : cfg.initialScan ≠ 0 := by omega
        have hchild : ¬ nonHardenedChildren < stop := by omega
        simp only [preexposeChunk, hpos, if_false, Option.getD_some, hdone, ← hstop, hchild]
      obtain ⟨hrec, hexp⟩ := foldl_getAddressForIndex rows start (stop - start)
      rw [show start + (stop - start) = stop by omega] at hrec hexp
      have hunion : ∀ A : Finset ℕ, A ∪ Finset.Ico start stop ∪ Finset.Ico stop cfg.initialScan =
          A ∪ Finset.Ico start cfg.initialScan := by
        intro A
        rw [Finset.union_assoc, Finset.Ico_union_Ico_eq_Ico hbounds.1.le hbounds.2]
      by_cases hmore : stop < cfg.initialScan
      · simp only [preexpose, hchunk, hmore, decide_true]
        rw [(ih (by omega)).1, (ih (by omega)).2, hrec, hexp, hunion, hunion]
        exact ⟨rfl, rfl⟩
      · simp only [preexpose, hchunk, hmore, decide_false]
        obtain rfl : stop = cfg.initialScan := by omega
        exact ⟨hrec, hexp⟩

/-- The rows account creation leaves are those below. -/
def freshDepth (cfg : TransparentConfig) : ℕ :=
  max (cfg.defaultFrontier.getD 0) (min cfg.gapLimit nonHardenedChildren)

theorem defaultFrontier_le : cfg.defaultFrontier.getD 0 ≤ nonHardenedChildren := by
  cases h : cfg.defaultIndex with
  | none => simp [TransparentConfig.defaultFrontier, h]
  | some d =>
    rw [TransparentConfig.defaultFrontier_of_some h, Option.getD_some]
    have := d.isLt
    omega

theorem freshAccount_next : (freshAccount cfg).nextUnexposedExternalIndex = freshDepth cfg := by
  have hle : freshDepth cfg ≤ nonHardenedChildren := max_le defaultFrontier_le (min_le_right ..)
  have hrec : (freshAccount cfg).recorded = Finset.range (freshDepth cfg) := rfl
  rw [AddressRows.nextUnexposedExternalIndex, hrec]
  apply le_antisymm
  · apply Finset.sup_le
    intro i hi
    have := Finset.mem_range.mp hi
    simp only [saturatingAdd]
    omega
  · rcases Nat.eq_zero_or_pos (freshDepth cfg) with h0 | hpos
    · omega
    · have hmem : freshDepth cfg - 1 ∈ Finset.range (freshDepth cfg) := by
        rw [Finset.mem_range]; omega
      have hval : saturatingAdd (freshDepth cfg - 1) 1 = freshDepth cfg := by
        simp only [saturatingAdd, u32Max, nonHardenedChildren] at hle ⊢
        omega
      calc freshDepth cfg = saturatingAdd (freshDepth cfg - 1) 1 := hval.symm
        _ ≤ _ := Finset.le_sup (f := (saturatingAdd · 1)) hmem

theorem restoreRows_spec (hscan : cfg.initialScan ≤ nonHardenedChildren) :
    (restoreRows cfg).recorded =
        (freshAccount cfg).recorded ∪ Finset.Ico (freshDepth cfg) cfg.initialScan ∧
      (restoreRows cfg).exposed =
        (freshAccount cfg).exposed ∪ Finset.Ico (freshDepth cfg) cfg.initialScan := by
  have hsome : restoreRows cfg =
      preexpose cfg (cfg.initialScan + 1) (freshAccount cfg) (some (freshDepth cfg)) := by
    rw [restoreRows, ← freshAccount_next]
    simp only [preexpose, preexposeChunk, Option.getD_none, Option.getD_some]
    split_ifs <;> rfl
  rw [hsome]
  exact preexpose_spec hscan (by omega)

theorem mem_restoreRows_recorded (hscan : cfg.initialScan ≤ nonHardenedChildren) {i : ℕ} :
    i ∈ (restoreRows cfg).recorded ↔ i < freshDepth cfg ∨ i < cfg.initialScan := by
  have hrec : (freshAccount cfg).recorded = Finset.range (freshDepth cfg) := rfl
  rw [(restoreRows_spec hscan).1, hrec, Finset.mem_union, Finset.mem_range, Finset.mem_Ico]
  omega

theorem restoreRows_frontier (hscan : cfg.initialScan ≤ nonHardenedChildren) :
    (restoreRows cfg).frontier cfg = max cfg.initialScan (cfg.defaultFrontier.getD 0) := by
  rw [AddressRows.frontier, AddressRows.nextExternalTransparentIndex, (restoreRows_spec hscan).2,
    Finset.sup_union]
  have hwindow : (Finset.Ico (freshDepth cfg) cfg.initialScan).sup (saturatingAdd · 1) ≤
      cfg.initialScan := by
    apply Finset.sup_le
    intro i hi
    have := Finset.mem_Ico.mp hi
    simp only [saturatingAdd]
    omega
  have hdefault : (freshAccount cfg).exposed.sup (saturatingAdd · 1) =
      cfg.defaultFrontier.getD 0 := by
    cases h : cfg.defaultIndex with
    | none => simp [freshAccount, TransparentConfig.defaultFrontier, h]
    | some d => simp [freshAccount, TransparentConfig.defaultFrontier, h]
  rw [hdefault]
  change max _ (max _ _) = _
  omega

/-- A restore starts with everything below its recovery horizon covered. -/
theorem restore_covers (hscan : cfg.initialScan ≤ nonHardenedChildren) (change : Finset ℕ) {i : ℕ}
    (hi : i < cfg.recoveryHorizon) (hchild : i < nonHardenedChildren) :
    (MatcherState.start cfg (restoreRows cfg) change).Covers i := by
  rw [(start_builtFrom ..).covers_iff, mem_restoreRows_recorded hscan, mem_gapWindow,
    restoreRows_frontier hscan]
  have hdepth : cfg.defaultFrontier.getD 0 ≤ freshDepth cfg := le_max_left ..
  simp only [TransparentConfig.recoveryHorizon, recoveryHorizonFor] at hi
  omega

end Restore

/-! ## The law -/

section Law

variable (cfg : TransparentConfig) (gap : GapMaintenance)

/-- Along the run every covered index stays covered. -/
def CoverageNeverShrinks (s : MatcherState) (es : List MatcherEvent) : Prop :=
  Along (MatcherEvent.step cfg gap) (fun s e => ∀ i, s.Covers i → (e.step cfg gap s).Covers i) s es

/-- Along the run no rebuild finds an exposed index above one known by lookahead only. -/
def NoneSkippedAlong (s : MatcherState) (es : List MatcherEvent) : Prop :=
  Along (MatcherEvent.step cfg gap) (fun s e => e = .rebuild → s.NoneSkipped) s es

/-- After the run a receive below the recovery horizon is still recorded. -/
def MatchesBelowHorizon (s : MatcherState) (es : List MatcherEvent) : Prop :=
  ∀ o i, i < cfg.recoveryHorizon → i < nonHardenedChildren → ⟨o, .external i⟩ ∈
    (run (MatcherEvent.step cfg gap) s (es ++ [.receive ⟨o, .external i⟩])).db.received

variable {cfg gap}

theorem matchesBelowHorizon_of_keeps {s : MatcherState} (h : ∃ old, s.BuiltFrom cfg old)
    (hcov : ∀ i, i < cfg.recoveryHorizon → i < nonHardenedChildren → s.Covers i)
    {es : List MatcherEvent} (hkeep : CoverageNeverShrinks cfg gap s es) :
    MatchesBelowHorizon cfg gap s es := by
  intro o i hi hchild
  have hend := invariant (I := fun s => (∃ old, s.BuiltFrom cfg old) ∧ s.Covers i)
    (fun s e hs he => ⟨MatcherState.BuiltFrom.exists_step hs.1 e, he i hs.2⟩)
    ⟨h, hcov i hi hchild⟩ hkeep
  obtain ⟨⟨old, hbuilt⟩, hc⟩ := hend
  rw [run_append]
  exact receive_recorded hbuilt hc o

end Law

/-- Coverage never shrinks exactly in the runs in which no rebuild skips an index; and in those a
restore matches every receive below its recovery horizon, in whatever order they arrive. -/
theorem coverageNeverShrinks_iff (cfg : TransparentConfig) (gap : GapMaintenance)
    (rows : AddressRows) (change : Finset ℕ) (es : List MatcherEvent) :
    (CoverageNeverShrinks cfg gap (.start cfg rows change) es ↔
      NoneSkippedAlong cfg gap (.start cfg rows change) es) ∧
    (cfg.initialScan ≤ nonHardenedChildren →
      NoneSkippedAlong cfg gap (.start cfg (restoreRows cfg) change) es →
      MatchesBelowHorizon cfg gap (.start cfg (restoreRows cfg) change) es) := by
  have hiff : ∀ rows : AddressRows, CoverageNeverShrinks cfg gap (.start cfg rows change) es ↔
      NoneSkippedAlong cfg gap (.start cfg rows change) es := fun rows =>
    along_congr (I := fun s => ∃ old, s.BuiltFrom cfg old)
      (fun _ e hs => MatcherState.BuiltFrom.exists_step hs e) (fun _ e hs => step_keeps_iff hs e)
      ⟨rows, start_builtFrom rows change⟩
  refine ⟨hiff rows, fun hscan hskip => ?_⟩
  exact matchesBelowHorizon_of_keeps ⟨_, start_builtFrom ..⟩
    (fun i hi hchild => restore_covers hscan change hi hchild) ((hiff _).mpr hskip)

/-- A floor of five addresses and a gap of three: the recovery horizon is eight. -/
def sparseConfig : TransparentConfig := ⟨5, 3, some ⟨0, nonHardenedChildren_pos⟩, false⟩

def fullGap (cfg : TransparentConfig) : GapMaintenance := fun funded =>
  Finset.Ioc (funded.sup id) (funded.sup id + cfg.gapLimit)

theorem fullGap_lawful (cfg : TransparentConfig) : (fullGap cfg).Lawful cfg := by
  intro funded i hi
  exact Finset.mem_Ioc.mp hi

/-- A restore that meets index 7 first loses 5 and 6, and a receive there is never recorded. -/
theorem outOfOrder_receive_lost :
    (fullGap sparseConfig).Lawful sparseConfig ∧
    ¬ CoverageNeverShrinks sparseConfig (fullGap sparseConfig)
      (.start sparseConfig (restoreRows sparseConfig) ∅)
      [.receive ⟨(1, 0), .external 7⟩, .rebuild] ∧
    ¬ MatchesBelowHorizon sparseConfig (fullGap sparseConfig)
      (.start sparseConfig (restoreRows sparseConfig) ∅)
      [.receive ⟨(1, 0), .external 7⟩, .rebuild] := by
  refine ⟨fullGap_lawful _, ?_, ?_⟩
  · rintro ⟨_, hkeep, _⟩
    have hbefore : (rebuildTransparentSet sparseConfig (restoreRows sparseConfig) ∅).Covers 5 := by
      decide
    obtain ⟨m, hm, hcov⟩ := hkeep 5 ⟨_, rfl, hbefore⟩
    cases hm
    exact absurd hcov (by decide)
  · intro h
    exact absurd (h (2, 0) 5 (by decide) (by decide)) (by decide)

/-- Receives that arrive in index order keep the window contiguous. -/
theorem inOrder_receives_kept :
    MatchesBelowHorizon sparseConfig (fullGap sparseConfig)
      (.start sparseConfig (restoreRows sparseConfig) ∅)
      [.receive ⟨(1, 0), .external 5⟩, .rebuild, .receive ⟨(2, 0), .external 6⟩, .rebuild] := by
  refine (coverageNeverShrinks_iff sparseConfig (fullGap sparseConfig)
    (restoreRows sparseConfig) ∅ _).2 (by decide) ?_
  refine ⟨nofun, fun _ => ?_, nofun, fun _ => ?_, trivial⟩
  · intro m hm
    cases hm
    decide
  · intro m hm
    cases hm
    decide

end Zecd
