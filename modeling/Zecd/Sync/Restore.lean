import Mathlib
import Zecd.Sync.SpendDiscovery

/-! # Restoring from seed

A live wallet scans every block as it is mined and hands an address out before it is paid.
A restore reads the same chain in batches, matching each of them against the set of addresses
known when the batch starts. It ends with the receives of the live wallet exactly when every
batch pays only addresses within reach of what the earlier batches paid.
-/

namespace Zecd

open Runs

/-! ## What is paid -/

def Taddr.externalIndex : Taddr → Option ℕ
  | .external i => some i
  | _ => none

def Block.paidIndices (b : Block) : List ℕ := b.outputs.filterMap (·.script.externalIndex)

def ScanEvent.paid (c : Chain) (batchSize : ℕ) (e : ScanEvent) : Finset ℕ :=
  ((e.blocks c batchSize).flatMap (·.2.paidIndices)).toFinset

/-- The index is matched once these indices were recorded as paid: it has a row from the start,
it is one of them, or it lies in the gap window past the highest of them. -/
def InReach (cfg : TransparentConfig) (paid : Finset ℕ) (i : ℕ) : Prop :=
  i ∈ (restoreRows cfg).recorded ∨ i ∈ paid ∨
    i ∈ gapWindow cfg (max ((restoreRows cfg).frontier cfg) (paid.sup (saturatingAdd · 1)))

instance (cfg : TransparentConfig) (paid : Finset ℕ) : DecidablePred (InReach cfg paid) := fun _ =>
  inferInstanceAs (Decidable (_ ∨ _))

/-- Every pass pays only indices within reach of what the passes before it paid. -/
def ReachAlong (cfg : TransparentConfig) (c : Chain) (batchSize : ℕ) :
    Finset ℕ → List ScanEvent → Prop
  | _, [] => True
  | paid, e :: es => (∀ i ∈ e.paid c batchSize, InReach cfg paid i) ∧
      ReachAlong cfg c batchSize (paid ∪ e.paid c batchSize) es

/-! ## The two wallets -/

def restore (cfg : TransparentConfig) (gap : GapMaintenance) (c : Chain) (batchSize : ℕ)
    (change : Finset ℕ) (es : List ScanEvent) : SyncState :=
  run (syncStep cfg gap c batchSize) (.start (restoreRows cfg) change) es

/-- `new_transparent_address`, with the index it settles on: inside the funded-anchored gap
window the wallet layer hands it out, past it (`ReachedGapLimit`) the recovery horizon decides. -/
def newTransparentAddress (cfg : TransparentConfig) (db : TransparentDb) (i : ℕ) :
    Except RpcError TransparentDb :=
  if (∃ j ∈ db.funded, i ≤ j + cfg.gapLimit) ∧ i < nonHardenedChildren then
    .ok { db with rows := db.rows.getAddressForIndex i }
  else exposeTransparentIndex cfg db i

/-- Handing out an address marks the matcher stale. -/
def SyncState.issueAddress (cfg : TransparentConfig) (s : SyncState) (i : ℕ) : SyncState :=
  match newTransparentAddress cfg s.db i with
  | .ok db => { s with db, setDirty := true }
  | .error _ => { s with setDirty := true }

/-- The live wallet around one block: the addresses it pays are handed out, then it is mined and
scanned. -/
def liveStep (cfg : TransparentConfig) (gap : GapMaintenance) (c : Chain) (batchSize : ℕ)
    (s : SyncState) (h : ℕ) : SyncState :=
  syncStep cfg gap c batchSize
    ((c.blocks[h]?.elim [] Block.paidIndices).foldl (SyncState.issueAddress cfg) s)
    ⟨⟨h, h + 1, false⟩, []⟩

def liveWallet (cfg : TransparentConfig) (gap : GapMaintenance) (c : Chain) (batchSize : ℕ)
    (change : Finset ℕ) : SyncState :=
  run (liveStep cfg gap c batchSize) (.start (restoreRows cfg) change)
    (List.range c.blocks.length)

/-- The restore ends with the receives of the live wallet, whatever rows gap maintenance adds. -/
def RestoreComplete (cfg : TransparentConfig) (c : Chain) (batchSize : ℕ) (change : Finset ℕ)
    (es : List ScanEvent) : Prop :=
  ∀ gap : GapMaintenance, gap.Lawful cfg →
    (restore cfg gap c batchSize change es).db.received =
      (liveWallet cfg gap c batchSize change).db.received

/-- Each paid index could be handed out when it was paid: it is below the recovery horizon, or
at most the gap limit above an index paid in an earlier block. -/
def Chain.Issuable (c : Chain) (cfg : TransparentConfig) : Prop :=
  ∀ h out i, c.Pays h out → out.recipient = .external i → i < cfg.recoveryHorizon ∨
    ∃ h' < h, ∃ out' j, c.Pays h' out' ∧ out'.recipient = .external j ∧ i ≤ j + cfg.gapLimit

/-- The passes scan every block of the chain, each once. -/
def Sweeps (c : Chain) (batchSize : ℕ) (es : List ScanEvent) : Prop :=
  (es.flatMap fun e => (e.blocks c batchSize).map Prod.fst).Perm (List.range c.blocks.length)

/-- What a wallet that misses nothing receives: every output paying an external address, and
every output paying a recorded change address. -/
def Chain.Due (c : Chain) (change : Finset ℕ) (h : ℕ) (out : ReceivedOutput) : Prop :=
  c.Pays h out ∧ ∀ i, out.recipient = .internal i → i ∈ change

section Paid

variable {cfg : TransparentConfig} {c : Chain} {batchSize : ℕ} {e : ScanEvent} {h i : ℕ}
  {out : ReceivedOutput}

theorem Taddr.externalIndex_eq_some {a : Taddr} : a.externalIndex = some i ↔ a = .external i := by
  cases a <;> simp [externalIndex]

theorem mem_paidIndices {b : Block} (hb : c.blocks[h]? = some b) :
    i ∈ b.paidIndices ↔ ∃ out, c.Pays h out ∧ out.recipient = .external i := by
  simp only [Block.paidIndices, List.mem_filterMap, Taddr.externalIndex_eq_some, Block.outputs,
    List.mem_flatMap]
  constructor
  · rintro ⟨u, ⟨t, ht, hu⟩, hi⟩
    refine ⟨⟨(u.txid, u.index), u.script⟩, ⟨t, ⟨b, hb, ht⟩, ⟨u, hu, rfl⟩, ?_⟩, hi⟩
    rw [hi]
    exact trivial
  · rintro ⟨_, ⟨t, ⟨b', hb', ht⟩, ⟨u, hu, rfl⟩, _⟩, hi⟩
    rw [hb] at hb'
    cases hb'
    exact ⟨u, ⟨t, ht, hu⟩, hi⟩

theorem mem_paid : i ∈ e.paid c batchSize ↔
    ∃ h out, e.Scans c batchSize h ∧ c.Pays h out ∧ out.recipient = .external i := by
  simp only [ScanEvent.paid, List.mem_toFinset, List.mem_flatMap]
  constructor
  · rintro ⟨x, hx, hi⟩
    obtain ⟨out, hpays, hout⟩ := (mem_paidIndices (scans_at hx)).mp hi
    exact ⟨x.1, out, ⟨x.2, hx⟩, hpays, hout⟩
  · rintro ⟨h, out, ⟨b, hb⟩, hpays, hout⟩
    exact ⟨(h, b), hb, (mem_paidIndices (scans_at hb)).mpr ⟨out, hpays, hout⟩⟩

theorem Chain.Pays.height_unique {h' : ℕ} (hpays : c.Pays h out) (hpays' : c.Pays h' out) :
    h = h' := by
  obtain ⟨t, hat, ⟨u, hu, rfl⟩, _⟩ := hpays
  obtain ⟨t', hat', ⟨u', hu', heq⟩, _⟩ := hpays'
  simp only [ReceivedOutput.mk.injEq, Prod.mk.injEq] at heq
  exact (hat.unique hat' ((txid_of_mem_blockOutputs hu).1.symm.trans
    (heq.1.1.trans (txid_of_mem_blockOutputs hu').1))).1

theorem Chain.Due.recipient_mem {s : SyncState} (hdue : c.Due s.db.change h out)
    (hext : ∀ i, out.recipient = .external i → .external i ∈ s.addresses cfg) :
    out.recipient ∈ s.addresses cfg := by
  obtain ⟨⟨_, _, _, hw⟩, hchange⟩ := hdue
  cases hr : out.recipient with
  | external i => exact hext i hr
  | internal i => simp [SyncState.addresses, rebuildTransparentSet, hchange i hr]
  | foreign x => simp [Taddr.IsWallet, hr] at hw

theorem Chain.Pays.due {s : SyncState} (hpays : c.Pays h out)
    (hmem : out.recipient ∈ s.addresses cfg) : c.Due s.db.change h out := by
  refine ⟨hpays, fun i hi => ?_⟩
  simpa [SyncState.addresses, rebuildTransparentSet, hi] using hmem

theorem Pass.received_due {gap : GapMaintenance} {s s' : SyncState}
    (hpass : Pass cfg gap c (e.blocks c batchSize) s s')
    (hreach : ∀ i ∈ e.paid c batchSize, .external i ∈ s.addresses cfg) :
    out ∈ s'.db.received ↔ out ∈ s.db.received ∨
      ∃ h, e.Scans c batchSize h ∧ c.Due s.db.change h out := by
  rw [hpass.received_iff]
  refine or_congr_right (exists_congr fun h => and_congr_right fun hscan => ?_)
  constructor
  · rintro ⟨hpays, hmem⟩
    exact hpays.due hmem
  · intro hdue
    refine ⟨hdue.1, hdue.recipient_mem fun i hi => hreach i ?_⟩
    exact mem_paid.mpr ⟨h, out, hscan, hdue.1, hi⟩

end Paid

/-! ## The restore -/

/-- The restore once it recorded these indices as paid. -/
structure RestoreInv (cfg : TransparentConfig) (change paid : Finset ℕ) (s : SyncState) : Prop where
  fresh : s.Fresh cfg
  change_eq : s.db.change = change
  recorded : (restoreRows cfg).recorded ∪ paid ⊆ s.db.rows.recorded
  exposed : s.db.rows.exposed = (restoreRows cfg).exposed ∪ paid

section Restore

variable {cfg : TransparentConfig} {gap : GapMaintenance} {c : Chain} {batchSize : ℕ}
  {change paid : Finset ℕ} {s : SyncState} {e : ScanEvent} {es : List ScanEvent} {i : ℕ}
  {out : ReceivedOutput}

theorem restoreInv_start (cfg : TransparentConfig) (change : Finset ℕ) :
    RestoreInv cfg change ∅ (.start (restoreRows cfg) change) :=
  ⟨⟨nofun, nofun⟩, rfl, by simp [SyncState.start], by simp [SyncState.start]⟩

theorem mem_addresses_external : .external i ∈ s.addresses cfg ↔
    i ∈ s.db.rows.recorded ∨ i ∈ gapWindow cfg (s.db.rows.frontier cfg) :=
  rebuild_covers s.db.change

theorem RestoreInv.frontier (hinv : RestoreInv cfg change paid s) : s.db.rows.frontier cfg =
    max ((restoreRows cfg).frontier cfg) (paid.sup (saturatingAdd · 1)) := by
  simp only [AddressRows.frontier, AddressRows.nextExternalTransparentIndex, hinv.exposed,
    Finset.sup_union, max_assoc]

theorem RestoreInv.mem_addresses (hinv : RestoreInv cfg change paid s) (hi : InReach cfg paid i) :
    .external i ∈ s.addresses cfg := by
  rw [mem_addresses_external, hinv.frontier]
  rcases hi with hi | hi | hi
  · exact .inl (hinv.recorded (Finset.mem_union_left _ hi))
  · exact .inl (hinv.recorded (Finset.mem_union_right _ hi))
  · exact .inr hi

/-- Where gap maintenance adds no rows, nothing else is matched. -/
theorem RestoreInv.inReach (hinv : RestoreInv cfg change paid s)
    (hrows : s.db.rows.recorded ⊆ (restoreRows cfg).recorded ∪ paid)
    (hi : .external i ∈ s.addresses cfg) : InReach cfg paid i := by
  rw [mem_addresses_external, hinv.frontier] at hi
  rcases hi with hi | hi
  · exact (Finset.mem_union.mp (hrows hi)).imp id .inl
  · exact .inr (.inr hi)

theorem exists_owned_external (hreach : ∀ i ∈ e.paid c batchSize, .external i ∈ s.addresses cfg) :
    (∃ x ∈ e.blocks c batchSize, ∃ r ∈ ownedReceives (s.addresses cfg) x.2,
      r.output.recipient = .external i) ↔ i ∈ e.paid c batchSize := by
  rw [mem_paid]
  constructor
  · rintro ⟨x, hx, r, hr, hi⟩
    exact ⟨x.1, r.output, ⟨x.2, hx⟩, ((exists_owned_iff (scans_at hx)).mp ⟨r, hr, rfl⟩).1, hi⟩
  · rintro ⟨h, out, ⟨b, hb⟩, hpays, hi⟩
    have hmem : out.recipient ∈ s.addresses cfg :=
      hi ▸ hreach i (mem_paid.mpr ⟨h, out, ⟨b, hb⟩, hpays, hi⟩)
    obtain ⟨r, hr, rfl⟩ := (exists_owned_iff (scans_at hb)).mpr ⟨hpays, hmem⟩
    exact ⟨(h, b), hb, r, hr, hi⟩

theorem RestoreInv.step (hinv : RestoreInv cfg change paid s) (he : e.Succeeds c batchSize)
    (hreach : ∀ i ∈ e.paid c batchSize, .external i ∈ s.addresses cfg) :
    RestoreInv cfg change (paid ∪ e.paid c batchSize) (syncStep cfg gap c batchSize s e) := by
  have hpass := syncStep_pass gap hinv.fresh he
  have hexposed : (syncStep cfg gap c batchSize s e).db.rows.exposed =
      (restoreRows cfg).exposed ∪ (paid ∪ e.paid c batchSize) := by
    ext i
    rw [hpass.exposed, exists_owned_external hreach, hinv.exposed, ← Finset.union_assoc,
      Finset.mem_union (t := e.paid c batchSize)]
  refine ⟨hpass.fresh, hpass.grows.change.trans hinv.change_eq, ?_, hexposed⟩
  rw [← Finset.union_assoc]
  apply Finset.union_subset (hinv.recorded.trans hpass.grows.recorded)
  intro i hi
  apply (syncStep cfg gap c batchSize s e).db.rows.exposed_subset
  rw [hexposed]
  exact Finset.mem_union_right _ (Finset.mem_union_right _ hi)

theorem recorded_subset_step (hgap : ∀ funded, gap funded = ∅) (hinv : RestoreInv cfg change paid s)
    (he : e.Succeeds c batchSize)
    (hreach : ∀ i ∈ e.paid c batchSize, .external i ∈ s.addresses cfg)
    (hrows : s.db.rows.recorded ⊆ (restoreRows cfg).recorded ∪ paid) :
    (syncStep cfg gap c batchSize s e).db.rows.recorded ⊆
      (restoreRows cfg).recorded ∪ (paid ∪ e.paid c batchSize) := by
  intro i hi
  rw [← Finset.union_assoc, Finset.mem_union]
  rcases (syncStep_pass gap hinv.fresh he).recorded hgap i hi with hi | hi
  · exact .inl (hrows hi)
  · exact .inr ((exists_owned_external hreach).mp hi)

theorem received_of_reachAlong (gap : GapMaintenance) (hinv : RestoreInv cfg change paid s)
    (hsucc : ∀ e ∈ es, e.Succeeds c batchSize) (hreach : ReachAlong cfg c batchSize paid es) :
    out ∈ (run (syncStep cfg gap c batchSize) s es).db.received ↔ out ∈ s.db.received ∨
      ∃ e ∈ es, ∃ h, e.Scans c batchSize h ∧ c.Due change h out := by
  induction es generalizing s paid with
  | nil => simp
  | cons e es ih =>
    obtain ⟨hhead, htail⟩ := hreach
    have hmatched := fun i hi => hinv.mem_addresses (hhead i hi)
    have he := hsucc e List.mem_cons_self
    have hinv' : RestoreInv cfg change _ (syncStep cfg gap c batchSize s e) :=
      hinv.step he hmatched
    rw [run_cons, ih hinv' (fun x hx => hsucc x (List.mem_cons_of_mem _ hx)) htail,
      (syncStep_pass gap hinv.fresh he).received_due hmatched, hinv.change_eq]
    simp only [List.mem_cons, exists_eq_or_imp, or_assoc]

theorem scanned_of_received (hfresh : s.Fresh cfg) (hsucc : ∀ e ∈ es, e.Succeeds c batchSize)
    (hout : out ∈ (run (syncStep cfg gap c batchSize) s es).db.received) :
    out ∈ s.db.received ∨ ∃ e ∈ es, ∃ h, e.Scans c batchSize h ∧ c.Pays h out := by
  induction es generalizing s with
  | nil => exact .inl hout
  | cons e es ih =>
    have hpass := syncStep_pass gap hfresh (hsucc e List.mem_cons_self)
    rcases ih hpass.fresh (fun x hx => hsucc x (List.mem_cons_of_mem _ hx)) hout with
      hout | ⟨x, hx, h, hscan, hpays⟩
    · rcases hpass.received_iff.mp hout with hout | ⟨h, hscan, hpays, _⟩
      · exact .inl hout
      · exact .inr ⟨e, List.mem_cons_self, h, hscan, hpays⟩
    · exact .inr ⟨x, List.mem_cons_of_mem _ hx, h, hscan, hpays⟩

/-- The passes scan no block twice. -/
def ScansOnce (c : Chain) (batchSize : ℕ) (es : List ScanEvent) : Prop :=
  es.Pairwise fun e e' => ∀ h, e.Scans c batchSize h → ¬ e'.Scans c batchSize h

/-- A run that records all that is due in the blocks it scans, without rows from gap maintenance
and without a second look at any block, is within reach. -/
theorem reachAlong_of_received (hgap : ∀ funded, gap funded = ∅)
    (hinv : RestoreInv cfg change paid s)
    (hrows : s.db.rows.recorded ⊆ (restoreRows cfg).recorded ∪ paid)
    (hsucc : ∀ e ∈ es, e.Succeeds c batchSize) (honce : ScansOnce c batchSize es)
    (hold : ∀ out ∈ s.db.received, ∀ e ∈ es, ∀ h, e.Scans c batchSize h → ¬ c.Pays h out)
    (hall : ∀ e ∈ es, ∀ h out, e.Scans c batchSize h → c.Due change h out →
      out ∈ (run (syncStep cfg gap c batchSize) s es).db.received) :
    ReachAlong cfg c batchSize paid es := by
  induction es generalizing s paid with
  | nil => exact trivial
  | cons e es ih =>
    have he := hsucc e List.mem_cons_self
    have hsucc' : ∀ x ∈ es, x.Succeeds c batchSize := fun x hx =>
      hsucc x (List.mem_cons_of_mem _ hx)
    obtain ⟨hhead, htail⟩ := List.pairwise_cons.mp honce
    have hpass := syncStep_pass gap hinv.fresh he
    -- an output of this pass can only be recorded by this pass
    have hmatched : ∀ i ∈ e.paid c batchSize, .external i ∈ s.addresses cfg := by
      intro i hi
      obtain ⟨h, out, hscan, hpays, hr⟩ := mem_paid.mp hi
      have hdue : c.Due change h out := ⟨hpays, by simp [hr]⟩
      have hout := hall e List.mem_cons_self h out hscan hdue
      rw [run_cons] at hout
      rcases scanned_of_received hpass.fresh hsucc' hout with hout | ⟨x, hx, h', hscan', hpays'⟩
      · rcases hpass.received_iff.mp hout with hout | ⟨_, _, _, hmem⟩
        · exact absurd hpays (hold out hout e List.mem_cons_self h hscan)
        · exact hr ▸ hmem
      · rw [← hpays.height_unique hpays'] at hscan'
        exact absurd hscan' (hhead x hx h hscan)
    refine ⟨fun i hi => hinv.inReach hrows (hmatched i hi), ?_⟩
    refine ih (hinv.step he hmatched) (recorded_subset_step hgap hinv he hmatched hrows) hsucc'
      htail ?_ ?_
    · intro out hout x hx h hscan hpays
      rcases hpass.received_iff.mp hout with hout | ⟨h', hscan', hpays', _⟩
      · exact hold out hout x (List.mem_cons_of_mem _ hx) h hscan hpays
      · rw [← hpays.height_unique hpays'] at hscan'
        exact hhead x hx h hscan' hscan
    · intro x hx h out hscan hdue
      exact hall x (List.mem_cons_of_mem _ hx) h out hscan hdue

end Restore

/-! ## The live wallet -/

/-- The live wallet after the blocks below a height. -/
structure LiveInv (cfg : TransparentConfig) (c : Chain) (change : Finset ℕ) (n : ℕ)
    (s : SyncState) : Prop where
  fresh : s.Fresh cfg
  change_eq : s.db.change = change
  received : ∀ out, out ∈ s.db.received ↔ ∃ h < n, c.Due change h out

section Live

variable {cfg : TransparentConfig} {gap : GapMaintenance} {c : Chain} {batchSize : ℕ}
  {change : Finset ℕ} {s : SyncState} {h i n : ℕ} {out : ReceivedOutput}

theorem mem_funded {db : TransparentDb} :
    i ∈ db.funded ↔ ∃ out ∈ db.received, out.recipient = .external i := by
  simp only [TransparentDb.funded, Finset.mem_biUnion]
  refine exists_congr fun out => and_congr_right fun _ => ?_
  cases out.recipient <;> simp [eq_comm]

theorem exposeTransparentIndex_of_lt (db : TransparentDb) (hi : i < cfg.recoveryHorizon)
    (hlt : i < nonHardenedChildren) :
    exposeTransparentIndex cfg db i = .ok { db with rows := db.rows.getAddressForIndex i } := by
  rw [exposeTransparentIndex, if_neg (by omega), if_neg (by omega)]

theorem newTransparentAddress_ok {db : TransparentDb} (hlt : i < nonHardenedChildren)
    (hi : i < cfg.recoveryHorizon ∨ ∃ j ∈ db.funded, i ≤ j + cfg.gapLimit) :
    newTransparentAddress cfg db i = .ok { db with rows := db.rows.getAddressForIndex i } := by
  unfold newTransparentAddress
  split
  · rfl
  · rename_i hwin
    exact exposeTransparentIndex_of_lt db (hi.resolve_right fun hj => hwin ⟨hj, hlt⟩) hlt

theorem foldl_issueAddress (is : List ℕ)
    (his : ∀ i ∈ is, i < nonHardenedChildren ∧
      (i < cfg.recoveryHorizon ∨ ∃ j ∈ s.db.funded, i ≤ j + cfg.gapLimit))
    (hfresh : s.Fresh cfg) :
    (is.foldl (SyncState.issueAddress cfg) s).Fresh cfg ∧
    (is.foldl (SyncState.issueAddress cfg) s).db.change = s.db.change ∧
    (is.foldl (SyncState.issueAddress cfg) s).db.received = s.db.received ∧
    s.db.rows.recorded ⊆ (is.foldl (SyncState.issueAddress cfg) s).db.rows.recorded ∧
    ∀ i ∈ is, i ∈ (is.foldl (SyncState.issueAddress cfg) s).db.rows.recorded := by
  induction is generalizing s with
  | nil => exact ⟨hfresh, rfl, rfl, subset_rfl, by simp⟩
  | cons i is ih =>
    obtain ⟨hlt, hi⟩ := his i List.mem_cons_self
    have hissue : s.issueAddress cfg i =
        { s with
          db := { s.db with rows := s.db.rows.getAddressForIndex i }
          setDirty := true } := by
      simp only [SyncState.issueAddress, newTransparentAddress_ok hlt hi]
    obtain ⟨hf, hc, hr, hsub, hmem⟩ := ih (s := s.issueAddress cfg i)
      (by rw [hissue]; exact fun x hx => his x (List.mem_cons_of_mem _ hx))
      (by rw [hissue]; exact ⟨nofun, hfresh.unspent⟩)
    rw [List.foldl_cons]
    refine ⟨hf, hc.trans (by rw [hissue]), hr.trans (by rw [hissue]), ?_, ?_⟩
    · refine Finset.Subset.trans ?_ hsub
      rw [hissue]
      exact Finset.subset_insert _ _
    · intro x hx
      rcases List.mem_cons.mp hx with rfl | hx
      · apply hsub
        rw [hissue]
        exact Finset.mem_insert_self _ _
      · exact hmem x hx

theorem derivable_of_pays (hpays : c.Pays h out) (hr : out.recipient = .external i) :
    i < nonHardenedChildren := by
  obtain ⟨t, hat, ⟨u, hu, rfl⟩, _⟩ := hpays
  obtain ⟨b, hb, ht⟩ := hat.mem
  obtain ⟨x, hx, rfl⟩ := List.mem_map.mp hu
  refine c.derivable b hb t ht x.1 ((List.mem_zipIdx' hx).2 ▸ List.getElem_mem _) i ?_
  simp only at hr
  simp [hr]

theorem scans_single (hpos : 0 < batchSize) {h' : ℕ} :
    ScanEvent.Scans c batchSize ⟨⟨h, h + 1, false⟩, []⟩ h' ↔ h' = h ∧ h < c.blocks.length := by
  simp only [ScanEvent.Scans, ScanEvent.blocks, ScanRange.batch, Bool.false_eq_true, if_false,
    mem_range]
  constructor
  · rintro ⟨b, hle, hlt, hb⟩
    have := (List.getElem?_eq_some_iff.mp hb).1
    omega
  · rintro ⟨rfl, hlt⟩
    exact ⟨c.blocks[h'], le_rfl, by omega, List.getElem?_eq_getElem hlt⟩

theorem LiveInv.step (hpos : 0 < batchSize) (hissue : c.Issuable cfg) (hn : n < c.blocks.length)
    (hinv : LiveInv cfg c change n s) :
    LiveInv cfg c change (n + 1) (liveStep cfg gap c batchSize s n) := by
  have hb : c.blocks[n]? = some c.blocks[n] := List.getElem?_eq_getElem hn
  have his : ∀ i ∈ c.blocks[n].paidIndices, i < nonHardenedChildren ∧
      (i < cfg.recoveryHorizon ∨ ∃ j ∈ s.db.funded, i ≤ j + cfg.gapLimit) := by
    intro i hi
    obtain ⟨out, hpays, hr⟩ := (mem_paidIndices hb).mp hi
    refine ⟨derivable_of_pays hpays hr, (hissue n out i hpays hr).imp id ?_⟩
    rintro ⟨h', hlt, out', j, hpays', hr', hle⟩
    refine ⟨j, mem_funded.mpr ⟨out', (hinv.received out').mpr ?_, hr'⟩, hle⟩
    exact ⟨h', hlt, hpays', by simp [hr']⟩
  obtain ⟨hfresh, hchange, hreceived, _, hrec⟩ := foldl_issueAddress _ his hinv.fresh
  have hpass := syncStep_pass gap hfresh (succeeds_of_no_sheds c batchSize ⟨n, n + 1, false⟩)
  simp only [liveStep, hb, Option.elim_some]
  generalize c.blocks[n].paidIndices.foldl (SyncState.issueAddress cfg) s = s' at *
  have hmatched : ∀ i ∈ ScanEvent.paid c batchSize ⟨⟨n, n + 1, false⟩, []⟩,
      .external i ∈ s'.addresses cfg := by
    intro i hi
    obtain ⟨h, out, hscan, hpays, hr⟩ := mem_paid.mp hi
    obtain ⟨rfl, _⟩ := (scans_single hpos).mp hscan
    exact mem_addresses_external.mpr (.inl (hrec i ((mem_paidIndices hb).mpr ⟨out, hpays, hr⟩)))
  refine ⟨hpass.fresh, hpass.grows.change.trans (hchange.trans hinv.change_eq), fun out => ?_⟩
  rw [hpass.received_due hmatched, hreceived, hinv.received, hchange, hinv.change_eq]
  simp only [scans_single hpos, Nat.lt_succ_iff_lt_or_eq, or_and_right, exists_or]
  refine or_congr_right (exists_congr fun h => and_congr_left fun _ => ?_)
  exact and_iff_left hn

theorem liveInv_run (gap : GapMaintenance) (change : Finset ℕ) (hpos : 0 < batchSize)
    (hissue : c.Issuable cfg) (hn : n ≤ c.blocks.length) :
    LiveInv cfg c change n
      (run (liveStep cfg gap c batchSize) (.start (restoreRows cfg) change) (List.range n)) := by
  induction n with
  | zero => exact ⟨⟨nofun, nofun⟩, rfl, by simp [SyncState.start]⟩
  | succ n ih =>
    rw [List.range_succ, run_append, run_cons, run_nil]
    exact (ih (by omega)).step hpos hissue (by omega)

end Live

/-! ## The result -/

section Result

variable {c : Chain} {batchSize : ℕ} {es : List ScanEvent}

theorem scans_iff_mem {e : ScanEvent} {h : ℕ} :
    e.Scans c batchSize h ↔ h ∈ (e.blocks c batchSize).map Prod.fst := by
  simp [ScanEvent.Scans]

theorem Sweeps.scansOnce (hsweep : Sweeps c batchSize es) : ScansOnce c batchSize es := by
  have hnodup := hsweep.nodup_iff.mpr List.nodup_range
  refine (List.nodup_flatMap.mp hnodup).2.imp fun {e e'} hdis h hscan hscan' => ?_
  exact hdis (scans_iff_mem.mp hscan) (scans_iff_mem.mp hscan')

theorem Sweeps.exists_scans (hsweep : Sweeps c batchSize es) {h : ℕ} :
    (∃ e ∈ es, e.Scans c batchSize h) ↔ h < c.blocks.length := by
  rw [← List.mem_range, ← hsweep.mem_iff]
  simp only [List.mem_flatMap, scans_iff_mem]

theorem Sweeps.exists_due (hsweep : Sweeps c batchSize es) {change : Finset ℕ}
    {out : ReceivedOutput} :
    (∃ e ∈ es, ∃ h, e.Scans c batchSize h ∧ c.Due change h out) ↔
      ∃ h < c.blocks.length, c.Due change h out := by
  simp only [← hsweep.exists_scans]
  constructor
  · rintro ⟨e, he, h, hscan, hdue⟩
    exact ⟨h, ⟨e, he, hscan⟩, hdue⟩
  · rintro ⟨h, ⟨e, he, hscan⟩, hdue⟩
    exact ⟨e, he, h, hscan, hdue⟩

end Result

theorem restoreComplete_iff (cfg : TransparentConfig) (c : Chain) (batchSize : ℕ)
    (change : Finset ℕ) (es : List ScanEvent) (hpos : 0 < batchSize) (hissue : c.Issuable cfg)
    (hsucc : ∀ e ∈ es, e.Succeeds c batchSize) (hsweep : Sweeps c batchSize es) :
    RestoreComplete cfg c batchSize change es ↔ ReachAlong cfg c batchSize ∅ es := by
  have hlive := fun gap => (liveInv_run gap change hpos hissue le_rfl).received
  constructor
  · intro hcomplete
    have hsame := hcomplete (fun _ => ∅) (by simp [GapMaintenance.Lawful])
    refine reachAlong_of_received (fun _ => rfl) (restoreInv_start cfg change)
      (by simp [SyncState.start]) hsucc hsweep.scansOnce (by simp [SyncState.start]) ?_
    intro e he h out hscan hdue
    have hout : out ∈ (liveWallet cfg (fun _ => ∅) c batchSize change).db.received :=
      (hlive _ out).mpr ⟨h, hsweep.exists_scans.mp ⟨e, he, hscan⟩, hdue⟩
    rw [← hsame] at hout
    exact hout
  · intro hreach gap _
    ext out
    rw [restore, received_of_reachAlong gap (restoreInv_start cfg change) hsucc hreach, liveWallet,
      hlive]
    simp only [SyncState.start, Finset.notMem_empty, false_or]
    exact hsweep.exists_due

/-! ## A payment behind its batch -/

/-- A gap of three past the default address: the recovery horizon is 4. -/
def gapThree : TransparentConfig := ⟨0, 3, some ⟨0, nonHardenedChildren_pos⟩, false⟩

/-- The last index below the horizon is paid, and then the last one in its gap. -/
def fundedAhead : Chain where
  blocks := [[⟨1, false, [], [(.external 3, 1000)]⟩], [⟨2, false, [], [(.external 6, 1000)]⟩]]
  txids_nodup := by decide
  spends_nodup := by decide
  causal := by decide
  money := by decide
  coinbase_inputs := by decide
  derivable := by decide

theorem fundedAhead_pays {h : ℕ} {out : ReceivedOutput} :
    fundedAhead.Pays h out ↔
      h = 0 ∧ out = ⟨(1, 0), .external 3⟩ ∨ h = 1 ∧ out = ⟨(2, 0), .external 6⟩ := by
  constructor
  · rintro ⟨t, ⟨b, hb, ht⟩, ⟨u, hu, rfl⟩, _⟩
    match h, hb with
    | 0, rfl =>
      rw [List.mem_singleton.mp ht] at hu
      rw [List.mem_singleton.mp hu]
      exact .inl ⟨rfl, rfl⟩
    | 1, rfl =>
      rw [List.mem_singleton.mp ht] at hu
      rw [List.mem_singleton.mp hu]
      exact .inr ⟨rfl, rfl⟩
  · rintro (⟨rfl, rfl⟩ | ⟨rfl, rfl⟩)
    · exact ⟨_, ⟨_, rfl, List.mem_cons_self⟩, ⟨_, List.mem_cons_self, rfl⟩, trivial⟩
    · exact ⟨_, ⟨_, rfl, List.mem_cons_self⟩, ⟨_, List.mem_cons_self, rfl⟩, trivial⟩

theorem fundedAhead_issuable : fundedAhead.Issuable gapThree := by
  intro h out i hpays hr
  rcases fundedAhead_pays.mp hpays with ⟨rfl, rfl⟩ | ⟨rfl, rfl⟩
  · cases hr
    exact .inl (by decide)
  · cases hr
    exact .inr ⟨0, by decide, _, 3, fundedAhead_pays.mpr (.inl ⟨rfl, rfl⟩), rfl, by decide⟩

/-- One batch over both blocks loses the second payment, with every row gap maintenance may add. -/
theorem oneBatch_payment_lost :
    fundedAhead.Issuable gapThree ∧
    (∀ e ∈ [⟨⟨0, 2, false⟩, []⟩], ScanEvent.Succeeds fundedAhead 10000 e) ∧
    Sweeps fundedAhead 10000 [⟨⟨0, 2, false⟩, []⟩] ∧
    (fullGap gapThree).Lawful gapThree ∧
    (restore gapThree (fullGap gapThree) fundedAhead 10000 ∅ [⟨⟨0, 2, false⟩, []⟩]).db.received =
      {⟨(1, 0), .external 3⟩} ∧
    (liveWallet gapThree (fullGap gapThree) fundedAhead 10000 ∅).db.received =
      {⟨(1, 0), .external 3⟩, ⟨(2, 0), .external 6⟩} ∧
    ¬ RestoreComplete gapThree fundedAhead 10000 ∅ [⟨⟨0, 2, false⟩, []⟩] := by
  have hrestore : (restore gapThree (fullGap gapThree) fundedAhead 10000 ∅
      [⟨⟨0, 2, false⟩, []⟩]).db.received = {⟨(1, 0), .external 3⟩} := by
    decide
  have hlive : (liveWallet gapThree (fullGap gapThree) fundedAhead 10000 ∅).db.received =
      {⟨(1, 0), .external 3⟩, ⟨(2, 0), .external 6⟩} := by
    decide
  refine ⟨fundedAhead_issuable, ?_, List.Perm.refl _, fullGap_lawful _, hrestore, hlive, ?_⟩
  · intro e he
    rw [List.mem_singleton.mp he]
    exact succeeds_of_no_sheds _ _ _
  · intro hcomplete
    have hsame := hcomplete (fullGap gapThree) (fullGap_lawful _)
    rw [hrestore, hlive] at hsame
    exact absurd hsame (by decide)

/-- Block by block, the restore ends with both payments. -/
theorem blockByBlock_restored :
    RestoreComplete gapThree fundedAhead 10000 ∅
      [⟨⟨0, 1, false⟩, []⟩, ⟨⟨1, 2, false⟩, []⟩] := by
  have hsweep : Sweeps fundedAhead 10000 [⟨⟨0, 1, false⟩, []⟩, ⟨⟨1, 2, false⟩, []⟩] :=
    List.Perm.refl _
  refine (restoreComplete_iff gapThree fundedAhead 10000 ∅ _ (by decide) fundedAhead_issuable ?_
    hsweep).mpr ⟨by decide, by decide, trivial⟩
  intro e he
  simp only [List.mem_cons, List.not_mem_nil, or_false] at he
  rcases he with rfl | rfl <;> exact succeeds_of_no_sheds _ _ _

end Zecd
