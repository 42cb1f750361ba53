import Zecd.Send.Plans

/-! # The transactions of a merge

What the selection of a merge is built into, and when the three ceilings pass it. A transaction
with fewer of everything passes whatever a larger one passes.
-/

namespace Zecd

open Fallible

/-! ## Passing the ceilings -/

/-- The descriptions a shape's Sapling bundle counts for under ZIP 218. -/
def saplingDescriptions (s : TxShape) : ℕ :=
  if 0 < s.saplingSpends + s.saplingOutputs then
    s.saplingSpends + max s.saplingOutputs saplingMinOutputs
  else 0

theorem saplingDescriptions_le (s : TxShape) :
    saplingDescriptions s ≤ s.saplingSpends + max s.saplingOutputs saplingMinOutputs := by
  unfold saplingDescriptions
  split
  · exact le_rfl
  · exact Nat.zero_le _

theorem zip218Overflow_eq_none {s : TxShape} :
    zip218Overflow s = none ↔ saplingDescriptions s ≤ zip218SaplingLimit ∧
      s.orchardFamilyActions + saplingDescriptions s ≤ zip218ShieldedBudget := by
  have heq : zip218Overflow s =
      if zip218SaplingLimit < saplingDescriptions s then
        some ⟨saplingDescriptions s, zip218SaplingLimit, "Sapling spends and outputs"⟩
      else if zip218ShieldedBudget < s.orchardFamilyActions + saplingDescriptions s then
        some ⟨s.orchardFamilyActions + saplingDescriptions s, zip218ShieldedBudget,
          "shielded actions, spends and outputs"⟩
      else none := rfl
  rw [heq]
  split
  · next h => exact iff_of_false nofun fun hle => absurd hle.1 (not_le.mpr h)
  · next h =>
    split
    · next h' => exact iff_of_false nofun fun hle => absurd hle.2 (not_le.mpr h')
    · next h' => exact iff_of_true rfl ⟨not_lt.mp h, not_lt.mp h'⟩

/-- The action limit and ZIP 218, which bound counts alone. -/
structure Reading.WithinCounts (r : Reading) (shape : TxShape) : Prop where
  actions : r.limits.orchardActionLimit ≠ 0 →
    shape.orchardFamilyActions ≤ r.limits.orchardActionLimit
  zip218 : r.zip218BudgetApplies = true → saplingDescriptions shape ≤ zip218SaplingLimit ∧
    shape.orchardFamilyActions + saplingDescriptions shape ≤ zip218ShieldedBudget

def Reading.WithinBytes (r : Reading) (shape : TxShape) : Prop :=
  r.limits.maxTxBytes ≠ 0 → estimateBytes shape ≤ r.limits.maxTxBytes

theorem Reading.enforceCeilings_single {r : Reading} {step : Step ℕ} :
    r.enforceCeilings ⟨step, []⟩ = .ok () ↔
      r.WithinCounts (stepShape r.counts step) ∧ r.WithinBytes (stepShape r.counts step) := by
  have hactions : enforceOrchardActionLimit r.counts r.limits.orchardActionLimit ⟨step, []⟩ =
      .ok () ↔ (r.limits.orchardActionLimit ≠ 0 →
        (stepShape r.counts step).orchardFamilyActions ≤ r.limits.orchardActionLimit) := by
    unfold enforceOrchardActionLimit
    split
    · next h => simp [h]
    · next h =>
      rw [forM_ok, Proposal.steps, List.forall_mem_singleton]
      dsimp only
      rw [← @orchardActionOverflow_eq_none _ (stepOrchardActions step).1
        (stepOrchardActions step).2]
      split
      · next heq => simp [heq]
      · next heq => simp [heq, h]
  have hbytes : enforceMaxTxBytes r.counts r.limits.maxTxBytes ⟨step, []⟩ = .ok () ↔
      r.WithinBytes (stepShape r.counts step) := by
    unfold enforceMaxTxBytes Reading.WithinBytes
    split
    · next h => simp [h]
    · next h =>
      rw [forM_ok, Proposal.steps, List.forall_mem_singleton]
      simp [h]
  have hzip : enforceZip218Budget r.counts r.zip218BudgetApplies ⟨step, []⟩ = .ok () ↔
      (r.zip218BudgetApplies = true → zip218Overflow (stepShape r.counts step) = none) := by
    unfold enforceZip218Budget
    split
    · next h => simp [h]
    · next h =>
      rw [forM_ok, Proposal.steps, List.forall_mem_singleton]
      dsimp only
      split
      · next heq => simp [heq]
      · next heq => simp [heq, h]
  rw [zip218Overflow_eq_none] at hzip
  simp only [Reading.enforceCeilings, bind_eq_ok]
  constructor
  · rintro ⟨_, ha, _, hb, hz⟩
    exact ⟨⟨hactions.mp ha, hzip.mp hz⟩, hbytes.mp hb⟩
  · rintro ⟨⟨ha, hz⟩, hb⟩
    exact ⟨(), hactions.mpr ha, (), hbytes.mpr hb, hzip.mpr hz⟩

/-! ## Smaller transactions -/

/-- The one transaction has no more of anything than the other. -/
structure TxShape.Within (a b : TxShape) : Prop where
  orchardActions : a.orchardActions ≤ b.orchardActions
  ironwoodActions : a.ironwoodActions ≤ b.ironwoodActions
  saplingSpends : a.saplingSpends ≤ b.saplingSpends
  saplingOutputs : a.saplingOutputs ≤ b.saplingOutputs
  transparentInputs : a.transparentInputs ≤ b.transparentInputs
  transparentOutputs : a.transparentOutputs ≤ b.transparentOutputs

section Within

variable {a b : TxShape} {r : Reading}

theorem saplingBytes_mono_right (s : ℕ) {m n : ℕ} (h : m ≤ n) :
    saplingBytes s m ≤ saplingBytes s n := by
  have hc := compactSizeBytes_mono h
  simp only [saplingBytes, saplingOutputBytes]
  split <;> split <;> omega

theorem transparentBytes_mono_right (i : ℕ) {m n : ℕ} (h : m ≤ n) :
    transparentBytes i m ≤ transparentBytes i n := by
  have hc := compactSizeBytes_mono h
  simp only [transparentBytes, transparentOutputBytes]
  omega

theorem TxShape.Within.estimateBytes (h : a.Within b) :
    Zecd.estimateBytes a ≤ Zecd.estimateBytes b := by
  have hsapling := (saplingBytes_mono h.saplingSpends a.saplingOutputs).trans
    (saplingBytes_mono_right b.saplingSpends h.saplingOutputs)
  have htransparent := (transparentBytes_mono h.transparentInputs a.transparentOutputs).trans
    (transparentBytes_mono_right b.transparentInputs h.transparentOutputs)
  have horchard := orchardProtocolBytes_mono h.orchardActions
  have hironwood := orchardProtocolBytes_mono h.ironwoodActions
  simp only [Zecd.estimateBytes]
  omega

theorem TxShape.Within.saplingDescriptions (h : a.Within b) :
    Zecd.saplingDescriptions a ≤ Zecd.saplingDescriptions b := by
  have hs := h.saplingSpends
  have ho := h.saplingOutputs
  simp only [Zecd.saplingDescriptions]
  split <;> split <;> omega

theorem TxShape.Within.orchardFamilyActions (h : a.Within b) :
    a.orchardFamilyActions ≤ b.orchardFamilyActions :=
  Nat.add_le_add h.orchardActions h.ironwoodActions

theorem Reading.WithinCounts.mono (h : r.WithinCounts b) (hle : a.Within b) :
    r.WithinCounts a where
  actions hlimit := hle.orchardFamilyActions.trans (h.actions hlimit)
  zip218 happlies := ⟨hle.saplingDescriptions.trans (h.zip218 happlies).1,
    (Nat.add_le_add hle.orchardFamilyActions hle.saplingDescriptions).trans (h.zip218 happlies).2⟩

theorem Reading.WithinBytes.mono (h : r.WithinBytes b) (hle : a.Within b) : r.WithinBytes a :=
  fun hmax => hle.estimateBytes.trans (h hmax)

end Within

/-! ## What the builder makes of a merge -/

/-- The actions of a bundle: its outputs share actions with its spends or not, and it is padded
to two if there are any. -/
def bundleActions (shares : Bool) (spends outputs : ℕ) : ℕ :=
  if spends + outputs = 0 then 0
  else max (if shares then max spends outputs else spends + outputs) 2

/-- From NU6.3 on, an Orchard bundle's outputs no longer share actions with its spends. -/
def sharesActions (ironwoodActive : Bool) : ShieldedPool → Bool
  | .orchard => !ironwoodActive
  | _ => true

/-- The counts of the builder: what a merge is priced by, and what its step is built into. -/
structure BuilderCounts (l : PlanLayer) (r : Reading) : Prop where
  numOutputs : ∀ spends outputs, l.numOutputs spends outputs =
    .ok (if spends + outputs = 0 then 0 else max outputs saplingMinOutputs)
  numActions : ∀ pool spends outputs, l.numActions pool spends outputs =
    .ok (bundleActions (sharesActions l.ironwoodActive pool) spends outputs)
  counts : ∀ pool step, r.counts pool step =
    some (bundleActions (sharesActions l.ironwoodActive pool)
      (step.inputCountInPool (.shielded pool))
      (step.outputCountInPool (.shielded pool) + step.changeCountInPool (.shielded pool)))

/-- The transaction that pays the notes to one destination. -/
def mergeStep (destPool : PoolType) (notes : List SpendableNote) : Step ℕ :=
  ⟨[], notes.map (·.toReceivedNote), [destPool], []⟩

/-- The transaction that pays the transparent outputs to one destination. -/
def sweepStep (destPool : PoolType) (utxos : List WalletTransparentOutput) : Step ℕ :=
  ⟨utxos, [], [destPool], []⟩

def outputsIn (destPool : PoolType) (pool : ShieldedPool) : ℕ :=
  if destPool = .shielded pool then 1 else 0

def notesIn (pool : ShieldedPool) (notes : List SpendableNote) : ℕ :=
  notes.countP fun n => n.pool == pool

def mergeShape (ironwoodActive : Bool) (destPool : PoolType) (notes : List SpendableNote) :
    TxShape where
  orchardActions := bundleActions (sharesActions ironwoodActive .orchard)
    (notesIn .orchard notes) (outputsIn destPool .orchard)
  ironwoodActions := bundleActions (sharesActions ironwoodActive .ironwood)
    (notesIn .ironwood notes) (outputsIn destPool .ironwood)
  saplingSpends := notesIn .sapling notes
  saplingOutputs := outputsIn destPool .sapling
  transparentInputs := 0
  transparentOutputs := if destPool = .transparent then 1 else 0

def sweepShape (ironwoodActive : Bool) (destPool : PoolType) (utxos : ℕ) : TxShape :=
  { mergeShape ironwoodActive destPool [] with transparentInputs := utxos }

section Built

variable {l : PlanLayer} {r : Reading} {destPool : PoolType}
  {notes notes' : List SpendableNote} {utxos : List WalletTransparentOutput}

theorem poolActions_eq (hb : BuilderCounts l r) (step : Step ℕ) (pool : ShieldedPool) :
    poolActions r.counts step pool = bundleActions (sharesActions l.ironwoodActive pool)
      (step.inputCountInPool (.shielded pool))
      (step.outputCountInPool (.shielded pool) + step.changeCountInPool (.shielded pool)) := by
  unfold poolActions
  dsimp only
  split
  · next hzero => rw [bundleActions, if_pos hzero]
  · rw [hb.counts, Option.getD_some]

theorem count_singleton_pool (destPool : PoolType) (pool : ShieldedPool) :
    List.count (.shielded pool) [destPool] = outputsIn destPool pool := by
  rw [outputsIn, List.count_singleton]
  simp

theorem stepShape_mergeStep (hb : BuilderCounts l r) :
    stepShape r.counts (mergeStep destPool notes) =
      mergeShape l.ironwoodActive destPool notes := by
  have hin : ∀ pool, (mergeStep destPool notes).inputCountInPool (.shielded pool) =
      notesIn pool notes := by
    intro pool
    simp only [Step.inputCountInPool, mergeStep, List.countP_map, notesIn]
    rfl
  have hout : ∀ pool, (mergeStep destPool notes).outputCountInPool (.shielded pool) +
      (mergeStep destPool notes).changeCountInPool (.shielded pool) = outputsIn destPool pool :=
    fun pool => count_singleton_pool destPool pool
  have htransparent : List.count PoolType.transparent [destPool] =
      if destPool = .transparent then 1 else 0 := by
    rw [List.count_singleton]
    simp
  simp only [stepShape, poolActions_eq hb, hin, hout, mergeShape]
  congr 1

theorem stepShape_sweepStep (hb : BuilderCounts l r) :
    stepShape r.counts (sweepStep destPool utxos) =
      sweepShape l.ironwoodActive destPool utxos.length := by
  have hin : ∀ pool, (sweepStep destPool utxos).inputCountInPool (.shielded pool) = 0 :=
    fun pool => rfl
  have hout : ∀ pool, (sweepStep destPool utxos).outputCountInPool (.shielded pool) +
      (sweepStep destPool utxos).changeCountInPool (.shielded pool) = outputsIn destPool pool :=
    fun pool => count_singleton_pool destPool pool
  have htransparent : List.count PoolType.transparent [destPool] =
      if destPool = .transparent then 1 else 0 := by
    rw [List.count_singleton]
    simp
  simp only [stepShape, poolActions_eq hb, hin, hout, sweepShape, mergeShape]
  congr 1

theorem bundleActions_mono (shares : Bool) {m n : ℕ} (h : m ≤ n) (outputs : ℕ) :
    bundleActions shares m outputs ≤ bundleActions shares n outputs := by
  unfold bundleActions
  cases shares <;> simp only [Bool.false_eq_true, if_false, if_true] <;> split <;> split <;> omega

theorem mergeShape_within (ironwoodActive : Bool) (destPool : PoolType)
    (h : notes.Subperm notes') :
    (mergeShape ironwoodActive destPool notes).Within
      (mergeShape ironwoodActive destPool notes') := by
  have hcount : ∀ pool, notesIn pool notes ≤ notesIn pool notes' := fun pool => h.countP_le _
  exact ⟨bundleActions_mono _ (hcount _) _, bundleActions_mono _ (hcount _) _, hcount _, le_rfl,
    le_rfl, le_rfl⟩

theorem sweepShape_within (ironwoodActive : Bool) (destPool : PoolType) {m n : ℕ} (h : m ≤ n) :
    (sweepShape ironwoodActive destPool m).Within (sweepShape ironwoodActive destPool n) :=
  ⟨le_rfl, le_rfl, le_rfl, le_rfl, h, le_rfl⟩

end Built

end Zecd
