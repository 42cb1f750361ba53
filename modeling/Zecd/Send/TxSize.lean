import Zecd.Foundation.Bisect
import Zecd.Send.Proposal

/-! # The size of a transaction

What a proposal step serializes to at most, counted by pool, and the largest counts that keep
a transaction within a byte ceiling.
-/

namespace Zecd

open Bisect

/-! ## Field widths -/

def orchardActionBytes : ℕ := 820 + 64
def orchardProofBaseBytes : ℕ := 2720
def orchardProofPerActionBytes : ℕ := 2272
def orchardBundleFixedBytes : ℕ := 1 + 8 + 32 + 64
def saplingSpendBytes : ℕ := 96 + 192 + 64
def saplingOutputBytes : ℕ := 756 + 192
def saplingBundleFixedBytes : ℕ := 8 + 32 + 64
def transparentInputBytes : ℕ := 32 + 4 + 1 + (1 + 72 + 1 + 33) + 4
def transparentOutputBytes : ℕ := 8 + 1 + 25
def headerBytes : ℕ := 4 * 5

def compactSizeBytes (n : ℕ) : ℕ :=
  if n ≤ 252 then 1 else if n ≤ 0xFFFF then 3 else if n ≤ 0xFFFFFFFF then 5 else 9

/-- The per-pool counts a transaction's serialized size is a function of. -/
structure TxShape where
  orchardActions : ℕ
  ironwoodActions : ℕ
  saplingSpends : ℕ
  saplingOutputs : ℕ
  transparentInputs : ℕ
  transparentOutputs : ℕ
  deriving DecidableEq, Repr

namespace TxShape

def default : TxShape := ⟨0, 0, 0, 0, 0, 0⟩

def orchardFamilyActions (s : TxShape) : ℕ := s.orchardActions + s.ironwoodActions

end TxShape

/-- The bytes of one Orchard-protocol pool: a bundle with a proof of its own, if it has any
actions. -/
def orchardProtocolBytes (actions : ℕ) : ℕ :=
  compactSizeBytes actions +
    if 0 < actions then
      let proof := orchardProofBaseBytes + actions * orchardProofPerActionBytes
      orchardBundleFixedBytes + actions * orchardActionBytes + compactSizeBytes proof + proof
    else 0

def saplingBytes (spends outputs : ℕ) : ℕ :=
  compactSizeBytes spends + compactSizeBytes outputs +
    if 0 < spends ∨ 0 < outputs then
      saplingBundleFixedBytes + spends * saplingSpendBytes + outputs * saplingOutputBytes
    else 0

def transparentBytes (inputs outputs : ℕ) : ℕ :=
  compactSizeBytes inputs + inputs * transparentInputBytes +
    compactSizeBytes outputs + outputs * transparentOutputBytes

/-- An upper bound on the serialized size of the transaction the shape describes. -/
def estimateBytes (s : TxShape) : ℕ :=
  headerBytes + transparentBytes s.transparentInputs s.transparentOutputs +
    saplingBytes s.saplingSpends s.saplingOutputs +
    orchardProtocolBytes s.orchardActions + orchardProtocolBytes s.ironwoodActions

section Monotone

variable {m n i i' : ℕ}

theorem compactSizeBytes_mono (h : m ≤ n) : compactSizeBytes m ≤ compactSizeBytes n := by
  unfold compactSizeBytes
  split_ifs <;> omega

theorem transparentBytes_mono (h : m ≤ n) (o : ℕ) :
    transparentBytes m o ≤ transparentBytes n o := by
  have hc := compactSizeBytes_mono h
  simp only [transparentBytes, transparentInputBytes]
  omega

theorem saplingBytes_mono (h : m ≤ n) (o : ℕ) : saplingBytes m o ≤ saplingBytes n o := by
  have hc := compactSizeBytes_mono h
  simp only [saplingBytes, saplingSpendBytes]
  split <;> split <;> omega

theorem orchardProtocolBytes_mono (h : m ≤ n) :
    orchardProtocolBytes m ≤ orchardProtocolBytes n := by
  have hc := compactSizeBytes_mono h
  have hp := compactSizeBytes_mono
    (show orchardProofBaseBytes + m * orchardProofPerActionBytes ≤
        orchardProofBaseBytes + n * orchardProofPerActionBytes by
      simp only [orchardProofPerActionBytes]; omega)
  simp only [orchardProtocolBytes, orchardActionBytes, orchardProofPerActionBytes] at hp ⊢
  split <;> split <;> omega

theorem le_transparentBytes (n o : ℕ) : n ≤ transparentBytes n o := by
  simp only [transparentBytes, transparentInputBytes]
  omega

theorem le_saplingBytes (n o : ℕ) : n ≤ saplingBytes n o := by
  simp only [saplingBytes, saplingSpendBytes]
  split <;> omega

theorem le_orchardProtocolBytes (n : ℕ) : n ≤ orchardProtocolBytes n := by
  simp only [orchardProtocolBytes, orchardActionBytes]
  split <;> omega

end Monotone

/-! ## Largest counts -/

def usizeMax : ℕ := 2 ^ 64 - 1

/-- The largest count whose shape still estimates within `maxBytes`. -/
def largestFitting (maxBytes : ℕ) (shape : TxShape) (set : TxShape → ℕ → TxShape) : ℕ :=
  let fits n := decide (estimateBytes (set shape n) ≤ maxBytes)
  if maxBytes = 0 then usizeMax else if fits 0 then bisect fits 0 maxBytes else 0

def maxOrchardFamilyActionsAlongside (maxBytes : ℕ) (alongside : TxShape) : ℕ :=
  largestFitting maxBytes alongside fun s n => { s with ironwoodActions := n }

def maxSaplingSpends (maxBytes : ℕ) (alongside : TxShape) : ℕ :=
  largestFitting maxBytes alongside fun s n => { s with saplingSpends := n }

def maxTransparentInputs (maxBytes : ℕ) (alongside : TxShape) : ℕ :=
  largestFitting maxBytes alongside fun s n => { s with transparentInputs := n }

section Fitting

variable {maxBytes n : ℕ} {shape : TxShape} {set : TxShape → ℕ → TxShape}

theorem le_largestFitting_iff (hmax : maxBytes ≠ 0) (hn : 0 < n)
    (hmono : ∀ ⦃i j⦄, i ≤ j → estimateBytes (set shape i) ≤ estimateBytes (set shape j))
    (hle : ∀ i, i ≤ estimateBytes (set shape i)) :
    n ≤ largestFitting maxBytes shape set ↔ estimateBytes (set shape n) ≤ maxBytes := by
  unfold largestFitting
  rw [if_neg hmax]
  split
  · next h0 =>
    refine (le_bisect_iff (fun i j hij hj => ?_) (Nat.zero_le _) h0 fun i hi => ?_).trans
      decide_eq_true_iff
    · exact decide_eq_true ((hmono hij).trans (of_decide_eq_true hj))
    · exact (hle i).trans (of_decide_eq_true hi)
  · next h0 =>
    have hn0 := hmono (Nat.zero_le n)
    have h0 : ¬ estimateBytes (set shape 0) ≤ maxBytes := by simpa using h0
    omega

theorem estimateBytes_inputs_mono {m n : ℕ} (h : m ≤ n) :
    estimateBytes { shape with transparentInputs := m } ≤
      estimateBytes { shape with transparentInputs := n } := by
  have := transparentBytes_mono h shape.transparentOutputs
  simp only [estimateBytes]
  omega

theorem le_maxTransparentInputs_iff (hmax : maxBytes ≠ 0) (hn : 0 < n) :
    n ≤ maxTransparentInputs maxBytes shape ↔
      estimateBytes { shape with transparentInputs := n } ≤ maxBytes := by
  refine le_largestFitting_iff hmax hn (fun i j hij => estimateBytes_inputs_mono hij) fun i => ?_
  have := le_transparentBytes i shape.transparentOutputs
  simp only [estimateBytes]
  omega

theorem le_maxSaplingSpends_iff (hmax : maxBytes ≠ 0) (hn : 0 < n) :
    n ≤ maxSaplingSpends maxBytes shape ↔
      estimateBytes { shape with saplingSpends := n } ≤ maxBytes := by
  refine le_largestFitting_iff hmax hn (fun i j hij => ?_) fun i => ?_
  · have := saplingBytes_mono hij shape.saplingOutputs
    simp only [estimateBytes]
    omega
  · have := le_saplingBytes i shape.saplingOutputs
    simp only [estimateBytes]
    omega

theorem le_maxOrchardFamilyActionsAlongside_iff (hmax : maxBytes ≠ 0) (hn : 0 < n) :
    n ≤ maxOrchardFamilyActionsAlongside maxBytes shape ↔
      estimateBytes { shape with ironwoodActions := n } ≤ maxBytes := by
  refine le_largestFitting_iff hmax hn (fun i j hij => ?_) fun i => ?_
  · have := orchardProtocolBytes_mono hij
    simp only [estimateBytes]
    omega
  · have := le_orchardProtocolBytes i
    simp only [estimateBytes]
    omega

end Fitting

/-! ## The shape of a step -/

namespace Step

def inputCountInPool (step : Step ℕ) : PoolType → ℕ
  | .transparent => step.transparentInputs.length
  | .shielded p => step.shieldedInputs.countP (·.pool == p)

def outputCountInPool (step : Step ℕ) (pool : PoolType) : ℕ := step.paymentPools.count pool

def changeCountInPool (step : Step ℕ) (pool : PoolType) : ℕ := step.proposedChange.count pool

end Step

/-- The wallet crate's action counts for a step at one consensus branch: `none` where the pool
has no bundle version there, or the counts do not fit its padding. -/
abbrev ActionCounts := ShieldedPool → Step ℕ → Option ℕ

/-- The actions of one Orchard-protocol pool, rounded up where they cannot be derived. -/
def poolActions (counts : ActionCounts) (step : Step ℕ) (pool : ShieldedPool) : ℕ :=
  let ceiling := step.inputCountInPool (.shielded pool) +
    (step.outputCountInPool (.shielded pool) + step.changeCountInPool (.shielded pool))
  if ceiling = 0 then 0 else (counts pool step).getD ceiling

def stepShape (counts : ActionCounts) (step : Step ℕ) : TxShape where
  orchardActions := poolActions counts step .orchard
  ironwoodActions := poolActions counts step .ironwood
  saplingSpends := step.inputCountInPool (.shielded .sapling)
  saplingOutputs := step.outputCountInPool (.shielded .sapling) +
    step.changeCountInPool (.shielded .sapling)
  transparentInputs := step.inputCountInPool .transparent
  transparentOutputs := step.outputCountInPool .transparent + step.changeCountInPool .transparent

theorem stepShape_transparent {counts : ActionCounts} {step : Step ℕ}
    (hin : step.shieldedInputs = []) (hpay : ∀ pool ∈ step.paymentPools, pool = .transparent)
    (hchange : ∀ pool ∈ step.proposedChange, pool = .transparent) :
    stepShape counts step = { TxShape.default with
      transparentInputs := step.transparentInputs.length
      transparentOutputs := step.paymentPools.length + step.proposedChange.length } := by
  have hnone : ∀ (ps : List PoolType) (pool : ShieldedPool), (∀ p ∈ ps, p = .transparent) →
      ps.count (.shielded pool) = 0 := by
    intro ps pool h
    rw [List.count_eq_zero]
    exact fun hmem => by cases h _ hmem
  have hall : ∀ ps : List PoolType, (∀ p ∈ ps, p = .transparent) →
      ps.count .transparent = ps.length := by
    intro ps h
    rw [List.count_eq_length]
    exact fun p hp => (h p hp).symm
  simp only [stepShape, poolActions, Step.inputCountInPool, Step.outputCountInPool,
    Step.changeCountInPool, hin, hnone _ _ hpay, hnone _ _ hchange, hall _ hpay, hall _ hchange,
    TxShape.default, List.countP_nil, add_zero, if_true]

/-! ## ZIP 218 -/

def zip218ShieldedBudget : ℕ := 330
def zip218SaplingLimit : ℕ := 300

def saplingMinOutputs : ℕ := 2

structure Zip218Overflow where
  cost : ℕ
  cap : ℕ
  what : String
  deriving DecidableEq, Repr

/-- Where a shape breaks the shielded budget, Sapling's own cap first. -/
def zip218Overflow (s : TxShape) : Option Zip218Overflow :=
  let sapling :=
    if 0 < s.saplingSpends + s.saplingOutputs then
      s.saplingSpends + max s.saplingOutputs saplingMinOutputs
    else 0
  if zip218SaplingLimit < sapling then
    some ⟨sapling, zip218SaplingLimit, "Sapling spends and outputs"⟩
  else
    let cost := s.orchardFamilyActions + sapling
    if zip218ShieldedBudget < cost then
      some ⟨cost, zip218ShieldedBudget, "shielded actions, spends and outputs"⟩
    else none

end Zecd
