import Zecd.Send.TxSize

/-! # The size of a built transaction

The serialized size of the transaction a proposal step is built into, field by field, against
the size the estimator predicts for the step.
-/

namespace Zecd

inductive TxVersion where
  | v5
  | v6
  deriving DecidableEq, Repr

inductive OutputScript where
  | pubKeyHash
  | scriptHash
  deriving DecidableEq, Repr

def OutputScript.length : OutputScript → ℕ
  | pubKeyHash => 25
  | scriptHash => 23

/-- A transaction by what its size depends on. A transparent input is known by the length of
its signature. -/
structure BuiltTx where
  version : TxVersion
  signatures : List ℕ
  outputScripts : List OutputScript
  saplingSpends : ℕ
  saplingOutputs : ℕ
  orchardActions : ℕ
  ironwoodActions : ℕ
  deriving DecidableEq, Repr

/-! ## The transaction format -/

def scriptBytes (n : ℕ) : ℕ := compactSizeBytes n + n

/-- An input that spends a key hash: its script pushes a signature and a compressed key. -/
def txInBytes (signature : ℕ) : ℕ := 32 + 4 + scriptBytes (1 + signature + 1 + 33) + 4

def txOutBytes (script : OutputScript) : ℕ := 8 + scriptBytes script.length

/-- The Sapling fields. The balance and the binding signature are there if the bundle has
anything, the anchor only if it has spends. -/
def saplingFieldBytes (spends outputs : ℕ) : ℕ :=
  compactSizeBytes spends + 96 * spends + compactSizeBytes outputs + 756 * outputs +
    (if 0 < spends + outputs then 8 else 0) + (if 0 < spends then 32 else 0) +
    192 * spends + 64 * spends + 192 * outputs + (if 0 < spends + outputs then 64 else 0)

/-- The fields of one Orchard-protocol pool, with the proof of its bundle. -/
def orchardFieldBytes (actions : ℕ) : ℕ :=
  compactSizeBytes actions +
    if 0 < actions then
      820 * actions + 1 + 8 + 32 + scriptBytes (2720 + 2272 * actions) + 64 * actions + 64
    else 0

namespace BuiltTx

/-- The Ironwood fields exist from version 6 on. -/
def ironwoodFieldBytes (tx : BuiltTx) : ℕ :=
  match tx.version with
  | .v5 => 0
  | .v6 => orchardFieldBytes tx.ironwoodActions

def serializedSize (tx : BuiltTx) : ℕ :=
  4 + 4 + 4 + 4 + 4 +
    (compactSizeBytes tx.signatures.length + (tx.signatures.map txInBytes).sum) +
    (compactSizeBytes tx.outputScripts.length + (tx.outputScripts.map txOutBytes).sum) +
    saplingFieldBytes tx.saplingSpends tx.saplingOutputs +
    orchardFieldBytes tx.orchardActions + tx.ironwoodFieldBytes

end BuiltTx

/-! ## What a step is built into -/

/-- The outputs of a Sapling bundle: padded, unless there is no bundle. -/
def paddedSaplingOutputs (spends outputs : ℕ) : ℕ :=
  if spends + outputs = 0 then 0 else max outputs saplingMinOutputs

namespace Step

def outputsInPool (step : Step ℕ) (pool : PoolType) : ℕ :=
  step.outputCountInPool pool + step.changeCountInPool pool

/-- The actions of the bundle built for one Orchard-protocol pool: none if the step does not
touch the pool. -/
def bundleActionCount (counts : ActionCounts) (step : Step ℕ) (pool : ShieldedPool) : Option ℕ :=
  if step.inputCountInPool (.shielded pool) + step.outputsInPool (.shielded pool) = 0 then some 0
  else counts pool step

end Step

section Built

variable (counts : ActionCounts) (version : TxVersion) (step : Step ℕ)
  (scripts : List OutputScript)

/-- The builder can make the transaction of the step that pays the scripts. -/
structure Builds (tx : BuiltTx) : Prop where
  inVersion : tx.version = version
  inputs : tx.signatures.length = step.inputCountInPool .transparent
  signatures : ∀ n ∈ tx.signatures, n ≤ 72
  outputScripts : tx.outputScripts = scripts
  outputs : scripts.length = step.outputsInPool .transparent
  saplingSpends : tx.saplingSpends = step.inputCountInPool (.shielded .sapling)
  saplingOutputs : tx.saplingOutputs = paddedSaplingOutputs
    (step.inputCountInPool (.shielded .sapling)) (step.outputsInPool (.shielded .sapling))
  orchard : step.bundleActionCount counts .orchard = some tx.orchardActions
  ironwood : step.bundleActionCount counts .ironwood = some tx.ironwoodActions
  noIronwood : version = .v5 → tx.ironwoodActions = 0

/-- The step has a transaction: the scripts are those of its transparent outputs, and the
actions of its bundles can be counted. -/
structure Buildable : Prop where
  outputs : scripts.length = step.outputsInPool .transparent
  orchard : (step.bundleActionCount counts .orchard).isSome
  ironwood : (step.bundleActionCount counts .ironwood).isSome
  noIronwood : version = .v5 → step.bundleActionCount counts .ironwood = some 0

/-- The Sapling outputs the builder adds to those of the step. -/
def saplingPadding : ℕ :=
  paddedSaplingOutputs (step.inputCountInPool (.shielded .sapling))
    (step.outputsInPool (.shielded .sapling)) - step.outputsInPool (.shielded .sapling)

/-- What the estimate counts and the transaction does not have: the length of the Ironwood
actions before version 6, the anchor of a Sapling bundle without spends, and two bytes of every
script hash. -/
def estimateSlack : ℕ :=
  (if version = .v5 then 1 else 0) +
    (if step.inputCountInPool (.shielded .sapling) = 0 ∧
        0 < step.outputsInPool (.shielded .sapling) then 32 else 0) +
    2 * scripts.count .scriptHash

end Built

/-! ## The estimate against the size -/

section Fields

variable {counts : ActionCounts} {version : TxVersion} {step : Step ℕ}
  {scripts : List OutputScript} {tx : BuiltTx}

theorem orchardFieldBytes_eq (actions : ℕ) :
    orchardFieldBytes actions = orchardProtocolBytes actions := by
  have hproof : 2720 + 2272 * actions =
      orchardProofBaseBytes + actions * orchardProofPerActionBytes := by
    simp only [orchardProofBaseBytes, orchardProofPerActionBytes]
    omega
  simp only [orchardFieldBytes, orchardProtocolBytes, hproof, scriptBytes, orchardBundleFixedBytes,
    orchardActionBytes]
  split <;> omega

theorem txInBytes_add {n : ℕ} (h : n ≤ 72) : txInBytes n + (72 - n) = transparentInputBytes := by
  have hc : compactSizeBytes (1 + n + 1 + 33) = 1 := by
    rw [compactSizeBytes, if_pos (by omega)]
  simp only [txInBytes, scriptBytes, hc, transparentInputBytes]
  omega

/-- The inputs of a transaction fall short of the estimate by what their signatures are
shorter than the longest one. -/
theorem sum_txInBytes {sigs : List ℕ} (h : ∀ n ∈ sigs, n ≤ 72) :
    (sigs.map txInBytes).sum + (sigs.map (72 - ·)).sum = sigs.length * transparentInputBytes := by
  induction sigs with
  | nil => rfl
  | cons n sigs ih =>
    have hn := txInBytes_add (h n (by simp))
    have hs := ih fun m hm => h m (by simp [hm])
    simp only [List.map_cons, List.sum_cons, List.length_cons, Nat.succ_mul]
    omega

theorem sum_txOutBytes (scripts : List OutputScript) :
    (scripts.map txOutBytes).sum + 2 * scripts.count .scriptHash =
      scripts.length * transparentOutputBytes := by
  induction scripts with
  | nil => rfl
  | cons s scripts ih =>
    rw [List.map_cons, List.sum_cons, List.length_cons, Nat.add_mul, List.count_cons, one_mul]
    cases s
    · have : txOutBytes .pubKeyHash = transparentOutputBytes := rfl
      simp only [this, reduceCtorEq, beq_iff_eq, if_false]
      omega
    · have : txOutBytes .scriptHash + 2 = transparentOutputBytes := rfl
      simp only [beq_self_eq_true, if_true]
      omega

theorem compactSizeBytes_padded {spends outputs : ℕ} :
    compactSizeBytes (paddedSaplingOutputs spends outputs) = compactSizeBytes outputs := by
  unfold paddedSaplingOutputs saplingMinOutputs
  split
  · rw [show outputs = 0 by omega]
  · rcases Nat.le_total outputs 2 with h | h
    · rw [max_eq_right h, compactSizeBytes, compactSizeBytes, if_pos (by omega),
        if_pos (by omega)]
    · rw [max_eq_left h]

theorem saplingFieldBytes_padded (spends outputs : ℕ) :
    saplingFieldBytes spends (paddedSaplingOutputs spends outputs) +
        (if spends = 0 ∧ 0 < outputs then 32 else 0) =
      saplingBytes spends outputs +
        (paddedSaplingOutputs spends outputs - outputs) * saplingOutputBytes := by
  have hpad : outputs ≤ paddedSaplingOutputs spends outputs := by
    unfold paddedSaplingOutputs
    split <;> omega
  obtain ⟨k, hk⟩ := Nat.exists_eq_add_of_le hpad
  have hpos : 0 < spends + (outputs + k) ↔ 0 < spends ∨ 0 < outputs := by
    rw [← hk]
    unfold paddedSaplingOutputs
    split <;> omega
  have hzero : ¬ (0 < spends ∨ 0 < outputs) → k = 0 := by
    intro h
    unfold paddedSaplingOutputs at hk
    rw [if_pos (by omega)] at hk
    omega
  have hcompact : compactSizeBytes (outputs + k) = compactSizeBytes outputs := by
    rw [← hk, compactSizeBytes_padded]
  simp only [saplingFieldBytes, saplingBytes, hk, hcompact, hpos, saplingBundleFixedBytes,
    saplingSpendBytes, saplingOutputBytes, Nat.add_sub_cancel_left]
  by_cases hs : 0 < spends
  · rw [if_pos (Or.inl hs), if_pos hs, if_pos (Or.inl hs), if_pos (Or.inl hs),
      if_neg (by omega)]
    omega
  · by_cases ho : 0 < outputs
    · rw [if_pos (Or.inr ho), if_neg hs, if_pos (Or.inr ho), if_pos (Or.inr ho),
        if_pos ⟨by omega, ho⟩]
      omega
    · have hnone : ¬ (0 < spends ∨ 0 < outputs) := by omega
      rw [if_neg hnone, if_neg hs, if_neg hnone, if_neg hnone, if_neg (by omega), hzero hnone]
      omega

theorem poolActions_eq_bundleActionCount {pool : ShieldedPool} {n : ℕ}
    (h : step.bundleActionCount counts pool = some n) : poolActions counts step pool = n := by
  unfold Step.bundleActionCount Step.outputsInPool at h
  unfold poolActions
  by_cases hzero : step.inputCountInPool (.shielded pool) +
      (step.outputCountInPool (.shielded pool) + step.changeCountInPool (.shielded pool)) = 0
  · rw [if_pos hzero] at h
    exact (if_pos hzero).trans (Option.some.inj h)
  · rw [if_neg hzero] at h
    exact (if_neg hzero).trans (by rw [h, Option.getD_some])

/-- The size of a built transaction and all it falls short of the estimate by make up the
estimate and the outputs it is padded with. -/
theorem Builds.serializedSize_add (h : Builds counts version step scripts tx) :
    tx.serializedSize + (tx.signatures.map (72 - ·)).sum + estimateSlack version step scripts =
      estimateBytes (stepShape counts step) + saplingPadding step * saplingOutputBytes := by
  have hin := sum_txInBytes h.signatures
  have hout := sum_txOutBytes scripts
  have hsap := saplingFieldBytes_padded (step.inputCountInPool (.shielded .sapling))
    (step.outputsInPool (.shielded .sapling))
  have horchard := poolActions_eq_bundleActionCount h.orchard
  have hironwood := poolActions_eq_bundleActionCount h.ironwood
  have hfield : tx.ironwoodFieldBytes + (if version = .v5 then 1 else 0) =
      orchardProtocolBytes tx.ironwoodActions := by
    cases version with
    | v5 =>
      rw [BuiltTx.ironwoodFieldBytes, h.inVersion, h.noIronwood rfl]
      rfl
    | v6 =>
      rw [BuiltTx.ironwoodFieldBytes, h.inVersion, orchardFieldBytes_eq, if_neg nofun]
      rfl
  simp only [BuiltTx.serializedSize, h.outputScripts, h.saplingSpends, h.saplingOutputs,
    estimateSlack,
    estimateBytes, stepShape, horchard, hironwood, saplingPadding, orchardFieldBytes_eq,
    transparentBytes, headerBytes]
  rw [← Step.outputsInPool, ← Step.outputsInPool, ← h.inputs, ← h.outputs]
  omega

end Fields

section Bound

variable {counts : ActionCounts} {version : TxVersion} {step : Step ℕ}
  {scripts : List OutputScript}

theorem Buildable.exists_longest (h : Buildable counts version step scripts) :
    ∃ tx, Builds counts version step scripts tx ∧ (tx.signatures.map (72 - ·)).sum = 0 := by
  obtain ⟨orchard, horchard⟩ := Option.isSome_iff_exists.mp h.orchard
  obtain ⟨ironwood, hironwood⟩ := Option.isSome_iff_exists.mp h.ironwood
  refine ⟨⟨version, .replicate (step.inputCountInPool .transparent) 72, scripts, _, _, orchard,
    ironwood⟩, ⟨rfl, List.length_replicate, ?_, rfl, h.outputs, rfl, rfl, horchard, hironwood,
    ?_⟩, ?_⟩
  · intro n hn
    exact (List.eq_of_mem_replicate hn).le
  · intro hv
    exact Option.some.inj (hironwood.symm.trans (h.noIronwood hv))
  · simp

theorem Builds.buildable {tx : BuiltTx} (h : Builds counts version step scripts tx) :
    Buildable counts version step scripts where
  outputs := h.outputs
  orchard := by rw [h.orchard]; rfl
  ironwood := by rw [h.ironwood]; rfl
  noIronwood hv := by rw [h.ironwood, h.noIronwood hv]

variable (counts version step scripts) in
/-- The estimate of the step bounds the size of every transaction it can be built into. -/
def EstimateBounds : Prop :=
  ∀ tx, Builds counts version step scripts tx →
    tx.serializedSize ≤ estimateBytes (stepShape counts step)

/-- The estimate is a bound exactly if the outputs the builder pads the Sapling bundle with
cost no more than the estimate has to spare. -/
theorem estimateBounds_iff :
    EstimateBounds counts version step scripts ↔
      (Buildable counts version step scripts →
        saplingPadding step * saplingOutputBytes ≤ estimateSlack version step scripts) := by
  constructor
  · intro hbound hbuild
    obtain ⟨tx, htx, hlong⟩ := hbuild.exists_longest
    have hsize := htx.serializedSize_add
    have := hbound tx htx
    omega
  · intro hpad tx htx
    have hsize := htx.serializedSize_add
    have := hpad htx.buildable
    omega

/-! ### A Sapling note paid to an Orchard address -/

/-- One Sapling note pays an Orchard address and keeps its change. -/
def crossingStep : Step ℕ :=
  ⟨[], [⟨0, .sapling⟩], [.shielded .orchard], [.shielded .sapling]⟩

/-- The bundle of a pool is padded to two actions. -/
def paddedCounts : ActionCounts := fun _ _ => some 2

/-- What it is built into: the Sapling bundle has an output more than the step. -/
def crossingTx : BuiltTx := ⟨.v5, [], [], 1, 2, 2, 0⟩

theorem crossingTx_built : Builds paddedCounts .v5 crossingStep [] crossingTx := by
  refine ⟨rfl, rfl, ?_, rfl, rfl, rfl, rfl, rfl, rfl, fun _ => rfl⟩
  intro n hn
  cases hn

theorem crossingStep_underestimated :
    ¬ EstimateBounds paddedCounts .v5 crossingStep [] ∧
      estimateBytes (stepShape paddedCounts crossingStep) = 10570 ∧
      crossingTx.serializedSize = 11517 := by
  have hestimate : estimateBytes (stepShape paddedCounts crossingStep) = 10570 := by
    decide
  have hsize : crossingTx.serializedSize = 11517 := by decide
  refine ⟨fun h => ?_, hestimate, hsize⟩
  have := h crossingTx crossingTx_built
  omega

end Bound

end Zecd
