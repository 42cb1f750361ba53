import Zecd.Send.Steps
import Zecd.Send.TxSize

/-! # The ceilings on a proposal

`[spend] orchard_action_limit`, `[spend] max_tx_bytes` and ZIP 218's shielded budget, as every
build that goes through a proposal applies them before it proves anything.
-/

namespace Zecd

open Fallible

/-- The two ceilings a running daemon reloads; zero disables either. -/
structure SpendLimits where
  orchardActionLimit : ℕ
  maxTxBytes : ℕ
  deriving DecidableEq, Repr

/-- What one build goes by: the ceilings as it read them, and the rules of the branch its
target height is in. -/
structure Reading where
  limits : SpendLimits
  counts : ActionCounts
  zip218BudgetApplies : Bool

def isOrchardFamily (pool : PoolType) : Bool :=
  pool == .shielded .orchard || pool == .shielded .ironwood

def stepOrchardActions (step : Step ℕ) : ℕ × ℕ :=
  (step.shieldedInputs.countP fun n => isOrchardFamily (.shielded n.pool),
    step.paymentPools.countP isOrchardFamily + step.proposedChange.countP isOrchardFamily)

/-- The offending count and which side to blame for it. -/
def orchardActionOverflow (shape : TxShape) (spends outputs limit : ℕ) : Option (ℕ × String) :=
  let actions := shape.orchardFamilyActions
  if actions ≤ limit then none
  else
    let oneBundle := shape.orchardActions = 0 ∨ shape.ironwoodActions = 0
    if oneBundle ∧ outputs ≤ limit ∧ limit < spends then some (actions, "inputs")
    else if oneBundle ∧ spends ≤ limit ∧ limit < outputs then some (actions, "outputs")
    else some (actions, "actions")

theorem orchardActionOverflow_eq_none {shape : TxShape} {spends outputs limit : ℕ} :
    orchardActionOverflow shape spends outputs limit = none ↔
      shape.orchardFamilyActions ≤ limit := by
  unfold orchardActionOverflow
  dsimp only
  split
  · next h => exact ⟨fun _ => h, fun _ => rfl⟩
  · next h =>
    refine ⟨fun hsome => ?_, fun hle => absurd hle h⟩
    split at hsome
    · cases hsome
    · split at hsome <;> cases hsome

def splitBundlesText (shape : TxShape) (what : String) : String :=
  if 0 < shape.orchardActions ∧ 0 < shape.ironwoodActions then
    what ++ toString shape.orchardActions ++ " Orchard actions spending legacy notes, and " ++
      toString shape.ironwoodActions ++ " Ironwood actions."
  else ""

def orchardLimitExceeded (limit : ℕ) (shape : TxShape) (count : ℕ) (kind : String) : RpcError :=
  .invalidParameter
    ("Including " ++ toString count ++ " Orchard " ++ kind ++
      " would exceed the current limit of " ++ toString limit ++ " actions, which exists to " ++
      "bound this send's memory and proving cost." ++
      splitBundlesText shape (" This send carries two shielded bundles that are proved " ++
        "separately and counted together: ") ++
      " Consolidate first with z_mergetoaddress ([\"ANY_ORCHARD\"], your own address, " ++
      "repeatedly until remainingNotes is 0), which is usually what a wallet this fragmented " ++
      "wants. Or raise [spend] orchard_action_limit (0 disables the cap) and send SIGHUP to " ++
      "reload it without restarting.")

def enforceOrchardActionLimit (counts : ActionCounts) (limit : ℕ) (p : Proposal ℕ) :
    Except RpcError Unit :=
  if limit = 0 then .ok ()
  else p.steps.forM fun step =>
    let shape := stepShape counts step
    match orchardActionOverflow shape (stepOrchardActions step).1 (stepOrchardActions step).2
        limit with
    | none => .ok ()
    | some (count, kind) => .error (orchardLimitExceeded limit shape count kind)

def enforceMaxTxBytes (counts : ActionCounts) (maxBytes : ℕ) (p : Proposal ℕ) :
    Except RpcError Unit :=
  if maxBytes = 0 then .ok ()
  else p.steps.forM fun step =>
    let bytes := estimateBytes (stepShape counts step)
    ensure (decide (bytes ≤ maxBytes)) (.invalidParameter
      ("This send would build a transaction of about " ++ toString bytes ++
        " bytes, over the current limit of " ++ toString maxBytes ++ ", which exists because a " ++
        "node will not relay a transaction larger than its own mempool policy - such a " ++
        "transaction is proved at full cost and then never mined. Send to fewer recipients, or " ++
        "consolidate first with z_mergetoaddress ([\"ANY_ORCHARD\"], your own address, " ++
        "repeatedly until remainingNotes is 0), which spends fewer, larger notes. Or raise " ++
        "[spend] max_tx_bytes (0 disables the ceiling) and send SIGHUP to reload it without " ++
        "restarting - but only if every node between this wallet and a miner accepts the " ++
        "larger size."))

def enforceZip218Budget (counts : ActionCounts) (applies : Bool) (p : Proposal ℕ) :
    Except RpcError Unit :=
  if applies = false then .ok ()
  else p.steps.forM fun step =>
    let shape := stepShape counts step
    match zip218Overflow shape with
    | none => .ok ()
    | some o => .error (.invalidParameter
        ("This transaction would carry " ++ toString o.cost ++ " " ++ o.what ++
          ", over the " ++ toString o.cap ++ " that ZIP 218 allows in a whole block from " ++
          "NU7 on, so no node would mine it." ++
          splitBundlesText shape (" It carries two shielded bundles, counted together: ") ++
          " This is a consensus rule, not a setting. Send to fewer recipients, or consolidate " ++
          "first with z_mergetoaddress, which sizes each round to fit."))

namespace Reading

def enforceCeilings (r : Reading) (p : Proposal ℕ) : Except RpcError Unit := do
  enforceOrchardActionLimit r.counts r.limits.orchardActionLimit p
  enforceMaxTxBytes r.counts r.limits.maxTxBytes p
  enforceZip218Budget r.counts r.zip218BudgetApplies p

/-- Every transaction of the shape is within the ceilings that were read. -/
structure Allows (r : Reading) (shape : TxShape) : Prop where
  bytes : r.limits.maxTxBytes ≠ 0 → estimateBytes shape ≤ r.limits.maxTxBytes
  actions : r.limits.orchardActionLimit ≠ 0 →
    shape.orchardFamilyActions ≤ r.limits.orchardActionLimit

end Reading

section Checked

variable {r : Reading} {p : Proposal ℕ} {step : Step ℕ} {u : Unit}

theorem enforceOrchardActionLimit_ok {counts : ActionCounts} {limit : ℕ}
    (h : enforceOrchardActionLimit counts limit p = .ok u) (hlimit : limit ≠ 0)
    (hstep : step ∈ p.steps) : (stepShape counts step).orchardFamilyActions ≤ limit := by
  rw [enforceOrchardActionLimit, if_neg hlimit] at h
  have hs := forM_ok.mp h step hstep
  dsimp only at hs
  split at hs
  · next heq => exact orchardActionOverflow_eq_none.mp heq
  · cases hs

theorem enforceMaxTxBytes_ok {counts : ActionCounts} {maxBytes : ℕ}
    (h : enforceMaxTxBytes counts maxBytes p = .ok u) (hmax : maxBytes ≠ 0)
    (hstep : step ∈ p.steps) : estimateBytes (stepShape counts step) ≤ maxBytes := by
  rw [enforceMaxTxBytes, if_neg hmax] at h
  simpa using forM_ok.mp h step hstep

theorem Reading.enforceCeilings_ok (h : r.enforceCeilings p = .ok u) (hstep : step ∈ p.steps) :
    r.Allows (stepShape r.counts step) := by
  simp only [Reading.enforceCeilings, bind_eq_ok] at h
  obtain ⟨_, hactions, _, hbytes, _⟩ := h
  exact ⟨fun hmax => enforceMaxTxBytes_ok hbytes hmax hstep,
    fun hlimit => enforceOrchardActionLimit_ok hactions hlimit hstep⟩

end Checked

def WalletLayer.under (w : WalletLayer) (r : Reading) : WalletLayer :=
  { w with enforceCeilings := r.enforceCeilings }

end Zecd
