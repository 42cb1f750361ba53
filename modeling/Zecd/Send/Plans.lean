import Zecd.Send.Ceilings

/-! # Plans

The synchronous halves of `z_shieldcoinbase` and `z_mergetoaddress`: they fix what a later
execution spends and pays, within the ceilings read when the plan is made.
-/

namespace Zecd

open Fallible

structure SpendableNote extends ReceivedNote ℕ where
  value : ℕ
  deriving DecidableEq, Repr

/-- What planning adds to the wallet layer: the wallet's coinbase outputs and notes, and the
proposals, counts and fees of the wallet crates. -/
structure PlanLayer extends WalletLayer where
  coinbaseOutputs : List StoredTx → TransparentAddress →
    Except RpcError (List WalletTransparentOutput)
  /-- `propose_shielding_coinbase`, with its errors classified. -/
  proposeShieldingCoinbase : List StoredTx → List TransparentAddress → ZcashAddress →
    Option (List UInt8) → Option ℕ → Except RpcError (Proposal Empty)
  /-- Whether NU6.3 is active at the target height. -/
  ironwoodActive : Bool
  selectSpendableNotes : List StoredTx → List ShieldedPool → ConfirmationsPolicy →
    Except RpcError (List SpendableNote)
  proposeSendMaxTransfer : List StoredTx → List ShieldedPool → ZcashAddress →
    Option (List UInt8) → ConfirmationsPolicy → Except RpcError (Proposal ℕ)
  /-- The outputs a Sapling bundle of these spends and outputs is padded to. -/
  numOutputs : ℕ → ℕ → Except RpcError ℕ
  /-- The actions an Orchard-protocol bundle of these spends and outputs is padded to. -/
  numActions : ShieldedPool → ℕ → ℕ → Except RpcError ℕ
  /-- The ZIP-317 fee of the transparent inputs, the sizes of the transparent outputs, the
  Sapling spends and outputs, and the Orchard and Ironwood actions. -/
  feeRequired : ℕ → List ℕ → ℕ → ℕ → ℕ → ℕ → Except RpcError ℕ
  /-- The consistency checks of `Proposal::single_step`. -/
  singleStep : Step ℕ → Except RpcError Unit

def Proposal.widen (p : Proposal Empty) : Proposal ℕ := ⟨p.head.widen, p.tail.map Step.widen⟩

def noPaymentSource : RpcError :=
  .invalidAddressOrKey "Invalid from address, no payment source found for address."

/-! ## Shielding coinbase -/

inductive ShieldCoinbaseFrom where
  | anyTaddr
  | address (t : TransparentAddress)
  deriving DecidableEq, Repr

def ShieldCoinbaseFrom.addresses (receivers : List TransparentAddress) :
    ShieldCoinbaseFrom → Except RpcError (List TransparentAddress)
  | .anyTaddr => .ok receivers
  | .address t => if t ∈ receivers then .ok [t] else .error noPaymentSource

structure ShieldCoinbaseRequest where
  source : ShieldCoinbaseFrom
  toAddress : ZcashAddress
  memo : Option (List UInt8)
  limit : Option ℕ
  deriving DecidableEq, Repr

structure ShieldCoinbasePlan where
  proposal : Proposal Empty
  shieldingUtxos : ℕ
  shieldingValue : ℕ
  remainingUtxos : ℕ
  remainingValue : ℕ
  deriving DecidableEq, Repr

def totalValue (utxos : List WalletTransparentOutput) : ℕ := (utxos.map (·.value)).sum

/-- The action limit is not applied here: the inputs are transparent and carry no actions. -/
def proposeShieldCoinbase (l : PlanLayer) (r : Reading) (db : List StoredTx)
    (req : ShieldCoinbaseRequest) : Except RpcError ShieldCoinbasePlan := do
  spendingKey l.toWalletLayer
  l.syncToTipForSend
  l.requireAccount
  let receivers ← l.transparentReceivers
  let fromAddrs ← req.source.addresses receivers
  let _ ← l.targetHeight
  let outs ← fromAddrs.mapM (l.coinbaseOutputs db)
  let eligible := outs.flatten
  ensure (!eligible.isEmpty) (.insufficientFunds "Could not find any coinbase funds to shield.")
  let proposal ← l.proposeShieldingCoinbase db fromAddrs req.toAddress req.memo req.limit
  enforceMaxTxBytes r.counts r.limits.maxTxBytes proposal.widen
  enforceZip218Budget r.counts r.zip218BudgetApplies proposal.widen
  let inputs := proposal.head.transparentInputs
  return {
    proposal := proposal
    shieldingUtxos := inputs.length
    shieldingValue := totalValue inputs
    remainingUtxos := eligible.length - inputs.length
    remainingValue := totalValue eligible - totalValue inputs }

/-! ## Merging -/

inductive MergeSource where
  | transparent (addrs : Option (List TransparentAddress))
  | shielded (pools : List ShieldedPool)
  deriving DecidableEq, Repr

structure MergeRequest where
  source : MergeSource
  toAddress : ZcashAddress
  memo : Option (List UInt8)
  transparentLimit : Option ℕ
  shieldedLimit : Option ℕ
  privacy : SendPrivacy
  deriving DecidableEq, Repr

structure MergePlan where
  work : MergeWork
  mergingUtxos : ℕ
  mergingTransparentValue : ℕ
  mergingNotes : ℕ
  mergingShieldedValue : ℕ
  remainingUtxos : ℕ
  remainingTransparentValue : ℕ
  remainingNotes : ℕ
  remainingShieldedValue : ℕ
  deriving DecidableEq, Repr

def mergeMaxTransparentInputs : ℕ := (2000000 * 10 / 100) / 150

def mergeTransparentFee (nIn outBytes p2pkhOutSize marginal grace : ℕ) : ℕ :=
  transparentFee nIn outBytes p2pkhOutSize marginal grace

def mergeShieldedDestinationPool (dest : Address) (ironwoodActive : Bool) :
    Except RpcError PoolType :=
  if hasOrchardReceiver dest then
    .ok (if ironwoodActive then .shielded .ironwood else .shielded .orchard)
  else if hasShieldedReceiver dest then .ok (.shielded .sapling)
  else .error (.invalidParameter "Invalid parameter, toaddress has no shielded receiver")

/-- The Sapling outputs, the Orchard and the Ironwood actions a merge is priced by. -/
def mergeActionCounts (l : PlanLayer) (destPool : PoolType)
    (saplingSpends orchardSpends ironwoodSpends : ℕ) : Except RpcError (ℕ × ℕ × ℕ) := do
  let outputsIn (pool : ShieldedPool) := if destPool = .shielded pool then 1 else 0
  let saplingOut ← l.numOutputs saplingSpends (outputsIn .sapling)
  let orchardAct ← l.numActions .orchard orchardSpends (outputsIn .orchard)
  let ironwoodAct ← l.numActions .ironwood ironwoodSpends (outputsIn .ironwood)
  return (saplingOut, orchardAct, ironwoodAct)

/-- Smallest first, the outpoint breaking ties. -/
def sortForMerge (utxos : List WalletTransparentOutput) : List WalletTransparentOutput :=
  utxos.mergeSort fun u v =>
    decide (u.value < v.value ∨ u.value = v.value ∧ u.outpoint ≤ v.outpoint)

def destinationOf : Address → Option TransparentAddress
  | .transparent t => some t
  | _ => none

/-- What a merge of transparent outputs pays before its inputs. -/
def mergeDestShape (dest : Option TransparentAddress) : TxShape :=
  match dest with
  | some _ => { TxShape.default with transparentOutputs := 1 }
  | none => { TxShape.default with ironwoodActions := 1 }

def mergeDestinationPool (destAddr : Address) (ironwoodActive : Bool) : Except RpcError PoolType :=
  match destinationOf destAddr with
  | some _ => .ok .transparent
  | none => mergeShieldedDestinationPool destAddr ironwoodActive

def insufficientForMerge (selected fee : ℕ) : RpcError :=
  .insufficientFunds ("Insufficient funds: " ++ toString selected ++ " zatoshis selected, " ++
    toString fee ++ " required (including fee)")

/-- What remains of the selected value once the fee is paid, if anything does. -/
def mergePayment (selected fee : ℕ) : Except RpcError ℕ :=
  if fee < selected then .ok (selected - fee) else .error (insufficientForMerge selected fee)

def invalidPayment : RpcError :=
  .invalidParameter "invalid payment: Memo cannot be used with a transparent recipient"

/-- The single-step proposal that pays everything selected to one destination, checked. -/
def mergeProposal (l : PlanLayer) (r : Reading) (req : MergeRequest) (amount : ℕ)
    (step : Step ℕ) (privacy : SendPrivacy) : Except RpcError Unit := do
  ensure (Payment.new req.toAddress amount req.memo).isSome invalidPayment
  l.singleStep step
  enforceSendPrivacy privacy ⟨step, []⟩
  r.enforceCeilings ⟨step, []⟩

/-- The outputs a merge takes: smallest first, up to the caller's limit, the block-space cap
and what fits the size ceiling beside the destination. -/
def selectMergeUtxos (r : Reading) (req : MergeRequest) (dest : Option TransparentAddress)
    (utxos : List WalletTransparentOutput) : List WalletTransparentOutput :=
  (sortForMerge utxos).take
    (min (min (req.transparentLimit.getD usizeMax) mergeMaxTransparentInputs)
      (maxTransparentInputs r.limits.maxTxBytes (mergeDestShape dest)))

def mergeTransparentPlan (work : MergeWork) (utxos eligible : List WalletTransparentOutput) :
    MergePlan where
  work := work
  mergingUtxos := utxos.length
  mergingTransparentValue := totalValue utxos
  mergingNotes := 0
  mergingShieldedValue := 0
  remainingUtxos := eligible.length - utxos.length
  remainingTransparentValue := totalValue eligible - totalValue utxos
  remainingNotes := 0
  remainingShieldedValue := 0

def mergeAddresses (receivers : List TransparentAddress) :
    Option (List TransparentAddress) → Except RpcError (List TransparentAddress)
  | none => .ok receivers
  | some list => if ∀ a ∈ list, a ∈ receivers then .ok list else .error noPaymentSource

/-- The transparent arm: to a transparent destination without change, or to one shielded
output through a proposal. -/
def proposeMergeTransparent (cfg : SendConfig) (l : PlanLayer) (r : Reading)
    (db : List StoredTx) (req : MergeRequest) (destAddr : Address)
    (addrs : Option (List TransparentAddress)) : Except RpcError MergePlan := do
  let receivers ← l.transparentReceivers
  let fromAddrs ← mergeAddresses receivers addrs
  let outs ← fromAddrs.mapM fun addr =>
    l.spendableTransparentOutputs db addr cfg.confirmationsPolicy
  let eligible := outs.flatten
  ensure (!eligible.isEmpty) (.insufficientFunds "Could not find any funds to merge.")
  let utxos := selectMergeUtxos r req (destinationOf destAddr) eligible
  ensure (!utxos.isEmpty) (.invalidParameter ("[spend] max_tx_bytes = " ++
    toString r.limits.maxTxBytes ++
    " is too small to merge even one transparent output; raise it (0 disables the ceiling)"))
  ensure ((destinationOf destAddr).isNone || req.privacy == .allowFullyTransparent)
    insufficientPrivacyForFullyTransparent
  match destinationOf destAddr with
  | some t =>
    let fee := mergeTransparentFee utxos.length (transparentTxoutSize t) p2pkhStandardOutputSize
      marginalFee graceActions
    let amount ← mergePayment (totalValue utxos) fee
    return mergeTransparentPlan (.transparentTx utxos t amount fee) utxos eligible
  | none =>
    let destPool ← mergeShieldedDestinationPool destAddr l.ironwoodActive
    let (saplingOut, orchardAct, ironwoodAct) ← mergeActionCounts l destPool 0 0 0
    let fee ← l.feeRequired utxos.length [] 0 saplingOut orchardAct ironwoodAct
    let amount ← mergePayment (totalValue utxos) fee
    -- The privacy of a transparent source was settled above: no single-pool rule applies.
    mergeProposal l r req amount ⟨utxos, [], [destPool], []⟩ .allowFullyTransparent
    return mergeTransparentPlan (.utxoProposal ⟨⟨utxos, [], [destPool], []⟩, []⟩) utxos eligible

structure MergeSelection where
  notes : List SpendableNote
  saplingSpends : ℕ
  saplingOut : ℕ
  orchardAct : ℕ
  ironwoodAct : ℕ
  deriving DecidableEq, Repr

/-- Whether the counts a selection is built with are within the action limit and ZIP 218. -/
def MergeSelection.fits (r : Reading) (s : MergeSelection) : Bool :=
  (r.limits.orchardActionLimit == 0 ||
      decide (s.orchardAct + s.ironwoodAct ≤ r.limits.orchardActionLimit)) &&
    (!r.zip218BudgetApplies || (zip218Overflow { TxShape.default with
      orchardActions := s.orchardAct
      ironwoodActions := s.ironwoodAct
      saplingSpends := s.saplingSpends
      saplingOutputs := s.saplingOut }).isNone)

def fitMergeSelection (l : PlanLayer) (r : Reading) (destPool : PoolType)
    (fam : List SpendableNote) : Except RpcError MergeSelection := do
  let spends (pool : ShieldedPool) := fam.countP fun n => n.pool == pool
  let (saplingOut, orchardAct, ironwoodAct) ←
    mergeActionCounts l destPool (spends .sapling) (spends .orchard) (spends .ironwood)
  let selection : MergeSelection := ⟨fam, spends .sapling, saplingOut, orchardAct, ironwoodAct⟩
  if selection.fits r then return selection
  else if _h : fam.length ≤ 1 then
    .error (.invalidParameter ("[spend] orchard_action_limit = " ++
      toString r.limits.orchardActionLimit ++
      " is too small to merge even one note into this destination, which needs " ++
      toString (orchardAct + ironwoodAct) ++ " actions; raise it (0 disables the cap)"))
  else fitMergeSelection l r destPool fam.dropLast
termination_by fam.length
decreasing_by simp only [List.length_dropLast]; omega

def mergeNotesPlan (proposal : Proposal ℕ) (merging mergingValue eligible eligibleValue : ℕ) :
    MergePlan where
  work := .noteProposal proposal
  mergingUtxos := 0
  mergingTransparentValue := 0
  mergingNotes := merging
  mergingShieldedValue := mergingValue
  remainingUtxos := 0
  remainingTransparentValue := 0
  remainingNotes := eligible - merging
  remainingShieldedValue := eligibleValue - mergingValue

def noteValue (notes : List SpendableNote) : ℕ := (notes.map (·.value)).sum

/-- What a merge of notes pays before its inputs, with one spare Orchard-family bundle. -/
def mergeNotesShape (dest : Option TransparentAddress) : TxShape :=
  { TxShape.default with
    transparentOutputs := if dest.isSome then 1 else 0
    orchardActions := 1 }

def mergeAllFits (r : Reading) (limit : ℕ) (dest : Option TransparentAddress)
    (saplingN orchardFamilyN : ℕ) : Bool :=
  decide (saplingN + orchardFamilyN ≤ limit) &&
    (r.limits.orchardActionLimit == 0 ||
      decide (orchardFamilyN ≤ r.limits.orchardActionLimit)) &&
    (decide (orchardFamilyN ≤ maxOrchardFamilyActionsAlongside r.limits.maxTxBytes
        (mergeNotesShape dest)) &&
      decide (saplingN ≤ maxSaplingSpends r.limits.maxTxBytes (mergeNotesShape dest))) &&
    (!r.zip218BudgetApplies ||
      (decide (saplingN + orchardFamilyN + 2 ≤ zip218ShieldedBudget) &&
        decide (saplingN + 2 ≤ zip218SaplingLimit)))

def mergeNotesCap (r : Reading) (limit : ℕ) (dest : Option TransparentAddress)
    (familyIsSapling : Bool) : ℕ :=
  let familyBytesCap :=
    maxOrchardFamilyActionsAlongside r.limits.maxTxBytes (mergeNotesShape dest)
  let cap :=
    if familyIsSapling then min limit (maxSaplingSpends r.limits.maxTxBytes (mergeNotesShape dest))
    else if 0 < r.limits.orchardActionLimit then
      min (min limit r.limits.orchardActionLimit) familyBytesCap
    else min limit familyBytesCap
  if !r.zip218BudgetApplies then cap
  else if familyIsSapling then min cap zip218SaplingLimit
  else min cap zip218ShieldedBudget

/-- A limit binds: one pool family, smallest notes first. -/
def proposeMergeBounded (l : PlanLayer) (r : Reading) (req : MergeRequest) (destAddr : Address)
    (notes : List SpendableNote) (limit saplingN orchardFamilyN : ℕ) :
    Except RpcError MergePlan := do
  let dest := destinationOf destAddr
  let familyIsSapling := decide (orchardFamilyN ≤ saplingN)
  let cap := mergeNotesCap r limit dest familyIsSapling
  ensure (cap != 0) (.invalidParameter ("[spend] max_tx_bytes = " ++
    toString r.limits.maxTxBytes ++
    " is too small to merge even one note; raise it (0 disables the ceiling)"))
  let family := notes.filter fun n => familyIsSapling != isOrchardFamily (.shielded n.pool)
  let fam := (family.mergeSort fun m n => decide (m.value ≤ n.value)).take cap
  let destPool ← mergeDestinationPool destAddr l.ironwoodActive
  let outSizes := (dest.map transparentTxoutSize).toList
  let s ← fitMergeSelection l r destPool fam
  let fee ← l.feeRequired 0 outSizes s.saplingSpends s.saplingOut s.orchardAct s.ironwoodAct
  let amount ← mergePayment (noteValue s.notes) fee
  ensure (!s.notes.isEmpty) (.misc "empty merge selection")
  let step : Step ℕ := ⟨[], s.notes.map (·.toReceivedNote), [destPool], []⟩
  mergeProposal l r req amount step req.privacy
  return mergeNotesPlan ⟨step, []⟩ s.notes.length (noteValue s.notes) notes.length
    (noteValue notes)

def proposeMergeShielded (cfg : SendConfig) (l : PlanLayer) (r : Reading) (db : List StoredTx)
    (req : MergeRequest) (destAddr : Address) (pools : List ShieldedPool) :
    Except RpcError MergePlan := do
  let notes ← l.selectSpendableNotes db pools cfg.confirmationsPolicy
  let saplingN := notes.countP fun n => n.pool == .sapling
  let orchardFamilyN := notes.countP fun n => isOrchardFamily (.shielded n.pool)
  ensure (!notes.isEmpty) (.insufficientFunds "Could not find any funds to merge.")
  let limit := req.shieldedLimit.getD usizeMax
  if mergeAllFits r limit (destinationOf destAddr) saplingN orchardFamilyN then
    let proposal ←
      l.proposeSendMaxTransfer db pools req.toAddress req.memo cfg.confirmationsPolicy
    enforceSendPrivacy req.privacy proposal
    r.enforceCeilings proposal
    return mergeNotesPlan proposal notes.length (noteValue notes) notes.length (noteValue notes)
  else proposeMergeBounded l r req destAddr notes limit saplingN orchardFamilyN

def proposeMergeToAddress (cfg : SendConfig) (l : PlanLayer) (r : Reading) (db : List StoredTx)
    (req : MergeRequest) : Except RpcError MergePlan := do
  spendingKey l.toWalletLayer
  ensure (match req.source with
      | .transparent _ => req.privacy.allowsTransparentInputs
      | .shielded _ => true) (insufficientPrivacyForTransparentSender req.privacy)
  l.syncToTipForSend
  l.requireAccount
  let _ ← l.targetHeight
  match req.toAddress.convertIfNetwork cfg.network with
  | none => .error (.invalidParameter "Invalid parameter, unknown address format")
  | some destAddr =>
    match req.source with
    | .transparent addrs => proposeMergeTransparent cfg l r db req destAddr addrs
    | .shielded pools => proposeMergeShielded cfg l r db req destAddr pools

end Zecd
