import Mathlib
import Zecd.Send.Request

/-! # Proposals, transactions and the wallet layer

A proposal fixes what a transaction spends and pays. `WalletLayer` collects what the
calls into the wallet database, the prover and the upstream answer while the actor
handles one event; everything zecd itself decides is a definition over it.
-/

namespace Zecd

open Fallible

abbrev TxId := ℕ

/-- A note a proposal spends. The reference type is empty where a proposal holds no notes. -/
structure ReceivedNote (ν : Type) where
  noteRef : ν
  pool : ShieldedPool
  deriving DecidableEq, Repr

structure WalletTransparentOutput where
  outpoint : ℕ
  recipientAddress : TransparentAddress
  value : ℕ
  deriving DecidableEq, Repr

/-- One transaction of a proposal: its inputs, the pool of each payment, and of each change
output. -/
structure Step (ν : Type) where
  transparentInputs : List WalletTransparentOutput
  shieldedInputs : List (ReceivedNote ν)
  paymentPools : List PoolType
  proposedChange : List PoolType
  deriving DecidableEq, Repr

/-- The steps of a proposal: at least one, each its own transaction. -/
structure Proposal (ν : Type) where
  head : Step ν
  tail : List (Step ν)
  deriving DecidableEq, Repr

/-- What a transaction spends, as the double-spend argument sees it. -/
inductive Input where
  | note (pool : ShieldedPool) (noteRef : ℕ)
  | utxo (outpoint : ℕ)
  deriving DecidableEq, Repr

def Step.inputs (step : Step ℕ) : List Input :=
  step.transparentInputs.map (fun u => .utxo u.outpoint) ++
    step.shieldedInputs.map (fun n => .note n.pool n.noteRef)

/-- A proposal without notes, read as one that could hold them. -/
def Step.widen (step : Step Empty) : Step ℕ where
  transparentInputs := step.transparentInputs
  shieldedInputs := step.shieldedInputs.map fun n => ⟨n.noteRef.elim, n.pool⟩
  paymentPools := step.paymentPools
  proposedChange := step.proposedChange

@[simp] theorem Step.widen_shieldedInputs (step : Step Empty) :
    step.widen.shieldedInputs = [] := by
  cases h : step.shieldedInputs with
  | nil => simp [widen, h]
  | cons n => exact n.noteRef.elim

def Proposal.steps {ν : Type} (p : Proposal ν) : List (Step ν) := p.head :: p.tail

/-- Whether the inputs, payments or change of a step touch the pool. -/
def Step.involves {ν : Type} (step : Step ν) (pool : PoolType) : Bool :=
  (match pool with
    | .transparent => !step.transparentInputs.isEmpty
    | .shielded p => step.shieldedInputs.any (fun n => n.pool == p)) ||
  step.paymentPools.any (· == pool) || step.proposedChange.any (· == pool)

def singlePoolViolated (transparent sapling orchard ironwood : Bool) : Bool :=
  transparent || decide (1 < ([sapling, orchard, ironwood].filter id).length)

/-- `FullPrivacy`: every step stays within a single shielded pool. -/
def enforceFullPrivacy {ν : Type} (p : Proposal ν) : Except RpcError Unit :=
  ensure (p.steps.all fun step =>
      !singlePoolViolated (step.involves .transparent) (step.involves (.shielded .sapling))
        (step.involves (.shielded .orchard)) (step.involves (.shielded .ironwood)))
    (.invalidParameter
      ("Privacy policy FullPrivacy rejects this send: it would leave a single shielded pool " ++
        "(a transparent component, or a crossing between two shielded pools - Sapling, " ++
        "Orchard or Ironwood - that reveals the transferred amount on-chain). Set [spend] " ++
        "privacy_policy = \"AllowRevealedRecipients\" to permit this."))

def enforceSingleStep {ν : Type} (p : Proposal ν) : Except RpcError Unit :=
  ensure (decide (p.steps.length ≤ 1))
    (.wallet ("multi-transaction proposals are not supported (this send would need " ++
      toString p.steps.length ++ " transactions)"))

theorem enforceSingleStep_ok {ν : Type} {p : Proposal ν} {u : Unit} :
    enforceSingleStep p = .ok u ↔ p.tail = [] := by
  simp [enforceSingleStep, Proposal.steps]

structure ConfirmationsPolicy where
  trusted : ℕ
  untrusted : ℕ
  deriving DecidableEq, Repr

structure SendArgs where
  request : TransactionRequest
  confirmations : Option ConfirmationsPolicy
  privacy : SendPrivacy
  source : SendSource
  deriving DecidableEq, Repr

/-- A send with the reply channel its caller waits on. -/
structure PendingSend extends SendArgs where
  reply : ℕ
  deriving DecidableEq, Repr

/-- The code path that builds and stores a transaction. -/
inductive Route
  | inline | fused | pipelined | transparent | shieldCoinbase | mergeProposal | mergeTransparent
  deriving DecidableEq, Repr

/-- Whether the path reads the raw bytes back from the database after the store. The two
transparent builds serialize the transaction before they store it. -/
def Route.readsBack : Route → Bool
  | transparent | mergeTransparent => false
  | inline | fused | pipelined | shieldCoinbase | mergeProposal => true

/-- A transaction the actor committed to the wallet database: its inputs are marked spent and
its bytes are offered to the rebroadcast loop until `expiry` (0 = never expires). -/
structure StoredTx where
  txid : TxId
  expiry : ℕ
  route : Route
  step : Step ℕ
  reply : ℕ
  deriving DecidableEq, Repr

def spentInputs (db : List StoredTx) : List Input := db.flatMap fun t => t.step.inputs

structure BroadcastOutcome where
  errorCode : ℤ
  errorMessage : String
  deriving DecidableEq, Repr

def BroadcastOutcome.isAccepted (o : BroadcastOutcome) : Bool := o.errorCode == 0

/-- One broadcast: whether the upstream took the transaction, and the verdict that reached the
wallet (`none` for a transport failure or a timeout). -/
structure BroadcastReply where
  delivered : Bool
  verdict : Option BroadcastOutcome
  deriving DecidableEq, Repr

structure WalletLayer where
  syncToTipForSend : Except RpcError Unit
  requireAccount : Except RpcError Unit
  accountIndex : Except RpcError Unit
  deriveUsk : Except RpcError Unit
  requireProver : Except RpcError Unit
  orchardKeys : Except RpcError Unit
  /-- `propose_transfer`, with its errors classified. -/
  proposeTransfer : List StoredTx → TransactionRequest → ConfirmationsPolicy → SpendPolicy →
    Except RpcError (Proposal ℕ)
  /-- The action, size and ZIP-218 ceilings on a built proposal. -/
  enforceCeilings : Proposal ℕ → Except RpcError Unit
  createPczt : Proposal ℕ → Except RpcError Unit
  proveSign : Step ℕ → Except RpcError Unit
  /-- The call that stores the transaction: its txid and expiry height. -/
  store : Route → List StoredTx → Step ℕ → Except RpcError (TxId × ℕ)
  readRawTx : TxId → Except RpcError Unit
  targetHeight : Except RpcError ℕ
  transparentReceivers : Except RpcError (List TransparentAddress)
  spendableTransparentOutputs : List StoredTx → TransparentAddress → ConfirmationsPolicy →
    Except RpcError (List WalletTransparentOutput)
  /-- The change address: the internal gap frontier, else a fresh external address. -/
  changeAddress : Except RpcError TransparentAddress
  /-- Whether a client is connected, or connecting now succeeds. -/
  connected : Bool
  broadcastTx : TxId → BroadcastReply

namespace WalletLayer

/-- Input selection returns only what no stored transaction marks spent. -/
structure SelectsUnspent (w : WalletLayer) : Prop where
  propose : ∀ {db request policy spend p}, w.proposeTransfer db request policy spend = .ok p →
    ∀ i ∈ p.head.inputs, i ∉ spentInputs db
  utxos : ∀ {db addr policy us}, w.spendableTransparentOutputs db addr policy = .ok us →
    ∀ u ∈ us, Input.utxo u.outpoint ∉ spentInputs db

/-- A proposal's inputs are ones its spend policy permits. -/
structure HonoursPolicy (w : WalletLayer) : Prop where
  transparent : ∀ {db request policy spend p}, w.proposeTransfer db request policy spend = .ok p →
    spend.transparent.isNone → p.head.transparentInputs = []
  shielded : ∀ {db request policy spend p}, w.proposeTransfer db request policy spend = .ok p →
    ∀ n ∈ p.head.shieldedInputs, n.pool ∈ spend.shielded

end WalletLayer

/-- Whether a payment to the address may be made in the pool: a shielded receiver takes
precedence over a transparent one. -/
def Address.PaysInto (addr : Address) (pool : PoolType) : Prop :=
  addr.canReceiveAs pool = true ∧ (pool = .transparent → hasShieldedReceiver addr = false)

/-- A proposal contains exactly the requested payments, with change in the configured pool. A
payment through a TEX address needs an ephemeral hop, hence a second step. -/
structure WalletLayer.PaysRequest (net : NetworkType) (changePool : ShieldedPool)
    (w : WalletLayer) : Prop where
  payments : ∀ {db request policy spend p}, w.proposeTransfer db request policy spend = .ok p →
    p.tail = [] → List.Forall₂ (fun (pay : Payment) pool => pay.amount.isSome ∧
      ∃ addr, pay.recipientAddress.convertIfNetwork net = some addr ∧
        (∀ t, addr ≠ .tex t) ∧ addr.PaysInto pool) request.payments p.head.paymentPools
  change : ∀ {db request policy spend p}, w.proposeTransfer db request policy spend = .ok p →
    ∀ pool ∈ p.head.proposedChange, pool = .shielded changePool ∨
      (changePool = .orchard ∧ pool = .shielded .ironwood)

end Zecd
