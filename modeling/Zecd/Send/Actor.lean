import Zecd.Send.Proposal

/-! # The send paths of the wallet actor

Every path a payment takes through the single-writer actor: the RPC entry points and
`Node::send`, the routing of a `Send` command (`begin_or_queue_send`), the inline, fused,
fully transparent and pipelined builds, merge and shield-coinbase executions, the
broadcast of a stored transaction and the rebroadcast pass.
-/

namespace Zecd

open Fallible

inductive Receiver | sapling | orchard
  deriving DecidableEq, Repr

structure SendConfig where
  network : NetworkType
  enabledPools : List Receiver
  /-- `[spend] cache_proving_key`: the Orchard proving key is held. -/
  orchardKeys : Bool
  pipelineProving : Bool
  confirmationsPolicy : ConfirmationsPolicy
  /-- `[spend] privacy_policy`. -/
  privacy : SendPrivacy
  allowDuplicateShieldedRecipients : Bool
  deriving DecidableEq, Repr

namespace SendConfig

def changePool (cfg : SendConfig) : ShieldedPool :=
  if .orchard ∈ cfg.enabledPools then .orchard
  else match cfg.enabledPools.head? with
    | some .sapling => .sapling
    | _ => .orchard

def cachedPcztPath (cfg : SendConfig) : Bool :=
  cfg.orchardKeys && !decide (.sapling ∈ cfg.enabledPools)

def pipelineEligible (cfg : SendConfig) : Bool := cfg.pipelineProving && cfg.cachedPcztPath

end SendConfig

def maxQueuedSends : ℕ := 64

def insufficientPrivacyForTransparentSender (privacy : SendPrivacy) : RpcError :=
  .wallet ("Insufficient privacy policy to allow transparent sender: " ++ privacy.policyName ++
    " does not permit funding a send from transparent UTXOs (which reveals the sender's " ++
    "addresses and amounts). Use privacyPolicy \"AllowRevealedSenders\" or weaker to allow " ++
    "this transaction to proceed.")

def insufficientPrivacyForFullyTransparent : RpcError :=
  .wallet ("Insufficient privacy policy to allow a transparent recipient paid from transparent " ++
    "funds (a fully transparent transaction). Use privacyPolicy \"AllowFullyTransparent\" or " ++
    "\"NoPrivacy\" to allow this transaction to proceed.")

/-! ## Entry points -/

def privacyFromPolicy (s : Option String) (default : SendPrivacy) : Except RpcError SendPrivacy :=
  match s with
  | none | some "LegacyCompat" => .ok default
  | some "FullPrivacy" => .ok .fullPrivacy
  | some "AllowRevealedAmounts" => .ok .allowRevealedAmounts
  | some "AllowRevealedRecipients" => .ok .allowRevealedRecipients
  | some "AllowRevealedSenders" | some "AllowLinkingAccountAddresses" => .ok .allowRevealedSenders
  | some "AllowFullyTransparent" | some "NoPrivacy" => .ok .allowFullyTransparent
  | some other => .error (.invalidParameter ("Unknown privacy policy: " ++ other))

/-- The `fromaddress` of `z_sendmany`: a wildcard, or an address with what the wallet's address
index says about it. -/
inductive FromAddress where
  | anyTaddr
  | anySapling
  | anyOrchard
  | anySprout
  | address (decoded : Option Address) (inconsistent : Option String) (isMine : Bool)
  deriving DecidableEq, Repr

def shieldedFamilyOf (addr : Address) : Option ShieldedFamily :=
  match addr.canReceiveAs (.shielded .sapling), addr.canReceiveAs (.shielded .orchard) with
  | true, false => some .sapling
  | false, true => some .orchard
  | _, _ => none

def FromAddress.source : FromAddress → Except RpcError SendSource
  | anyTaddr => .ok (.transparent none)
  | anySapling => .ok (.shieldedFamily .sapling)
  | anyOrchard => .ok (.shieldedFamily .orchard)
  | anySprout => .error (.invalidParameter "Invalid parameter, Sprout is not supported")
  | address none _ _ => .error (.invalidAddressOrKey
      "Invalid from address: should be a taddr, zaddr, or unified address")
  | address (some _) (some why) _ => .error (.invalidAddressOrKey why)
  | address (some _) none false => .error (.invalidAddressOrKey
      "Invalid from address, no payment source found for address.")
  | address (some (.transparent t)) none true => .ok (.transparent (some t))
  | address (some other) none true => .ok (((shieldedFamilyOf other).map .shieldedFamily).getD
      .shielded)

/-- One `{address, amount, memo}` entry; `amount` is what `value_to_zats` made of it. -/
structure OutputArg where
  address : RecipientArg
  amount : Except RpcError ℕ
  memo : MemoArg

def OutputArg.decoded (cfg : SendConfig) (out : OutputArg) : Option Address :=
  out.address.parsed.bind (·.convertIfNetwork cfg.network)

def OutputArg.shieldedRecipient (cfg : SendConfig) (out : OutputArg) : Bool :=
  (out.decoded cfg).any hasShieldedReceiver

def OutputArg.payment (cfg : SendConfig) (privacy : SendPrivacy) (allowZero : Bool)
    (out : OutputArg) : Except RpcError Payment :=
  buildPayment cfg.network privacy out.address out.amount out.memo allowZero

/-- The payments of `z_sendmany`: `seen` holds the addresses of the entries already read, and a
repeated one is refused unless it is shielded and repetition is configured. -/
def zSendManyPayments (cfg : SendConfig) (privacy : SendPrivacy) :
    List String → List OutputArg → Except RpcError (List Payment)
  | _, [] => .ok []
  | seen, out :: rest => do
    ensure (!decide (out.address.text ∈ seen) ||
        (out.shieldedRecipient cfg && cfg.allowDuplicateShieldedRecipients))
      (.invalidParameter ("Invalid parameter, duplicated recipient address: " ++
        out.address.text ++
        if out.shieldedRecipient cfg then
          " (set [rpc] allow_duplicate_shielded_recipients to permit repeated shielded recipients)"
        else ""))
    let payment ← out.payment cfg privacy true
    let payments ← zSendManyPayments cfg privacy (out.address.text :: seen) rest
    return payment :: payments

/-- The calls that end in a `Send` command. -/
inductive Entry where
  | sendToAddress (out : OutputArg)
  | sendMany (outs : List OutputArg)
  | zSendMany (fromAddress : FromAddress) (outs : List OutputArg)
      (minconf : Except RpcError ConfirmationsPolicy) (privacyPolicy : Option String)
  | nodeSend (request : TransactionRequest) (minconf : Option ConfirmationsPolicy)
      (privacy : Option SendPrivacy) (source : SendSource)

/-- The command an entry point hands the actor, or the error it answers on its own. -/
def Entry.args (cfg : SendConfig) : Entry → Except RpcError SendArgs
  | sendToAddress out => do
    let payment ← out.payment cfg cfg.privacy false
    return ⟨⟨[payment]⟩, none, cfg.privacy, .unspecified⟩
  | sendMany outs => do
    let payments ← outs.mapM (·.payment cfg cfg.privacy false)
    ensure (!payments.isEmpty) (.invalidParameter "sendmany requires at least one recipient")
    return ⟨⟨payments⟩, none, cfg.privacy, .unspecified⟩
  | zSendMany fromAddress outs minconf privacyPolicy => do
    let source ← fromAddress.source
    ensure (!outs.isEmpty) (.invalidParameter "Invalid parameter, amounts array is empty.")
    let privacy ← privacyFromPolicy privacyPolicy cfg.privacy
    ensure (!source.isTransparent || privacy.allowsTransparentInputs)
      (insufficientPrivacyForTransparentSender privacy)
    let policy ← minconf
    let payments ← zSendManyPayments cfg privacy [] outs
    let hasTransparentRecipient := outs.any fun out =>
      (out.decoded cfg).isSome && !out.shieldedRecipient cfg
    ensure (!(source.isTransparent && hasTransparentRecipient &&
      privacy != .allowFullyTransparent)) insufficientPrivacyForFullyTransparent
    return ⟨⟨payments⟩, some policy, privacy, source⟩
  | nodeSend request minconf privacy source =>
    return ⟨request, minconf, privacy.getD cfg.privacy, source⟩

/-! ## Building a transaction -/

def enforceSendPrivacy (privacy : SendPrivacy) (p : Proposal ℕ) : Except RpcError Unit :=
  if privacy = .fullPrivacy then enforceFullPrivacy p else .ok ()

/-- The checks on a built proposal: one step, the single-pool rule and the ceilings. -/
def enforceProposal (w : WalletLayer) (privacy : SendPrivacy) (p : Proposal ℕ) :
    Except RpcError Unit := do
  enforceSingleStep p
  enforceSendPrivacy privacy p
  w.enforceCeilings p

/-- Phase A of the cached-key path: select inputs and build the PCZT. -/
def buildProposalAndPczt (cfg : SendConfig) (w : WalletLayer) (db : List StoredTx)
    (a : SendArgs) : Except RpcError (Step ℕ) := do
  w.requireAccount
  let p ← w.proposeTransfer db a.request (a.confirmations.getD cfg.confirmationsPolicy)
    (spendPolicyForSource a.source)
  enforceProposal w a.privacy p
  w.createPczt p
  return p.head

/-- The fused path up to the call that builds, proves and stores under one borrow. -/
def prepareFused (cfg : SendConfig) (w : WalletLayer) (db : List StoredTx) (a : SendArgs) :
    Except RpcError (Step ℕ) := do
  w.requireAccount
  w.requireProver
  let p ← w.proposeTransfer db a.request (a.confirmations.getD cfg.confirmationsPolicy)
    (spendPolicyForSource a.source)
  enforceProposal w a.privacy p
  return p.head

def transparentTxoutSize : TransparentAddress → ℕ
  | .publicKeyHash _ => 8 + 1 + 25
  | .scriptHash _ => 8 + 1 + 23

def marginalFee : ℕ := 5000
def graceActions : ℕ := 2
def p2pkhStandardOutputSize : ℕ := 34

/-- The ZIP-317 fee of `nIn` P2PKH inputs and outputs of `outBytes` serialized bytes. -/
def transparentFee (nIn outBytes p2pkhOutSize marginal grace : ℕ) : ℕ :=
  marginal * max grace (max nIn ((outBytes + p2pkhOutSize - 1) / p2pkhOutSize))

/-- The loop of `select_transparent_inputs`: `nIn` inputs worth `total` are taken so far. -/
def selectTransparentInputsFrom (recipientsTotal recipOutSize changeOutSize p2pkhOutSize
    marginal grace : ℕ) : ℕ → ℕ → List ℕ → Option (ℕ × ℕ × ℕ × Bool)
  | _, _, [] => none
  | nIn, total, v :: vs =>
    let total := total + v
    let nIn := nIn + 1
    let feeC := transparentFee nIn (recipOutSize + changeOutSize) p2pkhOutSize marginal grace
    let feeN := transparentFee nIn recipOutSize p2pkhOutSize marginal grace
    let rest := selectTransparentInputsFrom recipientsTotal recipOutSize changeOutSize
      p2pkhOutSize marginal grace nIn total vs
    if recipientsTotal + feeC ≤ total then
      let change := total - recipientsTotal - feeC
      if 0 < change then some (nIn, change, feeC, true)
      else if total = recipientsTotal + feeN then some (nIn, 0, feeN, false)
      else rest
    else if total = recipientsTotal + feeN then some (nIn, 0, feeN, false)
    else rest

/-- Greedy selection over values sorted largest first: the number of inputs, the change, the
fee and whether a change output is kept. -/
def selectTransparentInputs (valuesDesc : List ℕ) (recipientsTotal recipOutSize changeOutSize
    p2pkhOutSize marginal grace : ℕ) : Option (ℕ × ℕ × ℕ × Bool) :=
  selectTransparentInputsFrom recipientsTotal recipOutSize changeOutSize p2pkhOutSize marginal
    grace 0 0 valuesDesc

/-- The fully transparent path up to its store: largest outputs first, change kept transparent. -/
def prepareTransparent (cfg : SendConfig) (w : WalletLayer) (db : List StoredTx) (a : SendArgs)
    (recipients : List (TransparentAddress × ℕ)) (fromAddress : Option TransparentAddress) :
    Except RpcError (Step ℕ) := do
  w.requireProver
  let _ ← w.targetHeight
  let receivers ← w.transparentReceivers
  let outs ← (receivers.filter fun addr => fromAddress.all (· == addr)).mapM fun addr =>
    w.spendableTransparentOutputs db addr (a.confirmations.getD cfg.confirmationsPolicy)
  let utxos := outs.flatten.mergeSort fun u v => decide (v.value ≤ u.value)
  ensure (!utxos.isEmpty) (.insufficientFunds "Insufficient funds: 0 spendable transparent UTXOs")
  match selectTransparentInputs (utxos.map (·.value)) (recipients.map (·.2)).sum
      (recipients.map (transparentTxoutSize ·.1)).sum (8 + 1 + 25) p2pkhStandardOutputSize
      marginalFee graceActions with
  | none => .error (.insufficientFunds
      "Insufficient funds: transparent UTXOs do not cover the amount plus fee")
  | some (n, _, _, hasChange) =>
    if hasChange then
      let _ ← w.changeAddress
      return ⟨utxos.take n, [], recipients.map fun _ => .transparent, [.transparent]⟩
    else
      return ⟨utxos.take n, [], recipients.map fun _ => .transparent, []⟩

/-- The actor's own gates for a transparent funding source. -/
def transparentSourceGates (cfg : SendConfig) (a : SendArgs) : Except RpcError Unit :=
  if a.source.isTransparent then do
    ensure a.privacy.allowsTransparentInputs (insufficientPrivacyForTransparentSender a.privacy)
    ensure (a.privacy == .allowFullyTransparent ||
      !requestPaysTransparentOutput cfg.network a.request) insufficientPrivacyForFullyTransparent
  else .ok ()

/-- The recipients of a send that takes the fully transparent path. -/
def fullyTransparentRecipients (cfg : SendConfig) (a : SendArgs) :
    Except RpcError (Option (List (TransparentAddress × ℕ))) :=
  if a.privacy = .allowFullyTransparent ∧ a.source.isShielded = false then
    transparentOnlyRecipients cfg.network a.request
  else .ok none

/-- `do_send` up to the call that stores the transaction. -/
def prepareSend (cfg : SendConfig) (w : WalletLayer) (db : List StoredTx) (a : SendArgs) :
    Except RpcError (Route × Step ℕ) := do
  transparentSourceGates cfg a
  w.syncToTipForSend
  w.requireAccount
  w.accountIndex
  w.deriveUsk
  match ← fullyTransparentRecipients cfg a with
  | some recipients => do
    let fromAddress := match a.source with
      | .transparent t => t
      | _ => none
    let step ← prepareTransparent cfg w db a recipients fromAddress
    return (.transparent, step)
  | none =>
    if !cfg.cachedPcztPath || requestPaysSaplingOutput cfg.network a.request ||
        a.source.isTransparent then do
      let step ← prepareFused cfg w db a
      return (.fused, step)
    else do
      let step ← buildProposalAndPczt cfg w db a
      w.orchardKeys
      w.requireProver
      w.proveSign step
      return (.inline, step)

/-- `start_pipelined_send` up to the point where the proof is handed to a blocking thread. -/
def preparePipelined (cfg : SendConfig) (w : WalletLayer) (db : List StoredTx) (a : SendArgs) :
    Except RpcError (Step ℕ) := do
  w.syncToTipForSend
  w.accountIndex
  w.deriveUsk
  let step ← buildProposalAndPczt cfg w db a
  w.requireProver
  w.orchardKeys
  return step

/-! ## State -/

/-- A PCZT being proved off the actor, whose completion has not been consumed. -/
structure ProofJob where
  send : PendingSend
  step : Step ℕ
  deriving DecidableEq, Repr

inductive MergeWork where
  | utxoProposal (proposal : Proposal Empty)
  | noteProposal (proposal : Proposal ℕ)
  | transparentTx (inputs : List WalletTransparentOutput) (dest : TransparentAddress)
      (amount fee : ℕ)
  deriving DecidableEq, Repr

inductive Command where
  | send (entry : Entry)
  | executeShieldCoinbase (proposal : Proposal Empty)
  | executeMergeToAddress (work : MergeWork)

/-- A command a client issued, and the payment it means to make. -/
structure Attempt where
  payment : ℕ
  command : Command

/-- The actor's pipeline fields and the transactions it stored, with what its clients and the
upstream have seen: the commands issued (a reply channel is an index into them), the replies,
and the transactions the upstream took. -/
structure SendState where
  stored : List StoredTx
  sendInFlight : Bool
  proofs : List ProofJob
  sendQueue : List PendingSend
  attempts : List Attempt
  replies : List (ℕ × Except RpcError TxId)
  accepted : List TxId

def SendState.init : SendState := ⟨[], false, [], [], [], [], []⟩

def SendState.reply (s : SendState) (r : ℕ) (res : Except RpcError TxId) : SendState :=
  { s with replies := s.replies ++ [(r, res)] }

/-- A client issues a command; the attempt's index is its reply channel. -/
def SendState.issue (s : SendState) (payment : ℕ) (cmd : Command) : SendState :=
  { s with attempts := s.attempts ++ [⟨payment, cmd⟩] }

/-! ## Broadcast -/

inductive AlreadyKnown | no | inMempool | inChain
  deriving DecidableEq, Repr

def asciiLowercase (msg : String) : List Char :=
  msg.toList.map fun c => if 'A' ≤ c ∧ c ≤ 'Z' then Char.ofNat (c.toNat + 32) else c

def upstreamAlreadyHasTx (msg : String) : AlreadyKnown :=
  let m := asciiLowercase msg
  let contains (p : String) : Bool := decide (p.toList <:+: m)
  if !contains "already" then .no
  else if contains "mempool" || contains "known" then .inMempool
  else if contains "chain" || contains "in state" then .inChain
  else .no

/-- Strip control characters and keep at most 200 of the rest. -/
def sanitizeUpstreamMsg (msg : String) : String :=
  let printable := msg.toList.filter fun c => !(c.toNat < 32 || (127 ≤ c.toNat && c.toNat < 160))
  String.ofList (printable.take 200) ++ if 200 < printable.length then "..." else ""

def rpcVerifyRejected (o : BroadcastOutcome) : RpcError :=
  ⟨-26, "transaction rejected (code " ++ toString o.errorCode ++ "): " ++
    sanitizeUpstreamMsg o.errorMessage⟩

/-- What `broadcast_committed` answers for a verdict. A transport failure is a success: the
stored transaction rides the rebroadcast loop. -/
def verdictResult : Option BroadcastOutcome → Except RpcError Unit
  | none => .ok ()
  | some o =>
    if o.isAccepted || upstreamAlreadyHasTx o.errorMessage != .no then .ok ()
    else .error (rpcVerifyRejected o)

def SendState.upstreamTook (s : SendState) (r : BroadcastReply) (txid : TxId) : SendState :=
  if r.delivered then { s with accepted := s.accepted ++ [txid] } else s

def broadcastCommitted (w : WalletLayer) (s : SendState) (txid : TxId) :
    SendState × Except RpcError Unit :=
  if w.connected then
    (s.upstreamTook (w.broadcastTx txid) txid, verdictResult (w.broadcastTx txid).verdict)
  else (s, .ok ())

/-- What happens once the transaction is in the database: the read back and the broadcast. -/
def afterStore (w : WalletLayer) (route : Route) (s : SendState) (txid : TxId) :
    SendState × Except RpcError TxId :=
  match if route.readsBack then w.readRawTx txid else .ok () with
  | .error e => (s, .error e)
  | .ok _ =>
    match broadcastCommitted w s txid with
    | (s', .ok _) => (s', .ok txid)
    | (s', .error e) => (s', .error e)

/-- Store a built transaction, read its bytes back where the path does, and broadcast it. -/
def commit (w : WalletLayer) (route : Route) (s : SendState) (reply : ℕ) (step : Step ℕ) :
    SendState × Except RpcError TxId :=
  match w.store route s.stored step with
  | .error e => (s, .error e)
  | .ok (txid, expiry) =>
    afterStore w route { s with stored := s.stored ++ [⟨txid, expiry, route, step, reply⟩] } txid

/-! ## Commands -/

def doSend (cfg : SendConfig) (w : WalletLayer) (s : SendState) (p : PendingSend) :
    SendState × Except RpcError TxId :=
  match prepareSend cfg w s.stored p.toSendArgs with
  | .error e => (s, .error e)
  | .ok (route, step) => commit w route s p.reply step

/-- Phase A on the actor; on success the proof is spawned and `send_in_flight` set. -/
def startPipelinedSend (cfg : SendConfig) (w : WalletLayer) (s : SendState) (p : PendingSend) :
    SendState :=
  match preparePipelined cfg w s.stored p.toSendArgs with
  | .error e => s.reply p.reply (.error e)
  | .ok step => { s with sendInFlight := true, proofs := s.proofs ++ [⟨p, step⟩] }

/-- The sends that run inline whatever is in flight. -/
def runsInline (cfg : SendConfig) (a : SendArgs) : Bool :=
  a.privacy == .allowFullyTransparent || a.source.isTransparent || !cfg.pipelineEligible ||
    requestPaysSaplingOutput cfg.network a.request

def beginOrQueueSend (cfg : SendConfig) (w : WalletLayer) (s : SendState) (p : PendingSend) :
    SendState :=
  if runsInline cfg p.toSendArgs then
    let (s', res) := doSend cfg w s p
    s'.reply p.reply res
  else if s.sendInFlight then
    if maxQueuedSends ≤ s.sendQueue.length then
      s.reply p.reply (.error (.wallet ("too many sends queued behind an in-flight proof (" ++
        toString maxQueuedSends ++ "); retry shortly")))
    else { s with sendQueue := s.sendQueue ++ [p] }
  else startPipelinedSend cfg w s p

/-- Start queued sends until one is in flight; each start has its own wallet layer. -/
def pumpFrom (cfg : SendConfig) : (ℕ → WalletLayer) → List PendingSend → SendState → SendState
  | _, [], s => s
  | ws, p :: ps, s =>
    if s.sendInFlight then s
    else pumpFrom cfg (fun i => ws (i + 1)) ps
      (startPipelinedSend cfg (ws 0) { s with sendQueue := ps } p)

def pumpSendQueue (cfg : SendConfig) (ws : ℕ → WalletLayer) (s : SendState) : SendState :=
  pumpFrom cfg ws s.sendQueue s

/-- Phase C of a pipelined send: store the proven transaction, broadcast it and reply. -/
def finishSend (w : WalletLayer) (s : SendState) (job : ProofJob) : SendState :=
  let s := { s with sendInFlight := false }
  match w.proveSign job.step, w.orchardKeys with
  | .error e, _ => s.reply job.send.reply (.error e)
  | .ok _, .error e => s.reply job.send.reply (.error e)
  | .ok _, .ok _ =>
    let (s', res) := commit w .pipelined s job.send.reply job.step
    s'.reply job.send.reply res

def spendingKey (w : WalletLayer) : Except RpcError Unit := do
  w.accountIndex
  w.deriveUsk

def prepareShieldCoinbase (w : WalletLayer) (proposal : Proposal Empty) :
    Except RpcError (Route × Step ℕ) := do
  spendingKey w
  w.requireProver
  enforceSingleStep proposal
  return (.shieldCoinbase, proposal.head.widen)

/-- `do_execute_merge_to_address` up to its store. -/
def prepareMerge (w : WalletLayer) (work : MergeWork) : Except RpcError (Route × Step ℕ) := do
  spendingKey w
  match work with
  | .utxoProposal proposal => do
    w.requireProver
    enforceSingleStep proposal
    return (.mergeProposal, proposal.head.widen)
  | .noteProposal proposal => do
    w.requireProver
    enforceSingleStep proposal
    return (.mergeProposal, proposal.head)
  | .transparentTx inputs _ _ _ => do
    w.requireAccount
    w.requireProver
    let _ ← w.targetHeight
    return (.mergeTransparent, ⟨inputs, [], [.transparent], []⟩)

/-- Run a plan fixed earlier: prepare it, then store and broadcast. -/
def executePlan (w : WalletLayer) (s : SendState) (reply : ℕ)
    (plan : Except RpcError (Route × Step ℕ)) : SendState :=
  match plan with
  | .error e => s.reply reply (.error e)
  | .ok (route, step) =>
    let (s', res) := commit w route s reply step
    s'.reply reply res

def handleCommand (cfg : SendConfig) (w : WalletLayer) (s : SendState) (reply : ℕ) :
    Command → SendState
  | .send entry =>
    match entry.args cfg with
    | .error e => s.reply reply (.error e)
    | .ok args => beginOrQueueSend cfg w s ⟨args, reply⟩
  | .executeShieldCoinbase proposal => executePlan w s reply (prepareShieldCoinbase w proposal)
  | .executeMergeToAddress work => executePlan w s reply (prepareMerge w work)

/-- The stored transactions a rebroadcast pass offers again: unmined and unexpired at the tip. -/
def unminedRawTxs (db : List StoredTx) (tip : ℕ) (mined : TxId → Bool) : List StoredTx :=
  db.filter fun t => !mined t.txid && (t.expiry == 0 || decide (tip + 1 ≤ t.expiry))

/-- The rebroadcast loop: a transport failure ends the pass. -/
def rebroadcast (w : WalletLayer) : List StoredTx → SendState → SendState
  | [], s => s
  | t :: ts, s =>
    let r := w.broadcastTx t.txid
    let s := s.upstreamTook r t.txid
    if r.verdict.isNone then s else rebroadcast w ts s

inductive Event where
  /-- A client issues a command for a payment. -/
  | command (w : WalletLayer) (payment : ℕ) (cmd : Command)
  /-- The proof at this position finished: commit it, then pump the queue. -/
  | sendDone (w : WalletLayer) (pump : ℕ → WalletLayer) (i : ℕ)
  | maybeRebroadcast (w : WalletLayer) (tip : ℕ) (mined : TxId → Bool)

def Event.step (cfg : SendConfig) (s : SendState) : Event → SendState
  | .command w payment cmd =>
    handleCommand cfg w (s.issue payment cmd) s.attempts.length cmd
  | .sendDone w pump i =>
    match s.proofs[i]? with
    | none => s
    | some job =>
      pumpSendQueue cfg pump (finishSend w { s with proofs := s.proofs.eraseIdx i } job)
  | .maybeRebroadcast w tip mined =>
    if w.connected then rebroadcast w (unminedRawTxs s.stored tip mined) s else s

end Zecd
