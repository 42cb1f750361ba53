import Zecd.Send.Actor

/-! # What one event of the send actor can do

Every command is refused, queued, started on the pipeline, or committed; a finished proof
is refused or committed, and the pump only starts sends. The invariants of the send paths
are derived from these case lemmas, never from the definitions.
-/

namespace Zecd

open Fallible

section Frame

variable (s : SendState) (r : ℕ) (res : Except RpcError TxId)

@[simp] theorem SendState.reply_stored : (s.reply r res).stored = s.stored := rfl
@[simp] theorem SendState.reply_sendInFlight : (s.reply r res).sendInFlight = s.sendInFlight := rfl
@[simp] theorem SendState.reply_proofs : (s.reply r res).proofs = s.proofs := rfl
@[simp] theorem SendState.reply_sendQueue : (s.reply r res).sendQueue = s.sendQueue := rfl
@[simp] theorem SendState.reply_attempts : (s.reply r res).attempts = s.attempts := rfl
@[simp] theorem SendState.reply_accepted : (s.reply r res).accepted = s.accepted := rfl
@[simp] theorem SendState.reply_replies : (s.reply r res).replies = s.replies ++ [(r, res)] := rfl

end Frame

/-! ## Builds -/

/-- The step comes from a single-step proposal for the send that passed the privacy check. -/
def Proposed (cfg : SendConfig) (w : WalletLayer) (db : List StoredTx) (a : SendArgs)
    (step : Step ℕ) : Prop :=
  ∃ p, w.proposeTransfer db a.request (a.confirmations.getD cfg.confirmationsPolicy)
      (spendPolicyForSource a.source) = .ok p ∧
    p.tail = [] ∧ p.head = step ∧ (a.privacy = .fullPrivacy → enforceFullPrivacy p = .ok ())

theorem enforceProposal_ok {w : WalletLayer} {privacy : SendPrivacy} {p : Proposal ℕ} {u : Unit}
    (h : enforceProposal w privacy p = .ok u) :
    p.tail = [] ∧ (privacy = .fullPrivacy → enforceFullPrivacy p = .ok ()) := by
  simp only [enforceProposal, bind_eq_ok, enforceSingleStep_ok] at h
  obtain ⟨_, htail, _, hfull, _⟩ := h
  exact ⟨htail, fun hp => by simpa [enforceSendPrivacy, hp] using hfull⟩

theorem buildProposalAndPczt_ok {cfg : SendConfig} {w : WalletLayer} {db : List StoredTx}
    {a : SendArgs} {step : Step ℕ} (h : buildProposalAndPczt cfg w db a = .ok step) :
    Proposed cfg w db a step := by
  simp only [buildProposalAndPczt, bind_eq_ok, pure_eq_ok] at h
  obtain ⟨_, _, p, hp, _, hchecks, _, _, rfl⟩ := h
  exact ⟨p, hp, (enforceProposal_ok hchecks).1, rfl, (enforceProposal_ok hchecks).2⟩

theorem prepareFused_ok {cfg : SendConfig} {w : WalletLayer} {db : List StoredTx}
    {a : SendArgs} {step : Step ℕ} (h : prepareFused cfg w db a = .ok step) :
    Proposed cfg w db a step := by
  simp only [prepareFused, bind_eq_ok, pure_eq_ok] at h
  obtain ⟨_, _, _, _, p, hp, _, hchecks, rfl⟩ := h
  exact ⟨p, hp, (enforceProposal_ok hchecks).1, rfl, (enforceProposal_ok hchecks).2⟩

theorem preparePipelined_ok {cfg : SendConfig} {w : WalletLayer} {db : List StoredTx}
    {a : SendArgs} {step : Step ℕ} (h : preparePipelined cfg w db a = .ok step) :
    Proposed cfg w db a step := by
  simp only [preparePipelined, bind_eq_ok, pure_eq_ok] at h
  obtain ⟨_, _, _, _, _, _, step', hbuild, _, _, _, _, rfl⟩ := h
  exact buildProposalAndPczt_ok hbuild

/-- A fully transparent build spends outputs the wallet offered, pays every recipient
transparently and keeps its change transparent. -/
theorem prepareTransparent_ok {cfg : SendConfig} {w : WalletLayer} {db : List StoredTx}
    {a : SendArgs} {recipients : List (TransparentAddress × ℕ)}
    {fromAddress : Option TransparentAddress} {step : Step ℕ}
    (h : prepareTransparent cfg w db a recipients fromAddress = .ok step) :
    step.shieldedInputs = [] ∧
      ∀ u ∈ step.transparentInputs, ∃ addr us, w.spendableTransparentOutputs db addr
        (a.confirmations.getD cfg.confirmationsPolicy) = .ok us ∧ u ∈ us := by
  simp only [prepareTransparent, bind_eq_ok] at h
  obtain ⟨_, _, _, _, receivers, _, outs, houts, _, _, hsel⟩ := h
  have hmem : ∀ n, ∀ u ∈ (outs.flatten.mergeSort fun u v => decide (v.value ≤ u.value)).take n,
      ∃ addr us, w.spendableTransparentOutputs db addr
        (a.confirmations.getD cfg.confirmationsPolicy) = .ok us ∧ u ∈ us := by
    intro n u hu
    obtain ⟨us, hus, hu⟩ := List.mem_flatten.mp (List.mem_mergeSort.mp (List.mem_of_mem_take hu))
    obtain ⟨addr, _, haddr⟩ := exists_of_mem_mapM houts hus
    exact ⟨addr, us, haddr, hu⟩
  split at hsel
  · cases hsel
  · rename_i n _ _ hasChange _
    split at hsel
    · simp only [bind_eq_ok, pure_eq_ok] at hsel
      obtain ⟨_, _, rfl⟩ := hsel
      exact ⟨rfl, hmem n⟩
    · simp only [pure_eq_ok] at hsel
      subst hsel
      exact ⟨rfl, hmem n⟩

theorem prepareSend_cases {cfg : SendConfig} {w : WalletLayer} {db : List StoredTx}
    {a : SendArgs} {route : Route} {step : Step ℕ}
    (h : prepareSend cfg w db a = .ok (route, step)) :
    transparentSourceGates cfg a = .ok () ∧
    ((∃ recipients fromAddress, fullyTransparentRecipients cfg a = .ok (some recipients) ∧
        route = .transparent ∧ prepareTransparent cfg w db a recipients fromAddress = .ok step) ∨
      (fullyTransparentRecipients cfg a = .ok none ∧ (route = .fused ∨ route = .inline) ∧
        Proposed cfg w db a step)) := by
  simp only [prepareSend, bind_eq_ok] at h
  obtain ⟨_, hgates, _, _, _, _, _, _, _, _, recipients, hrec, h⟩ := h
  refine ⟨hgates, ?_⟩
  cases recipients with
  | some recipients =>
    simp only [bind_eq_ok, pure_eq_ok, Prod.mk.injEq] at h
    obtain ⟨_, hprep, rfl, rfl⟩ := h
    exact .inl ⟨recipients, _, hrec, rfl, hprep⟩
  | none =>
    simp only at h
    split at h
    · simp only [bind_eq_ok, pure_eq_ok, Prod.mk.injEq] at h
      obtain ⟨_, hprep, rfl, rfl⟩ := h
      exact .inr ⟨hrec, .inl rfl, prepareFused_ok hprep⟩
    · simp only [bind_eq_ok, pure_eq_ok, Prod.mk.injEq] at h
      obtain ⟨_, hprep, _, _, _, _, _, _, rfl, rfl⟩ := h
      exact .inr ⟨hrec, .inr rfl, buildProposalAndPczt_ok hprep⟩

/-! ## Stores and broadcasts -/

/-- The step fails although its transaction is already in the database. -/
def FailsAfterStore (w : WalletLayer) (route : Route) (txid : TxId) : Prop :=
  (route.readsBack = true ∧ ∃ e, w.readRawTx txid = .error e) ∨
    (w.connected = true ∧ ∃ e, verdictResult (w.broadcastTx txid).verdict = .error e)

/-- What a stored transaction leads to: the upstream takes it or not, and the caller gets its
txid unless the step fails after the store. -/
theorem afterStore_cases (w : WalletLayer) (route : Route) (s : SendState) (txid : TxId) :
    ∃ acc res, afterStore w route s txid = ({ s with accepted := acc }, res) ∧
      (acc = s.accepted ∨ acc = s.accepted ++ [txid]) ∧
      (res = .ok txid ∨ (∃ e, res = .error e) ∧ FailsAfterStore w route txid) := by
  unfold afterStore
  split
  · rename_i e he
    refine ⟨s.accepted, .error e, rfl, .inl rfl, .inr ⟨⟨e, rfl⟩, .inl ?_⟩⟩
    split at he
    · rename_i hb; exact ⟨hb, e, he⟩
    · cases he
  · unfold broadcastCommitted
    by_cases hc : w.connected = true
    · have hacc : ∃ acc, s.upstreamTook (w.broadcastTx txid) txid = { s with accepted := acc } ∧
          (acc = s.accepted ∨ acc = s.accepted ++ [txid]) := by
        unfold SendState.upstreamTook
        split
        · exact ⟨_, rfl, .inr rfl⟩
        · exact ⟨_, rfl, .inl rfl⟩
      obtain ⟨acc, hs, hacc⟩ := hacc
      simp only [hc, if_true, hs]
      cases hv : verdictResult (w.broadcastTx txid).verdict with
      | ok u => exact ⟨acc, .ok txid, rfl, hacc, .inl rfl⟩
      | error e => exact ⟨acc, .error e, rfl, hacc, .inr ⟨⟨e, rfl⟩, .inr ⟨hc, e, hv⟩⟩⟩
    · simp only [hc]
      exact ⟨s.accepted, .ok txid, rfl, .inl rfl, .inl rfl⟩

def SendState.stores (s : SendState) (t : StoredTx) (acc : List TxId) : SendState :=
  { s with stored := s.stored ++ [t], accepted := acc }

theorem commit_cases (w : WalletLayer) (route : Route) (s : SendState) (reply : ℕ)
    (step : Step ℕ) :
    (∃ e, commit w route s reply step = (s, .error e)) ∨
    ∃ txid expiry acc res, w.store route s.stored step = .ok (txid, expiry) ∧
      commit w route s reply step = (s.stores ⟨txid, expiry, route, step, reply⟩ acc, res) ∧
      (acc = s.accepted ∨ acc = s.accepted ++ [txid]) ∧
      (res = .ok txid ∨ (∃ e, res = .error e) ∧ FailsAfterStore w route txid) := by
  unfold commit
  split
  · exact .inl ⟨_, rfl⟩
  · rename_i txid expiry hstore
    obtain ⟨acc, res, heq, hacc, hres⟩ := afterStore_cases w route
      { s with stored := s.stored ++ [⟨txid, expiry, route, step, reply⟩] } txid
    exact .inr ⟨txid, expiry, acc, res, hstore, heq, hacc, hres⟩

@[simp] theorem commit_attempts (w : WalletLayer) (route : Route) (s : SendState) (r : ℕ)
    (step : Step ℕ) : (commit w route s r step).1.attempts = s.attempts := by
  rcases commit_cases w route s r step with ⟨e, heq⟩ | ⟨_, _, _, _, _, heq, _⟩
  · rw [heq]
  · rw [heq]; rfl

@[simp] theorem commit_sendQueue (w : WalletLayer) (route : Route) (s : SendState) (r : ℕ)
    (step : Step ℕ) : (commit w route s r step).1.sendQueue = s.sendQueue := by
  rcases commit_cases w route s r step with ⟨e, heq⟩ | ⟨_, _, _, _, _, heq, _⟩
  · rw [heq]
  · rw [heq]; rfl

/-- The transaction a command builds on the actor, before it is stored. -/
inductive Prepared (cfg : SendConfig) (w : WalletLayer) (db : List StoredTx) :
    Command → Route → Step ℕ → Prop where
  | send {entry : Entry} {a : SendArgs} {route : Route} {step : Step ℕ} :
      entry.args cfg = .ok a → runsInline cfg a = true →
      prepareSend cfg w db a = .ok (route, step) → Prepared cfg w db (.send entry) route step
  | shieldCoinbase {proposal : Proposal Empty} {route : Route} {step : Step ℕ} :
      prepareShieldCoinbase w proposal = .ok (route, step) →
      Prepared cfg w db (.executeShieldCoinbase proposal) route step
  | merge {work : MergeWork} {route : Route} {step : Step ℕ} :
      prepareMerge w work = .ok (route, step) →
      Prepared cfg w db (.executeMergeToAddress work) route step

structure Pipelined (cfg : SendConfig) (cmd : Command) (a : SendArgs) : Prop where
  isSend : ∃ entry, cmd = .send entry ∧ entry.args cfg = .ok a
  waits : runsInline cfg a = false

/-- Everything a command can do. -/
inductive Handled (cfg : SendConfig) (w : WalletLayer) (s : SendState) (reply : ℕ)
    (cmd : Command) : SendState → Prop where
  | refused (e : RpcError) : Handled cfg w s reply cmd (s.reply reply (.error e))
  | queued {a : SendArgs} : Pipelined cfg cmd a → s.sendInFlight = true →
      s.sendQueue.length < maxQueuedSends →
      Handled cfg w s reply cmd { s with sendQueue := s.sendQueue ++ [⟨a, reply⟩] }
  | started {a : SendArgs} {step : Step ℕ} : Pipelined cfg cmd a → s.sendInFlight = false →
      preparePipelined cfg w s.stored a = .ok step →
      Handled cfg w s reply cmd
        { s with sendInFlight := true, proofs := s.proofs ++ [⟨⟨a, reply⟩, step⟩] }
  | committed {route : Route} {step : Step ℕ} : Prepared cfg w s.stored cmd route step →
      Handled cfg w s reply cmd
        ((commit w route s reply step).1.reply reply (commit w route s reply step).2)

theorem executePlan_handled {cfg : SendConfig} {w : WalletLayer} {s : SendState} {reply : ℕ}
    {cmd : Command} {plan : Except RpcError (Route × Step ℕ)}
    (h : ∀ route step, plan = .ok (route, step) → Prepared cfg w s.stored cmd route step) :
    Handled cfg w s reply cmd (executePlan w s reply plan) := by
  cases plan with
  | error e => exact .refused e
  | ok r => exact .committed (h r.1 r.2 rfl)

theorem startPipelinedSend_handled {cfg : SendConfig} {w : WalletLayer} {s : SendState}
    {reply : ℕ} {cmd : Command} {a : SendArgs} (hp : Pipelined cfg cmd a)
    (hs : s.sendInFlight = false) :
    Handled cfg w s reply cmd (startPipelinedSend cfg w s ⟨a, reply⟩) := by
  unfold startPipelinedSend
  split
  · exact .refused _
  · rename_i step hstep
    exact .started hp hs hstep

theorem beginOrQueueSend_handled {cfg : SendConfig} {w : WalletLayer} {s : SendState} {reply : ℕ}
    {entry : Entry} {a : SendArgs} (ha : entry.args cfg = .ok a) :
    Handled cfg w s reply (.send entry) (beginOrQueueSend cfg w s ⟨a, reply⟩) := by
  unfold beginOrQueueSend
  by_cases hin : runsInline cfg a = true
  · simp only [hin, if_true, doSend]
    split
    · exact .refused _
    · rename_i route step hstep
      exact .committed (.send ha hin hstep)
  · have hp : Pipelined cfg (.send entry) a := ⟨⟨entry, rfl, ha⟩, by simpa using hin⟩
    rw [if_neg (show ¬ runsInline cfg a = true from hin)]
    by_cases hs : s.sendInFlight = true
    · rw [if_pos hs]
      split
      · exact .refused _
      · exact .queued hp hs (by omega)
    · rw [if_neg hs]
      exact startPipelinedSend_handled hp (by simpa using hs)

theorem handleCommand_handled (cfg : SendConfig) (w : WalletLayer) (s : SendState) (reply : ℕ)
    (cmd : Command) : Handled cfg w s reply cmd (handleCommand cfg w s reply cmd) := by
  cases cmd with
  | send entry =>
    simp only [handleCommand]
    split
    · exact .refused _
    · rename_i a ha
      exact beginOrQueueSend_handled ha
  | executeShieldCoinbase proposal => exact executePlan_handled fun _ _ => .shieldCoinbase
  | executeMergeToAddress work => exact executePlan_handled fun _ _ => .merge

theorem finishSend_cases (w : WalletLayer) (s : SendState) (job : ProofJob) :
    (∃ e, finishSend w s job =
      { s with sendInFlight := false }.reply job.send.reply (.error e)) ∨
    finishSend w s job =
      (commit w .pipelined { s with sendInFlight := false } job.send.reply job.step).1.reply
        job.send.reply
        (commit w .pipelined { s with sendInFlight := false } job.send.reply job.step).2 := by
  unfold finishSend
  split
  · exact .inl ⟨_, rfl⟩
  · exact .inl ⟨_, rfl⟩
  · exact .inr rfl

theorem startPipelinedSend_cases (cfg : SendConfig) (w : WalletLayer) (s : SendState)
    (p : PendingSend) :
    (∃ e, startPipelinedSend cfg w s p = s.reply p.reply (.error e)) ∨
    ∃ step, preparePipelined cfg w s.stored p.toSendArgs = .ok step ∧
      startPipelinedSend cfg w s p =
        { s with sendInFlight := true, proofs := s.proofs ++ [⟨p, step⟩] } := by
  unfold startPipelinedSend
  split
  · exact .inl ⟨_, rfl⟩
  · exact .inr ⟨_, ‹_›, rfl⟩

@[simp] theorem startPipelinedSend_sendQueue (cfg : SendConfig) (w : WalletLayer) (s : SendState)
    (p : PendingSend) : (startPipelinedSend cfg w s p).sendQueue = s.sendQueue := by
  rcases startPipelinedSend_cases cfg w s p with ⟨e, heq⟩ | ⟨step, _, heq⟩ <;> simp [heq]

/-- The pump only starts the send at the head of the queue, while nothing is in flight. -/
theorem pumpFrom_invariant {cfg : SendConfig} {I : SendState → Prop} {ws : ℕ → WalletLayer}
    (hpop : ∀ i s p ps, I s → s.sendQueue = p :: ps → s.sendInFlight = false →
      I (startPipelinedSend cfg (ws i) { s with sendQueue := ps } p))
    {q : List PendingSend} {s : SendState} (hs : I s) (hq : s.sendQueue = q) :
    I (pumpFrom cfg ws q s) := by
  induction q generalizing ws s with
  | nil => exact hs
  | cons p ps ih =>
    simp only [pumpFrom]
    split
    · exact hs
    · rename_i hf
      have hf : s.sendInFlight = false := by simpa using hf
      exact ih (fun i => hpop (i + 1)) (hpop 0 s p ps hs hq hf) (by simp)

/-- The rebroadcast pass changes nothing but what the upstream holds, and offers it only
transactions of the pass. -/
theorem rebroadcast_cases (w : WalletLayer) (ts : List StoredTx) (s : SendState) :
    ∃ acc, rebroadcast w ts s = { s with accepted := s.accepted ++ acc } ∧
      ∀ txid ∈ acc, ∃ t ∈ ts, t.txid = txid := by
  induction ts generalizing s with
  | nil => exact ⟨[], by simp [rebroadcast], by simp⟩
  | cons t ts ih =>
    obtain ⟨acc₀, hs, hacc₀⟩ : ∃ acc₀, s.upstreamTook (w.broadcastTx t.txid) t.txid =
        { s with accepted := s.accepted ++ acc₀ } ∧ ∀ txid ∈ acc₀, t.txid = txid := by
      unfold SendState.upstreamTook
      split
      · exact ⟨[t.txid], rfl, by simp⟩
      · exact ⟨[], by simp, by simp⟩
    simp only [rebroadcast]
    split
    · exact ⟨acc₀, hs, fun x hx => ⟨t, List.mem_cons_self, hacc₀ x hx⟩⟩
    · rw [hs]
      obtain ⟨acc, heq, hacc⟩ := ih { s with accepted := s.accepted ++ acc₀ }
      refine ⟨acc₀ ++ acc, by rw [heq]; simp, fun x hx => ?_⟩
      rcases List.mem_append.mp hx with hx | hx
      · exact ⟨t, List.mem_cons_self, hacc₀ x hx⟩
      · obtain ⟨u, hu, rfl⟩ := hacc x hx
        exact ⟨u, List.mem_cons_of_mem _ hu, rfl⟩

/-- Every wallet layer an event uses has the property. -/
def Event.Uses (P : WalletLayer → Prop) : Event → Prop
  | .command w _ _ => P w
  | .sendDone w pump _ => P w ∧ ∀ i, P (pump i)
  | .maybeRebroadcast w _ _ => P w

end Zecd
