import Zecd.Foundation.Runs
import Zecd.Send.Steps
import Zecd.Control.Loop

/-! # The send pipeline over the actor's loop

One proof is off the actor at a time, later sends wait for it in the order they came, and a
reply channel is answered once. `Goes` says how an operation ends or goes on, `Effect` what
one event does to the pipeline; the invariants follow from these.
-/

namespace Zecd.Control

open Runs

/-! ## Operations under way -/

def SpendOp.channel : SpendOp → Option ℕ
  | .send p | .pipelined p => some p.reply
  | .proposeShieldCoinbase | .proposeMergeToAddress => none

def KeyedOp.channel : KeyedOp → ℕ
  | .send p | .pipelined p => p.reply
  | .executeShieldCoinbase _ reply | .executeMergeToAddress _ reply => reply

def SpendOp.isPhaseA : SpendOp → Bool
  | .pipelined _ => true
  | _ => false

def KeyedOp.isPhaseA : KeyedOp → Bool
  | .pipelined _ => true
  | _ => false

def WalletCommand.channel : WalletCommand → Option ℕ
  | .send p => some p.reply
  | .executeShieldCoinbase _ reply | .executeMergeToAddress _ reply => some reply
  | _ => none

namespace Task

/-- The position of the loop that the operation under way returns to. -/
def next : Task → Pos
  | .loop pos => pos
  | .unlocking _ next | .reachTip _ next | .catchUp _ next | .addressLookup next
  | .building _ next => next

def channel : Task → Option ℕ
  | .reachTip op _ | .catchUp op _ => op.channel
  | .building op _ => some op.channel
  | .loop _ | .unlocking _ _ | .addressLookup _ => none

def isPhaseA : Task → Bool
  | .reachTip op _ | .catchUp op _ => op.isPhaseA
  | .building op _ => op.isPhaseA
  | .loop _ | .unlocking _ _ | .addressLookup _ => false

def isLoop : Task → Bool
  | .loop _ => true
  | _ => false

end Task

/-- The pipeline is untouched; these replies were sent. -/
structure Replied (a b : SendState) (rs : List (ℕ × Except RpcError TxId)) : Prop where
  sendInFlight : b.sendInFlight = a.sendInFlight
  proofs : b.proofs = a.proofs
  sendQueue : b.sendQueue = a.sendQueue
  replies : b.replies = a.replies ++ rs

/-- An operation that answers `channel` and returns to `next` goes on, ends with its reply, or,
in phase A, hands its proof to a blocking thread. -/
inductive Goes (s : Session) (next : Pos) (channel : Option ℕ) (phaseA : Bool) : Session → Prop
  | waits {s' : Session} : s'.sends = s.sends → s'.cmdRx = s.cmdRx → s'.task.isLoop = false →
      s'.task.next = next → s'.task.channel = channel → s'.task.isPhaseA = phaseA →
      Goes s next channel phaseA s'
  | ended {s' : Session} {rs : List (ℕ × Except RpcError TxId)} :
      rs.map Prod.fst = channel.toList → Replied s.sends s'.sends rs → s'.cmdRx = s.cmdRx →
      s'.task = .loop next → Goes s next channel phaseA s'
  | spawned {s' : Session} {job : ProofJob} : phaseA = true →
      channel = some job.send.reply → s.task = .building (.pipelined job.send) next →
      s'.sends = { s.sends with sendInFlight := true, proofs := s.sends.proofs ++ [job] } →
      s'.cmdRx = s.cmdRx → s'.task = .loop next → Goes s next channel phaseA s'

variable {cfg : ActorConfig} {w : Answers} {s s' s'' : Session} {next : Pos}
  {channel : Option ℕ} {phaseA : Bool}

theorem Replied.refl (a : SendState) : Replied a a [] :=
  ⟨rfl, rfl, rfl, (List.append_nil _).symm⟩

theorem goes_moved (hsends : s'.sends = s.sends) (hcmd : s'.cmdRx = s.cmdRx)
    (htask : s'.task = .loop next) : Goes s next none phaseA s' := by
  have hreplied : Replied s.sends s'.sends [] := by
    rw [hsends]
    exact .refl _
  exact .ended rfl hreplied hcmd htask

theorem goes_reply (hsends : s'.sends = s.sends) (hcmd : s'.cmdRx = s.cmdRx) (r : ℕ)
    (res : Except RpcError TxId) : Goes s next (some r) phaseA ((s'.reply r res).goto next) := by
  have hreplied : Replied s.sends ((s'.reply r res).goto next).sends [(r, res)] := by
    simp only [Session.goto, Session.reply, hsends]
    exact ⟨rfl, rfl, rfl, rfl⟩
  exact .ended rfl hreplied hcmd rfl

theorem Goes.frame (h : Goes s' next channel phaseA s'') (hsends : s'.sends = s.sends)
    (hcmd : s'.cmdRx = s.cmdRx) (htask : s'.task = s.task) : Goes s next channel phaseA s'' := by
  cases h with
  | waits h1 h2 h3 h4 h5 h6 => exact .waits (h1.trans hsends) (h2.trans hcmd) h3 h4 h5 h6
  | ended h1 h2 h3 h4 => exact .ended h1 (hsends ▸ h2) (h3.trans hcmd) h4
  | spawned h1 h2 h3 h4 h5 h6 =>
    exact .spawned h1 h2 (htask ▸ h3) (hsends ▸ h4) (h5.trans hcmd) h6

theorem Goes.of_relock (h : Goes s.relockIfExpired next channel phaseA s') :
    Goes s next channel phaseA s' :=
  h.frame (relock_sends s) (relock_cmdRx s) (relock_task s)

theorem goes_fail (op : SpendOp) (s : Session) (e : RpcError) :
    Goes s next op.channel phaseA (op.fail s e next) := by
  cases op with
  | send p => exact goes_reply rfl rfl _ _
  | pipelined p => exact goes_reply rfl rfl _ _
  | proposeShieldCoinbase => exact goes_moved rfl rfl rfl
  | proposeMergeToAddress => exact goes_moved rfl rfl rfl

theorem goes_build (s : Session) (op : KeyedOp) :
    Goes s next (some op.channel) op.isPhaseA (s.build op next) :=
  .waits rfl rfl rfl rfl rfl rfl

theorem goes_buildWith (s : Session) {p : PendingSend} (op : KeyedOp) (hp : op.channel = p.reply) :
    Goes s next (some p.reply) op.isPhaseA (s.buildWith p op next (s.accountKey w)) := by
  unfold Session.buildWith
  split
  · exact goes_reply rfl rfl _ _
  · next s' hs =>
    obtain rfl := accountKey_ok hs
    rw [← hp]
    exact (goes_build _ op).frame rfl rfl rfl

theorem goes_resume (op : SpendOp) (s : Session) :
    Goes s next op.channel op.isPhaseA (op.resume w s next) := by
  cases op with
  | send p =>
    simp only [SpendOp.resume]
    split
    · exact goes_reply rfl rfl _ _
    · exact goes_buildWith s (.send p) rfl
  | pipelined p => exact goes_buildWith s (.pipelined p) rfl
  | proposeShieldCoinbase => exact goes_moved rfl rfl rfl
  | proposeMergeToAddress => exact goes_moved rfl rfl rfl

theorem goes_syncToTip (op : SpendOp) (s : Session) :
    Goes s next op.channel op.isPhaseA (op.syncToTip s next) := by
  unfold SpendOp.syncToTip
  split
  · exact goes_fail op s _
  · exact .waits rfl rfl rfl rfl rfl rfl

theorem goes_reachTip (op : SpendOp) (s : Session) :
    Goes s next op.channel op.isPhaseA (reachTip cfg w s op next) := by
  unfold reachTip
  split
  · exact goes_resume op s
  · split
    · exact (goes_resume op { s with client := false }).frame rfl rfl rfl
    · split
      · exact (goes_fail op { s with client := true } _).frame rfl rfl rfl
      · exact .waits rfl rfl rfl rfl rfl rfl

theorem goes_catchUp (op : SpendOp) (s : Session) (hs : s.task = .catchUp op next) :
    Goes s next op.channel op.isPhaseA (catchUp w s op next) := by
  unfold catchUp
  split
  · refine .waits rfl rfl ?_ ?_ ?_ ?_ <;> rw [hs] <;> rfl
  · exact goes_resume op s
  · dsimp only
    split
    · exact (goes_resume op _).frame rfl rfl rfl
    · exact (goes_resume op _).frame rfl rfl rfl

theorem goes_startPipelinedSend (s : Session) (p : PendingSend) :
    Goes s next (some p.reply) true (startPipelinedSend s p next) :=
  (goes_syncToTip (.pipelined p) s.relockIfExpired).of_relock

theorem goes_doSend (s : Session) (p : PendingSend) :
    Goes s next (some p.reply) false (doSend cfg s p next) := by
  unfold doSend
  apply Goes.of_relock
  dsimp only
  split
  · exact goes_reply rfl rfl _ _
  · exact goes_syncToTip (.send p) s.relockIfExpired

theorem goes_propose (s : Session) (op : SpendOp) (hop : op.channel = none)
    (hphase : op.isPhaseA = false) (gate : Except RpcError Unit) :
    Goes s next none false (propose w s op gate next) := by
  unfold propose
  apply Goes.of_relock
  split
  · exact goes_moved rfl rfl rfl
  · next s' hs =>
    obtain rfl := accountKey_ok hs
    split
    · exact goes_moved rfl rfl rfl
    · rw [← hop, ← hphase]
      exact (goes_syncToTip op _).frame rfl rfl rfl

theorem goes_execute (s : Session) {op : KeyedOp} {reply : ℕ} (hop : op.channel = reply)
    (hphase : op.isPhaseA = false) :
    Goes s next (some reply) false (execute w s op reply next) := by
  unfold execute
  apply Goes.of_relock
  split
  · exact goes_reply rfl rfl _ _
  · next s' hs =>
    obtain rfl := accountKey_ok hs
    rw [← hop, ← hphase]
    exact (goes_build _ op).frame rfl rfl rfl

/-! ### Builds -/

theorem replied_commit (w : WalletLayer) (route : Route) (a : SendState) (r : ℕ) (st : Step ℕ) :
    Replied a (commit w route a r st).1 [] := by
  rcases commit_cases w route a r st with ⟨e, h⟩ | ⟨txid, expiry, acc, res, -, h, -⟩
  · rw [h]
    exact .refl a
  · rw [h]
    exact ⟨rfl, rfl, rfl, (List.append_nil _).symm⟩

theorem Replied.reply {a b : SendState} (h : Replied a b []) (r : ℕ)
    (res : Except RpcError TxId) : Replied a (b.reply r res) [(r, res)] where
  sendInFlight := h.sendInFlight
  proofs := h.proofs
  sendQueue := h.sendQueue
  replies := by rw [SendState.reply_replies, h.replies, List.append_nil]

theorem replied_executePlan (w : WalletLayer) (a : SendState) (r : ℕ)
    (plan : Except RpcError (Route × Step ℕ)) :
    ∃ res, Replied a (executePlan w a r plan) [(r, res)] := by
  cases plan with
  | error e => exact ⟨_, (Replied.refl a).reply r _⟩
  | ok plan => exact ⟨_, (replied_commit w plan.1 a r plan.2).reply r _⟩

theorem replied_doSend (cfg : SendConfig) (w : WalletLayer) (a : SendState) (p : PendingSend) :
    Replied a (Zecd.doSend cfg w a p).1 [] := by
  unfold Zecd.doSend
  split
  · exact .refl a
  · exact replied_commit w _ a p.reply _

theorem goes_ran {r : ℕ} {b : SendState} {res : Except RpcError TxId}
    (h : Replied s.sends b [(r, res)]) :
    Goes s next (some r) phaseA ({ s with sends := b }.goto next) :=
  .ended rfl h rfl rfl

theorem goes_run (op : KeyedOp) (w : WalletLayer) (s : Session)
    (htask : s.task = .building op next) :
    Goes s next (some op.channel) op.isPhaseA
      ({ s with sends := op.run cfg w s.sends }.goto next) := by
  cases op with
  | send p => exact goes_ran ((replied_doSend _ _ _ p).reply p.reply _)
  | pipelined p =>
    simp only [KeyedOp.run]
    rcases startPipelinedSend_cases cfg.toSendConfig (keyed w) s.sends p with
      ⟨e, h⟩ | ⟨st, -, h⟩
    · rw [h]
      exact goes_ran ((Replied.refl _).reply _ _)
    · rw [h]
      have hchannel : (KeyedOp.pipelined p).channel = (⟨p, st⟩ : ProofJob).send.reply := rfl
      exact .spawned rfl (congrArg some hchannel) htask rfl rfl rfl
  | executeShieldCoinbase proposal reply =>
    obtain ⟨res, h⟩ := replied_executePlan (keyed w) s.sends reply
      (prepareShieldCoinbase (keyed w) proposal)
    exact goes_ran h
  | executeMergeToAddress work reply =>
    obtain ⟨res, h⟩ := replied_executePlan (keyed w) s.sends reply (prepareMerge (keyed w) work)
    exact goes_ran h

/-! ### Commands -/

/-- The command is a send that waits behind the proof in flight. -/
def WalletCommand.queues (cfg : ActorConfig) (a : SendState) : WalletCommand → Bool
  | .send p => !runsInline cfg.toSendConfig p.toSendArgs && a.sendInFlight &&
      decide (a.sendQueue.length < maxQueuedSends)
  | _ => false

def WalletCommand.startsPhaseA (cfg : ActorConfig) (a : SendState) : WalletCommand → Bool
  | .send p => !runsInline cfg.toSendConfig p.toSendArgs && !a.sendInFlight
  | _ => false

theorem goes_handleCommand (s : Session) (c : WalletCommand) (hc : c.queues cfg s.sends = false) :
    Goes s next c.channel (c.startsPhaseA cfg s.sends) (handleCommand cfg w s next c) := by
  cases c with
  | send p =>
    simp only [WalletCommand.queues] at hc
    simp only [handleCommand, beginOrQueueSend, WalletCommand.startsPhaseA]
    by_cases hin : runsInline cfg.toSendConfig p.toSendArgs = true
    · rw [if_pos hin, hin]
      exact goes_doSend s p
    · have hout : runsInline cfg.toSendConfig p.toSendArgs = false := Bool.not_eq_true _ ▸ hin
      rw [if_neg hin, hout]
      by_cases hf : s.sends.sendInFlight = true
      · have hfull : maxQueuedSends ≤ s.sends.sendQueue.length := by
          simpa [hout, hf] using hc
        rw [if_pos hf, if_pos hfull]
        exact goes_reply rfl rfl _ _
      · have hfree : s.sends.sendInFlight = false := Bool.not_eq_true _ ▸ hf
        rw [if_neg hf, hfree]
        exact goes_startPipelinedSend s p
  | unlock timeoutSecs =>
    simp only [handleCommand]
    split
    · exact .waits rfl rfl rfl rfl rfl rfl
    · exact goes_moved rfl rfl rfl
  | lock =>
    simp only [handleCommand]
    split
    · exact goes_moved rfl rfl rfl
    · exact goes_moved rfl rfl rfl
  | syncNow =>
    simp only [handleCommand]
    split
    · exact goes_moved rfl rfl rfl
    · exact goes_moved rfl rfl rfl
  | signMessage =>
    simp only [handleCommand, signMessage]
    split
    · exact .waits (relock_sends s) (relock_cmdRx s) rfl rfl rfl rfl
    · exact goes_moved (relock_sends s) (relock_cmdRx s) rfl
  | proposeShieldCoinbase => exact goes_propose s .proposeShieldCoinbase rfl rfl (.ok ())
  | executeShieldCoinbase proposal reply => exact goes_execute s rfl rfl
  | proposeMergeToAddress transparentSource privacy =>
    exact goes_propose s .proposeMergeToAddress rfl rfl _
  | executeMergeToAddress work reply => exact goes_execute s rfl rfl
  | other => exact goes_moved rfl rfl rfl

/-! ## One event -/

/-- The actor is between operations, with nothing left to pump. -/
def Pos.settled : Pos → Bool
  | .pumpSendQueue _ | .stopped => false
  | _ => true

/-- Neither the actor nor its channel takes part. -/
def Event.isOutside : Event → Bool
  | .clock _ | .fastLock | .shutdown => true
  | .submit _ | .actor _ => false

/-- What one event does to the pipeline. -/
inductive Effect (cfg : ActorConfig) (s : Session) : Event → Session → Prop
  | outside {e : Event} {s' : Session} : s'.sends = s.sends → s'.cmdRx = s.cmdRx →
      s'.task = s.task → e.isOutside = true → Effect cfg s e s'
  | submitted (c : WalletCommand) :
      Effect cfg s (.submit c) { s with cmdRx := s.cmdRx ++ [c] }
  | goesOn {w : Answers} {s' : Session} : s.task.isLoop = false →
      Goes s s.task.next s.task.channel s.task.isPhaseA s' → Effect cfg s (.actor w) s'
  | panicked {w : Answers} : s.task.isLoop = false → w.panics = true →
      Effect cfg s (.actor w) (s.goto s.task.next.afterPanic)
  | command {w : Answers} {s' : Session} {c : WalletCommand} {pos : Pos} :
      s.task = .loop pos → pos.settled = true → s.takes w = some c →
      c.queues cfg s.sends = false →
      Goes { s with cmdRx := s.cmdRx.tail } pos.afterCommand c.channel
        (c.startsPhaseA cfg s.sends) s' → Effect cfg s (.actor w) s'
  | queued {w : Answers} {p : PendingSend} {pos : Pos} :
      s.task = .loop pos → pos.settled = true → s.takes w = some (.send p) →
      WalletCommand.queues cfg s.sends (.send p) = true →
      Effect cfg s (.actor w)
        ({ s with
            cmdRx := s.cmdRx.tail
            sends := { s.sends with sendQueue := s.sends.sendQueue ++ [p] } }.goto
          pos.afterCommand)
  | consumed {w : Answers} {s' : Session} {pos next : Pos} {i : ℕ} {job : ProofJob}
      {rs : List (ℕ × Except RpcError TxId)} :
      s.task = .loop pos → pos.settled = true → s.takes w = none →
      s.sends.proofs[i]? = some job →
      s'.sends.sendInFlight = false → s'.sends.proofs = s.sends.proofs.eraseIdx i →
      s'.sends.sendQueue = s.sends.sendQueue → s'.sends.replies = s.sends.replies ++ rs →
      (if w.panics then rs = [] else rs.map Prod.fst = [job.send.reply]) →
      s'.cmdRx = s.cmdRx → s'.task = .loop (.pumpSendQueue next) → Effect cfg s (.actor w) s'
  | pumped {w : Answers} {s' : Session} {next : Pos} {p : PendingSend} {ps : List PendingSend} :
      s.task = .loop (.pumpSendQueue next) → s.sends.sendInFlight = false →
      s.sends.sendQueue = p :: ps →
      Goes { s with sends := { s.sends with sendQueue := ps } } (.pumpSendQueue next)
        (some p.reply) true s' → Effect cfg s (.actor w) s'
  | moved {w : Answers} {s' : Session} {pos pos' : Pos} : s.task = .loop pos →
      s.takes w = none → s'.sends = s.sends → s'.cmdRx = s.cmdRx → s'.task = .loop pos' →
      (pos.settled = true ∨ pos = .stopped ∧ pos' = .stopped ∨
        pos = .pumpSendQueue pos' ∧ (s.sends.sendInFlight = true ∨ s.sends.sendQueue = [])) →
      Effect cfg s (.actor w) s'

theorem settled_of_takes {pos : Pos} {c : WalletCommand} (htask : s.task = .loop pos)
    (hc : s.takes w = some c) : pos.settled = true := by
  simp only [Session.takes, htask] at hc
  split at hc
  · next heq => cases heq; rfl
  · next heq => cases heq; rfl
  · next heq => cases heq; rfl
  · cases hc

theorem effect_handleCommand {pos : Pos} {c : WalletCommand} (htask : s.task = .loop pos)
    (hc : s.takes w = some c) :
    Effect cfg s (.actor w)
      (handleCommand cfg w { s with cmdRx := s.cmdRx.tail } pos.afterCommand c) := by
  have hpos := settled_of_takes htask hc
  by_cases hq : c.queues cfg s.sends = true
  · cases c with
    | send p =>
      have heq : handleCommand cfg w { s with cmdRx := s.cmdRx.tail } pos.afterCommand (.send p) =
          ({ s with
              cmdRx := s.cmdRx.tail
              sends := { s.sends with sendQueue := s.sends.sendQueue ++ [p] } }.goto
            pos.afterCommand) := by
        simp only [WalletCommand.queues, Bool.and_eq_true, Bool.not_eq_true',
          decide_eq_true_eq] at hq
        obtain ⟨⟨hin, hf⟩, hlen⟩ := hq
        simp only [handleCommand, beginOrQueueSend, hin, hf, Bool.false_eq_true, if_false, if_true,
          if_neg (not_le.mpr hlen)]
      rw [heq]
      exact .queued htask hpos hc hq
    | _ => cases hq
  · have hq : c.queues cfg s.sends = false := Bool.not_eq_true _ ▸ hq
    exact .command htask hpos hc hq (goes_handleCommand { s with cmdRx := s.cmdRx.tail } c hq)

theorem effect_finishSend {pos : Pos} (htask : s.task = .loop pos) (hpos : pos.settled = true)
    (htakes : s.takes w = none) (i : ℕ) (next : Pos) :
    Effect cfg s (.actor w) (finishSend w s i next) := by
  unfold finishSend
  split
  · exact .moved htask htakes rfl rfl rfl (.inl hpos)
  · next job hjob =>
    split
    · next hpanic =>
      have hnone : if w.panics then ([] : List (ℕ × Except RpcError TxId)) = []
          else ([] : List (ℕ × Except RpcError TxId)).map Prod.fst = [job.send.reply] := by
        rw [if_pos hpanic]
      exact .consumed htask hpos htakes hjob rfl rfl rfl (List.append_nil _).symm hnone rfl rfl
    · next hpanic =>
      have hreplied : ∃ rs : List (ℕ × Except RpcError TxId), rs.map Prod.fst = [job.send.reply] ∧
          Replied { s.sends with proofs := s.sends.proofs.eraseIdx i, sendInFlight := false }
            (Zecd.finishSend w.layer { s.sends with proofs := s.sends.proofs.eraseIdx i } job)
            rs := by
        rcases finishSend_cases w.layer { s.sends with proofs := s.sends.proofs.eraseIdx i } job
          with ⟨e, h⟩ | h
        · rw [h]
          exact ⟨_, rfl, (Replied.refl _).reply _ _⟩
        · rw [h]
          exact ⟨_, rfl, (replied_commit _ _ _ _ _).reply _ _⟩
      obtain ⟨rs, hrs, h⟩ := hreplied
      refine .consumed htask hpos htakes hjob h.sendInFlight h.proofs h.sendQueue h.replies ?_
        rfl rfl
      rw [if_neg hpanic]
      exact hrs

theorem effect_pollTip {pos : Pos} (htask : s.task = .loop pos) (hpos : pos.settled = true)
    (htakes : s.takes w = none) (connected : Bool) :
    Effect cfg s (.actor w) (pollTip w s connected) := by
  unfold pollTip
  split
  · exact .moved htask htakes rfl rfl rfl (.inl hpos)
  · exact .moved htask htakes rfl rfl rfl (.inl hpos)

theorem effect_loopTop (htask : s.task = .loop .top) (htakes : s.takes w = none) :
    Effect cfg s (.actor w) (loopTop cfg s) := by
  unfold loopTop
  split
  · split
    · exact .moved htask htakes rfl rfl rfl (.inl rfl)
    · exact .moved htask htakes rfl rfl rfl (.inl rfl)
  · apply Effect.moved htask htakes
    · exact relock_sends s
    · exact relock_cmdRx s
    · rfl
    · exact .inl rfl

theorem effect_atPos {pos : Pos} (htask : s.task = .loop pos) (htakes : s.takes w = none) :
    Effect cfg s (.actor w) (atPos cfg w s pos) := by
  cases pos with
  | top => exact effect_loopTop htask htakes
  | drainProofs =>
    simp only [atPos]
    split
    · exact effect_finishSend htask rfl htakes _ _
    · exact .moved htask htakes rfl rfl rfl (.inl rfl)
  | drainCommands => exact .moved htask htakes rfl rfl rfl (.inl rfl)
  | syncStep =>
    simp only [atPos, mainSync]
    split
    · exact .moved htask htakes rfl rfl rfl (.inl rfl)
    · split
      · exact .moved htask htakes rfl rfl rfl (.inl rfl)
      · exact .moved htask htakes rfl rfl rfl (.inl rfl)
  | idle =>
    simp only [atPos]
    split
    · exact .moved htask htakes rfl rfl rfl (.inl rfl)
    · exact .moved htask htakes rfl rfl rfl (.inl rfl)
    · exact .moved htask htakes rfl rfl rfl (.inl rfl)
    · exact effect_finishSend htask rfl htakes _ _
    · apply Effect.moved htask htakes
      · exact relock_sends s
      · exact relock_cmdRx s
      · rfl
      · exact .inl rfl
    · exact effect_pollTip htask rfl htakes _
    · exact effect_pollTip htask rfl htakes _
  | pumpSendQueue next =>
    simp only [atPos]
    split
    · next p ps hf hq =>
      exact .pumped htask hf hq (goes_startPipelinedSend _ p)
    · next hnone =>
      refine .moved htask htakes rfl rfl rfl (.inr (.inr ⟨rfl, ?_⟩))
      cases hf : s.sends.sendInFlight with
      | true => exact .inl rfl
      | false =>
        cases hq : s.sends.sendQueue with
        | nil => exact .inr rfl
        | cons p ps => exact (hnone p ps hf hq).elim
  | finishProofs deadline =>
    simp only [atPos]
    split
    · exact effect_finishSend htask rfl htakes _ _
    · exact .moved htask htakes rfl rfl rfl (.inl rfl)
  | finishCommands deadline => exact .moved htask htakes rfl rfl rfl (.inl rfl)
  | stopped => exact .moved htask htakes rfl rfl rfl (.inr (.inl ⟨rfl, rfl⟩))

theorem effect_step (cfg : ActorConfig) (s : Session) (e : Event) :
    Effect cfg s e (step cfg s e) := by
  cases e with
  | clock elapsed => exact .outside rfl rfl rfl rfl
  | fastLock =>
    simp only [step]
    split
    · exact .outside rfl rfl rfl rfl
    · exact .outside rfl rfl rfl rfl
  | submit c => exact .submitted c
  | shutdown => exact .outside rfl rfl rfl rfl
  | actor w =>
    simp only [step, proceed]
    split
    · next pos htask =>
      split
      · next c hc => exact effect_handleCommand htask hc
      · next hnone => exact effect_atPos htask hnone
    · next timeoutSecs next htask =>
      have hloop : s.task.isLoop = false := by rw [htask]; rfl
      have hnext : s.task.next = next := by rw [htask]; rfl
      split
      · next hpanic => rw [← hnext]; exact .panicked hloop hpanic
      · refine .goesOn hloop ?_
        rw [htask]
        unfold unlocked
        split
        · exact goes_moved (relock_sends _) (relock_cmdRx _) rfl
        · exact goes_moved rfl rfl rfl
    · next op next htask =>
      have hloop : s.task.isLoop = false := by rw [htask]; rfl
      have hnext : s.task.next = next := by rw [htask]; rfl
      split
      · next hpanic => rw [← hnext]; exact .panicked hloop hpanic
      · refine .goesOn hloop ?_
        rw [htask]
        exact goes_reachTip op s
    · next op next htask =>
      have hloop : s.task.isLoop = false := by rw [htask]; rfl
      have hnext : s.task.next = next := by rw [htask]; rfl
      split
      · next hpanic => rw [← hnext]; exact .panicked hloop hpanic
      · refine .goesOn hloop ?_
        rw [htask]
        exact goes_catchUp op s htask
    · next next htask =>
      have hloop : s.task.isLoop = false := by rw [htask]; rfl
      refine .goesOn hloop ?_
      rw [htask]
      split
      · exact goes_moved rfl rfl rfl
      · next s' hs =>
        split at hs
        · cases hs
        · obtain rfl := deriveUsk_ok hs
          exact goes_moved rfl rfl rfl
    · next op next htask =>
      have hloop : s.task.isLoop = false := by rw [htask]; rfl
      have hnext : s.task.next = next := by rw [htask]; rfl
      split
      · next hpanic => rw [← hnext]; exact .panicked hloop hpanic
      · refine .goesOn hloop ?_
        rw [htask]
        exact goes_run op w.layer s htask

/-! ## One proof at a time -/

/-- The flag stands for the one proof under way; without it nothing waits, and phase A finds it
clear. -/
structure PipeInv (s : Session) : Prop where
  flag : s.sends.sendInFlight = true ∧ s.sends.proofs.length = 1 ∨
    s.sends.sendInFlight = false ∧ s.sends.proofs = []
  phaseA : s.task.isPhaseA = true → s.sends.sendInFlight = false
  queue : s.task.next.settled = true → s.sends.sendInFlight = false → s.sends.sendQueue = []
  bounded : s.sends.sendQueue.length ≤ maxQueuedSends

theorem pipeInv_start (cfg : ActorConfig) (autoUnlocked : Bool) :
    PipeInv (.start cfg autoUnlocked) where
  flag := .inr ⟨rfl, rfl⟩
  phaseA h := Bool.noConfusion h
  queue _ _ := rfl
  bounded := Nat.zero_le _

theorem Goes.pipeInv (h : Goes s next channel phaseA s')
    (hflag : s.sends.sendInFlight = true ∧ s.sends.proofs.length = 1 ∨
      s.sends.sendInFlight = false ∧ s.sends.proofs = [])
    (hphase : phaseA = true → s.sends.sendInFlight = false)
    (hqueue : next.settled = true → s.sends.sendInFlight = false → s.sends.sendQueue = [])
    (hlen : s.sends.sendQueue.length ≤ maxQueuedSends) : PipeInv s' := by
  cases h with
  | waits hsends hcmd hloop hnext hchannel hphaseA =>
    exact ⟨hsends ▸ hflag, by rw [hphaseA, hsends]; exact hphase,
      by rw [hnext, hsends]; exact hqueue, hsends ▸ hlen⟩
  | ended hrs hsends hcmd htask =>
    refine ⟨?_, ?_, ?_, ?_⟩
    · rw [hsends.sendInFlight, hsends.proofs]
      exact hflag
    · rw [htask]
      exact fun h => Bool.noConfusion h
    · rw [htask, hsends.sendInFlight, hsends.sendQueue]
      exact hqueue
    · rw [hsends.sendQueue]
      exact hlen
  | @spawned job hA hchannel hbuild hsends hcmd htask =>
    have hproofs : s.sends.proofs = [] := by
      rcases hflag with ⟨htrue, -⟩ | ⟨-, hnil⟩
      · rw [hphase hA] at htrue
        cases htrue
      · exact hnil
    refine ⟨.inl ?_, ?_, ?_, ?_⟩
    · rw [hsends, hproofs]
      exact ⟨rfl, rfl⟩
    · rw [htask]
      exact fun h => Bool.noConfusion h
    · rw [hsends]
      exact fun _ h => Bool.noConfusion h
    · rw [hsends]
      exact hlen

theorem settled_of_afterPanic {pos : Pos} (h : pos.afterPanic.settled = true) :
    pos.settled = true := by
  cases pos with
  | pumpSendQueue next => cases h
  | stopped => cases h
  | _ => rfl

theorem PipeInv.effect (h : PipeInv s) {e : Event} (he : Effect cfg s e s') : PipeInv s' := by
  cases he with
  | outside hsends hcmd htask hout =>
    exact ⟨hsends ▸ h.flag, by rw [htask, hsends]; exact h.phaseA,
      by rw [htask, hsends]; exact h.queue, hsends ▸ h.bounded⟩
  | submitted c => exact ⟨h.flag, h.phaseA, h.queue, h.bounded⟩
  | goesOn hloop hgoes => exact hgoes.pipeInv h.flag h.phaseA h.queue h.bounded
  | panicked hloop hpanic =>
    exact ⟨h.flag, fun hA => Bool.noConfusion hA,
      fun hset => h.queue (settled_of_afterPanic hset), h.bounded⟩
  | @command w _ c pos htask hpos htakes hq hgoes =>
    refine hgoes.pipeInv h.flag ?_ ?_ h.bounded
    · intro hA
      cases c with
      | send p =>
        simp only [WalletCommand.startsPhaseA, Bool.and_eq_true, Bool.not_eq_true'] at hA
        exact hA.2
      | _ => cases hA
    · intro _ hf
      exact h.queue (by rw [htask]; exact hpos) hf
  | @queued w p pos htask hpos htakes hq =>
    simp only [WalletCommand.queues, Bool.and_eq_true, Bool.not_eq_true', decide_eq_true_eq] at hq
    obtain ⟨⟨-, hf⟩, hlen⟩ := hq
    refine ⟨h.flag, fun hA => Bool.noConfusion hA, fun _ hfree => ?_, ?_⟩
    · exact absurd (hf.symm.trans hfree) Bool.noConfusion
    · simp only [Session.goto, List.length_append, List.length_singleton]
      exact hlen
  | @consumed w _ pos next i job rs htask hpos htakes hjob hf hproofs hqueue hreplies hrs hcmd
      htask' =>
    have hnil : s.sends.proofs.eraseIdx i = [] := by
      rcases h.flag with ⟨-, hone⟩ | ⟨-, hnone⟩
      · have hi : i < s.sends.proofs.length := (List.getElem?_eq_some_iff.mp hjob).1
        apply List.length_eq_zero_iff.mp
        rw [List.length_eraseIdx_of_lt hi]
        omega
      · rw [hnone]
        rfl
    refine ⟨.inr ⟨hf, hproofs.trans hnil⟩, ?_, ?_, ?_⟩
    · rw [htask']
      exact fun h => Bool.noConfusion h
    · rw [htask']
      exact fun h => Bool.noConfusion h
    · rw [hqueue]
      exact h.bounded
  | @pumped w _ next p ps htask hf hq hgoes =>
    refine hgoes.pipeInv h.flag (fun _ => hf) (fun hset => Bool.noConfusion hset) ?_
    have hlen := h.bounded
    rw [hq, List.length_cons] at hlen
    exact Nat.le_of_succ_le hlen
  | @moved w _ pos pos' htask htakes hsends hcmd htask' hwhy =>
    refine ⟨hsends ▸ h.flag, ?_, ?_, hsends ▸ h.bounded⟩
    · rw [htask']
      exact fun h => Bool.noConfusion h
    · rw [htask', hsends]
      intro hset hf
      rcases hwhy with hpos | ⟨-, rfl⟩ | ⟨-, hbusy | hempty⟩
      · exact h.queue (by rw [htask]; exact hpos) hf
      · cases hset
      · exact absurd (hbusy.symm.trans hf) Bool.noConfusion
      · exact hempty

theorem PipeInv.step (h : PipeInv s) (e : Event) : PipeInv (step cfg s e) :=
  h.effect (effect_step cfg s e)

theorem run_pipeInv (cfg : ActorConfig) (autoUnlocked : Bool) (es : List Event) :
    PipeInv (run (step cfg) (.start cfg autoUnlocked) es) :=
  invariant (P := fun _ _ => True) (fun _ e h _ => h.step e) (pipeInv_start cfg autoUnlocked)
    (along_of_always fun _ _ => trivial)

end Zecd.Control
