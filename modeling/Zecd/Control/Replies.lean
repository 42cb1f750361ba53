import Zecd.Foundation.Runs
import Zecd.Control.Pipeline

/-! # Replies and the order of sends

Every reply channel the actor was given is answered once or still waits: in the command
channel, in the operation under way, in the queue or with the proof. Pipelined sends start in
the order they were accepted.
-/

namespace Zecd.Control

open Runs

variable {cfg : ActorConfig} {w : Answers} {s s' : Session} {e : Event} {next : Pos}
  {channel : Option ℕ} {phaseA : Bool} {r : ℕ}

/-! ## Reply channels -/

def answered (r : ℕ) (s : Session) : ℕ := (s.sends.replies.map Prod.fst).count r

/-- How often the channel waits outside the operation under way. -/
def waiting (r : ℕ) (s : Session) : ℕ :=
  (s.cmdRx.filterMap WalletCommand.channel).count r +
    (s.sends.sendQueue.map PendingSend.reply).count r +
    (s.sends.proofs.map fun job => job.send.reply).count r

/-- How often the channel still waits for its answer. -/
def owed (r : ℕ) (s : Session) : ℕ := waiting r s + s.task.channel.toList.count r

/-- How often the event hands the actor the channel. -/
def Event.gives (r : ℕ) : Event → ℕ
  | .submit c => c.channel.toList.count r
  | _ => 0

def Event.panics : Event → Bool
  | .actor w => w.panics
  | _ => false

theorem Replied.count {a b : SendState} {rs : List (ℕ × Except RpcError TxId)}
    (h : Replied a b rs) :
    (b.replies.map Prod.fst).count r =
      (a.replies.map Prod.fst).count r + (rs.map Prod.fst).count r := by
  rw [h.replies, List.map_append, List.count_append]

/-- An operation keeps its channel, answers it or passes it to the proof. -/
theorem Goes.balance (h : Goes s next channel phaseA s') :
    answered r s' + owed r s' = answered r s + waiting r s + channel.toList.count r := by
  cases h with
  | waits hsends hcmd hloop hnext hchannel hphaseA =>
    simp only [answered, owed, waiting, hsends, hcmd, hchannel]
    omega
  | ended hrs hsends hcmd htask =>
    have hcount := hsends.count (r := r)
    rw [hrs] at hcount
    simp only [answered, owed, waiting, hsends.sendQueue, hsends.proofs, hcmd, htask,
      Task.channel, Option.toList_none, List.count_nil] at hcount ⊢
    omega
  | spawned hA hchannel hbuild hsends hcmd htask =>
    simp only [answered, owed, waiting, hsends, hcmd, htask, hchannel, Task.channel,
      Option.toList_none, Option.toList_some, List.count_nil, List.map_append, List.count_append,
      List.map_singleton]
    omega

theorem takes_cons {c : WalletCommand} (h : s.takes w = some c) :
    s.cmdRx = c :: s.cmdRx.tail := by
  have hhead : s.cmdRx.head? = some c := by
    unfold Session.takes at h
    split at h
    · exact h
    · split at h
      · exact h
      · cases h
    · split at h
      · exact h
      · cases h
    · cases h
  exact List.eq_cons_of_mem_head? hhead

theorem count_channel_cons (c : WalletCommand) (l : List WalletCommand) :
    ((c :: l).filterMap WalletCommand.channel).count r =
      c.channel.toList.count r + (l.filterMap WalletCommand.channel).count r := by
  cases hc : c.channel with
  | none => simp [List.filterMap_cons_none hc]
  | some x =>
    rw [List.filterMap_cons_some hc, Option.toList_some, List.count_cons, List.count_singleton]
    omega

theorem count_eraseIdx {l : List ProofJob} {i : ℕ} {job : ProofJob} (h : l[i]? = some job) :
    (l.map fun job => job.send.reply).count r =
      ((l.eraseIdx i).map fun job => job.send.reply).count r + [job.send.reply].count r := by
  obtain ⟨hi, rfl⟩ := List.getElem?_eq_some_iff.mp h
  have hperm := (List.getElem_cons_eraseIdx_perm hi).map fun job : ProofJob => job.send.reply
  rw [← hperm.count_eq, List.map_cons, List.count_cons, List.count_singleton]

/-- A panic drops the channel of its operation; every other step keeps the balance. -/
theorem Effect.balance (h : Effect cfg s e s') :
    answered r s' + owed r s' ≤ answered r s + owed r s + e.gives r ∧
    (e.panics = false →
      answered r s' + owed r s' = answered r s + owed r s + e.gives r) := by
  have hexact : ∀ {a b : ℕ}, a = b → a ≤ b ∧ (e.panics = false → a = b) :=
    fun h => ⟨h.le, fun _ => h⟩
  cases h with
  | outside hsends hcmd htask hout =>
    apply hexact
    have hgives : e.gives r = 0 := by
      cases e with
      | submit c => cases hout
      | _ => rfl
    simp only [answered, owed, waiting, hsends, hcmd, htask, hgives, Nat.add_zero]
  | submitted c =>
    apply hexact
    simp only [answered, owed, waiting, Event.gives, List.filterMap_append, List.count_append,
      count_channel_cons, List.filterMap_nil, List.count_nil]
    omega
  | goesOn hloop hgoes =>
    apply hexact
    rw [hgoes.balance, owed]
    exact Nat.add_assoc _ _ _
  | @panicked w hloop hpanic =>
    refine ⟨?_, fun hno => absurd (hpanic.symm.trans hno) Bool.noConfusion⟩
    simp only [answered, owed, waiting, Session.goto, Task.channel, Option.toList_none,
      List.count_nil, Event.gives]
    omega
  | @command w _ c pos htask hpos htakes hq hgoes =>
    apply hexact
    have hcount := count_channel_cons (r := r) c s.cmdRx.tail
    rw [← takes_cons htakes] at hcount
    rw [hgoes.balance]
    simp only [answered, owed, waiting, htask, Task.channel, Option.toList_none, List.count_nil,
      Event.gives, hcount]
    omega
  | @queued w p pos htask hpos htakes hq =>
    apply hexact
    have hcount := count_channel_cons (r := r) (.send p) s.cmdRx.tail
    rw [← takes_cons htakes] at hcount
    simp only [answered, owed, waiting, htask, Task.channel, Option.toList_none, List.count_nil,
      Event.gives, hcount, Session.goto, List.map_append, List.count_append, List.map_singleton,
      WalletCommand.channel, Option.toList_some]
    omega
  | @consumed w _ pos next i job rs htask hpos htakes hjob hf hproofs hqueue hreplies hrs hcmd
      htask' =>
    have hcount := count_eraseIdx (r := r) hjob
    simp only [answered, owed, waiting, htask, htask', hproofs, hqueue, hreplies, hcmd,
      Task.channel, Option.toList_none, List.count_nil, Event.gives, hcount, List.map_append,
      List.count_append]
    by_cases hpanic : w.panics = true
    · refine ⟨?_, fun hno => absurd (hpanic.symm.trans hno) Bool.noConfusion⟩
      rw [if_pos hpanic] at hrs
      rw [hrs, List.map_nil, List.count_nil]
      omega
    · rw [if_neg hpanic] at hrs
      rw [hrs]
      apply hexact
      omega
  | @pumped w _ next p ps htask hf hq hgoes =>
    apply hexact
    rw [hgoes.balance]
    simp only [answered, owed, waiting, htask, Task.channel, Option.toList_none, List.count_nil,
      Event.gives, hq, List.map_cons, List.count_cons, Option.toList_some]
    omega
  | @moved w _ pos pos' htask htakes hsends hcmd htask' hwhy =>
    apply hexact
    simp only [answered, owed, waiting, hsends, hcmd, htask, htask', Task.channel, Event.gives,
      Nat.add_zero]

/-! ## The order of sends -/

/-- The pipelined send the event accepts: it is started at once or queued. -/
def accepts (cfg : ActorConfig) (s : Session) : Event → Option PendingSend
  | .actor w =>
    match s.takes w with
    | some (.send p) =>
      if WalletCommand.startsPhaseA cfg s.sends (.send p) ||
        WalletCommand.queues cfg s.sends (.send p) then some p else none
    | _ => none
  | _ => none

def starts (cfg : ActorConfig) (s : Session) : Event → Option PendingSend
  | .actor w =>
    match s.takes w with
    | some (.send p) => if WalletCommand.startsPhaseA cfg s.sends (.send p) then some p else none
    | some _ => none
    | none =>
      match s.task, s.sends.sendInFlight, s.sends.sendQueue with
      | .loop (.pumpSendQueue _), false, p :: _ => some p
      | _, _, _ => none
  | _ => none

theorem Goes.sendQueue (h : Goes s next channel phaseA s') :
    s'.sends.sendQueue = s.sends.sendQueue := by
  cases h with
  | waits hsends => rw [hsends]
  | ended hrs hsends => exact hsends.sendQueue
  | spawned hA hchannel hbuild hsends => rw [hsends]

theorem takes_of_not_loop (h : s.task.isLoop = false) (w : Answers) : s.takes w = none := by
  unfold Session.takes
  cases htask : s.task with
  | loop pos =>
    rw [htask] at h
    cases h
  | _ => rfl

theorem quiet_of_not_loop (h : s.task.isLoop = false) (w : Answers) :
    accepts cfg s (.actor w) = none ∧ starts cfg s (.actor w) = none := by
  constructor
  · simp only [accepts, takes_of_not_loop h w]
  · simp only [starts, takes_of_not_loop h w]
    split
    · next htask _ _ =>
      rw [htask] at h
      cases h
    · rfl

theorem starts_of_idle {pos : Pos} (htask : s.task = .loop pos) (htakes : s.takes w = none)
    (hpos : ∀ next p ps, pos = .pumpSendQueue next → s.sends.sendInFlight = false →
      s.sends.sendQueue ≠ p :: ps) :
    accepts cfg s (.actor w) = none ∧ starts cfg s (.actor w) = none := by
  constructor
  · simp only [accepts, htakes]
  · simp only [starts, htakes]
    split
    · next next p ps htask' hf hq =>
      obtain rfl : pos = .pumpSendQueue next := Task.loop.inj (htask.symm.trans htask')
      exact absurd hq (hpos _ _ _ rfl hf)
    · rfl

/-- One event: what is accepted joins the queue, what is started leaves it. -/
theorem Effect.queue (hs : PipeInv s) (h : Effect cfg s e s') :
    s.sends.sendQueue ++ (accepts cfg s e).toList =
      (starts cfg s e).toList ++ s'.sends.sendQueue := by
  have hquiet : accepts cfg s e = none ∧ starts cfg s e = none →
      s'.sends.sendQueue = s.sends.sendQueue →
      s.sends.sendQueue ++ (accepts cfg s e).toList =
        (starts cfg s e).toList ++ s'.sends.sendQueue := by
    rintro ⟨ha, hst⟩ hq
    rw [ha, hst, hq]
    exact List.append_nil _
  cases h with
  | outside hsends hcmd htask hout =>
    refine hquiet ?_ (by rw [hsends])
    cases e with
    | actor w => cases hout
    | _ => exact ⟨rfl, rfl⟩
  | submitted c => exact hquiet ⟨rfl, rfl⟩ rfl
  | @goesOn w _ hloop hgoes => exact hquiet (quiet_of_not_loop hloop w) hgoes.sendQueue
  | @panicked w hloop hpanic => exact hquiet (quiet_of_not_loop hloop w) rfl
  | @command w _ c pos htask hpos htakes hq hgoes =>
    have hsame : s'.sends.sendQueue = s.sends.sendQueue := hgoes.sendQueue
    by_cases hA : c.startsPhaseA cfg s.sends = true
    · cases c with
      | send p =>
        have hf : s.sends.sendInFlight = false := by
          simp only [WalletCommand.startsPhaseA, Bool.and_eq_true, Bool.not_eq_true'] at hA
          exact hA.2
        have hempty : s.sends.sendQueue = [] := hs.queue (by rw [htask]; exact hpos) hf
        simp only [accepts, starts, htakes, hA, Bool.true_or, if_true, hsame, hempty]
        rfl
      | _ => cases hA
    · refine hquiet ?_ hsame
      cases c with
      | send p =>
        have hno : WalletCommand.startsPhaseA cfg s.sends (.send p) = false :=
          Bool.not_eq_true _ ▸ hA
        simp only [accepts, starts, htakes, hno, hq]
        exact ⟨rfl, rfl⟩
      | _ => constructor <;> simp only [accepts, starts, htakes]
  | @queued w p pos htask hpos htakes hq =>
    have hno : WalletCommand.startsPhaseA cfg s.sends (.send p) = false := by
      simp only [WalletCommand.queues, Bool.and_eq_true] at hq
      simp only [WalletCommand.startsPhaseA, hq.1.2, Bool.not_true, Bool.and_false]
    simp only [accepts, starts, htakes, hno, hq, Bool.or_true, if_true]
    rfl
  | @consumed w _ pos next i job rs htask hpos htakes hjob hf hproofs hqueue =>
    refine hquiet (starts_of_idle htask htakes ?_) hqueue
    rintro n p ps rfl
    cases hpos
  | @pumped w _ next p ps htask hf hq hgoes =>
    have htakes : s.takes w = none := by
      simp only [Session.takes, htask]
    have hrest : s'.sends.sendQueue = ps := hgoes.sendQueue
    simp only [accepts, starts, htakes, htask, hf, hq, hrest]
    exact List.append_nil _
  | @moved w _ pos pos' htask htakes hsends hcmd htask' hwhy =>
    refine hquiet (starts_of_idle htask htakes ?_) (by rw [hsends])
    rintro n p ps rfl hf hq
    rcases hwhy with hpos | ⟨hpos, -⟩ | ⟨-, hbusy | hempty⟩
    · cases hpos
    · cases hpos
    · exact absurd (hbusy.symm.trans hf) Bool.noConfusion
    · exact absurd (hq.symm.trans hempty) (List.cons_ne_nil p ps)

/-! ## Every run -/

/-- At the top of the loop the flag stands for the one proof under way, sends wait only behind
it and within their bound, phase A starts in the order of acceptance, and every channel handed
to the actor was answered once or still waits with its send. -/
theorem send_pipeline (cfg : ActorConfig) (autoUnlocked : Bool) (es : List Event)
    (htop : (run (step cfg) (.start cfg autoUnlocked) es).task = .loop .top) :
    let s := run (step cfg) (.start cfg autoUnlocked) es
    (s.sends.proofs.length ≤ 1 ∧ (s.sends.sendInFlight = true ↔ s.sends.proofs.length = 1)) ∧
    (s.sends.sendQueue ≠ [] → s.sends.sendInFlight = true) ∧
    s.sends.sendQueue.length ≤ maxQueuedSends ∧
    trace (step cfg) (accepts cfg) (.start cfg autoUnlocked) es =
      trace (step cfg) (starts cfg) (.start cfg autoUnlocked) es ++ s.sends.sendQueue ∧
    (∀ r, answered r s + waiting r s ≤ (es.map (Event.gives r)).sum) ∧
    ((∀ e ∈ es, e.panics = false) →
      ∀ r, answered r s + waiting r s = (es.map (Event.gives r)).sum) := by
  intro s
  have hinv : PipeInv s := run_pipeInv cfg autoUnlocked es
  have howed : ∀ r, owed r s = waiting r s := by
    intro r
    rw [owed, htop]
    rfl
  have hstart : ∀ r, answered r (.start cfg autoUnlocked) + owed r (.start cfg autoUnlocked) = 0 :=
    fun _ => rfl
  refine ⟨?_, ?_, hinv.bounded, ?_, ?_, ?_⟩
  · rcases hinv.flag with ⟨hf, hone⟩ | ⟨hf, hnone⟩
    · exact ⟨hone.le, fun _ => hone, fun _ => hf⟩
    · rw [hf, hnone]
      exact ⟨Nat.zero_le _, fun h => Bool.noConfusion h, fun h => absurd h Nat.zero_ne_one⟩
  · intro hne
    by_contra hf
    exact hne (hinv.queue (by rw [htop]; rfl) (Bool.not_eq_true _ ▸ hf))
  · exact trace_queue (fun s : Session => s.sends.sendQueue) (I := PipeInv)
      (fun _ e h => h.step e) (fun s e h => (effect_step cfg s e).queue h)
      (pipeInv_start cfg autoUnlocked)
  · intro r
    have hle := total_le es (s := .start cfg autoUnlocked)
      (m := fun s => answered r s + owed r s)
      fun s e => ((effect_step cfg s e).balance (r := r)).1
    rw [hstart r, Nat.zero_add] at hle
    rw [← howed r]
    exact hle
  · intro hquiet r
    have heq := total_eq es (s := .start cfg autoUnlocked)
      (m := fun s => answered r s + owed r s)
      fun s e he => ((effect_step cfg s e).balance (r := r)).2 (hquiet e he)
    rw [hstart r, Nat.zero_add] at heq
    rw [← howed r]
    exact heq

/-- Two payments: the first is proved off the actor while the second waits, then its completion
is consumed and the second one starts. -/
def twoPayments : List Event :=
  [.submit (.send onePayment), .submit (.send { onePayment with reply := 1 })] ++
    List.replicate 10 (.actor caughtUp) ++
    [.actor { caughtUp with idle := .sendDone 0 }] ++ List.replicate 5 (.actor caughtUp)

theorem twoPayments_pipeline :
    (run (step pipelinedConfig) (.start pipelinedConfig true) twoPayments).task = .loop .top ∧
    (run (step pipelinedConfig) (.start pipelinedConfig true) twoPayments).sends.sendQueue.length ≤
      maxQueuedSends :=
  have htop : (run (step pipelinedConfig) (.start pipelinedConfig true) twoPayments).task =
      .loop .top := by decide
  ⟨htop, (send_pipeline pipelinedConfig true twoPayments htop).2.2.1⟩

end Zecd.Control
