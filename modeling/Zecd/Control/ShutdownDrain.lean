import Zecd.Foundation.Runs
import Zecd.Control.Pipeline
import Zecd.Control.Replies

/-! # The drain at shutdown

`finish_accepted_sends` waits for the proof under way, pumping the queue behind it, and then
runs the buffered commands. A buffered send that reaches its proof there is left behind: nothing
waits for proofs any more.
-/

namespace Zecd.Control

open Runs

variable {cfg : ActorConfig} {w : Answers} {s s' : Session} {e : Event} {es : List Event}
  {next : Pos} {deadline : ℕ}

/-- Every proof and every command of the drain finishes before its deadline. -/
def Timely (s : Session) (e : Event) : Prop :=
  match e with
  | .actor w => w.panics = false ∧
    match s.task with
    | .loop (.finishProofs deadline) => s.sends.sendInFlight = true →
        s.now < deadline ∧ w.proofDone.any (· < s.sends.proofs.length) = true
    | .loop (.finishCommands deadline) => s.cmdRx ≠ [] → s.now < deadline
    | _ => True
  -- the channel closes when the actor stops
  | .submit _ => s.task ≠ .loop .stopped
  | _ => True

instance (s : Session) (e : Event) : Decidable (Timely s e) := by
  match e with
  | .actor w =>
    refine @instDecidableAnd _ _ inferInstance ?_
    generalize s.task = task
    match task with
    | .loop (.finishProofs _) | .loop (.finishCommands _) =>
      exact inferInstanceAs (Decidable (_ → _))
    | .loop .top | .loop .drainProofs | .loop .drainCommands | .loop .syncStep | .loop .idle
    | .loop (.pumpSendQueue _) | .loop .stopped | .unlocking _ _ | .reachTip _ _ | .catchUp _ _
    | .addressLookup _ | .building _ _ => exact inferInstanceAs (Decidable True)
  | .submit _ => exact inferInstanceAs (Decidable (_ ≠ _))
  | .clock _ | .fastLock | .shutdown => exact inferInstanceAs (Decidable True)

/-- A buffered send passes phase A, and its proof goes to a blocking thread. -/
def HandsOff (cfg : ActorConfig) (s : Session) (e : Event) : Prop :=
  match e with
  | .actor w =>
    match s.task with
    | .building (.pipelined p) (.finishCommands _) =>
      (preparePipelined cfg.toSendConfig (keyed w.layer) s.sends.stored p.toSendArgs).isOk = true
    | _ => False
  | _ => False

instance (cfg : ActorConfig) (s : Session) (e : Event) : Decidable (HandsOff cfg s e) := by
  match e with
  | .actor w =>
    unfold HandsOff
    generalize s.task = task
    match task with
    | .building (.pipelined _) (.finishCommands _) => exact inferInstanceAs (Decidable (_ = true))
    | .building (.pipelined _) .top | .building (.pipelined _) .drainProofs
    | .building (.pipelined _) .drainCommands | .building (.pipelined _) .syncStep
    | .building (.pipelined _) .idle | .building (.pipelined _) (.pumpSendQueue _)
    | .building (.pipelined _) (.finishProofs _) | .building (.pipelined _) .stopped
    | .building (.send _) _ | .building (.executeShieldCoinbase _ _) _
    | .building (.executeMergeToAddress _ _) _ | .loop _ | .unlocking _ _ | .reachTip _ _
    | .catchUp _ _ | .addressLookup _ => exact inferInstanceAs (Decidable False)
  | .submit _ | .clock _ | .fastLock | .shutdown => exact inferInstanceAs (Decidable False)

/-- Nothing accepted is left: no send is queued or proved, and every channel handed over before
or during the drain was answered. -/
structure Drained (s : Session) (es : List Event) (s' : Session) : Prop where
  queue : s'.sends.sendQueue = []
  flag : s'.sends.sendInFlight = false
  answers : ∀ r, answered r s' = answered r s + owed r s + (es.map (Event.gives r)).sum

/-! ## One step of the drain -/

def InProofs (deadline : ℕ) (s : Session) : Prop :=
  s.task.next = .finishProofs deadline ∨ s.task.next = .pumpSendQueue (.finishProofs deadline)

def InCommands (deadline : ℕ) (s : Session) : Prop := s.task.next = .finishCommands deadline

/-- The actor has stopped with its channel empty, and without a proof under way nothing is
queued. -/
structure Stopped (s : Session) : Prop where
  task : s.task = .loop .stopped
  cmdRx : s.cmdRx = []
  queue : s.sends.sendInFlight = false → s.sends.sendQueue = []

theorem Goes.next_eq {channel : Option ℕ} {phaseA : Bool} (h : Goes s next channel phaseA s') :
    s'.task.next = next := by
  cases h with
  | waits hsends hcmd hloop hnext => exact hnext
  | ended hrs hsends hcmd htask => rw [htask]; rfl
  | spawned hA hchannel hbuild hsends hcmd htask => rw [htask]; rfl

theorem Goes.flag_eq {channel : Option ℕ} {phaseA : Bool} (h : Goes s next channel phaseA s')
    (hbuild : ∀ p, s.task ≠ .building (.pipelined p) next) :
    s'.sends.sendInFlight = s.sends.sendInFlight := by
  cases h with
  | waits hsends => rw [hsends]
  | ended hrs hsends => exact hsends.sendInFlight
  | spawned hA hchannel htask => exact absurd htask (hbuild _)

variable (cfg) in
theorem goes_of_not_loop (hloop : s.task.isLoop = false) (hpanic : w.panics = false) :
    Goes s s.task.next s.task.channel s.task.isPhaseA (step cfg s (.actor w)) := by
  have h := effect_step cfg s (.actor w)
  have hno : ∀ pos, s.task ≠ .loop pos := by
    rintro pos htask
    rw [htask] at hloop
    cases hloop
  generalize step cfg s (.actor w) = s' at h ⊢
  cases h with
  | outside hsends hcmd htask hout => cases hout
  | goesOn hloop hgoes => exact hgoes
  | panicked hloop hpanic' => exact absurd (hpanic.symm.trans hpanic') Bool.noConfusion
  | command htask => exact absurd htask (hno _)
  | queued htask => exact absurd htask (hno _)
  | consumed htask => exact absurd htask (hno _)
  | pumped htask => exact absurd htask (hno _)
  | moved htask => exact absurd htask (hno _)

theorem finishSend_next (w : Answers) (s : Session) {i : ℕ} (hi : i < s.sends.proofs.length)
    (next : Pos) : (finishSend w s i next).task = .loop (.pumpSendQueue next) := by
  simp only [finishSend, List.getElem?_eq_getElem hi, Session.goto]

variable (cfg) in
theorem step_of_not_actor (he : ∀ w, e ≠ .actor w) :
    (step cfg s e).task = s.task ∧ (step cfg s e).sends = s.sends := by
  cases e with
  | actor w => exact absurd rfl (he w)
  | fastLock =>
    simp only [step]
    split <;> exact ⟨rfl, rfl⟩
  | _ => exact ⟨rfl, rfl⟩

variable (cfg) in
/-- The first phase ends with no proof under way. -/
theorem inProofs_step (hs : InProofs deadline s) (he : Timely s e) :
    InProofs deadline (step cfg s e) ∨
      InCommands deadline (step cfg s e) ∧ (step cfg s e).sends.sendInFlight = false := by
  by_cases hactor : ∀ w, e ≠ .actor w
  · rw [InProofs, (step_of_not_actor cfg hactor).1]
    exact .inl hs
  obtain ⟨w, rfl⟩ := not_forall_not.mp hactor
  cases htask : s.task with
  | loop pos =>
    simp only [InProofs, htask, Task.next] at hs
    simp only [Timely, htask] at he
    rcases hs with rfl | rfl
    · simp only [step, proceed, htask, Session.takes, atPos]
      split
      · next i hbusy hdone =>
        rw [Bool.and_eq_true] at hbusy
        have hi := (he.2 hbusy.1).2
        rw [hdone, Option.any_some, decide_eq_true_eq] at hi
        exact .inl (.inr (by rw [finishSend_next w s hi]; rfl))
      · next hnone =>
        refine .inr ⟨rfl, ?_⟩
        cases hf : s.sends.sendInFlight with
        | false => exact hf
        | true =>
          obtain ⟨hnow, hdone⟩ := he.2 hf
          cases hp : w.proofDone with
          | none => rw [hp] at hdone; cases hdone
          | some i => exact absurd hp (hnone i (by rw [hf, decide_eq_true hnow]; rfl))
    · simp only [step, proceed, htask, Session.takes, atPos]
      split
      · exact .inl (.inr (goes_startPipelinedSend _ _).next_eq)
      · exact .inl (.inl rfl)
  | _ =>
    have hloop : s.task.isLoop = false := by rw [htask]; rfl
    rw [InProofs, (goes_of_not_loop cfg hloop he.1).next_eq]
    exact .inl hs

variable (cfg) in
theorem inCommands_command {c : WalletCommand} (htask : s.task = .loop (.finishCommands deadline))
    (htakes : s.takes w = some c) :
    InCommands deadline (step cfg s (.actor w)) ∧
      (step cfg s (.actor w)).sends.sendInFlight = s.sends.sendInFlight := by
  have h := effect_step cfg s (.actor w)
  generalize step cfg s (.actor w) = s' at h ⊢
  cases h with
  | outside hsends hcmd htask hout => cases hout
  | goesOn hloop => rw [htask] at hloop; cases hloop
  | panicked hloop => rw [htask] at hloop; cases hloop
  | command htask' hpos htakes' hq hgoes =>
    obtain rfl := Task.loop.inj (htask.symm.trans htask')
    refine ⟨hgoes.next_eq, ?_⟩
    rw [hgoes.flag_eq]
    rintro p hbuild
    exact absurd (htask.symm.trans hbuild) nofun
  | queued htask' hpos htakes' hq =>
    obtain rfl := Task.loop.inj (htask.symm.trans htask')
    exact ⟨rfl, rfl⟩
  | consumed htask' hpos hnone => rw [htakes] at hnone; cases hnone
  | pumped htask' => exact absurd (htask.symm.trans htask') nofun
  | moved htask' hnone => rw [htakes] at hnone; cases hnone

theorem inCommands_build {p : PendingSend}
    (htask : s.task = .building (.pipelined p) (.finishCommands deadline))
    (hpanic : w.panics = false) :
    (step cfg s (.actor w)).sends.sendInFlight = true ↔
      s.sends.sendInFlight = true ∨ HandsOff cfg s (.actor w) := by
  simp only [step, proceed, htask, hpanic, HandsOff, Bool.false_eq_true, if_false, Session.goto,
    KeyedOp.run, Zecd.startPipelinedSend]
  split
  · next e he => simp only [he, SendState.reply_sendInFlight, Except.isOk, Except.toBool,
      Bool.false_eq_true, or_false]
  · next st hst => simp only [hst, Except.isOk, Except.toBool, or_true]

/-- The second phase runs commands until the channel is empty; only a handed-off proof sets the
flag, and nothing clears it. -/
theorem inCommands_step (hinv : PipeInv s) (hs : InCommands deadline s) (he : Timely s e) :
    (InCommands deadline (step cfg s e) ∨ Stopped (step cfg s e)) ∧
    ((step cfg s e).sends.sendInFlight = true ↔
      s.sends.sendInFlight = true ∨ HandsOff cfg s e) := by
  by_cases hactor : ∀ w, e ≠ .actor w
  · obtain ⟨htask, hsends⟩ := step_of_not_actor cfg (s := s) hactor
    rw [InCommands, htask, hsends]
    refine ⟨.inl hs, ?_⟩
    cases e with
    | actor w => exact absurd rfl (hactor w)
    | _ => simp only [HandsOff, or_false]
  obtain ⟨w, rfl⟩ := not_forall_not.mp hactor
  by_cases hloop : s.task.isLoop = true
  · have htask : s.task = .loop (.finishCommands deadline) := by
      cases h : s.task with
      | loop pos =>
        rw [InCommands, h] at hs
        exact congrArg Task.loop hs
      | _ => rw [h] at hloop; cases hloop
    simp only [Timely, htask] at he
    have hno : ¬ HandsOff cfg s (.actor w) := by simp only [HandsOff, htask, not_false_eq_true]
    cases hcmd : s.cmdRx with
    | nil =>
      have htakes : s.takes w = none := by
        simp only [Session.takes, htask, hcmd, List.head?_nil, ite_self]
      simp only [step, proceed, htask, htakes, atPos]
      exact ⟨.inr ⟨rfl, hcmd, hinv.queue (by rw [htask]; rfl)⟩, (or_iff_left hno).symm⟩
    | cons c cs =>
      have hnow : s.now < deadline := he.2 (by rw [hcmd]; exact List.cons_ne_nil c cs)
      have htakes : s.takes w = some c := by
        simp only [Session.takes, htask, hcmd, List.head?_cons, if_pos hnow]
      obtain ⟨hnext, hflag⟩ := inCommands_command cfg htask htakes
      rw [hflag]
      exact ⟨.inl hnext, (or_iff_left hno).symm⟩
  · have hloop : s.task.isLoop = false := Bool.not_eq_true _ ▸ hloop
    have hgoes := goes_of_not_loop cfg hloop he.1
    rw [InCommands] at hs
    refine ⟨.inl (hgoes.next_eq.trans hs), ?_⟩
    by_cases hbuild : ∃ p, s.task = .building (.pipelined p) (.finishCommands deadline)
    · obtain ⟨p, htask⟩ := hbuild
      exact inCommands_build htask he.1
    · have hno : ¬ HandsOff cfg s (.actor w) := by
        simp only [HandsOff]
        split
        · next p d htask =>
          rw [htask] at hs
          obtain rfl : d = deadline := Pos.finishCommands.inj hs
          exact absurd ⟨p, htask⟩ hbuild
        · exact not_false
      rw [hgoes.flag_eq fun p htask => hbuild ⟨p, by rw [htask, hs]⟩]
      exact (or_iff_left hno).symm

variable (cfg) in
theorem stopped_step (hs : Stopped s) (he : Timely s e) :
    Stopped (step cfg s e) ∧ (step cfg s e).sends = s.sends ∧ ¬ HandsOff cfg s e := by
  obtain ⟨htask, hcmd, hqueue⟩ := hs
  cases e with
  | actor w =>
    have htakes : s.takes w = none := by simp only [Session.takes, htask]
    simp only [step, proceed, htask, htakes, atPos, HandsOff]
    exact ⟨⟨rfl, hcmd, hqueue⟩, rfl, not_false⟩
  | submit c => exact absurd htask he
  | fastLock =>
    simp only [step]
    split <;> exact ⟨⟨htask, hcmd, hqueue⟩, rfl, not_false⟩
  | _ => exact ⟨⟨htask, hcmd, hqueue⟩, rfl, not_false⟩

/-! ## The whole drain -/

/-- From the commands on, the flag tells whether a proof was handed off. -/
theorem run_commands (hinv : PipeInv s) (hs : InCommands deadline s ∨ Stopped s)
    (he : Along (step cfg) Timely s es) :
    (InCommands deadline (run (step cfg) s es) ∨ Stopped (run (step cfg) s es)) ∧
    ((run (step cfg) s es).sends.sendInFlight = true ↔
      s.sends.sendInFlight = true ∨ ¬ Along (step cfg) (fun s e => ¬ HandsOff cfg s e) s es) := by
  induction es generalizing s with
  | nil => exact ⟨hs, by simp only [run_nil, along_nil, not_true_eq_false, or_false]⟩
  | cons e es ih =>
    have hstep : (InCommands deadline (step cfg s e) ∨ Stopped (step cfg s e)) ∧
        ((step cfg s e).sends.sendInFlight = true ↔
          s.sends.sendInFlight = true ∨ HandsOff cfg s e) := by
      rcases hs with hs | hs
      · exact inCommands_step hinv hs he.1
      · obtain ⟨hstop, hsends, hno⟩ := stopped_step cfg hs he.1
        rw [hsends]
        exact ⟨.inr hstop, (or_iff_left hno).symm⟩
    obtain ⟨hphase, hflag⟩ := ih (hinv.step e) hstep.1 he.2
    refine ⟨hphase, ?_⟩
    rw [run_cons, hflag, hstep.2, along_cons, not_and_or, not_not, or_assoc]

variable (deadline) in
/-- A drain that stopped left a proof behind exactly when it handed one off. -/
theorem run_proofs (hinv : PipeInv s) (hs : InProofs deadline s)
    (he : Along (step cfg) Timely s es) :
    InProofs deadline (run (step cfg) s es) ∨
    (InCommands deadline (run (step cfg) s es) ∨ Stopped (run (step cfg) s es)) ∧
    ((run (step cfg) s es).sends.sendInFlight = true ↔
      ¬ Along (step cfg) (fun s e => ¬ HandsOff cfg s e) s es) := by
  induction es generalizing s with
  | nil => exact .inl hs
  | cons e es ih =>
    have hno : ¬ HandsOff cfg s e := by
      unfold HandsOff
      split
      · split
        · next p d htask =>
          simp only [InProofs, htask, Task.next] at hs
          rcases hs with hs | hs <;> cases hs
        · exact not_false
      · exact not_false
    simp only [run_cons, along_cons, hno, not_false_eq_true, true_and]
    rcases inProofs_step cfg hs he.1 with hs' | ⟨hs', hfree⟩
    · exact ih (hinv.step e) hs' he.2
    · have hrest := run_commands (hinv.step e) (.inl hs') he.2
      simp only [hfree, Bool.false_eq_true, false_or] at hrest
      exact .inr hrest

theorem owed_of_stopped (hinv : PipeInv s) (hs : Stopped s)
    (hfree : s.sends.sendInFlight = false) (r : ℕ) : owed r s = 0 := by
  have hproofs : s.sends.proofs = [] := by
    rcases hinv.flag with ⟨hbusy, -⟩ | ⟨-, hnone⟩
    · exact absurd (hbusy.symm.trans hfree) Bool.noConfusion
    · exact hnone
  simp only [owed, waiting, hs.task, hs.cmdRx, hs.queue hfree, hproofs, Task.channel]
  rfl

/-- A drain in which everything finishes in time leaves nothing behind exactly when no buffered
send hands its proof off while the commands are run. -/
theorem drained_iff (cfg : ActorConfig) (autoUnlocked : Bool) (before es : List Event)
    (deadline : ℕ)
    (hstart : (run (step cfg) (.start cfg autoUnlocked) before).task =
      .loop (.finishProofs deadline))
    (htimely : Along (step cfg) Timely (run (step cfg) (.start cfg autoUnlocked) before) es)
    (hstop : (run (step cfg) (run (step cfg) (.start cfg autoUnlocked) before) es).task =
      .loop .stopped) :
    Drained (run (step cfg) (.start cfg autoUnlocked) before) es
        (run (step cfg) (run (step cfg) (.start cfg autoUnlocked) before) es) ↔
      Along (step cfg) (fun s e => ¬ HandsOff cfg s e)
        (run (step cfg) (.start cfg autoUnlocked) before) es := by
  have hinv := run_pipeInv cfg autoUnlocked before
  generalize run (step cfg) (.start cfg autoUnlocked) before = s at hstart htimely hstop hinv ⊢
  have hinv' : PipeInv (run (step cfg) s es) :=
    invariant (P := fun _ _ => True) (fun _ e h _ => h.step e) hinv
      (along_of_always fun _ _ => trivial)
  obtain ⟨hphase, hflag⟩ := (run_proofs deadline hinv
    (.inl (by rw [hstart]; rfl)) htimely).resolve_left (by
      simp only [InProofs, hstop, Task.next]
      exact nofun)
  have hstopped : Stopped (run (step cfg) s es) := hphase.resolve_left (by
    simp only [InCommands, hstop, Task.next]
    exact nofun)
  constructor
  · intro h
    by_contra hleft
    exact absurd (h.flag.symm.trans (hflag.mpr hleft)) Bool.noConfusion
  · intro h
    have hfree : (run (step cfg) s es).sends.sendInFlight = false :=
      Bool.eq_false_iff.mpr fun hbusy => hflag.mp hbusy h
    refine ⟨hstopped.queue hfree, hfree, fun r => ?_⟩
    have hquiet : ∀ e ∈ es, e.panics = false := by
      refine forall_of_along htimely fun s e he => ?_
      cases e with
      | actor w => exact he.1
      | _ => rfl
    have htotal := total_eq es (s := s) (m := fun s => answered r s + owed r s)
      fun s e he => ((effect_step cfg s e).balance (r := r)).2 (hquiet e he)
    rwa [owed_of_stopped hinv' hstopped hfree r] at htotal

/-! ## A buffered payment -/

/-- A payment is proved and a second one queued when the shutdown begins. -/
def paymentsInFlight : List Event :=
  [.submit (.send onePayment), .submit (.send { onePayment with reply := 1 })] ++
    List.replicate 8 (.actor caughtUp) ++ [.shutdown] ++ List.replicate 2 (.actor caughtUp)

/-- The proof finishes, the queued payment is started and refused, and the channel is empty. -/
def proofFinishes : List Event :=
  [.actor { caughtUp with proofDone := some 0 }] ++ List.replicate 7 (.actor caughtUp)

theorem proofFinishes_drained :
    (run (step pipelinedConfig) (.start pipelinedConfig true) paymentsInFlight).task =
      .loop (.finishProofs (10 ^ 9 * 60)) ∧
    Drained (run (step pipelinedConfig) (.start pipelinedConfig true) paymentsInFlight)
      proofFinishes (run (step pipelinedConfig)
        (run (step pipelinedConfig) (.start pipelinedConfig true) paymentsInFlight)
        proofFinishes) :=
  have hstart : (run (step pipelinedConfig) (.start pipelinedConfig true) paymentsInFlight).task =
      .loop (.finishProofs (10 ^ 9 * 60)) := by decide
  ⟨hstart, (drained_iff pipelinedConfig true paymentsInFlight proofFinishes _ hstart
    (by decide) (by decide)).mpr (by decide)⟩

/-- A payment is still in the actor's channel when the shutdown begins. -/
def paymentBuffered : List Event :=
  [.submit (.send onePayment), .shutdown, .actor caughtUp]

/-- Its proof is handed to a blocking thread, and the drain returns without it. -/
theorem paymentBuffered_left :
    (run (step pipelinedConfig) (.start pipelinedConfig true) paymentBuffered).task =
      .loop (.finishProofs (10 ^ 9 * 60)) ∧
    Along (step pipelinedConfig) Timely
      (run (step pipelinedConfig) (.start pipelinedConfig true) paymentBuffered)
      (List.replicate 7 (.actor caughtUp)) ∧
    (run (step pipelinedConfig)
      (run (step pipelinedConfig) (.start pipelinedConfig true) paymentBuffered)
      (List.replicate 7 (.actor caughtUp))).task = .loop .stopped ∧
    ¬ Drained (run (step pipelinedConfig) (.start pipelinedConfig true) paymentBuffered)
      (List.replicate 7 (.actor caughtUp)) (run (step pipelinedConfig)
        (run (step pipelinedConfig) (.start pipelinedConfig true) paymentBuffered)
        (List.replicate 7 (.actor caughtUp))) := by
  refine ⟨by decide, by decide, by decide, fun h => ?_⟩
  have hbusy : (run (step pipelinedConfig)
      (run (step pipelinedConfig) (.start pipelinedConfig true) paymentBuffered)
      (List.replicate 7 (.actor caughtUp))).sends.sendInFlight = true := by decide
  exact absurd (h.flag.symm.trans hbusy) Bool.noConfusion

end Zecd.Control
