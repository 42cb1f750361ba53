import Zecd.Foundation.Runs
import Zecd.Send.Steps
import Zecd.Control.Loop

/-! # An unrecoverable reorg and the send paths

The main loop halts a wallet whose `sync_step` returned `UnrecoverableReorg`, and the catch-up
of every send refuses a halted wallet. Nothing is built from then on, as long as the error
reaches the main loop first and no plan made earlier is executed.
-/

namespace Zecd.Control

open Runs

variable {cfg : ActorConfig} {w : Answers} {s s' s'' : Session} {next : Pos}

/-! ## What a halted wallet keeps -/

/-- What is stored or being proved was already stored or being proved. -/
structure Within (s s' : SendState) : Prop where
  proofs : ∀ job ∈ s'.proofs, job ∈ s.proofs
  stored : ∀ t ∈ s'.stored, t ∈ s.stored ∨
    ∃ job ∈ s.proofs, t.step = job.step ∧ t.reply = job.send.reply

theorem Within.refl (s : SendState) : Within s s := ⟨fun _ h => h, fun _ h => .inl h⟩

theorem Within.trans {a b c : SendState} (h : Within a b) (h' : Within b c) : Within a c where
  proofs job hjob := h.proofs job (h'.proofs job hjob)
  stored t ht := by
    rcases h'.stored t ht with ht | ⟨job, hjob, heq⟩
    · exact h.stored t ht
    · exact .inr ⟨job, h.proofs job hjob, heq⟩

theorem within_finishSend (w : WalletLayer) (s : SendState) {i : ℕ} {job : ProofJob}
    (hjob : s.proofs[i]? = some job) :
    Within s (Zecd.finishSend w { s with proofs := s.proofs.eraseIdx i } job) := by
  have herase : ∀ j ∈ s.proofs.eraseIdx i, j ∈ s.proofs :=
    fun j hj => List.mem_of_mem_eraseIdx hj
  rcases finishSend_cases w { s with proofs := s.proofs.eraseIdx i } job with ⟨e, heq⟩ | heq
  · rw [heq]
    exact ⟨herase, fun t ht => .inl ht⟩
  · rw [heq]
    rcases commit_cases w .pipelined
        { s with proofs := s.proofs.eraseIdx i, sendInFlight := false } job.send.reply job.step
      with ⟨e, hcommit⟩ | ⟨txid, expiry, acc, res, -, hcommit, -⟩
    · rw [hcommit]
      exact ⟨herase, fun t ht => .inl ht⟩
    · rw [hcommit]
      refine ⟨herase, fun t ht => ?_⟩
      rcases List.mem_append.mp ht with ht | ht
      · exact .inl ht
      · obtain rfl := List.mem_singleton.mp ht
        exact .inr ⟨job, List.mem_of_getElem? hjob, rfl, rfl⟩

/-- The actor is inside an operation that builds a transaction or may go on to build one. -/
def Task.spends : Task → Bool
  | .reachTip _ _ | .catchUp _ _ | .building _ _ => true
  | .loop _ | .unlocking _ _ | .addressLookup _ => false

/-- A step that detects nothing; in a halted wallet it builds nothing either. -/
structure Keeps (s s' : Session) : Prop where
  syncHalted : s'.syncHalted = s.syncHalted
  log : ∃ new, s'.log = s.log ++ new ∧ .reorg ∉ new ∧
    (s.syncHalted = true → ∀ op, .building op ∉ new)
  task : s.syncHalted = true → s'.task.spends = false
  sends : s.syncHalted = true → Within s.sends s'.sends

theorem keeps_moved (hhalt : s'.syncHalted = s.syncHalted) (hlog : s'.log = s.log)
    (htask : s'.task.spends = false) (hsends : Within s.sends s'.sends) : Keeps s s' where
  syncHalted := hhalt
  log := ⟨[], by simp [hlog], by simp, by simp⟩
  task _ := htask
  sends _ := hsends

theorem keeps_goto (s : Session) (pos : Pos) : Keeps s (s.goto pos) :=
  keeps_moved rfl rfl rfl (.refl _)

theorem Keeps.frame (h : Keeps s' s'') (hhalt : s'.syncHalted = s.syncHalted)
    (hlog : s'.log = s.log) (hsends : Within s.sends s'.sends) : Keeps s s'' where
  syncHalted := h.syncHalted.trans hhalt
  log := by rw [← hhalt, ← hlog]; exact h.log
  task := by rw [← hhalt]; exact h.task
  sends hs := hsends.trans (h.sends (hhalt.trans hs))

theorem Keeps.of_relock (h : Keeps s.relockIfExpired s') : Keeps s s' :=
  h.frame (relock_syncHalted s) (relock_log s) (by rw [relock_sends]; exact .refl _)

theorem Keeps.of_observed {o : Obs} (h : Keeps (s.observe o) s') (hre : o ≠ .reorg)
    (hbuild : ∀ op, o ≠ .building op) : Keeps s s' where
  syncHalted := h.syncHalted
  log := by
    obtain ⟨new, hlog, hnew, hquiet⟩ := h.log
    refine ⟨o :: new, ?_, by simp [hre.symm, hnew], fun hs op => ?_⟩
    · simpa [Session.observe] using hlog
    · simp [(hbuild op).symm, hquiet hs op]
  task := h.task
  sends := h.sends

theorem Keeps.of_derived {now : ℕ} {unlockUntil : Option ℕ}
    (h : Keeps (s.observe (.derived now unlockUntil)) s') : Keeps s s' :=
  h.of_observed (by simp) (by simp)

theorem keeps_of_running (hs : s.syncHalted = false) (hhalt : s'.syncHalted = false)
    (hlog : ∃ new, s'.log = s.log ++ new ∧ .reorg ∉ new) : Keeps s s' where
  syncHalted := hhalt.trans hs.symm
  log := by
    obtain ⟨new, hnew, hre⟩ := hlog
    exact ⟨new, hnew, hre, by simp [hs]⟩
  task := by simp [hs]
  sends := by simp [hs]

theorem keeps_build (hs : s.syncHalted = false) (op : KeyedOp) : Keeps s (s.build op next) :=
  keeps_of_running hs hs ⟨[.building op], rfl, by simp⟩

/-! ## Operations -/

theorem keeps_fail (op : SpendOp) (s : Session) (e : RpcError) : Keeps s (op.fail s e next) := by
  cases op with
  | send p => exact keeps_moved rfl rfl rfl ⟨fun _ h => h, fun _ h => .inl h⟩
  | pipelined p => exact keeps_moved rfl rfl rfl ⟨fun _ h => h, fun _ h => .inl h⟩
  | proposeShieldCoinbase => exact keeps_goto s next
  | proposeMergeToAddress => exact keeps_goto s next

theorem keeps_reply (s : Session) (r : ℕ) (res : Except RpcError TxId) :
    Keeps s ((s.reply r res).goto next) :=
  keeps_moved rfl rfl rfl ⟨fun _ h => h, fun _ h => .inl h⟩

theorem keeps_buildWith (hs : s.syncHalted = false) (p : PendingSend) (op : KeyedOp) :
    Keeps s (s.buildWith p op next (s.accountKey w)) := by
  cases hkey : s.accountKey w with
  | error e => exact keeps_reply s _ _
  | ok s' =>
    rw [accountKey_ok hkey]
    exact (keeps_build (s := s.observe _) hs op).of_derived

theorem keeps_resume (hs : s.syncHalted = false) (op : SpendOp) :
    Keeps s (op.resume w s next) := by
  cases op with
  | send p =>
    simp only [SpendOp.resume]
    split
    · exact keeps_reply s _ _
    · exact keeps_buildWith hs p _
  | pipelined p => exact keeps_buildWith hs p _
  | proposeShieldCoinbase => exact keeps_goto s next
  | proposeMergeToAddress => exact keeps_goto s next

theorem keeps_syncToTip (op : SpendOp) (s : Session) : Keeps s (op.syncToTip s next) := by
  unfold SpendOp.syncToTip
  split
  · exact keeps_fail op s _
  · next hs =>
    exact keeps_of_running (by simpa using hs) (by simpa using hs) ⟨[], by simp, by simp⟩

theorem keeps_reachTip (hs : s.syncHalted = false) (op : SpendOp) :
    Keeps s (reachTip cfg w s op next) := by
  unfold Control.reachTip
  split
  · exact keeps_resume hs op
  · split
    · exact (keeps_resume (s := { s with client := false }) hs op).frame rfl rfl (.refl _)
    · split
      · exact (keeps_fail op { s with client := true } _).frame rfl rfl (.refl _)
      · exact keeps_of_running hs hs ⟨[], by simp, by simp⟩

/-- The `sync_step` the actor waits for returns `UnrecoverableReorg`. -/
def Answers.findsReorg (w : Answers) : Bool :=
  match w.syncStep with
  | .ok _ => false
  | .error e => syncFailureIsTerminal e

theorem keeps_catchUp (hs : s.syncHalted = false) (op : SpendOp)
    (hw : w.findsReorg = false) : Keeps s (catchUp w s op next) := by
  unfold Control.catchUp
  split
  · exact keeps_of_running hs hs ⟨[], by simp, by simp⟩
  · exact keeps_resume hs op
  · next e he =>
    rw [Answers.findsReorg, he] at hw
    simp only [hw, Bool.false_eq_true, if_false]
    exact (keeps_resume (s := { s with client := false }) hs op).frame rfl rfl (.refl _)

theorem keeps_startPipelinedSend (s : Session) (p : PendingSend) :
    Keeps s (startPipelinedSend s p next) := (keeps_syncToTip _ _).of_relock

theorem keeps_beginOrQueueSend (s : Session) (p : PendingSend) :
    Keeps s (beginOrQueueSend cfg s p next) := by
  unfold Control.beginOrQueueSend Control.doSend
  split
  · dsimp only
    split
    · exact (keeps_reply _ _ _).of_relock
    · exact (keeps_syncToTip _ _).of_relock
  · split
    · split
      · exact keeps_reply s _ _
      · exact keeps_moved rfl rfl rfl ⟨fun _ h => h, fun _ h => .inl h⟩
    · exact keeps_startPipelinedSend s p

theorem keeps_propose (s : Session) (op : SpendOp) (gate : Except RpcError Unit) :
    Keeps s (propose w s op gate next) := by
  unfold Control.propose
  split
  · exact (keeps_goto _ _).of_relock
  · next s' hs =>
    rw [accountKey_ok hs]
    split
    · exact (keeps_goto _ _).of_derived.of_relock
    · exact (keeps_syncToTip _ _).of_derived.of_relock

theorem keeps_execute (hs : s.syncHalted = false) (op : KeyedOp) (reply : ℕ) :
    Keeps s (execute w s op reply next) := by
  unfold Control.execute
  split
  · exact (keeps_reply _ _ _).of_relock
  · next s' hkey =>
    rw [accountKey_ok hkey]
    have hrun : s.relockIfExpired.syncHalted = false := by rw [relock_syncHalted, hs]
    exact (keeps_build (s := s.relockIfExpired.observe _) hrun op).of_derived.of_relock

/-- The commands that build a plan made by an earlier one. -/
def WalletCommand.executes : WalletCommand → Bool
  | .executeShieldCoinbase _ _ | .executeMergeToAddress _ _ => true
  | _ => false

theorem keeps_handleCommand (c : WalletCommand)
    (hc : s.syncHalted = true → c.executes = false) :
    Keeps s (handleCommand cfg w s next c) := by
  have hrun : c.executes = true → s.syncHalted = false := by
    intro hexec
    cases hs : s.syncHalted with
    | false => rfl
    | true => rw [hc hs] at hexec; cases hexec
  cases c with
  | send p => exact keeps_beginOrQueueSend s p
  | unlock timeoutSecs =>
    simp only [Control.handleCommand]
    split
    · exact keeps_moved rfl rfl rfl (.refl _)
    · exact keeps_goto s next
  | lock =>
    simp only [Control.handleCommand]
    split
    · exact keeps_moved rfl rfl rfl (.refl _)
    · exact keeps_goto s next
  | syncNow =>
    simp only [Control.handleCommand]
    split
    · exact keeps_goto s next
    · exact keeps_moved rfl rfl rfl (.refl _)
  | signMessage =>
    simp only [Control.handleCommand, Control.signMessage]
    split
    · exact Keeps.of_relock (keeps_moved rfl rfl rfl (.refl _))
    · exact (keeps_goto _ _).of_relock
  | proposeShieldCoinbase => exact keeps_propose s .proposeShieldCoinbase (.ok ())
  | executeShieldCoinbase proposal reply => exact keeps_execute (hrun rfl) _ reply
  | proposeMergeToAddress transparentSource privacy =>
    exact keeps_propose s .proposeMergeToAddress (mergeGate transparentSource privacy)
  | executeMergeToAddress work reply => exact keeps_execute (hrun rfl) _ reply
  | other => exact keeps_goto s next

theorem keeps_finishSend (s : Session) (i : ℕ) : Keeps s (finishSend w s i next) := by
  unfold Control.finishSend
  split
  · exact keeps_goto s next
  · next job hjob =>
    refine keeps_moved rfl rfl rfl ?_
    dsimp only [Session.goto]
    split
    · exact ⟨fun j hj => List.mem_of_mem_eraseIdx hj, fun t ht => .inl ht⟩
    · exact within_finishSend w.layer s.sends hjob

theorem keeps_pumped (s : Session) {p : PendingSend} {ps : List PendingSend} :
    Keeps s (startPipelinedSend { s with sends := { s.sends with sendQueue := ps } } p next) :=
  (keeps_startPipelinedSend { s with sends := { s.sends with sendQueue := ps } } p).frame rfl rfl
    ⟨fun _ h => h, fun _ h => .inl h⟩

theorem keeps_unlocked (s : Session) (timeoutSecs : ℤ) :
    Keeps s (unlocked w s timeoutSecs next) := by
  unfold Control.unlocked
  split
  · have hgoto := (keeps_goto (Session.relockIfExpired { s.observe .seedSet with
      seed := true
      unlockUntil := some (s.now + 10 ^ 9 * timeoutSecs.toNat) }) next).of_relock
    exact (hgoto.frame (s := s.observe .seedSet) rfl rfl (.refl _)).of_observed (by simp) (by simp)
  · exact keeps_goto s next

/-! ## The detecting step -/

/-- The main loop's own `sync_step` found the reorg. -/
structure Halts (s s' : Session) : Prop where
  syncHalted : s'.syncHalted = true
  log : s'.log = s.log ++ [.reorg]
  task : s'.task.spends = false
  sends : s'.sends = s.sends

theorem mainSync_cases (w : Answers) (s : Session) :
    Keeps s (mainSync w s) ∨ Halts s (mainSync w s) := by
  unfold Control.mainSync
  split
  · exact .inl (keeps_moved rfl rfl rfl (.refl _))
  · dsimp only
    split
    · exact .inr ⟨rfl, rfl, rfl, rfl⟩
    · exact .inl (keeps_moved rfl rfl rfl (.refl _))

theorem keeps_pollTip (s : Session) (connected : Bool) : Keeps s (pollTip w s connected) := by
  unfold Control.pollTip
  split
  · exact keeps_moved rfl rfl rfl (.refl _)
  · exact keeps_moved rfl rfl rfl (.refl _)

theorem keeps_loopTop (s : Session) : Keeps s (loopTop cfg s) := by
  unfold Control.loopTop
  split
  · split
    · exact keeps_goto s _
    · exact keeps_goto s _
  · exact Keeps.of_relock (keeps_moved rfl rfl rfl (.refl _))

theorem atPos_cases (s : Session) (pos : Pos) :
    Keeps s (atPos cfg w s pos) ∨ Halts s (atPos cfg w s pos) := by
  cases pos with
  | top => exact .inl (keeps_loopTop s)
  | drainProofs =>
    simp only [Control.atPos]
    split
    · exact .inl (keeps_finishSend s _)
    · exact .inl (keeps_goto s _)
  | drainCommands => exact .inl (keeps_goto s _)
  | syncStep => exact mainSync_cases w s
  | idle =>
    simp only [Control.atPos]
    split
    · exact .inl (keeps_goto s _)
    · exact .inl (keeps_goto s _)
    · exact .inl (keeps_goto s _)
    · exact .inl (keeps_finishSend s _)
    · exact .inl (keeps_goto _ _).of_relock
    · exact .inl (keeps_pollTip s _)
    · exact .inl (keeps_pollTip s _)
  | pumpSendQueue next =>
    simp only [Control.atPos]
    split
    · exact .inl (keeps_pumped s)
    · exact .inl (keeps_goto s _)
  | finishProofs deadline =>
    simp only [Control.atPos]
    split
    · exact .inl (keeps_finishSend s _)
    · exact .inl (keeps_goto s _)
  | finishCommands deadline => exact .inl (keeps_goto s _)
  | stopped => exact .inl (keeps_goto s _)

/-! ## Runs -/

def Task.isCatchUp : Task → Bool
  | .catchUp _ _ => true
  | _ => false

/-- The error does not reach a pre-send catch-up, and no plan is executed while halted. -/
def ReachesLoop (s : Session) (e : Event) : Prop :=
  match e with
  | .actor w => (s.task.isCatchUp = true → w.findsReorg = false) ∧
      (s.syncHalted = true → ∀ c ∈ s.takes w, c.executes = false)
  | _ => True

instance (s : Session) (e : Event) : Decidable (ReachesLoop s e) := by
  unfold ReachesLoop
  split <;> infer_instance

/-- A detected reorg halts the wallet; a halted wallet is inside no spending operation and has
begun no build since. -/
structure HaltInv (s : Session) : Prop where
  detected : .reorg ∈ s.log → s.syncHalted = true
  task : s.syncHalted = true → s.task.spends = false
  builds : ∀ before after, s.log = before ++ .reorg :: after → ∀ op, .building op ∉ after

theorem HaltInv.keeps (h : HaltInv s) (hk : Keeps s s') : HaltInv s' := by
  obtain ⟨new, hlog, hre, hnew⟩ := hk.log
  have hmem : .reorg ∈ s'.log → .reorg ∈ s.log := by
    intro hm
    rw [hlog] at hm
    rcases List.mem_append.mp hm with hm | hm
    · exact hm
    · exact absurd hm hre
  refine ⟨fun hm => hk.syncHalted.trans (h.detected (hmem hm)),
    fun hs => hk.task (hk.syncHalted.symm.trans hs), fun before after heq op => ?_⟩
  have hs : s.syncHalted = true := h.detected (hmem (by rw [heq]; simp))
  rw [hlog] at heq
  rcases List.append_eq_append_iff.mp heq with ⟨mid, rfl, htail⟩ | ⟨mid, hlog', htail⟩
  · have : (.reorg : Obs) ∈ new := by rw [htail]; simp
    exact absurd this hre
  · cases mid with
    | nil =>
      have : (.reorg : Obs) ∈ new := by rw [List.nil_append] at htail; rw [← htail]; simp
      exact absurd this hre
    | cons o mid =>
      simp only [List.cons_append, List.cons.injEq] at htail
      obtain ⟨rfl, rfl⟩ := htail
      simp [h.builds before mid hlog' op, hnew hs op]

theorem HaltInv.halts (h : HaltInv s) (hh : Halts s s') : HaltInv s' := by
  refine ⟨fun _ => hh.syncHalted, fun _ => hh.task, fun before after heq op => ?_⟩
  rw [hh.log] at heq
  rcases after.eq_nil_or_concat with rfl | ⟨after', o, rfl⟩
  · simp
  · rw [List.concat_eq_append, ← List.cons_append, ← List.append_assoc] at heq
    obtain ⟨hlog, ho⟩ := List.append_inj' heq rfl
    simp only [List.cons.injEq, and_true] at ho
    simp [← ho, h.builds before after' hlog op]

/-- What an allowed step does. -/
theorem step_keeps_or_halts (h : HaltInv s) (e : Event) (he : ReachesLoop s e) :
    Keeps s (step cfg s e) ∨ Halts s (step cfg s e) := by
  have hidle : ∀ {s' : Session}, s'.syncHalted = s.syncHalted → s'.task = s.task →
      s'.sends = s.sends → (∃ new, s'.log = s.log ++ new ∧ .reorg ∉ new ∧
        ∀ op, .building op ∉ new) → Keeps s s' := by
    rintro s' hhalt htask hsends ⟨new, hlog, hre, hnew⟩
    exact ⟨hhalt, ⟨new, hlog, hre, fun _ => hnew⟩, fun hs => by rw [htask]; exact h.task hs,
      fun _ => by rw [hsends]; exact .refl _⟩
  cases e with
  | clock elapsed => exact .inl (hidle rfl rfl rfl ⟨[], by simp [Control.step], by simp, by simp⟩)
  | fastLock =>
    simp only [Control.step]
    split
    · exact .inl (hidle rfl rfl rfl ⟨[.fastLock], rfl, by simp, by simp⟩)
    · exact .inl (hidle rfl rfl rfl ⟨[], by simp, by simp, by simp⟩)
  | submit c => exact .inl (hidle rfl rfl rfl ⟨[], by simp [Control.step], by simp, by simp⟩)
  | shutdown => exact .inl (hidle rfl rfl rfl ⟨[], by simp [Control.step], by simp, by simp⟩)
  | actor w =>
    have hspends : s.task.spends = true → s.syncHalted = false := by
      intro hsp
      cases hs : s.syncHalted with
      | false => rfl
      | true => rw [h.task hs] at hsp; cases hsp
    simp only [Control.step, Control.proceed]
    split
    · split
      · next c hc =>
        exact .inl ((keeps_handleCommand (s := { s with cmdRx := s.cmdRx.tail }) c
          fun hs => he.2 hs c hc).frame rfl rfl (.refl _))
      · exact atPos_cases s _
    · split
      · exact .inl (keeps_goto s _)
      · exact .inl (keeps_unlocked s _)
    · next op next htask =>
      split
      · exact .inl (keeps_goto s _)
      · exact .inl (keeps_reachTip (hspends (by rw [htask]; rfl)) op)
    · next op next htask =>
      split
      · exact .inl (keeps_goto s _)
      · exact .inl (keeps_catchUp (hspends (by rw [htask]; rfl)) op (he.1 (by rw [htask]; rfl)))
    · split
      · exact .inl (keeps_goto s _)
      · next s' hs =>
        split at hs
        · cases hs
        · rw [deriveUsk_ok hs]
          exact .inl (keeps_goto _ _).of_derived
    · next op next htask =>
      have hs := hspends (by rw [htask]; rfl)
      split
      · exact .inl (keeps_goto s _)
      · exact .inl (keeps_of_running hs hs ⟨[], by simp [Session.goto], by simp⟩)

theorem HaltInv.step (h : HaltInv s) (e : Event) (he : ReachesLoop s e) :
    HaltInv (step cfg s e) := by
  rcases step_keeps_or_halts h e he with hk | hh
  · exact h.keeps hk
  · exact h.halts hh

theorem haltInv_start (cfg : ActorConfig) (autoUnlocked : Bool) :
    HaltInv (.start cfg autoUnlocked) :=
  ⟨by simp [Session.start], by simp [Session.start], by simp [Session.start]⟩

/-- After a detection the run only commits proofs that were in flight. -/
theorem run_within {es : List Event} (h : HaltInv s) (hs : s.syncHalted = true)
    (he : Along (step cfg) ReachesLoop s es) :
    Within s.sends (run (step cfg) s es).sends := by
  let I : Session → Prop := fun x =>
    HaltInv x ∧ x.syncHalted = true ∧ Within s.sends x.sends
  have hstep : ∀ x e, I x → ReachesLoop x e → I (step cfg x e) := by
    rintro x e ⟨hx, hhalt, hin⟩ he
    refine ⟨hx.step e he, ?_⟩
    rcases step_keeps_or_halts hx e he with hk | hh
    · exact ⟨hk.syncHalted.trans hhalt, hin.trans (hk.sends hhalt)⟩
    · exact ⟨hh.syncHalted, by rw [hh.sends]; exact hin⟩
  exact (invariant hstep ⟨h, hs, .refl _⟩ he).2.2

/-- Once a `sync_step` returned `UnrecoverableReorg`, the wallet is halted, no build begins, and
a transaction is stored only from a proof that was in flight at that moment. -/
structure SpendingStops (cfg : ActorConfig) (s : Session) (es : List Event) : Prop where
  halted : .reorg ∈ (run (step cfg) s es).log → (run (step cfg) s es).syncHalted = true
  builds : ∀ before after, (run (step cfg) s es).log = before ++ .reorg :: after →
    ∀ op, .building op ∉ after
  stored : ∀ es₁ es₂, es = es₁ ++ es₂ → .reorg ∈ (run (step cfg) s es₁).log →
    Within (run (step cfg) s es₁).sends (run (step cfg) s es).sends

/-- In every run in which the reorg reaches the main loop, and no plan is executed while the
wallet is halted, a detected reorg stops spending. -/
theorem spendingStops_of_reachesLoop (autoUnlocked : Bool) (es : List Event)
    (h : Along (step cfg) ReachesLoop (.start cfg autoUnlocked) es) :
    SpendingStops cfg (.start cfg autoUnlocked) es := by
  have hstep : ∀ s e, HaltInv s → ReachesLoop s e → HaltInv (step cfg s e) :=
    fun _ e hs he => hs.step e he
  have hinv := invariant hstep (haltInv_start cfg autoUnlocked) h
  refine ⟨hinv.detected, hinv.builds, fun es₁ es₂ heq hre => ?_⟩
  subst heq
  rw [along_append] at h
  have hmid := invariant hstep (haltInv_start cfg autoUnlocked) h.1
  rw [run_append]
  exact run_within hmid (hmid.detected hre) h.2

/-! ## Where the error is found -/

/-- Unlock, and let the main loop drain its channels. -/
def unlockFirst : List Event :=
  [.actor caughtUp, .actor caughtUp, .submit (.unlock 60), .actor caughtUp, .actor caughtUp]

def findsReorg : Answers := { caughtUp with syncStep := .error .unrecoverableReorg }

/-- The main loop's own pass finds the reorg, and a payment is asked for afterwards. -/
def reorgThenSend : List Event :=
  unlockFirst ++ [.actor caughtUp, .actor findsReorg, .submit (.send onePayment),
    .actor caughtUp, .actor caughtUp, .actor caughtUp]

theorem reorgThenSend_stops :
    (run (step encryptedConfig) (.start encryptedConfig false) reorgThenSend).log =
      [.seedSet, .reorg] ∧
    SpendingStops encryptedConfig (.start encryptedConfig false) reorgThenSend :=
  ⟨by decide, spendingStops_of_reachesLoop false reorgThenSend (by decide)⟩

/-- The payment's own catch-up finds the reorg. -/
def reorgDuringSend : List Event :=
  unlockFirst ++ [.submit (.send onePayment), .actor caughtUp, .actor caughtUp,
    .actor findsReorg, .actor caughtUp]

/-- The main loop finds the reorg, and a coinbase-shielding plan is executed afterwards. -/
def reorgThenExecute : List Event :=
  unlockFirst ++ [.actor caughtUp, .actor findsReorg,
    .submit (.executeShieldCoinbase
      ⟨⟨[⟨5, .publicKeyHash 3, 1000⟩], [], [.shielded .orchard], []⟩, []⟩ 0),
    .actor caughtUp, .actor caughtUp, .actor caughtUp]

/-- A send whose catch-up finds the reorg is stored all the same and leaves the wallet running,
and a halted wallet stores an executed plan. -/
theorem reorg_spends_on :
    (run (step encryptedConfig) (.start encryptedConfig false) reorgDuringSend).sends.stored ≠
      [] ∧
    ¬ SpendingStops encryptedConfig (.start encryptedConfig false) reorgDuringSend ∧
    ¬ SpendingStops encryptedConfig (.start encryptedConfig false) reorgThenExecute := by
  refine ⟨by decide, ?_, ?_⟩
  · intro h
    have hhalt := h.halted (by decide)
    revert hhalt
    decide
  · intro h
    have hin := (h.stored (reorgThenExecute.take 7) (reorgThenExecute.drop 7) rfl
      (by decide)).stored
    revert hin
    decide

end Zecd.Control
