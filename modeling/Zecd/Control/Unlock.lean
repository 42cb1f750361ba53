import Zecd.Foundation.Runs
import Zecd.Control.Loop

/-! # Spending keys and the unlock deadline

An encrypted wallet's seed is loaded by `walletpassphrase` until a deadline. Each operation
relocks an expired wallet where it starts. A send derives its key after the catch-up that
follows, so the key is derived in time as long as no deadline passes during the wait.
-/

namespace Zecd.Control

open Runs

variable {cfg : ActorConfig} {w : Answers} {s s' : Session} {next : Pos}

/-- Since the last fast lock the seed was loaded again. -/
def LoadedSince (log : List Obs) : Prop :=
  ∀ earlier later, log = earlier ++ .fastLock :: later → .seedSet ∈ later

/-- Every key was derived strictly before the deadline then in force, and never after a fast
lock unless the seed had been loaded again. -/
def KeysInTime (log : List Obs) : Prop :=
  ∀ before now unlockUntil, before ++ [.derived now unlockUntil] <+: log →
    (∃ deadline, unlockUntil = some deadline ∧ now < deadline) ∧ LoadedSince before

theorem LoadedSince.append {log : List Obs} {o : Obs} (h : LoadedSince log)
    (ho : o ≠ .fastLock) : LoadedSince (log ++ [o]) := by
  intro earlier later heq
  rcases later.eq_nil_or_concat with rfl | ⟨later', x, rfl⟩
  · exact absurd (List.append_inj' heq rfl).2 (by simpa using ho)
  · rw [List.concat_eq_append, ← List.cons_append, ← List.append_assoc] at heq
    obtain ⟨hlog, -⟩ := List.append_inj' heq rfl
    simpa using .inl (h earlier later' hlog)

theorem loadedSince_seedSet (log : List Obs) : LoadedSince (log ++ [.seedSet]) := by
  intro earlier later heq
  rcases later.eq_nil_or_concat with rfl | ⟨later', x, rfl⟩
  · cases (List.append_inj' heq rfl).2
  · rw [List.concat_eq_append, ← List.cons_append, ← List.append_assoc] at heq
    obtain ⟨-, hx⟩ := List.append_inj' heq rfl
    simp only [List.cons.injEq, and_true] at hx
    simp [hx]

theorem keysInTime_append {log : List Obs} {o : Obs} (h : KeysInTime log)
    (ho : ∀ now unlockUntil, o ≠ .derived now unlockUntil) : KeysInTime (log ++ [o]) := by
  intro before now unlockUntil hpre
  rcases List.prefix_concat_iff.mp hpre with heq | hpre
  · exact absurd (List.append_inj' heq rfl).2 (by simpa using (ho now unlockUntil).symm)
  · exact h before now unlockUntil hpre

theorem keysInTime_derived {log : List Obs} {now deadline : ℕ} (h : KeysInTime log)
    (hlt : now < deadline) (hlog : LoadedSince log) :
    KeysInTime (log ++ [.derived now (some deadline)]) := by
  intro before now' unlockUntil hpre
  rcases List.prefix_concat_iff.mp hpre with heq | hpre
  · obtain ⟨rfl, hlast⟩ := List.append_inj' heq rfl
    cases hlast
    exact ⟨⟨deadline, rfl, hlt⟩, hlog⟩
  · exact h before now' unlockUntil hpre

/-! ## The invariant -/

/-- A loaded seed has a deadline and was loaded since the last fast lock. -/
structure KeyInv (s : Session) : Prop where
  deadline : s.seed = true → s.unlockUntil.isSome
  loaded : s.seed = true → LoadedSince s.log
  inTime : KeysInTime s.log

/-- The deadline of a loaded seed has not passed. -/
def InTime (s : Session) : Prop :=
  s.seed = true → ∀ deadline ∈ s.unlockUntil, s.now < deadline

def SpendOp.derivesKey : SpendOp → Bool
  | .send _ | .pipelined _ => true
  | .proposeShieldCoinbase | .proposeMergeToAddress => false

/-- The actor waits between a relock and the key derivation that relies on it. -/
def Task.awaitsKey : Task → Bool
  | .reachTip op _ | .catchUp op _ => op.derivesKey
  | .addressLookup _ => true
  | .loop _ | .unlocking _ _ | .building _ _ => false

structure Guarded (s : Session) : Prop extends KeyInv s where
  waiting : s.task.awaitsKey = true → InTime s

theorem KeyInv.congr (h : KeyInv s) (hseed : s'.seed = s.seed)
    (huntil : s'.unlockUntil = s.unlockUntil) (hlog : s'.log = s.log) : KeyInv s' where
  deadline := by rw [hseed, huntil]; exact h.deadline
  loaded := by rw [hseed, hlog]; exact h.loaded
  inTime := by rw [hlog]; exact h.inTime

theorem KeyInv.moved (h : KeyInv s) (hseed : s'.seed = s.seed)
    (huntil : s'.unlockUntil = s.unlockUntil) (hlog : s'.log = s.log)
    (htask : s'.task.awaitsKey = false) : Guarded s' :=
  ⟨h.congr hseed huntil hlog, by rw [htask]; exact nofun⟩

theorem KeyInv.goto (h : KeyInv s) (pos : Pos) : Guarded (s.goto pos) := h.moved rfl rfl rfl rfl

theorem KeyInv.observe {o : Obs} (h : KeyInv s) (hlock : o ≠ .fastLock)
    (hkey : ∀ now unlockUntil, o ≠ .derived now unlockUntil) : KeyInv (s.observe o) where
  deadline := h.deadline
  loaded := fun hs => (h.loaded hs).append hlock
  inTime := keysInTime_append h.inTime hkey

theorem KeyInv.relock (h : KeyInv s) : KeyInv s.relockIfExpired := by
  unfold Session.relockIfExpired
  split
  · exact ⟨nofun, nofun, h.inTime⟩
  · exact h

theorem inTime_relock (s : Session) : InTime s.relockIfExpired := by
  unfold Session.relockIfExpired
  split
  · exact nofun
  · next hexp =>
    intro _ deadline hd
    rw [Option.mem_def.mp hd] at hexp
    simpa using hexp

theorem KeyInv.deriveUsk (h : KeyInv s) (hin : InTime s) (hs : s.deriveUsk w = .ok s') :
    KeyInv s' ∧ InTime s' := by
  unfold Session.deriveUsk at hs
  split at hs
  · next hseed =>
    obtain ⟨deadline, hd⟩ := Option.isSome_iff_exists.mp (h.deadline hseed)
    cases hkey : w.layer.deriveUsk with
    | error e => simp [hkey, Except.map] at hs
    | ok u =>
      simp only [hkey, Except.map, Except.ok.injEq] at hs
      subst hs
      refine ⟨⟨h.deadline, fun hs => (h.loaded hs).append (by simp), ?_⟩, hin⟩
      show KeysInTime (s.log ++ [.derived s.now s.unlockUntil])
      rw [hd]
      exact keysInTime_derived h.inTime (hin hseed deadline hd) (h.loaded hseed)
  · cases hs

theorem KeyInv.accountKey (h : KeyInv s) (hin : InTime s) (hs : s.accountKey w = .ok s') :
    KeyInv s' ∧ InTime s' := by
  rw [Session.accountKey, Fallible.bind_eq_ok] at hs
  obtain ⟨_, _, hs⟩ := hs
  exact h.deriveUsk hin hs

theorem KeyInv.build (h : KeyInv s) (op : KeyedOp) : Guarded (s.build op next) :=
  (h.observe (o := .building op) (by simp) (by simp)).moved rfl rfl rfl rfl

/-! ## What each operation keeps -/

theorem KeyInv.reply (h : KeyInv s) (r : ℕ) (res : Except RpcError TxId) :
    KeyInv (s.reply r res) := h.congr rfl rfl rfl

theorem KeyInv.fail (h : KeyInv s) (op : SpendOp) (e : RpcError) :
    Guarded (op.fail s e next) := by
  cases op with
  | send p => exact (h.reply _ _).goto next
  | pipelined p => exact (h.reply _ _).goto next
  | proposeShieldCoinbase => exact h.goto next
  | proposeMergeToAddress => exact h.goto next

theorem KeyInv.buildWith (h : KeyInv s) {p : PendingSend} {op : KeyedOp}
    {key : Except RpcError Session} (hkey : ∀ s', key = .ok s' → KeyInv s') :
    Guarded (s.buildWith p op next key) := by
  cases key with
  | error e => exact (h.reply _ _).goto next
  | ok s' => exact (hkey s' rfl).build op

theorem KeyInv.resume (h : KeyInv s) (op : SpendOp) (hin : op.derivesKey = true → InTime s) :
    Guarded (op.resume w s next) := by
  cases op with
  | send p =>
    simp only [SpendOp.resume]
    split
    · exact (h.reply _ _).goto next
    · exact h.buildWith fun s' hs => (h.accountKey (hin rfl) hs).1
  | pipelined p => exact h.buildWith fun s' hs => (h.accountKey (hin rfl) hs).1
  | proposeShieldCoinbase => exact h.goto next
  | proposeMergeToAddress => exact h.goto next

theorem KeyInv.syncToTip (h : KeyInv s) (op : SpendOp) (hin : InTime s) :
    Guarded (op.syncToTip s next) := by
  unfold SpendOp.syncToTip
  split
  · exact h.fail op _
  · exact ⟨⟨h.deadline, h.loaded, h.inTime⟩, fun _ => hin⟩

theorem KeyInv.reachTip (h : KeyInv s) (op : SpendOp)
    (hin : op.derivesKey = true → InTime s) : Guarded (reachTip cfg w s op next) := by
  have hclient : ∀ b, KeyInv { s with client := b } := fun _ => h.congr rfl rfl rfl
  unfold Control.reachTip
  split
  · exact h.resume op hin
  · split
    · exact (hclient false).resume op hin
    · split
      · exact (hclient true).fail op _
      · exact ⟨⟨h.deadline, h.loaded, h.inTime⟩, hin⟩

theorem KeyInv.catchUp (h : KeyInv s) (op : SpendOp) (htask : s.task = .catchUp op next)
    (hin : op.derivesKey = true → InTime s) : Guarded (catchUp w s op next) := by
  unfold Control.catchUp
  split
  · exact ⟨h, fun hawait => hin (by rwa [htask] at hawait)⟩
  · exact h.resume op hin
  · next e _ =>
    dsimp only
    have hclient : ∀ {s₀ : Session}, KeyInv s₀ → KeyInv { s₀ with client := false } :=
      fun h₀ => h₀.congr rfl rfl rfl
    split
    · exact (hclient (h.observe (by simp) (by simp))).resume op hin
    · exact (hclient h).resume op hin

theorem KeyInv.doSend (h : KeyInv s) (p : PendingSend) : Guarded (doSend cfg s p next) := by
  simp only [Control.doSend]
  split
  · exact (h.relock.reply _ _).goto next
  · exact h.relock.syncToTip _ (inTime_relock s)

theorem KeyInv.startPipelinedSend (h : KeyInv s) (p : PendingSend) :
    Guarded (startPipelinedSend s p next) :=
  h.relock.syncToTip _ (inTime_relock s)

theorem KeyInv.beginOrQueueSend (h : KeyInv s) (p : PendingSend) :
    Guarded (beginOrQueueSend cfg s p next) := by
  unfold Control.beginOrQueueSend
  split
  · exact h.doSend p
  · split
    · split
      · exact (h.reply _ _).goto next
      · exact h.moved rfl rfl rfl rfl
    · exact h.startPipelinedSend p

theorem KeyInv.propose (h : KeyInv s) (op : SpendOp) (gate : Except RpcError Unit) :
    Guarded (propose w s op gate next) := by
  unfold Control.propose
  split
  · exact h.relock.goto next
  · next s' hs =>
    obtain ⟨h', hin⟩ := h.relock.accountKey (inTime_relock s) hs
    split
    · exact h'.goto next
    · exact h'.syncToTip op hin

theorem KeyInv.execute (h : KeyInv s) (op : KeyedOp) (reply : ℕ) :
    Guarded (execute w s op reply next) := by
  unfold Control.execute
  split
  · exact (h.relock.reply _ _).goto next
  · next s' hs => exact (h.relock.accountKey (inTime_relock s) hs).1.build op

theorem KeyInv.signMessage (h : KeyInv s) : Guarded (signMessage w s next) := by
  unfold Control.signMessage
  split
  · exact ⟨⟨h.relock.deadline, h.relock.loaded, h.relock.inTime⟩, fun _ => inTime_relock s⟩
  · exact h.relock.goto next

theorem KeyInv.locked (h : KeyInv s) {unlockUntil : Option ℕ} :
    KeyInv { s with seed := false, unlockUntil } := ⟨nofun, nofun, h.inTime⟩

theorem KeyInv.handleCommand (h : KeyInv s) (c : WalletCommand) :
    Guarded (handleCommand cfg w s next c) := by
  cases c with
  | send p => exact h.beginOrQueueSend p
  | unlock timeoutSecs =>
    simp only [Control.handleCommand]
    split
    · exact h.moved rfl rfl rfl rfl
    · exact h.goto next
  | lock =>
    simp only [Control.handleCommand]
    split
    · exact h.locked.goto next
    · exact h.goto next
  | syncNow =>
    simp only [Control.handleCommand]
    split
    · exact h.goto next
    · exact h.moved rfl rfl rfl rfl
  | signMessage => exact h.signMessage
  | proposeShieldCoinbase => exact h.propose .proposeShieldCoinbase (.ok ())
  | executeShieldCoinbase proposal reply => exact h.execute _ _
  | proposeMergeToAddress transparentSource privacy => exact h.propose _ _
  | executeMergeToAddress work reply => exact h.execute _ _
  | other => exact h.goto next

theorem KeyInv.unlocked (h : KeyInv s) (timeoutSecs : ℤ) :
    Guarded (unlocked w s timeoutSecs next) := by
  unfold Control.unlocked
  split
  · refine (KeyInv.relock ⟨fun _ => rfl, fun _ => ?_, ?_⟩).goto next
    · exact loadedSince_seedSet s.log
    · exact keysInTime_append h.inTime (by simp)
  · exact h.goto next

theorem KeyInv.finishSend (h : KeyInv s) (i : ℕ) : Guarded (finishSend w s i next) := by
  unfold Control.finishSend
  split
  · exact h.goto next
  · exact h.moved rfl rfl rfl rfl

theorem KeyInv.loopTop (h : KeyInv s) : Guarded (loopTop cfg s) := by
  unfold Control.loopTop
  split
  · split
    · exact h.goto _
    · exact h.goto _
  · exact h.relock.moved rfl rfl rfl rfl

theorem KeyInv.mainSync (h : KeyInv s) : Guarded (mainSync w s) := by
  unfold Control.mainSync
  split
  · exact h.moved rfl rfl rfl rfl
  · dsimp only
    split
    · exact (h.observe (o := .reorg) (by simp) (by simp)).moved rfl rfl rfl rfl
    · exact h.moved rfl rfl rfl rfl

theorem KeyInv.pollTip (h : KeyInv s) (connected : Bool) : Guarded (pollTip w s connected) := by
  unfold Control.pollTip
  split
  · exact h.moved rfl rfl rfl rfl
  · exact h.moved rfl rfl rfl rfl

theorem KeyInv.atPos (h : KeyInv s) (pos : Pos) : Guarded (atPos cfg w s pos) := by
  cases pos with
  | top => exact h.loopTop
  | drainProofs =>
    simp only [Control.atPos]
    split
    · exact h.finishSend _
    · exact h.goto _
  | drainCommands => exact h.goto _
  | syncStep => exact h.mainSync
  | idle =>
    simp only [Control.atPos]
    split
    · exact h.goto _
    · exact h.goto _
    · exact h.goto _
    · exact h.finishSend _
    · exact h.relock.goto _
    · exact h.pollTip _
    · exact h.pollTip _
  | pumpSendQueue next =>
    simp only [Control.atPos]
    split
    · next p ps _ _ =>
      have hps : KeyInv { s with sends := { s.sends with sendQueue := ps } } :=
        h.congr rfl rfl rfl
      exact hps.startPipelinedSend p
    · exact h.goto _
  | finishProofs deadline =>
    simp only [Control.atPos]
    split
    · exact h.finishSend _
    · exact h.goto _
  | finishCommands deadline => exact h.goto _
  | stopped => exact h.goto _

theorem Guarded.proceed (h : Guarded s) : Guarded (proceed cfg w s) := by
  have hin := h.waiting
  unfold Control.proceed
  split
  · split
    · have htail : KeyInv { s with cmdRx := s.cmdRx.tail } := h.toKeyInv.congr rfl rfl rfl
      exact htail.handleCommand _
    · exact h.toKeyInv.atPos _
  · split
    · exact h.toKeyInv.goto _
    · exact h.toKeyInv.unlocked _
  · next op next htask =>
    split
    · exact h.toKeyInv.goto _
    · exact h.toKeyInv.reachTip op fun hop => hin (by rw [htask]; exact hop)
  · next op next htask =>
    split
    · exact h.toKeyInv.goto _
    · exact h.toKeyInv.catchUp op htask fun hop => hin (by rw [htask]; exact hop)
  · next next htask =>
    split
    · exact h.toKeyInv.goto _
    · next s' hs =>
      split at hs
      · cases hs
      · exact (h.toKeyInv.deriveUsk (hin (by rw [htask]; rfl)) hs).1.goto _
  · split
    · exact h.toKeyInv.goto _
    · exact h.toKeyInv.moved rfl rfl rfl rfl

/-! ## Runs -/

/-- No deadline of a loaded seed passes while the actor waits between a relock and the key
derivation that relies on it. -/
def NoLapse (s : Session) (e : Event) : Prop :=
  match e with
  | .clock elapsed => s.task.awaitsKey = true → s.seed = true →
      ∀ deadline ∈ s.unlockUntil, s.now < deadline → s.now + elapsed < deadline
  | _ => True

instance (s : Session) (e : Event) : Decidable (NoLapse s e) := by
  unfold NoLapse
  split <;> infer_instance

theorem Guarded.step (h : Guarded s) (e : Event) (he : NoLapse s e) :
    Guarded (step cfg s e) := by
  cases e with
  | clock elapsed =>
    refine ⟨⟨h.deadline, h.loaded, h.inTime⟩, fun hawait hseed deadline hd => ?_⟩
    exact he hawait hseed deadline hd (h.waiting hawait hseed deadline hd)
  | fastLock =>
    simp only [Control.step]
    split
    · exact ⟨⟨nofun, nofun, keysInTime_append h.inTime (by simp)⟩, fun _ => nofun⟩
    · exact h
  | submit c => exact ⟨⟨h.deadline, h.loaded, h.inTime⟩, h.waiting⟩
  | shutdown => exact ⟨⟨h.deadline, h.loaded, h.inTime⟩, h.waiting⟩
  | actor w => exact h.proceed

theorem guarded_start (henc : cfg.encrypted = true) (autoUnlocked : Bool) :
    Guarded (.start cfg autoUnlocked) where
  deadline := by simp [Session.start, henc]
  loaded := by simp [Session.start, henc]
  inTime := by
    intro before now unlockUntil hpre
    simp [Session.start] at hpre
  waiting := nofun

/-- In every run of an encrypted wallet's actor in which no deadline passes between a relock and
the key derivation that relies on it, every key is derived before its deadline, and never after a
`walletlock` unless a later `walletpassphrase` loaded the seed again. -/
theorem keysInTime_of_noLapse (henc : cfg.encrypted = true) (autoUnlocked : Bool)
    (es : List Event) (h : Along (step cfg) NoLapse (.start cfg autoUnlocked) es) :
    KeysInTime (run (step cfg) (.start cfg autoUnlocked) es).log := by
  have hstep : ∀ s e, Guarded s → NoLapse s e → Guarded (step cfg s e) :=
    fun _ e hs he => hs.step e he
  exact (invariant hstep (guarded_start henc autoUnlocked) h).inTime

/-- A catch-up of half a minute under a deadline of a minute. -/
theorem unlockAndSend_in_time :
    (run (step encryptedConfig) (.start encryptedConfig false) (unlockAndSend 30)).log =
      [.seedSet, .derived (30 * 10 ^ 9) (some (60 * 10 ^ 9)), .building (.send onePayment)] ∧
    KeysInTime
      (run (step encryptedConfig) (.start encryptedConfig false) (unlockAndSend 30)).log :=
  ⟨by decide, keysInTime_of_noLapse rfl false (unlockAndSend 30) (by decide)⟩

/-- A catch-up of two minutes under the same deadline: the send derives its key a minute late. -/
theorem unlockAndSend_late :
    ¬ KeysInTime
      (run (step encryptedConfig) (.start encryptedConfig false) (unlockAndSend 120)).log := by
  intro h
  obtain ⟨⟨deadline, hd, hlt⟩, -⟩ :=
    h [.seedSet] (120 * 10 ^ 9) (some (60 * 10 ^ 9)) (by decide)
  cases hd
  omega

end Zecd.Control
