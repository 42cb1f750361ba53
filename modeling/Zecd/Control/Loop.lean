import Zecd.Send.ReferenceWallet

/-! # The actor's main loop, between its awaits

The wallet actor is one task. It runs from one await or blocking section to the next, and in
between the clock advances, clients submit commands, and the fast path of `walletlock` clears
the seed. `Task` says where the actor waits, `proceed` runs it to its next wait on the
answers it was waiting for, and `step` is one event of this system.
-/

namespace Zecd.Control

structure ActorConfig extends SendConfig where
  encrypted : Bool
  /-- `[spend] max_send_catchup_blocks`. -/
  maxSendCatchupBlocks : ℕ
  /-- `shutdown_drain`, in nanoseconds. -/
  shutdownDrain : ℕ
  deriving DecidableEq, Repr

inductive WalletCommand where
  | send (p : PendingSend)
  | unlock (timeoutSecs : ℤ)
  | lock
  | syncNow
  | signMessage
  | proposeShieldCoinbase
  | executeShieldCoinbase (proposal : Proposal Empty) (reply : ℕ)
  | proposeMergeToAddress (transparentSource : Bool) (privacy : SendPrivacy)
  | executeMergeToAddress (work : MergeWork) (reply : ℕ)
  /-- Address issuance, shard members, raw transactions: neither the seed nor a send path. -/
  | other
  deriving DecidableEq, Repr

/-- A position of the main loop, or of the drain that ends it. -/
inductive Pos where
  | top
  | drainProofs
  | drainCommands
  | syncStep
  | idle
  | pumpSendQueue (next : Pos)
  | finishProofs (deadline : ℕ)
  | finishCommands (deadline : ℕ)
  | stopped
  deriving DecidableEq, Repr

/-- The operations that run `sync_to_tip_for_send`. -/
inductive SpendOp where
  | send (p : PendingSend)
  | pipelined (p : PendingSend)
  | proposeShieldCoinbase
  | proposeMergeToAddress
  deriving DecidableEq, Repr

inductive KeyedOp where
  | send (p : PendingSend)
  | pipelined (p : PendingSend)
  | executeShieldCoinbase (proposal : Proposal Empty) (reply : ℕ)
  | executeMergeToAddress (work : MergeWork) (reply : ℕ)
  deriving DecidableEq, Repr

/-- Where the actor waits, and where it goes from there. -/
inductive Task where
  | loop (pos : Pos)
  /-- `do_unlock` decrypts the seed. -/
  | unlocking (timeoutSecs : ℤ) (next : Pos)
  /-- `sync_to_tip_for_send` connects, refreshes the tip and reads the lag. -/
  | reachTip (op : SpendOp) (next : Pos)
  /-- `sync_to_tip_for_send` waits for a `sync_step`. -/
  | catchUp (op : SpendOp) (next : Pos)
  /-- `do_sign_message` reads the address's metadata. -/
  | addressLookup (next : Pos)
  | building (op : KeyedOp) (next : Pos)
  deriving DecidableEq, Repr

inductive SyncError | unrecoverableReorg | other
  deriving DecidableEq, Repr

def syncFailureIsTerminal (e : SyncError) : Bool := e == .unrecoverableReorg

/-- What happened, as an observer of the seed, the scan and the builds sees it. -/
inductive Obs where
  /-- The handle's `walletlock` cleared the seed. -/
  | fastLock
  /-- `walletpassphrase` loaded the seed. -/
  | seedSet
  /-- `derive_usk` succeeded at this instant, under this deadline. -/
  | derived (now : ℕ) (unlockUntil : Option ℕ)
  /-- A `sync_step` returned `UnrecoverableReorg`. -/
  | reorg
  /-- A build began. -/
  | building (op : KeyedOp)
  deriving DecidableEq, Repr

structure Session where
  sends : SendState
  /-- `Instant::now()`, in nanoseconds. -/
  now : ℕ
  /-- The shared seed is loaded. -/
  seed : Bool
  unlockUntil : Option ℕ
  syncHalted : Bool
  forceSync : Bool
  moreWork : Bool
  /-- A client is connected. -/
  client : Bool
  shutdown : Bool
  cmdRx : List WalletCommand
  task : Task
  log : List Obs

/-- A spawned actor: an encrypted wallet is locked, another may have been unlocked at startup. -/
def Session.start (cfg : ActorConfig) (autoUnlocked : Bool) : Session where
  sends := .init
  now := 0
  seed := !cfg.encrypted && autoUnlocked
  unlockUntil := none
  syncHalted := false
  forceSync := false
  moreWork := true
  client := false
  shutdown := false
  cmdRx := []
  task := .loop .top
  log := []

inductive IdleEvent
  | shutdown | command | sendDone (i : ℕ) | relock | tick | mempoolTx | mempoolClosed
  deriving DecidableEq, Repr

/-- What the libraries, the upstream and the channels answer where the actor waits. -/
structure Answers where
  layer : WalletLayer
  /-- The passphrase decrypts a seed that derives the wallet's account. -/
  decrypts : Bool
  connects : Bool
  /-- `refresh_tip` succeeds, with this tip. -/
  refreshedTip : Option ℕ
  fullyScanned : Option ℕ
  syncStep : Except SyncError Bool
  moreEnhance : Bool
  idle : IdleEvent
  /-- The proof whose completion the channel holds. -/
  proofDone : Option ℕ
  /-- The handler panics; `handle_command_caught` and its siblings go on with the loop. -/
  panics : Bool

namespace Session

variable (s : Session)

def goto (pos : Pos) : Session := { s with task := .loop pos }

def reply (r : ℕ) (res : Except RpcError TxId) : Session :=
  { s with sends := s.sends.reply r res }

def observe (o : Obs) : Session := { s with log := s.log ++ [o] }

def relockIfExpired : Session :=
  if s.unlockUntil.any (· ≤ s.now) then { s with seed := false, unlockUntil := none } else s

/-- `seed_guard(..).derive_usk(..)`. -/
def deriveUsk (w : Answers) : Except RpcError Session :=
  if s.seed then w.layer.deriveUsk.map fun _ => s.observe (.derived s.now s.unlockUntil)
  else .error .unlockNeeded

def accountKey (w : Answers) : Except RpcError Session := do
  w.layer.accountIndex
  s.deriveUsk w

def build (op : KeyedOp) (next : Pos) : Session :=
  { s.observe (.building op) with task := .building op next }

end Session

section Frame

variable {s s' : Session} {w : Answers}

@[simp] theorem relock_syncHalted (s : Session) : s.relockIfExpired.syncHalted = s.syncHalted := by
  unfold Session.relockIfExpired; split <;> rfl

@[simp] theorem relock_log (s : Session) : s.relockIfExpired.log = s.log := by
  unfold Session.relockIfExpired; split <;> rfl

@[simp] theorem relock_sends (s : Session) : s.relockIfExpired.sends = s.sends := by
  unfold Session.relockIfExpired; split <;> rfl

@[simp] theorem relock_task (s : Session) : s.relockIfExpired.task = s.task := by
  unfold Session.relockIfExpired; split <;> rfl

@[simp] theorem relock_cmdRx (s : Session) : s.relockIfExpired.cmdRx = s.cmdRx := by
  unfold Session.relockIfExpired; split <;> rfl

/-- A derived key leaves a trace in the log and nowhere else. -/
theorem deriveUsk_ok (h : s.deriveUsk w = .ok s') :
    s' = s.observe (.derived s.now s.unlockUntil) := by
  unfold Session.deriveUsk at h
  split at h
  · cases hkey : w.layer.deriveUsk with
    | error e => simp [hkey, Except.map] at h
    | ok u => simpa [hkey, Except.map, eq_comm] using h
  · cases h

theorem accountKey_ok (h : s.accountKey w = .ok s') :
    s' = s.observe (.derived s.now s.unlockUntil) := by
  rw [Session.accountKey, Fallible.bind_eq_ok] at h
  obtain ⟨_, _, h⟩ := h
  exact deriveUsk_ok h

end Frame

/-! ## The pre-send catch-up -/

/-- How far behind the tip a send's catch-up would start, if that is more than the limit. -/
def sendCatchupExceeded (tip : ℕ) (scanned : Option ℕ) (limit : ℕ) : Option ℕ :=
  if limit = 0 then none
  else
    let lag := tip - scanned.getD 0
    if limit < lag then some lag else none

def syncHaltedError : RpcError :=
  .wallet ("sync is halted for this wallet, so a send cannot be built against the current " ++
    "chain; run `zecd rescan` to rebuild it")

def stillSyncingError (tip : ℕ) (scanned : Option ℕ) (lag limit : ℕ) : RpcError :=
  .clientInInitialDownload ("Wallet is still syncing: it has scanned to height " ++
    (match scanned with
      | none => "none"
      | some h => toString h) ++ " of " ++ toString tip ++ " (" ++ toString lag ++
    " blocks behind), more than [spend] max_send_catchup_blocks = " ++ toString limit ++
    " allows a send to catch up. Retry once `waitforsync` reports the wallet caught up.")

def SpendOp.fail (op : SpendOp) (s : Session) (e : RpcError) (next : Pos) : Session :=
  match op with
  | .send p | .pipelined p => (s.reply p.reply (.error e)).goto next
  | .proposeShieldCoinbase | .proposeMergeToAddress => s.goto next

/-- Where a send goes on once its spending key is derived. -/
def Session.buildWith (s : Session) (p : PendingSend) (op : KeyedOp) (next : Pos)
    (key : Except RpcError Session) : Session :=
  match key with
  | .error e => (s.reply p.reply (.error e)).goto next
  | .ok s' => s'.build op next

/-- What follows a `sync_to_tip_for_send` that returned `Ok`: a send derives its key, a proposal
plans and replies. -/
def SpendOp.resume (op : SpendOp) (w : Answers) (s : Session) (next : Pos) : Session :=
  match op with
  | .send p =>
    match w.layer.requireAccount with
    | .error e => (s.reply p.reply (.error e)).goto next
    | .ok _ => s.buildWith p (.send p) next (s.accountKey w)
  | .pipelined p => s.buildWith p (.pipelined p) next (s.accountKey w)
  | .proposeShieldCoinbase | .proposeMergeToAddress => s.goto next

/-- The entry of `sync_to_tip_for_send`. -/
def SpendOp.syncToTip (op : SpendOp) (s : Session) (next : Pos) : Session :=
  if s.syncHalted then op.fail s syncHaltedError next
  else { s with task := .reachTip op next }

/-- The connect, the tip refresh and the lag check of `sync_to_tip_for_send`. -/
def reachTip (cfg : ActorConfig) (w : Answers) (s : Session) (op : SpendOp) (next : Pos) :
    Session :=
  if !s.client && !w.connects then op.resume w s next
  else
    match w.refreshedTip with
    | none => op.resume w { s with client := false } next
    | some tip =>
      match sendCatchupExceeded tip w.fullyScanned cfg.maxSendCatchupBlocks with
      | some lag => op.fail { s with client := true }
          (stillSyncingError tip w.fullyScanned lag cfg.maxSendCatchupBlocks) next
      | none => { s with client := true, task := .catchUp op next }

/-- One `sync_step` of the catch-up loop. -/
def catchUp (w : Answers) (s : Session) (op : SpendOp) (next : Pos) : Session :=
  match w.syncStep with
  | .ok true => s
  | .ok false => op.resume w s next
  | .error e =>
    let s := if syncFailureIsTerminal e then s.observe .reorg else s
    op.resume w { s with client := false } next

/-! ## Commands -/

def doSend (cfg : ActorConfig) (s : Session) (p : PendingSend) (next : Pos) : Session :=
  let s := s.relockIfExpired
  match transparentSourceGates cfg.toSendConfig p.toSendArgs with
  | .error e => (s.reply p.reply (.error e)).goto next
  | .ok _ => (SpendOp.send p).syncToTip s next

def startPipelinedSend (s : Session) (p : PendingSend) (next : Pos) : Session :=
  (SpendOp.pipelined p).syncToTip s.relockIfExpired next

def beginOrQueueSend (cfg : ActorConfig) (s : Session) (p : PendingSend) (next : Pos) : Session :=
  if runsInline cfg.toSendConfig p.toSendArgs then doSend cfg s p next
  else if s.sends.sendInFlight then
    if maxQueuedSends ≤ s.sends.sendQueue.length then
      (s.reply p.reply (.error (.wallet ("too many sends queued behind an in-flight proof (" ++
        toString maxQueuedSends ++ "); retry shortly")))).goto next
    else { s with sends := { s.sends with sendQueue := s.sends.sendQueue ++ [p] } }.goto next
  else startPipelinedSend s p next

/-- A proposal checks that it could derive the key, then catches up like a send. -/
def propose (w : Answers) (s : Session) (op : SpendOp) (gate : Except RpcError Unit)
    (next : Pos) : Session :=
  match s.relockIfExpired.accountKey w with
  | .error _ => s.relockIfExpired.goto next
  | .ok s' =>
    match gate with
    | .error _ => s'.goto next
    | .ok _ => op.syncToTip s' next

def mergeGate (transparentSource : Bool) (privacy : SendPrivacy) : Except RpcError Unit :=
  if transparentSource && !privacy.allowsTransparentInputs then
    .error (insufficientPrivacyForTransparentSender privacy)
  else .ok ()

/-- An execution derives its key at once and builds the plan it was given. -/
def execute (w : Answers) (s : Session) (op : KeyedOp) (reply : ℕ) (next : Pos) : Session :=
  match s.relockIfExpired.accountKey w with
  | .error e => (s.relockIfExpired.reply reply (.error e)).goto next
  | .ok s' => s'.build op next

def signMessage (w : Answers) (s : Session) (next : Pos) : Session :=
  match w.layer.requireAccount, w.layer.accountIndex with
  | .ok _, .ok _ => { s.relockIfExpired with task := .addressLookup next }
  | _, _ => s.relockIfExpired.goto next

def handleCommand (cfg : ActorConfig) (w : Answers) (s : Session) (next : Pos) :
    WalletCommand → Session
  | .send p => beginOrQueueSend cfg s p next
  | .unlock timeoutSecs =>
    if cfg.encrypted then { s with task := .unlocking timeoutSecs next } else s.goto next
  | .lock =>
    if cfg.encrypted then { s with seed := false, unlockUntil := none }.goto next
    else s.goto next
  | .syncNow => if s.syncHalted then s.goto next else { s with forceSync := true }.goto next
  | .signMessage => signMessage w s next
  | .proposeShieldCoinbase => propose w s .proposeShieldCoinbase (.ok ()) next
  | .executeShieldCoinbase proposal reply =>
    execute w s (.executeShieldCoinbase proposal reply) reply next
  | .proposeMergeToAddress transparentSource privacy =>
    propose w s .proposeMergeToAddress (mergeGate transparentSource privacy) next
  | .executeMergeToAddress work reply =>
    execute w s (.executeMergeToAddress work reply) reply next
  | .other => s.goto next

/-- `do_unlock` once the seed is decrypted. -/
def unlocked (w : Answers) (s : Session) (timeoutSecs : ℤ) (next : Pos) : Session :=
  if w.decrypts then
    ({ s.observe .seedSet with
        seed := true
        unlockUntil := some (s.now + 10 ^ 9 * timeoutSecs.toNat) }).relockIfExpired.goto next
  else s.goto next

/-- The layer a build sees: the catch-up and the key derivation are behind it. -/
def keyed (w : WalletLayer) : WalletLayer :=
  { w with syncToTipForSend := .ok (), deriveUsk := .ok () }

def KeyedOp.run (cfg : ActorConfig) (w : WalletLayer) (s : SendState) : KeyedOp → SendState
  | .send p =>
    let (s', res) := Zecd.doSend cfg.toSendConfig (keyed w) s p
    s'.reply p.reply res
  | .pipelined p => Zecd.startPipelinedSend cfg.toSendConfig (keyed w) s p
  | .executeShieldCoinbase proposal reply =>
    executePlan (keyed w) s reply (prepareShieldCoinbase (keyed w) proposal)
  | .executeMergeToAddress work reply =>
    executePlan (keyed w) s reply (prepareMerge (keyed w) work)

/-! ## The loop -/

/-- `finish_send_caught`, then the queue is pumped. -/
def finishSend (w : Answers) (s : Session) (i : ℕ) (next : Pos) : Session :=
  match s.sends.proofs[i]? with
  | none => s.goto next
  | some job =>
    let sends := { s.sends with proofs := s.sends.proofs.eraseIdx i }
    let sends := if w.panics then { sends with sendInFlight := false }
      else Zecd.finishSend w.layer sends job
    { s with sends }.goto (.pumpSendQueue next)

/-- The top of the loop: relock, take a nudge, and never sync a halted wallet. -/
def loopTop (cfg : ActorConfig) (s : Session) : Session :=
  if s.shutdown then
    if cfg.shutdownDrain = 0 then s.goto .stopped
    else s.goto (.finishProofs (s.now + cfg.shutdownDrain))
  else
    let s := s.relockIfExpired
    let moreWork := (s.moreWork || s.forceSync) && !s.syncHalted
    { s with forceSync := false, moreWork }.goto (if moreWork then .drainProofs else .idle)

/-- One `sync_step` of the main loop, with what follows it. -/
def mainSync (w : Answers) (s : Session) : Session :=
  match w.syncStep with
  | .ok worked => { s with client := true, moreWork := worked || w.moreEnhance }.goto .top
  | .error e =>
    let s := if syncFailureIsTerminal e then { s.observe .reorg with syncHalted := true } else s
    { s with client := false, moreWork := false }.goto .top

def pollTip (w : Answers) (s : Session) (connected : Bool) : Session :=
  if connected && w.refreshedTip.isSome then
    { s with client := true, moreWork := true }.goto .top
  else { s with client := false }.goto .top

/-- The command the actor takes from its channel where it waits. -/
def Session.takes (s : Session) (w : Answers) : Option WalletCommand :=
  match s.task with
  | .loop .drainCommands => s.cmdRx.head?
  | .loop .idle => if w.idle = .command then s.cmdRx.head? else none
  | .loop (.finishCommands deadline) => if s.now < deadline then s.cmdRx.head? else none
  | _ => none

/-- Where the actor goes once a command from this position is handled. -/
def Pos.afterCommand : Pos → Pos
  | .idle => .top
  | pos => pos

/-- The loop at a position that took no command. -/
def atPos (cfg : ActorConfig) (w : Answers) (s : Session) : Pos → Session
  | .top => loopTop cfg s
  | .drainProofs =>
    match w.proofDone with
    | some i => finishSend w s i .drainProofs
    | none => s.goto .drainCommands
  | .drainCommands => s.goto .syncStep
  | .syncStep => mainSync w s
  | .idle =>
    match w.idle with
    | .shutdown | .command | .mempoolTx => s.goto .top
    | .sendDone i => finishSend w s i .top
    | .relock => s.relockIfExpired.goto .top
    | .tick => pollTip w s (s.client || w.connects)
    | .mempoolClosed => pollTip w s s.client
  | .pumpSendQueue next =>
    match s.sends.sendInFlight, s.sends.sendQueue with
    | false, p :: ps =>
      startPipelinedSend { s with sends := { s.sends with sendQueue := ps } } p
        (.pumpSendQueue next)
    | _, _ => s.goto next
  | .finishProofs deadline =>
    match s.sends.sendInFlight && decide (s.now < deadline), w.proofDone with
    | true, some i => finishSend w s i (.finishProofs deadline)
    | _, _ => s.goto (.finishCommands deadline)
  | .finishCommands _ | .stopped => s.goto .stopped

/-- Where a panic leaves the actor: the handlers are isolated, the pump after a finished proof is
not. -/
def Pos.afterPanic : Pos → Pos
  | .pumpSendQueue _ => .stopped
  | pos => pos

def proceed (cfg : ActorConfig) (w : Answers) (s : Session) : Session :=
  match s.task with
  | .loop pos =>
    match s.takes w with
    | some c => handleCommand cfg w { s with cmdRx := s.cmdRx.tail } pos.afterCommand c
    | none => atPos cfg w s pos
  | .unlocking timeoutSecs next =>
    if w.panics then s.goto next.afterPanic else unlocked w s timeoutSecs next
  | .reachTip op next =>
    if w.panics then s.goto next.afterPanic else reachTip cfg w s op next
  | .catchUp op next =>
    if w.panics then s.goto next.afterPanic else catchUp w s op next
  | .addressLookup next =>
    match if w.panics then .error .unlockNeeded else s.deriveUsk w with
    | .error _ => s.goto next
    | .ok s' => s'.goto next
  | .building op next =>
    if w.panics then s.goto next.afterPanic
    else { s with sends := op.run cfg w.layer s.sends }.goto next

inductive Event where
  /-- Time passes while the actor waits. -/
  | clock (elapsed : ℕ)
  /-- The handle's `walletlock`, before it queues the `Lock` command. -/
  | fastLock
  | submit (c : WalletCommand)
  | shutdown
  | actor (w : Answers)

def step (cfg : ActorConfig) (s : Session) : Event → Session
  | .clock elapsed => { s with now := s.now + elapsed }
  | .fastLock => if cfg.encrypted then { s.observe .fastLock with seed := false } else s
  | .submit c => { s with cmdRx := s.cmdRx ++ [c] }
  | .shutdown => { s with shutdown := true }
  | .actor w => proceed cfg w s

/-! ## A small wallet -/

def encryptedConfig : ActorConfig where
  network := .main
  enabledPools := [.orchard]
  orchardKeys := true
  pipelineProving := false
  confirmationsPolicy := ⟨3, 10⟩
  privacy := .allowRevealedRecipients
  allowDuplicateShieldedRecipients := false
  encrypted := true
  maxSendCatchupBlocks := 100
  shutdownDrain := 0

/-- The wallet holds one note and is caught up, and its upstream takes every transaction. -/
def caughtUp : Answers where
  layer := referenceWallet .main .orchard ⟨[⟨1, .orchard⟩], [], true, ⟨true, some ⟨0, ""⟩⟩⟩
  decrypts := true
  connects := true
  refreshedTip := some 100
  fullyScanned := some 100
  syncStep := .ok false
  moreEnhance := false
  idle := .command
  proofDone := none
  panics := false

def onePayment : PendingSend where
  request := ⟨[⟨⟨.main, .unified ⟨true, false, false, 7⟩⟩, some 1000, none⟩]⟩
  confirmations := none
  privacy := .allowRevealedRecipients
  source := .unspecified
  reply := 0

/-- A wallet that is never locked, proves off the actor and drains at shutdown. -/
def pipelinedConfig : ActorConfig :=
  { encryptedConfig with encrypted := false, pipelineProving := true, shutdownDrain := 10 ^ 9 * 60 }

/-- Unlock for a minute and send; this much time passes during the send's catch-up. -/
def unlockAndSend (catchup : ℕ) : List Event :=
  [.actor caughtUp, .actor caughtUp, .submit (.unlock 60), .actor caughtUp, .actor caughtUp,
    .submit (.send onePayment), .actor caughtUp, .actor caughtUp, .clock (10 ^ 9 * catchup),
    .actor caughtUp, .actor caughtUp]

end Zecd.Control
