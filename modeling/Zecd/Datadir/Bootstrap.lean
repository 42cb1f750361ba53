import Zecd.Foundation.Runs

/-! # Rebuilding the account

Over a data directory without an account, the actor rebuilds the account from `keys.toml`: from
the seed, or from the pinned viewing key. The row is created first and adopted after, through
reads that can fail. A pass that stops in between leaves a row that no later pass can use.
-/

namespace Zecd.Bootstrap

open Runs

variable {Key : Type}

/-- An account row: its viewing key as encoded, and the ZIP-32 index it was derived at. -/
structure Account (Key : Type) where
  id : ℕ
  ufvk : Key
  index : Option ℕ
  viewOnly : Bool
  deriving DecidableEq, Repr

/-- The wallet layer: the viewing key of the stored seed at an index, the encoding of a decoded
pin, and the account listed first. -/
structure Layer (Key : Type) where
  seedUfvk : ℕ → Key
  decode : Key → Option Key
  first : List (Account Key) → Option (Account Key)
  first_mem : ∀ {accounts a}, first accounts = some a → a ∈ accounts
  first_eq_none : ∀ {accounts}, first accounts = none ↔ accounts = []

structure KeysToml (Key : Type) where
  hasSeed : Bool
  encrypted : Bool
  birthday : ℕ
  ufvk : Option Key
  deriving DecidableEq, Repr

/-- `[keys] bootstrap_from_keys` and `auto_unlock`, with an identity to unlock by. -/
structure Config where
  bootstrap : Bool
  autoUnlock : Bool
  deriving DecidableEq, Repr

inductive BootstrapKey (Key : Type) where
  | seed
  | ufvk (key : Key)
  deriving DecidableEq, Repr

structure Actor (Key : Type) where
  accountId : Option ℕ
  accountIndex : Option ℕ
  watchOnly : Bool
  pendingBootstrap : Option (ℕ × BootstrapKey Key)
  encrypted : Bool
  seedUnlocked : Bool
  tipHeight : Option ℕ
  client : Bool
  deriving DecidableEq, Repr

/-- The wallet database, `keys.toml`, and the actor if one runs. -/
structure World (Key : Type) where
  accounts : List (Account Key)
  keys : KeysToml Key
  actor : Option (Actor Key)
  deriving DecidableEq, Repr

def fresh (keys : KeysToml Key) : World Key := ⟨[], keys, none⟩

/-! ## A pass -/

/-- Which calls of a pass succeed, and the identifier a new account would draw. -/
structure PassCalls where
  treeState : ℕ → Bool
  fromTreestate : Bool
  createAccount : Bool
  uuid : ℕ
  selectAccount : Bool
  accountUfvk : Bool
  readKeys : Bool
  pinUfvk : Bool

section Pass

variable [DecidableEq Key] (l : Layer Key)

def nextIndex (accounts : List (Account Key)) : ℕ :=
  ((accounts.filterMap Account.index).max?.map (· + 1)).getD 0

/-- The wallet layer's `create_account` and `import_account_ufvk`, which refuses a key it
holds. -/
def createRow (accounts : List (Account Key)) (key : BootstrapKey Key) (uuid : ℕ) :
    Option (List (Account Key)) :=
  match key with
  | .seed =>
    let index := nextIndex accounts
    some (accounts ++ [⟨uuid, l.seedUfvk index, some index, false⟩])
  | .ufvk key =>
    if accounts.any fun a => a.ufvk = key then none
    else some (accounts ++ [⟨uuid, key, none, true⟩])

/-- `keys.toml` after the check, or `none` if it fails: on a different pin, or if a missing one
could not be written. -/
def verifyOrPinAccount (keys : KeysToml Key) (pinUfvk : Bool) (ufvk : Key) :
    Option (KeysToml Key) :=
  match keys.ufvk with
  | some p => if p = ufvk then some keys else none
  | none => if pinUfvk then some { keys with ufvk := some ufvk } else none

/-- The half of a pass after the row is created. -/
def adopt (accounts : List (Account Key)) (keys : KeysToml Key) (a : Actor Key) (c : PassCalls) :
    KeysToml Key × Actor Key :=
  if !c.selectAccount then (keys, a)
  else
    match l.first accounts with
    | none => (keys, a)
    | some acct =>
      let verified :=
        if c.accountUfvk && c.readKeys then verifyOrPinAccount keys c.pinUfvk acct.ufvk else none
      match verified with
      | none => (keys, { a with pendingBootstrap := none })
      | some keys =>
        (keys, { a with
          accountId := some acct.id
          accountIndex := acct.index
          watchOnly := acct.viewOnly
          pendingBootstrap := none })

def maybeBootstrapAccount (accounts : List (Account Key)) (keys : KeysToml Key) (a : Actor Key)
    (c : PassCalls) : List (Account Key) × KeysToml Key × Actor Key :=
  match a.pendingBootstrap with
  | none => (accounts, keys, a)
  | some (birthday, key) =>
    if a.accountId.isSome then (accounts, keys, { a with pendingBootstrap := none })
    else if decide (key = .seed) && !a.seedUnlocked then (accounts, keys, a)
    else if a.tipHeight.isNone then (accounts, keys, a)
    else if !a.client then (accounts, keys, a)
    else if !c.treeState (max (birthday - 1) 1) then (accounts, keys, { a with client := false })
    else if !c.fromTreestate then (accounts, keys, a)
    else if !c.createAccount then (accounts, keys, a)
    else
      match createRow l accounts key c.uuid with
      | none => (accounts, keys, a)
      | some accounts => (accounts, adopt l accounts keys a c)

/-! ## Startup and unlocking -/

/-- What can rebuild the account. -/
def bootstrapKey (keys : KeysToml Key) : Option (BootstrapKey Key) :=
  if keys.hasSeed then some .seed
  else (keys.ufvk.bind l.decode).map .ufvk

/-- Which calls of a startup succeed; `rest` is what follows the binding checks. -/
structure StartCalls where
  readKeys : Bool
  selectAccount : Bool
  accountUfvk : Bool
  decryptSeed : Bool
  pinUfvk : Bool
  rest : Bool
  deriving DecidableEq, Repr

/-- The account resolution of `spawn_inner`: `keys.toml` after it, and the actor if it starts. -/
def spawnInner (cfg : Config) (accounts : List (Account Key)) (keys : KeysToml Key)
    (c : StartCalls) : KeysToml Key × Option (Actor Key) :=
  if !c.readKeys || !c.selectAccount then (keys, none)
  else
    let unlocks := !keys.encrypted && cfg.autoUnlock && keys.hasSeed && c.decryptSeed
    match l.first accounts with
    | some acct =>
      let unlocks := !acct.viewOnly && unlocks
      if !c.accountUfvk then (keys, none)
      else if unlocks && acct.index.any (fun i => l.seedUfvk i ≠ acct.ufvk) then (keys, none)
      else
        match verifyOrPinAccount keys c.pinUfvk acct.ufvk with
        | none => (keys, none)
        | some keys =>
          (keys, if c.rest then
            some ⟨some acct.id, acct.index, acct.viewOnly, none, keys.encrypted, unlocks, none,
              false⟩
          else none)
    | none =>
      match bootstrapKey l keys with
      | none => (keys, none)
      | some key =>
        if !cfg.bootstrap then (keys, none)
        else
          let watchOnly := decide (key ≠ .seed)
          let actor : Actor Key := ⟨none, none, watchOnly, some (keys.birthday, key),
            keys.encrypted, !watchOnly && unlocks, none, false⟩
          (keys, if c.rest then some actor else none)

/-- Which calls of `walletpassphrase` succeed, and whether its timeout is positive. -/
structure UnlockCalls where
  readKeys : Bool
  passphrase : Bool
  accountUfvk : Bool
  timeout : Bool
  deriving DecidableEq, Repr

/-- The seed check: the decrypted seed derives the adopted account. -/
def seedBinds (accounts : List (Account Key)) (a : Actor Key) (u : UnlockCalls) : Bool :=
  match a.accountId, a.accountIndex with
  | some id, some index =>
    u.accountUfvk && accounts.any fun acct => acct.id = id && acct.ufvk = l.seedUfvk index
  | _, _ => true

/-- The actor once the seed is held, or `none` if the call is refused. -/
def unlockSeed (accounts : List (Account Key)) (keys : KeysToml Key) (a : Actor Key)
    (u : UnlockCalls) : Option (Actor Key) :=
  if a.encrypted && u.readKeys && u.passphrase && keys.hasSeed && seedBinds l accounts a u then
    some { a with seedUnlocked := u.timeout }
  else none

def doUnlock (accounts : List (Account Key)) (keys : KeysToml Key) (a : Actor Key)
    (u : UnlockCalls) (c : PassCalls) : List (Account Key) × KeysToml Key × Actor Key :=
  match unlockSeed l accounts keys a u with
  | none => (accounts, keys, a)
  | some a =>
    if a.pendingBootstrap.isSome && a.seedUnlocked then maybeBootstrapAccount l accounts keys a c
    else (accounts, keys, a)

/-! ## Runs -/

inductive Caller where
  | syncStep
  | walletpassphrase (u : UnlockCalls)
  deriving DecidableEq, Repr

def Caller.pass (caller : Caller) (accounts : List (Account Key)) (keys : KeysToml Key)
    (a : Actor Key) (c : PassCalls) : List (Account Key) × KeysToml Key × Actor Key :=
  match caller with
  | .syncStep => maybeBootstrapAccount l accounts keys a c
  | .walletpassphrase u => doUnlock l accounts keys a u c

inductive Event where
  | start (c : StartCalls)
  | stop
  | connection (client : Bool)
  | refreshTip (tip : ℕ)
  /-- `walletlock`, or the unlock timeout elapses. -/
  | lock
  | pass (caller : Caller) (c : PassCalls)
  /-- The process dies within a pass, after the row is created or after the pin is written. -/
  | killedInPass (pinWritten : Bool) (caller : Caller) (c : PassCalls)

def World.mapActor (w : World Key) (f : Actor Key → Actor Key) : World Key :=
  { w with actor := w.actor.map f }

def step (cfg : Config) (w : World Key) : Event → World Key
  | .start c =>
    match w.actor with
    | some _ => w
    | none =>
      let (keys, actor) := spawnInner l cfg w.accounts w.keys c
      { w with keys, actor }
  | .stop => { w with actor := none }
  | .connection client => w.mapActor fun a => { a with client }
  | .refreshTip tip => w.mapActor fun a => { a with tipHeight := some tip }
  | .lock => w.mapActor fun a => { a with seedUnlocked := false }
  | .pass caller c =>
    match w.actor with
    | none => w
    | some a =>
      let (accounts, keys, a) := caller.pass l w.accounts w.keys a c
      ⟨accounts, keys, some a⟩
  | .killedInPass pinWritten caller c =>
    match w.actor with
    | none => w
    | some a =>
      let (accounts, keys, _) := caller.pass l w.accounts w.keys a c
      ⟨accounts, if pinWritten then keys else w.keys, none⟩

/-! ## What is asked of the bootstrap -/

/-- The viewing key a bootstrap arrives at. -/
def target (keys : KeysToml Key) : Option Key :=
  if keys.hasSeed then some (l.seedUfvk 0) else keys.ufvk.bind l.decode

/-- The pin, if there is one, is the key a bootstrap arrives at. Otherwise every adoption is a
pin mismatch. -/
def PinAgrees (keys : KeysToml Key) : Prop := ∀ p ∈ keys.ufvk, target l keys = some p

structure PassCalls.Succeeds (c : PassCalls) : Prop where
  treeState : ∀ h, c.treeState h = true
  fromTreestate : c.fromTreestate = true
  createAccount : c.createAccount = true
  selectAccount : c.selectAccount = true
  accountUfvk : c.accountUfvk = true
  readKeys : c.readKeys = true
  pinUfvk : c.pinUfvk = true

/-- An actor with the seed, a tip and a connection. -/
def Actor.restored (a : Actor Key) (tip : ℕ) : Actor Key :=
  { a with seedUnlocked := true, tipHeight := some tip, client := true }

/-- The database holds at most one account. An account the actor serves carries the pinned key
and, for a seed, is its first. Where the actor serves none, a pass whose calls all succeed keeps
the database at one account, and ends with the account adopted. -/
structure Sound (w : World Key) : Prop where
  one : w.accounts.length ≤ 1
  adopted : ∀ a ∈ w.actor, ∀ id ∈ a.accountId, ∃ acct ∈ w.accounts, acct.id = id ∧
    w.keys.ufvk = some acct.ufvk ∧
    (w.keys.hasSeed = true → acct.index = some 0 ∧ acct.ufvk = l.seedUfvk 0)
  recovers : ∀ a ∈ w.actor, a.accountId = none → ∀ tip c, PassCalls.Succeeds c →
    (maybeBootstrapAccount l w.accounts w.keys (a.restored tip) c).1.length ≤ 1 ∧
    (PinAgrees l w.keys →
      (maybeBootstrapAccount l w.accounts w.keys (a.restored tip) c).2.2.accountId.isSome)

/-! ## The condition -/

structure CreatesRow (a : Actor Key) (c : PassCalls) (birthday : ℕ) (key : BootstrapKey Key) :
    Prop where
  pending : a.pendingBootstrap = some (birthday, key)
  unadopted : a.accountId = none
  seed : key = .seed → a.seedUnlocked = true
  tip : a.tipHeight.isSome
  client : a.client = true
  treeState : c.treeState (max (birthday - 1) 1) = true
  fromTreestate : c.fromTreestate = true
  createAccount : c.createAccount = true

/-- A pass that gets as far as a new row goes on to select it, where a seed could add another;
and, unless the pin disowns the key, to adopt it. -/
def FinishesPass (keys : KeysToml Key) (a : Actor Key) (c : PassCalls) : Prop :=
  ∀ birthday key, CreatesRow a c birthday key →
    (keys.hasSeed = true → c.selectAccount = true) ∧
    (PinAgrees l keys → c.selectAccount = true ∧ c.accountUfvk = true ∧ c.readKeys = true ∧
      (keys.ufvk = none → c.pinUfvk = true))

/-- The actor as the caller's pass meets it, if the caller gets to one. -/
def Caller.meets (caller : Caller) (accounts : List (Account Key)) (keys : KeysToml Key)
    (a : Actor Key) : Option (Actor Key) :=
  match caller with
  | .syncStep => some a
  | .walletpassphrase u =>
    (unlockSeed l accounts keys a u).filter fun a => a.pendingBootstrap.isSome && a.seedUnlocked

/-- No pass of the event stops between a new row and its adoption. A process that dies there is
not in question. -/
def Finishes (w : World Key) : Event → Prop
  | .pass caller c =>
    ∀ a ∈ w.actor, ∀ a' ∈ caller.meets l w.accounts w.keys a, FinishesPass l w.keys a' c
  | _ => True

end Pass

end Zecd.Bootstrap
