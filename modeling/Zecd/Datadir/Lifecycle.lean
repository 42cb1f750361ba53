import Zecd.Config.Settings
import Zecd.Datadir.Bootstrap
import Zecd.Datadir.Migrate

/-! # The life of a wallet directory

`zecd init` writes `keys.toml` and then creates the account; the daemon serves it, or rebuilds it;
`zecd rescan` deletes the database so that it is rebuilt. Any of them can be cut off, and while none
runs the database can be exchanged for another.
-/

namespace Zecd.Lifecycle

open Runs
open Config (ZNetwork)
open Datadir (Artifact engineArtifacts)

variable {Seed Key : Type}

/-! ## keys.toml -/

/-- `keys.toml` as written. A seed stands for its ciphertext. -/
structure StoreEncoding (Seed Key : Type) where
  mnemonic : Option Seed
  network : Option ZNetwork
  birthday : Option ℕ
  encryption : Option String
  ufvk : Option Key
  deriving DecidableEq, Repr

def encPassphrase : String := "passphrase"

inductive KeysFile (Seed Key : Type) where
  | missing
  | unreadable
  | holds (encoding : StoreEncoding Seed Key)
  deriving DecidableEq, Repr

def KeysFile.exists : KeysFile Seed Key → Bool
  | .missing => false
  | _ => true

structure Activations where
  sapling : ZNetwork → ℕ
  nu5 : ZNetwork → ℕ

structure WalletStore (Seed Key : Type) where
  network : ZNetwork
  birthday : ℕ
  seed : Option Seed
  encrypted : Bool
  pinnedUfvk : Option Key
  deriving DecidableEq, Repr

def WalletStore.read (heights : Activations) : KeysFile Seed Key → Option (WalletStore Seed Key)
  | .holds e =>
    let network := e.network.getD .test
    some ⟨network, e.birthday.getD (heights.nu5 network), e.mnemonic,
      e.encryption == some encPassphrase, e.ufvk⟩
  | _ => none

/-- `pin_ufvk` replaces the file as a whole, and with it one field. -/
def StoreEncoding.pinUfvk (e : StoreEncoding Seed Key) (ufvk : Key) : StoreEncoding Seed Key :=
  { e with ufvk := some ufvk }

/-- Where the text of a new `keys.toml` is cut off: inside a word, or after a field. The digits of
the birthday can be cut and still be a number. -/
inductive Cut where
  | within
  | empty
  | mnemonic
  | network
  | birthday (dropped : ℕ)
  | encryption
  deriving DecidableEq, Repr

/-- What is left of the text, as it reads. The pin is the last field. -/
def Cut.leaves (e : StoreEncoding Seed Key) : Cut → KeysFile Seed Key
  | .within => .unreadable
  | .empty => .holds ⟨none, none, none, none, none⟩
  | .mnemonic => .holds ⟨e.mnemonic, none, none, none, none⟩
  | .network => .holds ⟨e.mnemonic, e.network, none, none, none⟩
  | .birthday dropped =>
    .holds ⟨e.mnemonic, e.network, e.birthday.map (· / 10 ^ dropped), none, none⟩
  | .encryption => .holds { e with ufvk := none }

/-! ## Keys -/

/-- The viewing keys of a seed, the canonical form of a viewing key, and the account that is listed
first. -/
structure Derivation (Seed Key : Type) where
  derive : Seed → ℕ → Key
  decode : Key → Option Key
  decode_idem : ∀ {k k'}, decode k = some k' → decode k' = some k'
  noSeed : Key
  first : List (Bootstrap.Account Key) → Option (Bootstrap.Account Key)
  first_mem : ∀ {accounts a}, first accounts = some a → a ∈ accounts
  first_eq_none : ∀ {accounts}, first accounts = none ↔ accounts = []

/-- The wallet layer under a `keys.toml` with this mnemonic. -/
def Derivation.layer (d : Derivation Seed Key) (mnemonic : Option Seed) : Bootstrap.Layer Key where
  seedUfvk i := (mnemonic.map (d.derive · i)).getD d.noSeed
  decode := d.decode
  first := d.first
  first_mem := d.first_mem
  first_eq_none := d.first_eq_none

def WalletStore.toKeysToml (st : WalletStore Seed Key) : Bootstrap.KeysToml Key :=
  ⟨st.seed.isSome, st.encrypted, st.birthday, st.pinnedUfvk⟩

/-! ## The disk -/

/-- A wallet directory and who holds its lock: a daemon, or nobody. -/
structure World (Seed Key : Type) where
  keysFile : KeysFile Seed Key
  accounts : List (Bootstrap.Account Key)
  present : Artifact → Bool
  actor : Option (Bootstrap.Actor Key)

def World.empty : World Seed Key := ⟨.missing, [], fun _ => false, none⟩

/-- A wallet's name, its paths as shown, and its settings. -/
structure Entry where
  wallet : String
  keysPath : String
  dataDbPath : String
  network : ZNetwork
  sapling : Bool
  allowMultipleSpendingWallets : Bool
  deriving DecidableEq, Repr

def locked : String := "the data directory is locked by another process"

/-! ## init -/

inductive InitKey (Seed Key : Type) where
  | generate (seed : Seed)
  | restore (seed : Seed)
  | watchOnly (encoded : Key)
  deriving DecidableEq, Repr

structure InitOptions (Seed Key : Type) where
  key : InitKey Seed Key
  passphrase : Bool
  birthday : Option ℕ
  deriving DecidableEq, Repr

/-- How writing `keys.toml` goes: it is not created, it is cut off, or it is there. -/
inductive Written where
  | notCreated
  | torn (cut : Cut)
  | complete
  deriving DecidableEq, Repr

/-- What the calls of an init answer. A process that dies at a call is one whose call fails. -/
structure InitCalls where
  migrate : Bool
  existingSpendingWallet : Option String
  createDir : Bool
  openDb : Bool
  opened : Artifact → Bool
  protect : Bool
  latestBlock : Option ℕ
  mnemonic : Bool
  /-- The height an account birthday anchored at this height records. -/
  accountBirthday : ℕ → Option ℕ
  derive : Bool
  write : Written
  createAccount : Bool
  uuid : ℕ
  accountUfvk : Bool

structure InitOutcome where
  birthday : ℕ
  watchOnly : Bool
  encrypted : Bool
  deriving DecidableEq, Repr

def freshWalletBirthdayMargin : ℕ := 100

def freshWalletBirthday (chainTip : ℕ) : ℕ := chainTip - freshWalletBirthdayMargin

def restoreBirthdayDefault (heights : Activations) (sapling : Bool) (network : ZNetwork) : ℕ :=
  if sapling then heights.sapling network else heights.nu5 network

section Init

variable [DecidableEq Key] (d : Derivation Seed Key) (heights : Activations) (entry : Entry)

def alreadyInitialized : String :=
  "wallet '" ++ entry.wallet ++ "' is already initialized (" ++ entry.keysPath ++ " exists)"

def cannotCreateSpending (existing : String) : String :=
  "cannot create spending wallet '" ++ entry.wallet ++ "': wallet '" ++ existing ++
    "' already holds spending keys, and zecd allows at most one spending wallet (any number of " ++
    "watch-only UFVK wallets may be added alongside it). Create this wallet watch-only with " ++
    "`--ufvk` (see `zecd export-ufvk`), or remove/convert the existing spending wallet."

def preexistingAccounts (accounts : ℕ) : String :=
  "wallet '" ++ entry.wallet ++ "' has no keys.toml, but its database at " ++ entry.dataDbPath ++
    " already contains " ++ toString accounts ++ " account(s). Refusing to initialize into an " ++
    "unexpected pre-existing database: it may belong to a different wallet, and the daemon " ++
    "would " ++
    "serve its first account's addresses. Move the existing data directory aside (or delete it, " ++
    "if it is not yours) and re-run `zecd init`."

/-- The refusals before anything is written, and the viewing key of a watch-only wallet. -/
def admitInit (w : World Seed Key) (o : InitOptions Seed Key) (c : InitCalls) :
    Except String (Option Key) :=
  if w.actor.isSome then .error locked
  else if !c.migrate then .error "migrating the data directory"
  else if w.keysFile.exists then .error (alreadyInitialized entry)
  else
    match o.key with
    | .watchOnly encoded =>
      match d.decode encoded with
      | none => .error "invalid unified full viewing key"
      | some ufvk => .ok (some ufvk)
    | _ =>
      match c.existingSpendingWallet with
      | some existing =>
        if entry.allowMultipleSpendingWallets then .ok none
        else .error (cannotCreateSpending entry existing)
      | none => .ok none

/-- The mnemonic, and whether the key may have a history. -/
def InitKey.mnemonic : InitKey Seed Key → Option Seed
  | .generate seed => some seed
  | .restore seed => some seed
  | .watchOnly _ => none

def InitKey.mayHaveHistory : InitKey Seed Key → Bool
  | .generate _ => false
  | _ => true

/-- What is to be written, once everything it takes is known. -/
def prepare (accounts : List (Bootstrap.Account Key)) (o : InitOptions Seed Key) (c : InitCalls)
    (ufvk : Option Key) : Except String (StoreEncoding Seed Key) :=
  if accounts.length ≠ 0 then .error (preexistingAccounts entry accounts.length)
  else if ufvk.isNone && !c.protect then .error "protecting the mnemonic"
  else
    match c.latestBlock with
    | none => .error "connecting to the upstream"
    | some tip =>
      if 2 ^ 32 ≤ tip then .error "chain tip height does not fit into u32"
      else if !c.mnemonic then .error "reading the mnemonic"
      else
        let height := o.birthday.getD (if o.key.mayHaveHistory then
          restoreBirthdayDefault heights entry.sapling entry.network else freshWalletBirthday tip)
        match c.accountBirthday height with
        | none => .error "deriving an account birthday"
        | some birthday =>
          match ufvk, o.key.mnemonic with
          | some ufvk, _ => .ok ⟨none, some entry.network, some birthday, none, some ufvk⟩
          | none, some seed =>
            if !c.derive then .error "deriving the unified spending key from the seed failed"
            else .ok ⟨some seed, some entry.network, some birthday,
              if o.passphrase then some encPassphrase else none, some (d.derive seed 0)⟩
          | none, none => .error "init either imports a UFVK or has a mnemonic"

/-- The account of a `keys.toml`, and its check against the pin. -/
def createAccount (w : World Seed Key) (e : StoreEncoding Seed Key) (c : InitCalls) :
    World Seed Key × Except String InitOutcome :=
  let key := match e.mnemonic, e.ufvk with
    | none, some ufvk => .ufvk ufvk
    | _, _ => .seed
  if !c.createAccount then (w, .error "creating the account")
  else
    match Bootstrap.createRow (d.layer e.mnemonic) w.accounts key c.uuid with
    | none => (w, .error "creating the account")
    | some accounts =>
      let created := (accounts.find? (·.id = c.uuid)).map (·.ufvk)
      ({ w with accounts },
        if c.accountUfvk && decide (created = e.ufvk) then
          .ok ⟨e.birthday.getD 0, e.mnemonic.isNone, e.encryption == some encPassphrase⟩
        else .error "the created account's viewing key does not match the key derived for the pin")

def initWallet (w : World Seed Key) (o : InitOptions Seed Key) (c : InitCalls) :
    World Seed Key × Except String InitOutcome :=
  match admitInit d entry w o c with
  | .error e => (w, .error e)
  | .ok ufvk =>
    if !c.createDir || !c.openDb then (w, .error "opening the wallet database")
    else
      let w := { w with present := fun a => w.present a || decide (a = .dataSqlite) || c.opened a }
      match prepare d heights entry w.accounts o c ufvk with
      | .error e => (w, .error e)
      | .ok e =>
        match c.write with
        | .notCreated => (w, .error "creating keys.toml")
        | .torn cut => ({ w with keysFile := cut.leaves e }, .error "writing keys.toml")
        | .complete => createAccount d { w with keysFile := .holds e } e c

/-! ## rescan -/

/-- What is confirmed, and the path and the error of a removal that fails. -/
structure RescanCalls where
  migrate : Bool
  confirm : Bool
  remove : Artifact → Option (String × String)

def notInitialized : String :=
  "wallet '" ++ entry.wallet ++ "' is not initialized (" ++ entry.keysPath ++
    " missing); there is no database to rebuild - run `zecd init` to create a wallet"

def networkMismatch (st : WalletStore Seed Key) : String :=
  "wallet '" ++ entry.wallet ++ "' is a " ++ st.network.name ++
    " wallet, but the configuration selects " ++ entry.network.name

def nothingToRebuildFrom : String :=
  "wallet '" ++ entry.wallet ++ "' is watch-only and its keys.toml holds no pinned viewing key " ++
    "(it predates the pin), so nothing on disk can rebuild its account. Delete the wallet " ++
    "directory and recreate it with `zecd init --wallet " ++ entry.wallet ++ " --ufvk <key> " ++
    "--birthday <height>` (export the key from the spending wallet with `zecd export-ufvk`) " ++
    "instead."

/-- The removals, in order, until one fails. An artifact that is not there is passed over. -/
def removeArtifacts (remove : Artifact → Option (String × String)) (w : World Seed Key) :
    List Artifact → World Seed Key × Except String (List Artifact)
  | [] => (w, .ok [])
  | a :: rest =>
    if !w.present a then removeArtifacts remove w rest
    else
      match remove a with
      | some (path, e) => (w, .error ("removing " ++ path ++ ": " ++ e))
      | none =>
        let w := { w with
          present := fun b => decide (b ≠ a) && w.present b
          accounts := if a = .dataSqlite then [] else w.accounts }
        let (w, removed) := removeArtifacts remove w rest
        (w, removed.map (a :: ·))

/-- `rescan` and the refusals of `rescan_wallet`, in order. -/
def admitRescan (w : World Seed Key) (c : RescanCalls) : Except String (WalletStore Seed Key) :=
  if w.actor.isSome then .error locked
  else if !c.migrate then .error "migrating the data directory"
  else if !w.keysFile.exists then .error (notInitialized entry)
  else
    match WalletStore.read heights w.keysFile with
    | none => .error "reading keys.toml"
    | some st =>
      if st.network ≠ entry.network then .error (networkMismatch entry st)
      else if st.seed.isNone && st.pinnedUfvk.isNone then .error (nothingToRebuildFrom entry)
      else if !c.confirm then .error "rescan aborted (expected 'yes')"
      else .ok st

def rescanWallet (w : World Seed Key) (c : RescanCalls) :
    World Seed Key × Except String (List Artifact) :=
  match admitRescan heights entry w c with
  | .error e => (w, .error e)
  | .ok _ => removeArtifacts c.remove w engineArtifacts

/-! ## Runs -/

/-- A daemon over a readable `keys.toml`; over any other its start fails. -/
def daemonStep (cfg : Bootstrap.Config) (w : World Seed Key) (e : Bootstrap.Event) :
    World Seed Key :=
  match w.keysFile, WalletStore.read heights w.keysFile with
  | .holds encoding, some st =>
    let b := Bootstrap.step (d.layer encoding.mnemonic) cfg ⟨w.accounts, st.toKeysToml, w.actor⟩ e
    ⟨.holds { encoding with ufvk := b.keys.ufvk }, b.accounts,
      fun a => w.present a || decide (a = .dataSqlite), b.actor⟩
  | _, _ => w

inductive Event (Seed Key : Type) where
  | init (o : InitOptions Seed Key) (c : InitCalls)
  | rescan (c : RescanCalls)
  | daemon (e : Bootstrap.Event)
  /-- The machine dies: the last commits to the database may be lost. -/
  | losesPower (kept : ℕ)
  /-- Somebody puts another database in place while nobody holds the lock. -/
  | replaceDb (accounts : List (Bootstrap.Account Key)) (present : Artifact → Bool)

def step (cfg : Bootstrap.Config) (w : World Seed Key) : Event Seed Key → World Seed Key
  | .init o c => (initWallet d heights entry w o c).1
  | .rescan c => (rescanWallet heights entry w c).1
  | .daemon e => daemonStep d heights cfg w e
  | .losesPower kept => { w with accounts := w.accounts.take kept, actor := none }
  | .replaceDb accounts present =>
    if w.actor.isSome then w
    else { w with accounts := if present .dataSqlite then accounts else [], present }

end Init

end Zecd.Lifecycle
