import Zecd.Fleet.Layout
import Zecd.Rpc.Error

/-! # The fleet manager

Startup spawns one actor per shard and registers a handle per member. At run time
`createwallet`, `loadwallet` and `unloadwallet` change which names are served, and each
shard's actor imports its pending members one by one. `handle` is one event of this system:
a start or stop of the daemon, a call, an import pass, or a change of a manifest file.
-/

namespace Zecd.Fleet

/-- A shard actor's routing state: the account of each imported member, the members that wait
for their import, and why an import was refused. -/
structure ShardActor where
  shardAccounts : List (String × AccountUuid)
  shardPending : List ShardMember
  shardImportErrors : List (String × String)
  deriving DecidableEq, Repr

structure ShardRuntime where
  dir : ℕ
  members : List String
  accounts : ℕ
  lowestBirthday : Option ℕ
  actor : ShardActor
  deriving DecidableEq, Repr

/-- A registered fleet handle: a name on a running shard. No code reads the key and birthday
of the member it was registered from. -/
structure FleetHandle where
  member : ShardMember
  shard : ℕ
  deriving DecidableEq, Repr

/-- A running daemon: the configured wallets that started, its shards, and the fleet handles
of its registry. -/
structure Daemon where
  loaded : List String
  shards : List ShardRuntime
  fleet : List FleetHandle
  deriving DecidableEq, Repr

/-- The manifest directory, the shard directories, and the daemon while it runs. -/
structure World (Key : Type) where
  manifests : ManifestDir
  dirs : List (ShardDir Key)
  daemon : Option Daemon

inductive OnboardError
  | nameTaken (name : String)
  | badName (why : String)
  | badKey (why : String)
  | failed (why : String)
  deriving DecidableEq, Repr

def OnboardError.display : OnboardError → String
  | .nameTaken name => "a wallet named '" ++ name ++ "' is already loaded"
  | .badName why => why
  | .badKey why => why
  | .failed why => why

def onboardError (e : OnboardError) : RpcError :=
  match e with
  | .nameTaken _ => .wallet e.display
  | .badName _ | .badKey _ => .invalidParameter e.display
  | .failed _ => .wallet e.display

/-- How the actor a member is handed to behaves: it takes the command, it is gone, or (for a
new shard) it fails to start before or after initialising its database. -/
inductive ActorAnswer
  | up
  | down (why : String)
  | noDatabase (why : String)
  deriving DecidableEq, Repr

section Actor

variable {Key : Type} (cfg : FleetConfig Key)

/-- What a shard's database already holds of its manifest's members. -/
structure Reconciled where
  adopted : List (String × AccountUuid)
  pending : List ShardMember

/-- Match a shard's members against the accounts of its database, by viewing key. A name the
database holds under a different key is refused. -/
def reconcileAccounts [DecidableEq Key] (db : ShardDb Key) :
    List ShardMember → Except String Reconciled
  | [] => .ok ⟨[], []⟩
  | m :: ms =>
    match decodeUfvk cfg m with
    | .error why => .error why
    | .ok key =>
      match db.accounts.find? fun a => a.ufvk = key with
      | some a =>
        match reconcileAccounts db ms with
        | .error why => .error why
        | .ok r => .ok { r with adopted := (m.name, a.uuid) :: r.adopted }
      | none =>
        if db.accounts.any fun a => a.name == m.name then
          .error ("wallet '" ++ m.name ++ "' is already an account in this shard under a " ++
            "different viewing key: its manifest entry and the wallet database disagree about " ++
            "which wallet it is. Refusing to import a second account under the same name - " ++
            "remove the manifest entry, or onboard the new key under a new name.")
        else
          match reconcileAccounts db ms with
          | .error why => .error why
          | .ok r => .ok { r with pending := m :: r.pending }

def importMember (db : ShardDb Key) (m : ShardMember) (uuid : AccountUuid) :
    Except String (ShardDb Key) :=
  match decodeUfvk cfg m with
  | .error why => .error why
  | .ok key =>
    match cfg.importAccountUfvk db ⟨uuid, m.name, key, m.birthday⟩ with
    | some db' => .ok db'
    | none => .error ("importing wallet '" ++ m.name ++ "' into its shard")

namespace ShardActor

def account (a : ShardActor) (name : String) : Option AccountUuid :=
  (a.shardAccounts.find? fun e => e.1 == name).map (·.2)

def hasImportError (a : ShardActor) (name : String) : Bool :=
  a.shardImportErrors.any fun e => e.1 == name

/-- Accept a view wallet for import on the next pass. -/
def addShardMember (a : ShardActor) (m : ShardMember) : Except String ShardActor :=
  if (a.shardAccounts.any fun e => e.1 == m.name) ||
      (a.shardPending.any fun p => p.name == m.name) then
    .error ("wallet '" ++ m.name ++ "' is already in this shard")
  else
    .ok { a with
      shardPending := a.shardPending ++ [m]
      shardImportErrors := a.shardImportErrors.filter fun e => e.1 != m.name }

/-- Drop a member from the queue and record why it can never be imported. -/
def dropPending (a : ShardActor) (m : ShardMember) (ms : List ShardMember) (why : String) :
    ShardActor :=
  { a with
    shardPending := ms
    shardImportErrors := (m.name, why) :: a.shardImportErrors.filter fun e => e.1 != m.name }

end ShardActor

/-- What one connected pass makes of the first pending member: it waits (no tip, no upstream,
no tree state), no birthday can be derived, the database refuses it, or the database takes it
as a new account. -/
inductive ImportPass
  | waits
  | refused (why : String)
  | imports (uuid : AccountUuid)
  deriving DecidableEq, Repr

def importPendingShardMember (dirs : List (ShardDir Key)) (rs : ShardRuntime)
    (pass : ImportPass) : List (ShardDir Key) × ShardRuntime :=
  match rs.actor.shardPending with
  | [] => (dirs, rs)
  | m :: ms =>
    match pass with
    | .waits => (dirs, rs)
    | .refused why => (dirs, { rs with actor := rs.actor.dropPending m ms why })
    | .imports uuid =>
      match dbAt dirs rs.dir with
      | none => (dirs, rs)
      | some db =>
        match importMember cfg db m uuid with
        | .error why => (dirs, { rs with actor := rs.actor.dropPending m ms why })
        | .ok db' =>
          (setDb dirs rs.dir db',
            { rs with actor := { rs.actor with
                shardAccounts := (m.name, uuid) ::
                  rs.actor.shardAccounts.filter fun e => e.1 != m.name
                shardPending := ms } })

def spawnShard [DecidableEq Key] (dirs : List (ShardDir Key)) (index : ℕ)
    (members : List ShardMember) : Except String ShardRuntime :=
  match dbAt dirs index with
  | none => .error ("starting fleet shard '" ++ shardDirName index ++ "'")
  | some db =>
    match reconcileAccounts cfg db members with
    | .error why => .error ("starting fleet shard '" ++ shardDirName index ++ "': " ++ why)
    | .ok r => .ok {
        dir := index
        members := members.map ShardMember.name
        accounts := members.length
        lowestBirthday := (members.map ShardMember.birthday).min?
        actor := ⟨r.adopted, r.pending, []⟩ }

end Actor

section Startup

variable {Key : Type} [DecidableEq Key] (cfg : FleetConfig Key)

/-- Start the planned shards in order, registering a handle per member. A shard that fails
to start ends the startup; the directories created so far stay. -/
def spawnShards (dirs : List (ShardDir Key)) (d : Daemon) :
    List (ℕ × List ShardMember) → List (ShardDir Key) × Except String Daemon
  | [] => (dirs, .ok d)
  | (index, members) :: layout =>
    let dirs' := initDb (createDir dirs index) index
    match spawnShard cfg dirs' index members with
    | .error why => (dirs', .error why)
    | .ok rs =>
      spawnShards dirs' { d with
        shards := d.shards ++ [rs]
        fleet := d.fleet ++ members.map fun m => ⟨m, d.shards.length⟩ } layout

def spawnFleet (w : World Key) (loaded : List String) :
    List (ShardDir Key) × Except String Daemon :=
  match loadManifests cfg w.manifests with
  | .error why => (w.dirs, .error why)
  | .ok (members, _) =>
    match members.find? fun m => cfg.wallets.contains m.name with
    | some m =>
      (w.dirs, .error ("fleet wallet '" ++ m.name ++ "' collides with the configured [wallets." ++
        m.name ++ "] entry: both would be served at /wallet/" ++ m.name ++ ". Rename one of them."))
    | none =>
      match inspectShards w.dirs (existingShardDirs w.dirs) with
      | .error why => (w.dirs, .error why)
      | .ok (placed, existing) =>
        spawnShards cfg w.dirs ⟨loaded, [], []⟩ (plan cfg members placed existing)

end Startup

namespace Daemon

def contains (d : Daemon) (name : String) : Bool :=
  d.loaded.contains name || d.fleet.any fun h => h.member.name == name

/-- The running shard a name is already placed in. -/
def shardHolding (d : Daemon) (name : String) : Option ℕ :=
  d.shards.findIdx? fun rs => rs.members.contains name

def setShard (d : Daemon) (p : ℕ) (rs : ShardRuntime) : Daemon :=
  { d with shards := d.shards.set p rs }

def register (d : Daemon) (h : FleetHandle) : Daemon := { d with fleet := d.fleet ++ [h] }

/-- The account a handle's reads and derivations use, as its shard publishes it by name. -/
def account (d : Daemon) (h : FleetHandle) : Option AccountUuid :=
  d.shards[h.shard]?.bind fun rs => rs.actor.account h.member.name

/-- The scope of a handle's reads. A shard member without an account reads nothing. -/
def accountScope (d : Daemon) (h : FleetHandle) : AccountScope :=
  match d.account h with
  | some uuid => .only uuid
  | none => .noAccount

end Daemon

section Onboarding

variable {Key : Type} [DecidableEq Key] (cfg : FleetConfig Key)

def queueMember (rs : ShardRuntime) (m : ShardMember) (answer : ActorAnswer) :
    Except String ShardRuntime :=
  match answer with
  | .up =>
    match rs.actor.addShardMember m with
    | .ok actor => .ok { rs with actor := actor }
    | .error why => .error why
  | .down why | .noDatabase why => .error why

def ShardRuntime.state (rs : ShardRuntime) : ShardState := ⟨rs.accounts, rs.lowestBirthday⟩

def ShardRuntime.count (rs : ShardRuntime) (m : ShardMember) : ShardRuntime :=
  let state := rs.state.add m.birthday
  { rs with
    members := rs.members ++ [m.name]
    accounts := state.accounts
    lowestBirthday := state.lowestBirthday }

/-- Place a member into a shard, opening a new one when none has room, and return its handle.
A name that a running shard lists is a reload and imports nothing, unless its import was
refused. -/
def place (dirs : List (ShardDir Key)) (d : Daemon) (m : ShardMember) (answer : ActorAnswer) :
    List (ShardDir Key) × Daemon × Except String FleetHandle :=
  match d.shardHolding m.name with
  | some p =>
    match d.shards[p]? with
    | none => (dirs, d, .ok ⟨m, p⟩)
    | some rs =>
      if rs.actor.hasImportError m.name then
        match queueMember rs m answer with
        | .ok rs' => (dirs, d.setShard p rs', .ok ⟨m, p⟩)
        | .error why => (dirs, d, .error why)
      else (dirs, d, .ok ⟨m, p⟩)
  | none =>
    let index := (placeMembers cfg (d.shards.map ShardRuntime.state) [m]).headD 0
    match d.shards[index]? with
    | some rs =>
      match queueMember rs m answer with
      | .ok rs' => (dirs, d.setShard index (rs'.count m), .ok ⟨m, index⟩)
      | .error why => (dirs, d, .error why)
    | none =>
      -- The new shard's directory comes from the disk, not from the count of running shards.
      let free := nextFreeShardDir dirs index
      match answer with
      | .noDatabase why => (createDir dirs free, d, .error why)
      | .down why => (initDb (createDir dirs free) free, d, .error why)
      | .up =>
        let dirs' := initDb (createDir dirs free) free
        match spawnShard cfg dirs' free [m] with
        | .error why => (dirs', d, .error why)
        | .ok rs => (dirs', { d with shards := d.shards ++ [rs] }, .ok ⟨m, d.shards.length⟩)

/-- What onboarding checks and writes before a member is placed: the manifest directory with
the member's manifest in it, for a wallet that is created rather than loaded. -/
def onboardChecks (w : World Key) (d : Daemon) (m : ShardMember) (persist : Bool) :
    Except OnboardError ManifestDir :=
  if d.contains m.name then .error (.nameTaken m.name)
  else
    match checkWalletName m.name m.name with
    | .error why => .error (.badName why)
    | .ok _ =>
      match decodeUfvk cfg m with
      | .error why => .error (.badKey why)
      | .ok _ =>
        if persist then
          match writeManifest cfg w.manifests m with
          | .error why => .error (.failed why)
          | .ok manifests => .ok manifests
        else .ok w.manifests

/-- Onboard a view wallet. A wallet that cannot be placed leaves no manifest behind. -/
def onboard (w : World Key) (d : Daemon) (m : ShardMember) (persist : Bool)
    (answer : ActorAnswer) : World Key × Except OnboardError Unit :=
  match onboardChecks cfg w d m persist with
  | .error e => (w, .error e)
  | .ok manifests =>
    match place cfg w.dirs d m answer with
    | (dirs, d', .ok h) => (⟨manifests, dirs, some (d'.register h)⟩, .ok ())
    | (dirs, d', .error why) =>
      (⟨if persist then manifests.remove m.name else manifests, dirs, some d'⟩,
        .error (.failed why))

end Onboarding

section Calls

inductive Arg
  | absent
  | null
  | string (s : String)
  | bool (b : Bool)
  | number (n : ℕ)
  | other
  deriving DecidableEq, Repr

/-- The arguments of `createwallet` that are read; `ufvk` and `birthday` come in its options
object. -/
structure CreateParams where
  name : Arg
  disablePrivateKeys : Arg
  passphrase : Arg
  externalSigner : Arg
  ufvk : Arg
  birthday : Arg
  deriving DecidableEq, Repr

structure WalletResponse where
  name : String
  warning : String
  deriving DecidableEq, Repr

/-- A flag of `createwallet` that asks for a spending wallet is refused when given. -/
def refuseFlag (arg : Arg) (flag : String) : Except RpcError Unit :=
  match arg with
  | .absent | .null => .ok ()
  | _ => .error (.invalidParameter ("createwallet does not support " ++ flag ++
      ": a fleet wallet holds no spending material"))

def createwalletMember (p : CreateParams) : Except RpcError ShardMember := do
  let .string name := p.name
    | .error (.invalidParameter "createwallet requires a wallet name")
  if p.disablePrivateKeys = .bool false then
    .error (.invalidParameter ("createwallet on zecd creates a watch-only wallet from a " ++
      "viewing key, so disable_private_keys must be true (or omitted). zecd loads at most one " ++
      "wallet with spending keys, created offline with `zecd init`."))
  refuseFlag p.passphrase "passphrase"
  refuseFlag p.externalSigner "external_signer"
  let .string ufvk := p.ufvk
    | .error (.invalidParameter ("createwallet requires a \"ufvk\" in its options object " ++
        "(param 8): a monitored Zcash wallet is defined by the viewing key it is given"))
  let .number birthday := p.birthday
    | .error (.invalidParameter ("createwallet requires a \"birthday\" height in its options " ++
        "object (param 8): defaulting it would either rescan the whole chain or miss the " ++
        "wallet's funds"))
  if birthday < 2 ^ 32 then .ok ⟨name, ufvk, birthday⟩
  else .error (.invalidParameter "birthday is not a block height")

/-- The wallet `unloadwallet` is asked to unload: its argument or the endpoint it came on. -/
def unloadwalletTarget (named : Arg) (routed : Option String) : Except RpcError String :=
  match named, routed with
  | .string n, some r =>
    if n = r then .ok n
    else .error (.invalidParameter
      "RPC endpoint wallet and wallet_name parameter specify different wallets")
  | .string n, none => .ok n
  | .absent, some r | .null, some r => .ok r
  | .absent, none | .null, none =>
    .error (.invalidParameter "unloadwallet requires a wallet name")
  | _, _ => .error (.typeError "unloadwallet wallet_name must be a string")

/-- A manifest is the startup list, so only keeping the wallet on it can be honoured. -/
def rejectUnsupportedLoadOnStartup : Arg → Except RpcError Unit
  | .absent | .null | .bool true => .ok ()
  | .bool false => .error (.invalidParameter ("unloadwallet does not support load_on_startup = " ++
      "false: a fleet wallet's manifest is zecd's startup list, and unloading leaves it in " ++
      "place so loadwallet can restore the wallet. Delete the wallet's manifest from the fleet " ++
      "manifest directory to keep it unloaded across restarts (its account stays in its shard " ++
      "either way)"))
  | _ => .error (.typeError "unloadwallet load_on_startup must be a boolean")

variable {Key : Type} [DecidableEq Key] (cfg : FleetConfig Key)

def createwallet (w : World Key) (d : Daemon) (p : CreateParams) (answer : ActorAnswer) :
    World Key × Except RpcError WalletResponse :=
  match createwalletMember p with
  | .error e => (w, .error e)
  | .ok m =>
    match onboard cfg w d m true answer with
    | (w', .error e) => (w', .error (onboardError e))
    | (w', .ok _) => (w', .ok ⟨m.name, "the wallet is loaded; its balance and history are " ++
        "empty until the shard scans from its birthday"⟩)

def loadwalletMember (w : World Key) (name : String) : Except RpcError ShardMember :=
  match loadManifests cfg w.manifests with
  | .error why => .error (.wallet ("reading the fleet manifests: " ++ why))
  | .ok (members, _) =>
    match members.find? fun m => m.name == name with
    | some m => .ok m
    | none => .error (.walletNotFound ("no wallet '" ++ name ++
        "' in the fleet manifest directory (" ++ cfg.manifestDir ++ "); see listwalletdir"))

def loadwallet (w : World Key) (d : Daemon) (name : Arg) (answer : ActorAnswer) :
    World Key × Except RpcError WalletResponse :=
  match name with
  | .string n =>
    match loadwalletMember cfg w n with
    | .error e => (w, .error e)
    | .ok m =>
      match onboard cfg w d m false answer with
      | (w', .error e) => (w', .error (onboardError e))
      | (w', .ok _) => (w', .ok ⟨n, ""⟩)
  | _ => (w, .error (.invalidParameter "loadwallet requires a wallet name"))

/-- Stop serving a wallet. Nothing else changes: the manifest, the account and the shard's
listing of the name stay. -/
def unloadwallet (w : World Key) (d : Daemon) (named : Arg) (loadOnStartup : Arg)
    (routed : Option String) : World Key × Except RpcError WalletResponse :=
  match unloadwalletTarget named routed with
  | .error e => (w, .error e)
  | .ok name =>
    match rejectUnsupportedLoadOnStartup loadOnStartup with
    | .error e => (w, .error e)
    | .ok _ =>
      if cfg.wallets.contains name then
        (w, .error (.wallet ("wallet '" ++ name ++ "' is a configured [wallets." ++ name ++
          "] entry, which stays loaded for the daemon's lifetime; only fleet wallets can be " ++
          "unloaded (to retire it, remove the config entry and restart)")))
      else if d.contains name then
        ({ w with daemon := some { d with
            loaded := d.loaded.filter fun n => n != name
            fleet := d.fleet.filter fun h => h.member.name != name } },
          .ok ⟨name, "the wallet is no longer served; its account stays in its shard and is " ++
            "still scanned, so unloading frees no scanning work, and a restart or loadwallet " ++
            "serves this wallet again"⟩)
      else
        (w, .error (.walletNotFound
          ("Requested wallet does not exist or is not loaded: " ++ name)))

/-- What starting a configured wallet comes to. It loads; it is skipped (not initialised, or its
files cannot be read); or it ends the start (its server does not resolve, or its account is not
the one its keys are bound to). -/
inductive WalletStart
  | loaded (watchOnly : Bool)
  | skipped
  | fatal (why : String)
  deriving DecidableEq, Repr

structure Startup where
  migration : Except String Unit
  confirmationsPolicy : Except String Unit
  wallet : String → WalletStart
  fleetServer : Except String Unit

def spawnWallets (wallet : String → WalletStart) :
    List String → Except String (List (String × Bool))
  | [] => .ok []
  | name :: names =>
    match wallet name with
    | .fatal why => .error why
    | .skipped => spawnWallets wallet names
    | .loaded watchOnly =>
      match spawnWallets wallet names with
      | .error why => .error why
      | .ok loaded => .ok ((name, watchOnly) :: loaded)

/-- What comes before the fleet: every error of it is fatal. -/
def spawnConfigured (s : Startup) : Except String (List (String × Bool)) := do
  s.migration
  s.confirmationsPolicy
  let loaded ← spawnWallets s.wallet cfg.wallets
  s.fleetServer
  return loaded

/-- At most one wallet with spending keys, unless the settings allow more. -/
def ensureSingleSpendingWallet (loaded : List (String × Bool)) (allowMultiple : Bool) :
    Except String Unit :=
  match loaded.filter fun w => !w.2 with
  | (first, _) :: (second, _) :: _ =>
    if allowMultiple then .ok ()
    else
      .error ("multiple spending wallets configured ('" ++ first ++ "' and '" ++ second ++
        "'); zecd allows at most one wallet with spending keys (any number of watch-only UFVK " ++
        "wallets may be loaded alongside it). Convert one to watch-only (`zecd export-ufvk` + " ++
        "`zecd init --ufvk`) or remove it from the configuration. An application embedding " ++
        "zecd as a library can instead set [keys] allow_multiple_spending_wallets.")
  | _ => .ok ()

/-- Start the daemon. A failed start serves nothing; the directories it created stay. -/
def start (w : World Key) (s : Startup) : World Key × Except String Unit :=
  match spawnConfigured cfg s with
  | .error why => (w, .error why)
  | .ok loaded =>
    match spawnFleet cfg w (loaded.map (·.1)) with
    | (dirs, .error why) => ({ w with dirs := dirs }, .error why)
    | (dirs, .ok d) =>
      if d.loaded.isEmpty && d.fleet.isEmpty then
        ({ w with dirs := dirs }, .error ("no usable wallets; run `zecd init` (datadir: " ++
          cfg.datadir ++ ")"))
      else
        match ensureSingleSpendingWallet loaded cfg.allowMultipleSpendingWallets with
        | .error why => ({ w with dirs := dirs }, .error why)
        | .ok _ => ({ w with dirs := dirs, daemon := some d }, .ok ())

inductive Event
  | start (s : Startup)
  | stop
  | createwallet (params : CreateParams) (answer : ActorAnswer)
  | loadwallet (name : Arg) (answer : ActorAnswer)
  | unloadwallet (name loadOnStartup : Arg) (routed : Option String)
  | importPass (shard : ℕ) (pass : ImportPass)
  | putManifest (file : Manifest)
  | removeManifest (name : String)

inductive Refusal
  | rpc (e : RpcError)
  | startup (why : String)
  | notRunning
  | alreadyRunning
  deriving DecidableEq, Repr

def answered (r : World Key × Except RpcError WalletResponse) :
    World Key × Except Refusal (Option WalletResponse) :=
  match r with
  | (w, .ok response) => (w, .ok (some response))
  | (w, .error e) => (w, .error (.rpc e))

/-- One event. The data directory is locked by a running daemon, so a second start is
refused. -/
def handle (w : World Key) (e : Event) : World Key × Except Refusal (Option WalletResponse) :=
  match e, w.daemon with
  | .start s, none =>
    match start cfg w s with
    | (w', .ok _) => (w', .ok none)
    | (w', .error why) => (w', .error (.startup why))
  | .start _, some _ => (w, .error .alreadyRunning)
  | .stop, _ => ({ w with daemon := none }, .ok none)
  | .createwallet p answer, some d => answered (createwallet cfg w d p answer)
  | .loadwallet name answer, some d => answered (loadwallet cfg w d name answer)
  | .unloadwallet name loadOnStartup routed, some d =>
    answered (unloadwallet cfg w d name loadOnStartup routed)
  | .importPass p pass, some d =>
    match d.shards[p]? with
    | none => (w, .ok none)
    | some rs =>
      let (dirs, rs') := importPendingShardMember cfg w.dirs rs pass
      ({ w with dirs := dirs, daemon := some (d.setShard p rs') }, .ok none)
  | .putManifest file, _ => ({ w with manifests := w.manifests.put file }, .ok none)
  | .removeManifest name, _ => ({ w with manifests := w.manifests.remove name }, .ok none)
  | _, none => (w, .error .notRunning)

def step (w : World Key) (e : Event) : World Key := (handle cfg w e).1

end Calls

end Zecd.Fleet
