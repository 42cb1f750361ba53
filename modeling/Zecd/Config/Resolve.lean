import Zecd.Config.File
import Zecd.Config.Tokens

/-! # Resolving the configuration

What the file says, under what the command line says, with every unset key filled in. Settings
that contradict each other are refused here, and so are words that mean nothing.
-/

namespace Zecd.Config

open Fallible

/-! ## Paths -/

namespace Path

def slash : PathUnit := .char '/'

def isAbsolute (p : Path) : Bool := decide (p.head? = some slash)

/-- `Path::join`: an absolute path replaces what it is joined to. -/
def join (base p : Path) : Path :=
  if isAbsolute p ∨ base = [] then p
  else if base.getLast? = some slash then base ++ p
  else base ++ slash :: p

def dot : Path := [.char '.']

/-- The root or a leading dot, and the names; what is empty or a dot further on is nothing. -/
def components (p : Path) : List Path :=
  let parts := p.splitOn slash
  let names := parts.filter fun s => decide (s ≠ [] ∧ s ≠ dot)
  if isAbsolute p then [slash] :: names
  else if parts.head? = some dot then dot :: names
  else names

def startsWith (p base : Path) : Bool := (components base).isPrefixOf (components p)

end Path

def walletDir (datadir : Path) (name : List Char) : Path := Path.join datadir (Path.ofText name)

def fleetCoinDir (datadir : Path) : Path :=
  Path.join (Path.join datadir (Path.ofText "fleet".toList)) (Path.ofText "zec".toList)

def fleetManifestDir (datadir : Path) : Path :=
  Path.join (fleetCoinDir datadir) (Path.ofText "wallets.d".toList)

def fleetDir (datadir : Path) : Path :=
  Path.join (fleetCoinDir datadir) (Path.ofText "shards".toList)

/-! ## What the file is read under -/

structure BinaryDefaults where
  datadir : List Char
  rpcPortMain : U16
  rpcPortTest : U16
  healthPort : U16

def zecdDefaults : BinaryDefaults := ⟨"./zecd-data".toList, 8232, 18232, 9233⟩

/-- The command line; the data directory also from the environment. -/
structure ConfigOverrides where
  datadir : Option Path := none
  testnet : Bool := false
  regtest : Bool := false
  network : Option (List Char) := none
  rpcBind : Option (List Char) := none
  rpcPort : Option U16 := none
  rpcUser : Option (List Char) := none
  rpcPassword : Option (List Char) := none
  rpcAuth : List (List Char) := []
  server : Option (List Char) := none
  proxy : Option (List Char) := none
  ageIdentity : Option Path := none
  keysFile : Option Path := none

section Helpers

variable {α β ε : Type}

/-- The number a key has, or else the default. -/
def number {n : ℕ} (key : Option (Fin n)) (default : ℕ) : ℕ := (key.map Fin.val).getD default

/-- Read the word a key has. -/
def parseOpt (text : String) (parse : α → Except Fault β) : Option α → Except Fault (Option β)
  | none => .ok none
  | some a => do .ok (some (← context text (parse a)))

def mapValues (f : List Char → α → Except ε β) :
    (l : List (List Char × α)) →
      Except ε {m : List (List Char × β) // m.map Prod.fst = l.map Prod.fst}
  | [] => .ok ⟨[], rfl⟩
  | x :: l => do
    let b ← f x.1 x.2
    let m ← mapValues f l
    .ok ⟨(x.1, b) :: m.1, congrArg (x.1 :: ·) m.2⟩

/-- `entry(name).or_insert(v)`. -/
def entryOrInsert (name : List Char) (v : α) : List (List Char × α) → List (List Char × α)
  | [] => [(name, v)]
  | x :: l =>
    if x.1 = name then x :: l
    else if name < x.1 then (name, v) :: x :: l
    else x :: entryOrInsert name v l

variable {name : List Char} {v : α} {l : List (List Char × α)}

theorem entryOrInsert_of_mem (h : name ∈ l.map Prod.fst)
    (hl : (l.map Prod.fst).Pairwise (· < ·)) : entryOrInsert name v l = l := by
  induction l with
  | nil => cases h
  | cons x l ih =>
    rw [entryOrInsert]
    split
    · rfl
    · next hx =>
      have hmem : name ∈ l.map Prod.fst := (List.mem_cons.mp h).resolve_left (Ne.symm hx)
      have hlt : x.1 < name := List.rel_of_pairwise_cons hl hmem
      rw [if_neg (not_lt.mpr hlt.le), ih hmem hl.tail]

theorem mem_entryOrInsert {x : List Char × α} (hx : x ∈ entryOrInsert name v l) :
    x = (name, v) ∨ x ∈ l := by
  induction l with
  | nil => exact Or.inl (List.mem_singleton.mp hx)
  | cons y l ih =>
    rw [entryOrInsert] at hx
    split at hx
    · exact Or.inr hx
    · split at hx
      · exact List.mem_cons.mp hx
      · rcases List.mem_cons.mp hx with rfl | hx
        · exact Or.inr List.mem_cons_self
        · exact (ih hx).imp_right (List.mem_cons_of_mem _)

theorem entryOrInsert_sorted (name : List Char) (v : α)
    (hl : (l.map Prod.fst).Pairwise (· < ·)) :
    ((entryOrInsert name v l).map Prod.fst).Pairwise (· < ·) := by
  induction l with
  | nil => exact List.pairwise_singleton _ _
  | cons x l ih =>
    rw [entryOrInsert]
    split
    · exact hl
    · next hx =>
      split
      · next hlt =>
        refine List.pairwise_cons.mpr ⟨?_, hl⟩
        intro k hk
        rcases List.mem_cons.mp hk with rfl | hk
        · exact hlt
        · exact hlt.trans (List.rel_of_pairwise_cons hl hk)
      · next hlt =>
        refine List.pairwise_cons.mpr ⟨?_, ih hl.tail⟩
        intro k hk
        obtain ⟨y, hy, rfl⟩ := List.mem_map.mp hk
        rcases mem_entryOrInsert hy with rfl | hy
        · exact lt_of_le_of_ne (not_lt.mp hlt) hx
        · exact List.rel_of_pairwise_cons hl (List.mem_map_of_mem hy)

end Helpers

/-! ## Pools -/

def validateTransparentFlags (ctx : String) (transparentEnabled transparentDefault : Bool)
    (transparentGapLimit : ℕ) : Except Fault Unit := do
  ensure (!transparentDefault || transparentEnabled)
    [ctx ++ " transparent_default = true requires transparent = true " ++
      "(transparent receiving must be enabled to default to it)"]
  ensure (transparentGapLimit != 0) [ctx ++ " transparent_gap_limit must be at least 1"]

/-- The receivers are among the enabled pools. -/
def validateReceivers (ctx : String) (enabled defaultReceivers : ReceiverSet) :
    Except Fault Unit :=
  ensure (defaultReceivers.isSubsetOf enabled)
    [ctx ++ " default_receivers (" ++ defaultReceivers.displayNames ++
      ") must be a subset of enabled pools (" ++ enabled.displayNames ++ ")"]

def defaultTransparentGapLimit : ℕ := 20

def defaultTransparentAllowBeyond : Bool := true

def defaultTransparentGapWarnThreshold : ℕ := 5

def resolveGlobalPools (host : Host) (file : PoolsFile) : Except Fault PoolsConfig := do
  let enabled ← parseOpt "[pools] enabled" (ReceiverSet.parse host) file.enabled
  let enabled := enabled.getD (.single .orchard)
  let receivers ← parseOpt "[pools] default_receivers" (ReceiverSet.parse host)
    file.defaultReceivers
  let defaultReceivers := receivers.getD enabled
  validateReceivers "[pools]" enabled defaultReceivers
  let transparentEnabled := file.transparent.getD false
  let transparentDefault := file.transparentDefault.getD false
  let transparentGapLimit := number file.transparentGapLimit defaultTransparentGapLimit
  validateTransparentFlags "[pools]" transparentEnabled transparentDefault transparentGapLimit
  .ok {
    enabled
    defaultReceivers
    transparentEnabled
    transparentDefault
    transparentGapLimit
    transparentInitialScan := number file.transparentInitialScan 0
    transparentAllowBeyondRecoveryWindow :=
      file.transparentAllowBeyondRecoveryWindow.getD defaultTransparentAllowBeyond
    transparentGapWarnThreshold :=
      number file.transparentGapWarnThreshold defaultTransparentGapWarnThreshold }

def walletContext (name : List Char) : String := "[wallets." ++ String.ofList name ++ "]"

/-- A wallet that has pools of its own but no receivers receives into all of them. -/
def resolveWalletPools (host : Host) (name : List Char) (file : PoolsFile)
    (global : PoolsConfig) : Except Fault PoolsConfig := do
  let ctx := walletContext name
  let pools ← parseOpt (ctx ++ " pools") (ReceiverSet.parse host) file.enabled
  let enabled := pools.getD global.enabled
  let receivers ← parseOpt (ctx ++ " default_receivers") (ReceiverSet.parse host)
    file.defaultReceivers
  let defaultReceivers :=
    receivers.getD (if file.enabled.isSome then enabled else global.defaultReceivers)
  validateReceivers ctx enabled defaultReceivers
  let transparentEnabled := file.transparent.getD global.transparentEnabled
  let transparentDefault := file.transparentDefault.getD global.transparentDefault
  let transparentGapLimit := number file.transparentGapLimit global.transparentGapLimit
  validateTransparentFlags ctx transparentEnabled transparentDefault transparentGapLimit
  .ok {
    enabled
    defaultReceivers
    transparentEnabled
    transparentDefault
    transparentGapLimit
    transparentInitialScan := number file.transparentInitialScan global.transparentInitialScan
    transparentAllowBeyondRecoveryWindow :=
      file.transparentAllowBeyondRecoveryWindow.getD global.transparentAllowBeyondRecoveryWindow
    transparentGapWarnThreshold :=
      number file.transparentGapWarnThreshold global.transparentGapWarnThreshold }

/-! ## Backends -/

def readCa (host : Host) (ctx : String) :
    Option (List Char) → Except Fault (Option (List UInt8))
  | none => .ok none
  | some path =>
    match host.readFile (Path.ofText path) with
    | .error e => .error ["reading " ++ ctx ++ " tls_ca_file " ++ String.ofList path, e]
    | .ok pem => .ok (some pem)

def parsePins (pins : List (List Char)) : Except Fault (List CertFingerprint) :=
  pins.mapM CertFingerprint.parse

def parseProxy (token : List Char) : Except Fault Upstream.SocksProxy :=
  match Upstream.SocksProxy.parse token with
  | .error e => .error [e]
  | .ok p => .ok p

def resolveWalletBackend (host : Host) (name : List Char) (w : WalletFile) :
    Except Fault WalletBackendOverride := do
  let ctx := walletContext name
  let tls ← parseOpt (ctx ++ " tls") parseTlsMode w.tls
  let tlsRoots ← parseOpt (ctx ++ " tls_roots") TlsRoots.parse w.tlsRoots
  let tlsCaPem ← readCa host ctx w.tlsCaFile
  let tlsPins ← parseOpt (ctx ++ " tls_pinned_sha256") parsePins w.tlsPinnedSha256
  .ok {
    server := w.server
    tls
    tlsRoots
    tlsInsecureSkipVerify := w.tlsInsecureSkipVerify
    tlsCaPem
    tlsCaFile := w.tlsCaFile.map Path.ofText
    tlsPins
    assumeTransparentInCompactBlocks := w.assumeTransparentInCompactBlocks }

def WalletBackendOverride.isEmpty (o : WalletBackendOverride) : Bool :=
  o.server.isNone && o.tls.isNone && o.tlsRoots.isNone && o.tlsInsecureSkipVerify.isNone &&
    o.tlsCaPem.isNone && o.tlsPins.isNone && o.assumeTransparentInCompactBlocks.isNone

/-- A pin or a CA that would never be consulted is refused. -/
def validateBackendTls (b : BackendConfig) : Except Fault Unit := do
  let authenticating := b.tlsCaPem.isSome || !b.tlsPins.isEmpty
  ensure (!(authenticating && b.tlsInsecureSkipVerify))
    ["[backend] tls_insecure_skip_verify = true cannot be combined with " ++
      "tls_pinned_sha256/tls_ca_file: it disables the very check they configure. Remove " ++
      "tls_insecure_skip_verify - a pin authenticates a self-signed certificate without " ++
      "giving up verification"]
  ensure (!(authenticating && b.tls == some false))
    ["[backend] tls_pinned_sha256/tls_ca_file require TLS, but tls = \"no\" forces a " ++
      "plaintext connection where neither can be checked"]
  ensure (!(authenticating && "http://".toList.isPrefixOf b.server))
    ["[backend] tls_pinned_sha256/tls_ca_file require TLS, but the http:// server token " ++
      "forces a plaintext connection where neither can be checked; use https://"]

def selectServerToken (cli file : Option (List Char)) : List Char :=
  (cli.or file).getD "zebra".toList

def resolveBackendTable (host : Host) (cli : ConfigOverrides) (file : BackendFile) :
    Except Fault BackendConfig := do
  let reconnectBaseSecs := max (number file.reconnectBaseSecs 1) 1
  let tls ← parseOpt "[backend] tls" parseTlsMode file.tls
  let tlsRoots ← parseOpt "[backend] tls_roots" TlsRoots.parse file.tlsRoots
  let tlsCaPem ← readCa host "[backend]" file.tlsCaFile
  let tlsPins ← context "[backend] tls_pinned_sha256" (parsePins (file.tlsPinnedSha256.getD []))
  let proxy ← parseOpt "[backend] proxy" parseProxy (cli.proxy.or file.proxy)
  .ok {
    server := selectServerToken cli.server file.server
    connectTimeoutSecs := max (number file.connectTimeoutSecs 10) 1
    reconnectBaseSecs
    reconnectMaxSecs := max (number file.reconnectMaxSecs 60) reconnectBaseSecs
    rfc1918IsLocal := file.rfc1918IsLocal.getD true
    allowRemoteCleartext := file.allowRemoteCleartext.getD false
    tls := tls.getD none
    tlsRoots := tlsRoots.getD .native
    tlsInsecureSkipVerify := file.tlsInsecureSkipVerify.getD false
    tlsCaPem
    tlsCaFile := file.tlsCaFile.map Path.ofText
    tlsPins
    assumeTransparentInCompactBlocks := file.assumeTransparentInCompactBlocks.getD false
    proxy }

/-- The settings of a wallet that has some of its own must not contradict each other either. -/
def validateWalletTls (b : BackendConfig) (x : List Char × WalletEntry) : Except Fault Unit :=
  if x.2.backend.isEmpty then .ok ()
  else context (walletContext x.1) (validateBackendTls (x.2.backend.effective b))

/-! ## Wallets -/

def resolveNetwork (cli : ConfigOverrides) (file : ConfigFile) : Except Fault ZNetwork :=
  if cli.regtest then .ok .regtest
  else if cli.testnet then .ok .test
  else
    match cli.network.or file.network with
    | some n => ZNetwork.parse n
    | none => .ok .test

def resolveDatadir (defaults : BinaryDefaults) (cli : ConfigOverrides) (file : ConfigFile) : Path :=
  (cli.datadir.or (file.datadir.map Path.ofText)).getD (Path.ofText defaults.datadir)

def keysFileGlobal (cli : ConfigOverrides) (file : ConfigFile) : Option Path :=
  cli.keysFile.or ((file.keys.bind KeysFile.keysFile).map Path.ofText)

structure WalletContext where
  datadir : Path
  network : ZNetwork
  defaultWallet : List Char
  keysFileGlobal : Option Path
  pools : PoolsConfig

def resolveWallet (host : Host) (ctx : WalletContext) (name : List Char) (w : WalletFile) :
    Except Fault WalletEntry := do
  let keysFile := (w.keysFile.map Path.ofText).or
    (if name = ctx.defaultWallet then ctx.keysFileGlobal else none)
  let dir := (w.dir.map Path.ofText).getD (walletDir ctx.datadir name)
  let backend ← resolveWalletBackend host name w
  let pools ← resolveWalletPools host name w.pools ctx.pools
  .ok { dir, keysFile, chain := ctx.network, backend, pools }

def implicitWallet (ctx : WalletContext) : WalletEntry where
  dir := walletDir ctx.datadir ctx.defaultWallet
  keysFile := ctx.keysFileGlobal
  chain := ctx.network
  backend := ⟨none, none, none, none, none, none, none, none⟩
  pools := ctx.pools

def resolveWallets (host : Host) (ctx : WalletContext) (file : ConfigFile) :
    Except Fault {l : List (List Char × WalletEntry) // (l.map Prod.fst).Pairwise (· < ·)} := do
  let wallets ← mapValues (resolveWallet host ctx) file.wallets
  .ok ⟨entryOrInsert ctx.defaultWallet (implicitWallet ctx) wallets.1,
    entryOrInsert_sorted _ _ (by rw [wallets.2]; exact file.wallets_sorted)⟩

/-! ## The other sections -/

def allMethods : List String :=
  ["stop", "uptime", "help", "getrpcinfo", "getnetworkinfo", "getconnectioncount", "getpeerinfo",
    "ping", "getblockchaininfo", "getblockcount", "getbestblockhash", "getblockhash",
    "getblockheader", "waitfornewblock", "waitforblock", "waitforblockheight", "waitforsync",
    "validateaddress", "signmessage", "verifymessage", "settxfee", "estimatesmartfee",
    "estimatefee", "getmempoolinfo", "getrawtransaction", "sendrawtransaction", "getbalance",
    "getbalances", "getunconfirmedbalance", "getwalletinfo", "getaddressinfo",
    "listtransactions", "z_listtransactions", "listsinceblock", "gettransaction", "listunspent",
    "getreceivedbyaddress", "listreceivedbyaddress", "listwallets", "listwalletdir",
    "createwallet", "loadwallet", "unloadwallet", "getnewaddress", "sendtoaddress", "sendmany",
    "walletpassphrase", "walletlock", "z_sendmany", "z_shieldcoinbase", "z_mergetoaddress",
    "z_getoperationstatus", "z_getoperationresult", "z_listoperationids", "z_validateaddress",
    "z_waitforoperation", "z_getaddressforaccount", "z_listunifiedreceivers"]

def isKnownMethod (name : List Char) : Bool := decide (name ∈ allMethods.map String.toList)

def checkMethod (host : Host) (m : List Char) : Except Fault Unit :=
  ensure (isKnownMethod m)
    ["[rpc] allowed_methods contains unknown method " ++ host.debug m ++
      "; it is not an RPC method this build implements (see the example config for the full list)"]

def parseBind (lib : Libraries) (text : String) (bind : List Char) : Except Fault IpAddr :=
  match lib.parseIp bind with
  | some ip => .ok ip
  | none => .error [text, "invalid IP address syntax"]

/-- A password file holds the password, and ends its line. -/
def readSecretFile (host : Host) (path : List Char) : Except Fault (List Char) :=
  match host.readToString (Path.ofText path) with
  | .error e => .error ["reading secret file " ++ String.ofList path, e]
  | .ok raw => .ok (raw.rdropWhile fun c => c == '\n' || c == '\r')

def readPassword (host : Host) : Option (List Char) → Except Fault (Option (List Char))
  | none => .ok none
  | some path => do .ok (some (← readSecretFile host path))

def resolveRpc (lib : Libraries) (host : Host) (defaults : BinaryDefaults)
    (cli : ConfigOverrides) (network : ZNetwork) (datadir : Path) (file : RpcFile) :
    Except Fault RpcConfig := do
  let passwordFromFile ← readPassword host file.passwordFile
  let allowedMethods := file.allowedMethods.getD []
  allowedMethods.forM (checkMethod host)
  let bind ← parseBind lib "parsing rpc bind address"
    ((cli.rpcBind.or file.bind).getD "127.0.0.1".toList)
  .ok {
    bind
    port := number (cli.rpcPort.or file.port)
      (if network = .main then defaults.rpcPortMain else defaults.rpcPortTest)
    user := cli.rpcUser.or file.user
    password := (cli.rpcPassword.or passwordFromFile).or file.password
    auth := cli.rpcAuth ++ file.auth.getD []
    cookiefile := some ((file.cookiefile.map Path.ofText).getD
      (Path.join datadir (Path.ofText ".cookie".toList)))
    workQueue := max (number file.workQueue 100) 1
    allowedMethods
    allowDuplicateShieldedRecipients := file.allowDuplicateShieldedRecipients.getD false }

def resolveKeys (cli : ConfigOverrides) (datadir : Path) (file : KeysFile) : KeysConfig where
  ageIdentity := some ((cli.ageIdentity.or (file.ageIdentity.map Path.ofText)).getD
    (Path.join datadir (Path.ofText "identity.txt".toList)))
  autoUnlock := file.autoUnlock.getD true
  bootstrapFromKeys := file.bootstrapFromKeys.getD true
  allowMultipleSpendingWallets := file.allowMultipleSpendingWallets.getD false

def resolveZebra (file : ZebraFile) : ZebraConfig :=
  ⟨file.rpcUser, file.rpcPassword, file.rpcCookie.map Path.ofText⟩

def resolveSync (file : SyncFile) : SyncConfig where
  intervalSecs := max (number file.intervalSecs 20) 1
  rebroadcastSecs := max (number file.rebroadcastSecs 60) 1
  fetchMemos := file.fetchMemos.getD true
  batchSize := max (number file.batchSize 10000) 1
  writerCacheMib := max (number file.writerCacheMib 256) 1
  enhanceConcurrency := max (number file.enhanceConcurrency 16) 1

/-- `confirmations_policy` and `validate_change_splitting`, as far as they refuse. -/
def SpendConfig.validate (s : SpendConfig) : Except Fault Unit := do
  ensure (max s.trustedConfirmations 1 ≤ max s.untrustedConfirmations 1)
    ["[spend] trusted_confirmations (" ++ toString s.trustedConfirmations ++
      ") must not exceed untrusted_confirmations (" ++ toString s.untrustedConfirmations ++ ")"]
  ensure (s.targetNoteCount != 0)
    ["[spend] target_note_count must be at least 1 (it is the number of notes a send aims to " ++
      "leave the wallet holding)"]
  ensure (s.minSplitOutputValue ≤ 2100000000000000)
    ["[spend] min_split_output_value = " ++ toString s.minSplitOutputValue ++
      " is not a valid amount of zatoshis"]

def resolvePrivacy : Option (List Char) → Except Fault SendPrivacy
  | none => .ok .allowRevealedRecipients
  | some s => SendPrivacy.parse s

def resolveSpend (file : SpendFile) : Except Fault SpendConfig := do
  let privacy ← resolvePrivacy file.privacyPolicy
  let spend : SpendConfig := {
    trustedConfirmations := number file.trustedConfirmations 3
    untrustedConfirmations := number file.untrustedConfirmations 10
    trustOwnTransactions := file.trustOwnTransactions.getD true
    privacy
    orchardActionLimit := number file.orchardActionLimit 50
    maxTxBytes := number file.maxTxBytes 250000
    cacheProvingKey := file.cacheProvingKey.getD true
    pipelineProving := file.pipelineProving.getD false
    targetNoteCount := number file.targetNoteCount 4
    minSplitOutputValue := number file.minSplitOutputValue 10000000
    shutdownDrainSecs := number file.shutdownDrainSecs 60
    maxSendCatchupBlocks := number file.maxSendCatchupBlocks 100 }
  spend.validate
  .ok spend

def resolveReadiness (host : Host) : Option (List Char) → Except Fault ReadinessMode
  | none => .ok .synced
  | some s => ReadinessMode.parse host s

def resolveHealth (lib : Libraries) (host : Host) (defaults : BinaryDefaults)
    (file : HealthFile) : Except Fault HealthConfig := do
  let bind ← parseBind lib "parsing health bind address" (file.bind.getD "127.0.0.1".toList)
  let readiness ← resolveReadiness host file.readiness
  .ok {
    enabled := file.enabled.getD true
    bind
    port := number file.port defaults.healthPort
    readiness
    maxScanLag := number file.maxScanLag 4 }

/-- A directory that the file names is taken from the data directory. -/
def fleetPath (datadir : Path) (path : Option (List Char)) (default : Path) : Path :=
  (path.map fun p => Path.join datadir (Path.ofText p)).getD default

/-- The first wallet whose directory is in one of the fleet's, or has one in it. -/
def fleetPathConflict (wallets : List (List Char × WalletEntry)) (fleet : FleetConfig) :
    Option (List Char × Path × Path) :=
  wallets.findSome? fun x =>
    ([fleet.manifestDir, fleet.dir].find? fun path =>
      Path.startsWith path x.2.dir || Path.startsWith x.2.dir path).map (x.1, x.2.dir, ·)

def validateFleet (wallets : List (List Char × WalletEntry)) (fleet : FleetConfig) :
    Except Fault Unit := do
  ensure (fleet.shardSize != 0) ["[fleet] shard_size must be at least 1"]
  if fleet.enabled then
    match fleetPathConflict wallets fleet with
    | none => .ok ()
    | some (name, walletPath, fleetPath) =>
      .error ["wallet '" ++ String.ofList name ++ "' has its data directory at " ++
        String.ofList (Path.display walletPath) ++ ", which overlaps the fleet's " ++
        String.ofList (Path.display fleetPath) ++ ". Rename the wallet, or point [wallets." ++
        String.ofList name ++ "] dir (or the [fleet] manifest_dir/dir) somewhere else"]
  else .ok ()

def resolveFleet (datadir : Path) (file : FleetFile) : FleetConfig where
  enabled := file.enabled.getD false
  manifestDir := fleetPath datadir file.manifestDir (fleetManifestDir datadir)
  dir := fleetPath datadir file.dir (fleetDir datadir)
  shardSize := number file.shardSize 128
  cohortDepth := number file.cohortDepth 10000

def resolveLog (host : Host) (file : LogFile) : Except Fault LogConfig := do
  let log : LogConfig := ⟨file.level.getD "info".toList, file.format.getD "text".toList⟩
  ensure (decide (Hex.asciiLower log.format ∈ ["text".toList, "json".toList]))
    ["[log] format must be \"text\" or \"json\", got " ++ host.debug log.format]
  .ok log

/-! ## The configuration -/

/-- `resolve_overrides_with`, of a file that was read. -/
def resolve (lib : Libraries) (host : Host) (defaults : BinaryDefaults) (cli : ConfigOverrides)
    (file : ConfigFile) : Except Fault AppConfig := do
  let datadir := resolveDatadir defaults cli file
  let network ← resolveNetwork cli file
  let defaultWallet := file.defaultWallet.getD "default".toList
  let pools ← resolveGlobalPools host (file.pools.getD {})
  let wallets ← resolveWallets host
    ⟨datadir, network, defaultWallet, keysFileGlobal cli file, pools⟩ file
  let backend ← resolveBackendTable host cli (file.backend.getD {})
  validateBackendTls backend
  wallets.1.forM (validateWalletTls backend)
  let rpc ← resolveRpc lib host defaults cli network datadir (file.rpc.getD {})
  let spend ← resolveSpend (file.spend.getD {})
  let health ← resolveHealth lib host defaults (file.health.getD {})
  let fleet := resolveFleet datadir (file.fleet.getD {})
  validateFleet wallets.1 fleet
  let log ← resolveLog host (file.log.getD {})
  .ok {
    network
    datadir
    defaultWallet
    wallets := wallets.1
    wallets_sorted := wallets.2
    backend
    zebra := resolveZebra (file.zebra.getD {})
    rpc
    keys := resolveKeys cli datadir (file.keys.getD {})
    sync := resolveSync (file.sync.getD {})
    spend
    pools
    health
    log
    fleet }

end Zecd.Config
