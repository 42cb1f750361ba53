import Zecd.Config.Show
import Zecd.Foundation.KeyDiff

/-! # The configuration file

The tables of the file, and how a parsed document is read into them. A key that a table does not
have is refused, and so is a value of another kind than the key's.
-/

namespace Zecd.Config

abbrev U16 := Fin (2 ^ 16)

abbrev U32 := Fin (2 ^ 32)

/-- A `u64` or a `usize`: the integers of a document are signed. -/
abbrev U63 := Fin (2 ^ 63)

/-! ## Tables -/

structure BackendFile where
  server : Option (List Char) := none
  connectTimeoutSecs : Option U63 := none
  reconnectBaseSecs : Option U63 := none
  reconnectMaxSecs : Option U63 := none
  rfc1918IsLocal : Option Bool := none
  allowRemoteCleartext : Option Bool := none
  tls : Option (List Char) := none
  tlsRoots : Option (List Char) := none
  tlsInsecureSkipVerify : Option Bool := none
  tlsCaFile : Option (List Char) := none
  tlsPinnedSha256 : Option (List (List Char)) := none
  assumeTransparentInCompactBlocks : Option Bool := none
  proxy : Option (List Char) := none
  deriving DecidableEq

structure ZebraFile where
  rpcUser : Option (List Char) := none
  rpcPassword : Option (List Char) := none
  rpcCookie : Option (List Char) := none
  deriving DecidableEq

structure RpcFile where
  bind : Option (List Char) := none
  port : Option U16 := none
  user : Option (List Char) := none
  password : Option (List Char) := none
  passwordFile : Option (List Char) := none
  auth : Option (List (List Char)) := none
  cookiefile : Option (List Char) := none
  workQueue : Option U63 := none
  allowedMethods : Option (List (List Char)) := none
  allowDuplicateShieldedRecipients : Option Bool := none
  deriving DecidableEq

structure KeysFile where
  ageIdentity : Option (List Char) := none
  autoUnlock : Option Bool := none
  keysFile : Option (List Char) := none
  bootstrapFromKeys : Option Bool := none
  allowMultipleSpendingWallets : Option Bool := none
  deriving DecidableEq

structure SyncFile where
  intervalSecs : Option U63 := none
  rebroadcastSecs : Option U63 := none
  fetchMemos : Option Bool := none
  batchSize : Option U32 := none
  writerCacheMib : Option U32 := none
  enhanceConcurrency : Option U63 := none
  deriving DecidableEq

structure SpendFile where
  trustedConfirmations : Option U32 := none
  untrustedConfirmations : Option U32 := none
  trustOwnTransactions : Option Bool := none
  privacyPolicy : Option (List Char) := none
  orchardActionLimit : Option U63 := none
  maxTxBytes : Option U63 := none
  cacheProvingKey : Option Bool := none
  pipelineProving : Option Bool := none
  targetNoteCount : Option U63 := none
  minSplitOutputValue : Option U63 := none
  shutdownDrainSecs : Option U63 := none
  maxSendCatchupBlocks : Option U32 := none
  deriving DecidableEq

structure PoolsFile where
  enabled : Option (List (List Char)) := none
  defaultReceivers : Option (List (List Char)) := none
  transparent : Option Bool := none
  transparentDefault : Option Bool := none
  transparentGapLimit : Option U32 := none
  transparentInitialScan : Option U32 := none
  transparentAllowBeyondRecoveryWindow : Option Bool := none
  transparentGapWarnThreshold : Option U32 := none
  deriving DecidableEq

structure HealthFile where
  enabled : Option Bool := none
  bind : Option (List Char) := none
  port : Option U16 := none
  readiness : Option (List Char) := none
  maxScanLag : Option U32 := none
  deriving DecidableEq

structure LogFile where
  level : Option (List Char) := none
  format : Option (List Char) := none
  deriving DecidableEq

structure FleetFile where
  enabled : Option Bool := none
  manifestDir : Option (List Char) := none
  dir : Option (List Char) := none
  shardSize : Option U63 := none
  cohortDepth : Option U32 := none
  deriving DecidableEq

structure WalletFile where
  dir : Option (List Char) := none
  keysFile : Option (List Char) := none
  server : Option (List Char) := none
  tls : Option (List Char) := none
  tlsRoots : Option (List Char) := none
  tlsInsecureSkipVerify : Option Bool := none
  tlsCaFile : Option (List Char) := none
  tlsPinnedSha256 : Option (List (List Char)) := none
  assumeTransparentInCompactBlocks : Option Bool := none
  /-- `pools` in place of `enabled`. -/
  pools : PoolsFile := {}
  deriving DecidableEq

structure ConfigFile where
  network : Option (List Char) := none
  datadir : Option (List Char) := none
  defaultWallet : Option (List Char) := none
  wallets : List (List Char × WalletFile) := []
  wallets_sorted : (wallets.map Prod.fst).Pairwise (· < ·) := by exact List.Pairwise.nil
  backend : Option BackendFile := none
  zebra : Option ZebraFile := none
  rpc : Option RpcFile := none
  keys : Option KeysFile := none
  sync : Option SyncFile := none
  spend : Option SpendFile := none
  pools : Option PoolsFile := none
  health : Option HealthFile := none
  log : Option LogFile := none
  fleet : Option FleetFile := none
  deriving DecidableEq

/-! ## Reading a document -/

abbrev Table := List (List Char × Value)

/-- A parsed document: the keys before the first table, and the tables by their names. -/
structure Document where
  top : Table
  tables : List (List (List Char) × Table)

def readText : Value → Option (List Char)
  | .text p => some p.display
  | _ => none

def readNumber (bound : ℕ) : Value → Option (Fin bound)
  | .number n => if h : n < bound then some ⟨n, h⟩ else none
  | _ => none

def readFlag : Value → Option Bool
  | .flag b => some b
  | _ => none

def readList : Value → Option (List (List Char))
  | .list l => some l
  | _ => none

section Fields

variable {α : Type}

def readOpt (read : Value → Option α) : Option Value → Option (Option α)
  | none => some none
  | some v => (read v).map some

def field (t : Table) (key : String) (read : Value → Option α) : Option (Option α) :=
  readOpt read (KeyDiff.get t key.toList)

def denyUnknown (t : Table) (keys : List String) : Option Unit :=
  if ∀ x ∈ t, x.1 ∈ keys.map String.toList then some () else none

end Fields

def BackendFile.ofTable (t : Table) : Option BackendFile := do
  denyUnknown t ["server", "connect_timeout_secs", "reconnect_base_secs", "reconnect_max_secs",
    "rfc1918_is_local", "allow_remote_cleartext", "tls", "tls_roots", "tls_insecure_skip_verify",
    "tls_ca_file", "tls_pinned_sha256", "assume_transparent_in_compact_blocks", "proxy"]
  let server ← field t "server" readText
  let connectTimeoutSecs ← field t "connect_timeout_secs" (readNumber (2 ^ 63))
  let reconnectBaseSecs ← field t "reconnect_base_secs" (readNumber (2 ^ 63))
  let reconnectMaxSecs ← field t "reconnect_max_secs" (readNumber (2 ^ 63))
  let rfc1918IsLocal ← field t "rfc1918_is_local" readFlag
  let allowRemoteCleartext ← field t "allow_remote_cleartext" readFlag
  let tls ← field t "tls" readText
  let tlsRoots ← field t "tls_roots" readText
  let tlsInsecureSkipVerify ← field t "tls_insecure_skip_verify" readFlag
  let tlsCaFile ← field t "tls_ca_file" readText
  let tlsPinnedSha256 ← field t "tls_pinned_sha256" readList
  let assumeTransparentInCompactBlocks ←
    field t "assume_transparent_in_compact_blocks" readFlag
  let proxy ← field t "proxy" readText
  some ⟨server, connectTimeoutSecs, reconnectBaseSecs, reconnectMaxSecs, rfc1918IsLocal,
    allowRemoteCleartext, tls, tlsRoots, tlsInsecureSkipVerify, tlsCaFile, tlsPinnedSha256,
    assumeTransparentInCompactBlocks, proxy⟩

def ZebraFile.ofTable (t : Table) : Option ZebraFile := do
  denyUnknown t ["rpc_user", "rpc_password", "rpc_cookie"]
  let rpcUser ← field t "rpc_user" readText
  let rpcPassword ← field t "rpc_password" readText
  let rpcCookie ← field t "rpc_cookie" readText
  some ⟨rpcUser, rpcPassword, rpcCookie⟩

def RpcFile.ofTable (t : Table) : Option RpcFile := do
  denyUnknown t ["bind", "port", "user", "password", "password_file", "auth", "cookiefile",
    "work_queue", "allowed_methods", "allow_duplicate_shielded_recipients"]
  let bind ← field t "bind" readText
  let port ← field t "port" (readNumber (2 ^ 16))
  let user ← field t "user" readText
  let password ← field t "password" readText
  let passwordFile ← field t "password_file" readText
  let auth ← field t "auth" readList
  let cookiefile ← field t "cookiefile" readText
  let workQueue ← field t "work_queue" (readNumber (2 ^ 63))
  let allowedMethods ← field t "allowed_methods" readList
  let allowDuplicateShieldedRecipients ← field t "allow_duplicate_shielded_recipients" readFlag
  some ⟨bind, port, user, password, passwordFile, auth, cookiefile, workQueue, allowedMethods,
    allowDuplicateShieldedRecipients⟩

def KeysFile.ofTable (t : Table) : Option KeysFile := do
  denyUnknown t ["age_identity", "auto_unlock", "keys_file", "bootstrap_from_keys",
    "allow_multiple_spending_wallets"]
  let ageIdentity ← field t "age_identity" readText
  let autoUnlock ← field t "auto_unlock" readFlag
  let keysFile ← field t "keys_file" readText
  let bootstrapFromKeys ← field t "bootstrap_from_keys" readFlag
  let allowMultipleSpendingWallets ← field t "allow_multiple_spending_wallets" readFlag
  some ⟨ageIdentity, autoUnlock, keysFile, bootstrapFromKeys, allowMultipleSpendingWallets⟩

def SyncFile.ofTable (t : Table) : Option SyncFile := do
  denyUnknown t ["interval_secs", "rebroadcast_secs", "fetch_memos", "batch_size",
    "writer_cache_mib", "enhance_concurrency"]
  let intervalSecs ← field t "interval_secs" (readNumber (2 ^ 63))
  let rebroadcastSecs ← field t "rebroadcast_secs" (readNumber (2 ^ 63))
  let fetchMemos ← field t "fetch_memos" readFlag
  let batchSize ← field t "batch_size" (readNumber (2 ^ 32))
  let writerCacheMib ← field t "writer_cache_mib" (readNumber (2 ^ 32))
  let enhanceConcurrency ← field t "enhance_concurrency" (readNumber (2 ^ 63))
  some ⟨intervalSecs, rebroadcastSecs, fetchMemos, batchSize, writerCacheMib,
    enhanceConcurrency⟩

def SpendFile.ofTable (t : Table) : Option SpendFile := do
  denyUnknown t ["trusted_confirmations", "untrusted_confirmations", "trust_own_transactions",
    "privacy_policy", "orchard_action_limit", "max_tx_bytes", "cache_proving_key",
    "pipeline_proving", "target_note_count", "min_split_output_value", "shutdown_drain_secs",
    "max_send_catchup_blocks"]
  let trustedConfirmations ← field t "trusted_confirmations" (readNumber (2 ^ 32))
  let untrustedConfirmations ← field t "untrusted_confirmations" (readNumber (2 ^ 32))
  let trustOwnTransactions ← field t "trust_own_transactions" readFlag
  let privacyPolicy ← field t "privacy_policy" readText
  let orchardActionLimit ← field t "orchard_action_limit" (readNumber (2 ^ 63))
  let maxTxBytes ← field t "max_tx_bytes" (readNumber (2 ^ 63))
  let cacheProvingKey ← field t "cache_proving_key" readFlag
  let pipelineProving ← field t "pipeline_proving" readFlag
  let targetNoteCount ← field t "target_note_count" (readNumber (2 ^ 63))
  let minSplitOutputValue ← field t "min_split_output_value" (readNumber (2 ^ 63))
  let shutdownDrainSecs ← field t "shutdown_drain_secs" (readNumber (2 ^ 63))
  let maxSendCatchupBlocks ← field t "max_send_catchup_blocks" (readNumber (2 ^ 32))
  some ⟨trustedConfirmations, untrustedConfirmations, trustOwnTransactions, privacyPolicy,
    orchardActionLimit, maxTxBytes, cacheProvingKey, pipelineProving, targetNoteCount,
    minSplitOutputValue, shutdownDrainSecs, maxSendCatchupBlocks⟩

/-- The keys of the pool settings, the first of which differs. -/
def poolsFileKeys (enabledKey : String) : List String :=
  [enabledKey, "default_receivers", "transparent", "transparent_default",
    "transparent_gap_limit", "transparent_initial_scan",
    "transparent_allow_beyond_recovery_window", "transparent_gap_warn_threshold"]

def PoolsFile.ofFields (enabledKey : String) (t : Table) : Option PoolsFile := do
  let enabled ← field t enabledKey readList
  let defaultReceivers ← field t "default_receivers" readList
  let transparent ← field t "transparent" readFlag
  let transparentDefault ← field t "transparent_default" readFlag
  let transparentGapLimit ← field t "transparent_gap_limit" (readNumber (2 ^ 32))
  let transparentInitialScan ← field t "transparent_initial_scan" (readNumber (2 ^ 32))
  let transparentAllowBeyondRecoveryWindow ←
    field t "transparent_allow_beyond_recovery_window" readFlag
  let transparentGapWarnThreshold ←
    field t "transparent_gap_warn_threshold" (readNumber (2 ^ 32))
  some ⟨enabled, defaultReceivers, transparent, transparentDefault, transparentGapLimit,
    transparentInitialScan, transparentAllowBeyondRecoveryWindow, transparentGapWarnThreshold⟩

def PoolsFile.ofTable (t : Table) : Option PoolsFile := do
  denyUnknown t (poolsFileKeys "enabled")
  PoolsFile.ofFields "enabled" t

def HealthFile.ofTable (t : Table) : Option HealthFile := do
  denyUnknown t ["enabled", "bind", "port", "readiness", "max_scan_lag"]
  let enabled ← field t "enabled" readFlag
  let bind ← field t "bind" readText
  let port ← field t "port" (readNumber (2 ^ 16))
  let readiness ← field t "readiness" readText
  let maxScanLag ← field t "max_scan_lag" (readNumber (2 ^ 32))
  some ⟨enabled, bind, port, readiness, maxScanLag⟩

def LogFile.ofTable (t : Table) : Option LogFile := do
  denyUnknown t ["level", "format"]
  let level ← field t "level" readText
  let format ← field t "format" readText
  some ⟨level, format⟩

def FleetFile.ofTable (t : Table) : Option FleetFile := do
  denyUnknown t ["enabled", "manifest_dir", "dir", "shard_size", "cohort_depth"]
  let enabled ← field t "enabled" readFlag
  let manifestDir ← field t "manifest_dir" readText
  let dir ← field t "dir" readText
  let shardSize ← field t "shard_size" (readNumber (2 ^ 63))
  let cohortDepth ← field t "cohort_depth" (readNumber (2 ^ 32))
  some ⟨enabled, manifestDir, dir, shardSize, cohortDepth⟩

def WalletFile.ofTable (t : Table) : Option WalletFile := do
  denyUnknown t (["dir", "keys_file", "server", "tls", "tls_roots", "tls_insecure_skip_verify",
    "tls_ca_file", "tls_pinned_sha256", "assume_transparent_in_compact_blocks"] ++
    poolsFileKeys "pools")
  let dir ← field t "dir" readText
  let keysFile ← field t "keys_file" readText
  let server ← field t "server" readText
  let tls ← field t "tls" readText
  let tlsRoots ← field t "tls_roots" readText
  let tlsInsecureSkipVerify ← field t "tls_insecure_skip_verify" readFlag
  let tlsCaFile ← field t "tls_ca_file" readText
  let tlsPinnedSha256 ← field t "tls_pinned_sha256" readList
  let assumeTransparentInCompactBlocks ←
    field t "assume_transparent_in_compact_blocks" readFlag
  let pools ← PoolsFile.ofFields "pools" t
  some ⟨dir, keysFile, server, tls, tlsRoots, tlsInsecureSkipVerify, tlsCaFile, tlsPinnedSha256,
    assumeTransparentInCompactBlocks, pools⟩

/-! ## The whole file -/

def sectionNames : List String :=
  ["backend", "zebra", "rpc", "keys", "sync", "spend", "pools", "health", "log", "fleet"]

/-- The name of the wallet whose table this is. -/
def walletName : List (List Char) → Option (List Char)
  | [s, name] => if s = "wallets".toList then some name else none
  | _ => none

/-- A table of the file: a section, a wallet, or the empty table of wallets. -/
def knownTable (x : List (List Char) × Table) : Bool :=
  decide (x.1 ∈ sectionNames.map fun s => [s.toList]) || (walletName x.1).isSome ||
    (decide (x.1 = ["wallets".toList]) && x.2.isEmpty)

def tableOf {α : Type} (d : Document) (name : String) (read : Table → Option α) :
    Option (Option α) :=
  match KeyDiff.get d.tables [name.toList] with
  | none => some none
  | some t => (read t).map some

def readWallets (d : Document) : Option (List (List Char × WalletFile)) :=
  (d.tables.filterMap fun x => (walletName x.1).map (·, x.2)).mapM fun x =>
    (WalletFile.ofTable x.2).map (x.1, ·)

/-- The file that a document is read as; no table is there twice. -/
def ConfigFile.ofDocument (d : Document) : Option ConfigFile := do
  denyUnknown d.top ["network", "datadir", "default_wallet"]
  if d.tables.all knownTable then
    let network ← field d.top "network" readText
    let datadir ← field d.top "datadir" readText
    let defaultWallet ← field d.top "default_wallet" readText
    let wallets ← readWallets d
    let backend ← tableOf d "backend" BackendFile.ofTable
    let zebra ← tableOf d "zebra" ZebraFile.ofTable
    let rpc ← tableOf d "rpc" RpcFile.ofTable
    let keys ← tableOf d "keys" KeysFile.ofTable
    let sync ← tableOf d "sync" SyncFile.ofTable
    let spend ← tableOf d "spend" SpendFile.ofTable
    let pools ← tableOf d "pools" PoolsFile.ofTable
    let health ← tableOf d "health" HealthFile.ofTable
    let log ← tableOf d "log" LogFile.ofTable
    let fleet ← tableOf d "fleet" FleetFile.ofTable
    let wallets := wallets.mergeSort fun x y => decide (x.1 ≤ y.1)
    if h : (wallets.map Prod.fst).Pairwise (· < ·) then
      some ⟨network, datadir, defaultWallet, wallets, h, backend, zebra, rpc, keys, sync, spend,
        pools, health, log, fleet⟩
    else none
  else none

end Zecd.Config
