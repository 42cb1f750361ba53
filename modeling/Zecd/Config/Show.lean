import Zecd.Config.Endpoint
import Zecd.Foundation.KeyedText

/-! # Showing the effective configuration

`render` writes every key with the value in effect, section by section; the keys of secrets are
only named, in a comment. A `server` token is followed by a comment with the endpoint it
resolves to.
-/

namespace Zecd.Config

open KeyedText

/-! ## Values -/

inductive Value where
  | text (p : Path)
  | number (n : ℕ)
  | flag (b : Bool)
  | list (l : List (List Char))
  deriving DecidableEq

def Value.str (s : String) : Value := .text (Path.ofText s.toList)

def Value.chars (s : List Char) : Value := .text (Path.ofText s)

def Value.literal (lib : Libraries) : Value → List Char
  | .text p => lib.strVal p.display
  | .number n => Nat.toDigits 10 n
  | .flag b => (if b then "true" else "false").toList
  | .list l => lib.listVal l

/-- What `kv` writes: the value, and for `kv_note` the note behind it. -/
structure Shown where
  value : Value
  note : Option (List Char)
  deriving DecidableEq

def Shown.suffix (s : Shown) : List Char := s.note.elim [] fun note => "  # ".toList ++ note

def Shown.printed (lib : Libraries) (s : Shown) : List Char := s.value.literal lib ++ s.suffix

/-- A key that is written if it has a value, or the keys of a secret. -/
inductive Item where
  | kv (key : String) (shown : Option Shown)
  | redacted (keys : String) (set : Bool)
  deriving DecidableEq

def kv (key : String) (value : Value) : Item := .kv key (some ⟨value, none⟩)

def kvOpt (key : String) (value : Option Value) : Item := .kv key (value.map (⟨·, none⟩))

def kvNote (key : String) (value : Value) (note : List Char) : Item :=
  .kv key (some ⟨value, some note⟩)

/-! ## Spellings -/

def tlsMode : Option Bool → String
  | none => "auto"
  | some true => "yes"
  | some false => "no"

def TlsRoots.show : TlsRoots → String
  | .native => "native"
  | .webpki => "webpki"

/-- The fingerprint as openssl prints it: upper-case hex, colons between the bytes. -/
def CertFingerprint.display (f : CertFingerprint) : List Char :=
  [':'].intercalate (f.bytes.map fun b => (Hex.byteDigits b).map Char.toUpper)

def SendPrivacy.show : SendPrivacy → String
  | .fullPrivacy => "FullPrivacy"
  | .allowRevealedAmounts => "AllowRevealedAmounts"
  | .allowRevealedRecipients => "AllowRevealedRecipients"
  | .allowRevealedSenders => "AllowRevealedSenders"
  | .allowFullyTransparent => "AllowFullyTransparent"

def ReadinessMode.asStr : ReadinessMode → String
  | .synced => "synced"
  | .scanned => "scanned"
  | .connected => "connected"

def Receiver.asStr : Receiver → String
  | .sapling => "sapling"
  | .orchard => "orchard"

def ReceiverSet.names (s : ReceiverSet) : List (List Char) :=
  s.pools.map fun r => r.asStr.toList

/-! ## Sections -/

section Sections

variable (lib : Libraries) (c : AppConfig)

def topLevelItems : List Item :=
  [kv "network" (.str c.network.name), kv "datadir" (.text c.datadir),
    kv "default_wallet" (.chars c.defaultWallet)]

def backendItems : List Item :=
  let b := c.backend
  [kvNote "server" (.chars b.server) (endpointNote lib (resolveConfigured c)),
    kvOpt "proxy" (b.proxy.map fun p => .chars p.display),
    kv "connect_timeout_secs" (.number b.connectTimeoutSecs),
    kv "reconnect_base_secs" (.number b.reconnectBaseSecs),
    kv "reconnect_max_secs" (.number b.reconnectMaxSecs),
    kv "rfc1918_is_local" (.flag b.rfc1918IsLocal),
    kv "allow_remote_cleartext" (.flag b.allowRemoteCleartext),
    kv "tls" (.str (tlsMode b.tls)),
    kv "tls_roots" (.str b.tlsRoots.show),
    kv "tls_insecure_skip_verify" (.flag b.tlsInsecureSkipVerify),
    kvOpt "tls_ca_file" (b.tlsCaFile.map .text),
    kvOpt "tls_pinned_sha256"
      (if b.tlsPins = [] then none else some (.list (b.tlsPins.map (·.display)))),
    kv "assume_transparent_in_compact_blocks" (.flag b.assumeTransparentInCompactBlocks)]

def zebraItems : List Item :=
  [kvOpt "rpc_cookie" (c.zebra.rpcCookie.map .text),
    .redacted "rpc_user, rpc_password" (c.zebra.rpcUser.isSome || c.zebra.rpcPassword.isSome)]

def rpcItems : List Item :=
  [kv "bind" (.chars (lib.displayIp c.rpc.bind)),
    kv "port" (.number c.rpc.port),
    .redacted "user, password" (c.rpc.user.isSome || c.rpc.password.isSome),
    .redacted "auth" (!c.rpc.auth.isEmpty),
    kvOpt "cookiefile" (c.rpc.cookiefile.map .text),
    kv "work_queue" (.number c.rpc.workQueue),
    kv "allowed_methods" (.list c.rpc.allowedMethods),
    kv "allow_duplicate_shielded_recipients" (.flag c.rpc.allowDuplicateShieldedRecipients)]

def keysItems : List Item :=
  [kvOpt "age_identity" (c.keys.ageIdentity.map .text),
    kv "auto_unlock" (.flag c.keys.autoUnlock),
    kv "allow_multiple_spending_wallets" (.flag c.keys.allowMultipleSpendingWallets),
    kv "bootstrap_from_keys" (.flag c.keys.bootstrapFromKeys)]

def syncItems : List Item :=
  [kv "interval_secs" (.number c.sync.intervalSecs),
    kv "rebroadcast_secs" (.number c.sync.rebroadcastSecs),
    kv "fetch_memos" (.flag c.sync.fetchMemos),
    kv "batch_size" (.number c.sync.batchSize),
    kv "writer_cache_mib" (.number c.sync.writerCacheMib),
    kv "enhance_concurrency" (.number c.sync.enhanceConcurrency)]

def spendItems : List Item :=
  [kv "trusted_confirmations" (.number c.spend.trustedConfirmations),
    kv "untrusted_confirmations" (.number c.spend.untrustedConfirmations),
    kv "trust_own_transactions" (.flag c.spend.trustOwnTransactions),
    kv "privacy_policy" (.str c.spend.privacy.show),
    kv "orchard_action_limit" (.number c.spend.orchardActionLimit),
    kv "max_tx_bytes" (.number c.spend.maxTxBytes),
    kv "cache_proving_key" (.flag c.spend.cacheProvingKey),
    kv "pipeline_proving" (.flag c.spend.pipelineProving),
    kv "target_note_count" (.number c.spend.targetNoteCount),
    kv "min_split_output_value" (.number c.spend.minSplitOutputValue),
    kv "shutdown_drain_secs" (.number c.spend.shutdownDrainSecs),
    kv "max_send_catchup_blocks" (.number c.spend.maxSendCatchupBlocks)]

/-- The pool settings, of which the list of pools has a key of its own in a wallet's table. -/
def poolsKeys (enabledKey : String) (pools : PoolsConfig) : List Item :=
  [kv enabledKey (.list pools.enabled.names),
    kv "default_receivers" (.list pools.defaultReceivers.names),
    kv "transparent" (.flag pools.transparentEnabled),
    kv "transparent_default" (.flag pools.transparentDefault),
    kv "transparent_gap_limit" (.number pools.transparentGapLimit),
    kv "transparent_initial_scan" (.number pools.transparentInitialScan),
    kv "transparent_allow_beyond_recovery_window"
      (.flag pools.transparentAllowBeyondRecoveryWindow),
    kv "transparent_gap_warn_threshold" (.number pools.transparentGapWarnThreshold)]

def healthItems : List Item :=
  [kv "enabled" (.flag c.health.enabled),
    kv "bind" (.chars (lib.displayIp c.health.bind)),
    kv "port" (.number c.health.port),
    kv "readiness" (.str c.health.readiness.asStr),
    kv "max_scan_lag" (.number c.health.maxScanLag)]

def fleetItems : List Item :=
  [kv "enabled" (.flag c.fleet.enabled),
    kv "manifest_dir" (.text c.fleet.manifestDir),
    kv "dir" (.text c.fleet.dir),
    kv "shard_size" (.number c.fleet.shardSize),
    kv "cohort_depth" (.number c.fleet.cohortDepth)]

def logItems : List Item :=
  [kv "level" (.chars c.log.level), kv "format" (.chars c.log.format)]

def walletItems (w : WalletEntry) : List Item :=
  let bo := w.backend
  [kv "dir" (.text w.dir),
    kvOpt "keys_file" (w.keysFile.map .text),
    .kv "server" (bo.server.map fun server =>
      ⟨.chars server, some (endpointNote lib (resolveForWallet c w))⟩),
    kvOpt "tls" (bo.tls.map fun tls => .str (tlsMode tls)),
    kvOpt "tls_roots" (bo.tlsRoots.map fun roots => .str roots.show),
    kvOpt "tls_insecure_skip_verify" (bo.tlsInsecureSkipVerify.map .flag),
    kvOpt "tls_ca_file" (bo.tlsCaFile.map .text),
    kvOpt "tls_pinned_sha256" (bo.tlsPins.map fun pins => .list (pins.map (·.display))),
    kvOpt "assume_transparent_in_compact_blocks" (bo.assumeTransparentInCompactBlocks.map .flag)] ++
    poolsKeys "pools" w.pools

def walletTable (name : List Char) : List Char := "wallets.".toList ++ name

def fixedTables : List (List Char × List Item) :=
  [("backend".toList, backendItems lib c), ("zebra".toList, zebraItems c),
    ("rpc".toList, rpcItems lib c), ("keys".toList, keysItems c), ("sync".toList, syncItems c),
    ("spend".toList, spendItems c), ("pools".toList, poolsKeys "enabled" c.pools),
    ("health".toList, healthItems lib c), ("fleet".toList, fleetItems c),
    ("log".toList, logItems c)]

def walletTables : List (List Char × List Item) :=
  c.wallets.map fun x => (walletTable x.1, walletItems lib c x.2)

def tables : List (List Char × List Item) := fixedTables lib c ++ walletTables lib c

end Sections

/-! ## The text -/

def headerLines : List Line :=
  [.comment (" The EFFECTIVE zecd configuration: the config file, CLI flags and environment " ++
      "resolved").toList,
    .comment (" together, with every unset key filled in by this build's default. Diff two zecd " ++
      "versions'").toList,
    .comment " output to see which defaults moved.".toList,
    .comment [],
    .comment (" Secrets (the RPC password, rpcauth hashes, [zebra] credentials) are shown as " ++
      "commented-out").toList,
    .comment (" key names, never values - so this is an inspection view, not a drop-in config " ++
      "file.").toList]

def Item.lines (lib : Libraries) : Item → List Line
  | .kv key (some shown) => [.assign key.toList (shown.printed lib)]
  | .kv _ none => []
  | .redacted keys true => [.comment (' ' :: keys.toList ++ " = <redacted>".toList)]
  | .redacted _ false => []

def tableLines (lib : Libraries) (name : List Char) (items : List Item) : List Line :=
  .blank :: .header name :: items.flatMap (Item.lines lib)

def renderLines (lib : Libraries) (c : AppConfig) : List Line :=
  headerLines ++ .blank :: (topLevelItems c).flatMap (Item.lines lib) ++
    (tables lib c).flatMap fun x => tableLines lib x.1 x.2

def render (lib : Libraries) (c : AppConfig) : List Char := document (renderLines lib c)

end Zecd.Config
