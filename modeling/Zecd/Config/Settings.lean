import Mathlib
import Zecd.Upstream.Socks

/-! # The effective configuration

What the configuration file, the command line and the defaults resolve to. Text is a list of
characters; a path may also hold bytes that are no text.
-/

namespace Zecd.Config

/-! ## Paths and addresses -/

inductive PathUnit where
  | char (c : Char)
  /-- One ill-formed sequence of bytes. -/
  | raw (bytes : List UInt8)
  deriving DecidableEq, Repr

abbrev Path := List PathUnit

namespace Path

def ofText (s : List Char) : Path := s.map .char

/-- `Path::display`: each sequence that is no text is shown as one replacement character. -/
def display (p : Path) : List Char := p.map fun u => match u with
  | .char c => c
  | .raw _ => Char.ofNat 0xFFFD

@[simp] theorem display_ofText (s : List Char) : display (ofText s) = s := by
  rw [display, ofText, List.map_map]
  exact List.map_id s

end Path

inductive IpAddr where
  | v4 (a b c d : Fin 256)
  | v6 (segments : Fin 8 → Fin 65536)
  deriving DecidableEq

/-- The texts the libraries write: TOML strings and arrays, and addresses. -/
structure Libraries where
  /-- `toml::Value::String` displayed. -/
  strVal : List Char → List Char
  /-- `toml::Value::Array` of strings displayed. -/
  listVal : List (List Char) → List Char
  displayIp : IpAddr → List Char
  parseIp : List Char → Option IpAddr

/-! ## Sections -/

/-- The network; the activation heights of a regtest chain are the build's. -/
inductive ZNetwork where
  | main
  | test
  | regtest
  deriving DecidableEq, Repr

def ZNetwork.name : ZNetwork → String
  | .main => "main"
  | .test => "test"
  | .regtest => "regtest"

inductive TlsRoots where
  | native
  | webpki
  deriving DecidableEq, Repr

@[ext]
structure CertFingerprint where
  bytes : List UInt8
  length_eq : bytes.length = 32

instance : DecidableEq CertFingerprint := fun f g =>
  decidable_of_iff (f.bytes = g.bytes) CertFingerprint.ext_iff.symm

structure BackendConfig where
  server : List Char
  connectTimeoutSecs : ℕ
  reconnectBaseSecs : ℕ
  reconnectMaxSecs : ℕ
  rfc1918IsLocal : Bool
  allowRemoteCleartext : Bool
  tls : Option Bool
  tlsRoots : TlsRoots
  tlsInsecureSkipVerify : Bool
  tlsCaPem : Option (List UInt8)
  tlsCaFile : Option Path
  tlsPins : List CertFingerprint
  assumeTransparentInCompactBlocks : Bool
  proxy : Option Upstream.SocksProxy
  deriving DecidableEq

structure WalletBackendOverride where
  server : Option (List Char)
  tls : Option (Option Bool)
  tlsRoots : Option TlsRoots
  tlsInsecureSkipVerify : Option Bool
  tlsCaPem : Option (List UInt8)
  tlsCaFile : Option Path
  tlsPins : Option (List CertFingerprint)
  assumeTransparentInCompactBlocks : Option Bool
  deriving DecidableEq

/-- The wallet's overrides over the global settings, field by field. -/
def WalletBackendOverride.effective (o : WalletBackendOverride) (g : BackendConfig) :
    BackendConfig :=
  { g with
    server := o.server.getD g.server
    tls := o.tls.getD g.tls
    tlsRoots := o.tlsRoots.getD g.tlsRoots
    tlsInsecureSkipVerify := o.tlsInsecureSkipVerify.getD g.tlsInsecureSkipVerify
    tlsCaPem := o.tlsCaPem.or g.tlsCaPem
    tlsCaFile := o.tlsCaFile.or g.tlsCaFile
    tlsPins := o.tlsPins.getD g.tlsPins
    assumeTransparentInCompactBlocks :=
      o.assumeTransparentInCompactBlocks.getD g.assumeTransparentInCompactBlocks }

structure ZebraConfig where
  rpcUser : Option (List Char)
  rpcPassword : Option (List Char)
  rpcCookie : Option Path
  deriving DecidableEq

structure RpcConfig where
  bind : IpAddr
  port : ℕ
  user : Option (List Char)
  password : Option (List Char)
  auth : List (List Char)
  cookiefile : Option Path
  workQueue : ℕ
  allowedMethods : List (List Char)
  allowDuplicateShieldedRecipients : Bool
  deriving DecidableEq

structure KeysConfig where
  ageIdentity : Option Path
  autoUnlock : Bool
  bootstrapFromKeys : Bool
  allowMultipleSpendingWallets : Bool
  deriving DecidableEq

structure SyncConfig where
  intervalSecs : ℕ
  rebroadcastSecs : ℕ
  fetchMemos : Bool
  batchSize : ℕ
  writerCacheMib : ℕ
  enhanceConcurrency : ℕ
  deriving DecidableEq

inductive SendPrivacy where
  | fullPrivacy
  | allowRevealedAmounts
  | allowRevealedRecipients
  | allowRevealedSenders
  | allowFullyTransparent
  deriving DecidableEq, Repr

structure SpendConfig where
  trustedConfirmations : ℕ
  untrustedConfirmations : ℕ
  trustOwnTransactions : Bool
  privacy : SendPrivacy
  orchardActionLimit : ℕ
  maxTxBytes : ℕ
  cacheProvingKey : Bool
  pipelineProving : Bool
  targetNoteCount : ℕ
  minSplitOutputValue : ℕ
  shutdownDrainSecs : ℕ
  maxSendCatchupBlocks : ℕ
  deriving DecidableEq

/-- A shielded receiver; the order is the canonical one. -/
inductive Receiver where
  | sapling
  | orchard
  deriving DecidableEq, Repr

/-- A non-empty set of shielded receivers, in canonical order. -/
structure ReceiverSet where
  pools : List Receiver
  ordered : pools ∈ [[.sapling], [.orchard], [.sapling, .orchard]]
  deriving DecidableEq

/-- The settings a wallet entry and the global defaults share. -/
structure PoolsConfig where
  enabled : ReceiverSet
  defaultReceivers : ReceiverSet
  transparentEnabled : Bool
  transparentDefault : Bool
  transparentGapLimit : ℕ
  transparentInitialScan : ℕ
  transparentAllowBeyondRecoveryWindow : Bool
  transparentGapWarnThreshold : ℕ
  deriving DecidableEq

inductive ReadinessMode where
  | synced
  | scanned
  | connected
  deriving DecidableEq, Repr

structure HealthConfig where
  enabled : Bool
  bind : IpAddr
  port : ℕ
  readiness : ReadinessMode
  maxScanLag : ℕ
  deriving DecidableEq

structure FleetConfig where
  enabled : Bool
  manifestDir : Path
  dir : Path
  shardSize : ℕ
  cohortDepth : ℕ
  deriving DecidableEq

structure LogConfig where
  level : List Char
  format : List Char
  deriving DecidableEq

structure WalletEntry where
  dir : Path
  keysFile : Option Path
  chain : ZNetwork
  backend : WalletBackendOverride
  pools : PoolsConfig
  deriving DecidableEq

/-- The configuration; the wallets are sorted by their names. -/
structure AppConfig where
  network : ZNetwork
  datadir : Path
  defaultWallet : List Char
  wallets : List (List Char × WalletEntry)
  wallets_sorted : (wallets.map Prod.fst).Pairwise (· < ·)
  backend : BackendConfig
  zebra : ZebraConfig
  rpc : RpcConfig
  keys : KeysConfig
  sync : SyncConfig
  spend : SpendConfig
  pools : PoolsConfig
  health : HealthConfig
  log : LogConfig
  fleet : FleetConfig
  deriving DecidableEq

theorem AppConfig.wallets_nodup (c : AppConfig) : (c.wallets.map Prod.fst).Nodup :=
  c.wallets_sorted.imp ne_of_lt

end Zecd.Config
