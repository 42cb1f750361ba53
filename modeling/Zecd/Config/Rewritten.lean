import Zecd.Config.Reading
import Zecd.Config.File

/-! # A configuration as a file

The document that a rendering stands for gives every key the value in effect. Read as a file, it
has each of these values, and no secret.
-/

namespace Zecd.Config

/-! ## The document -/

/-- The keys of a table with their values; a path is there as it is displayed. -/
def entries (items : List Item) : Table :=
  (shownItems items).map fun x => (x.1, x.2.value.displayed)

/-- The keys and values of a rendering, without the comments. -/
def documentOf (lib : Libraries) (c : AppConfig) : Document where
  top := entries (topLevelItems c)
  tables := (fixedTables lib c).map (fun x => ([x.1], entries x.2)) ++
    c.wallets.map fun x => (["wallets".toList, x.1], entries (walletItems lib c x.2))

/-- What is written for a key of a table. -/
def lookup : List Item → String → Option Shown
  | [], _ => none
  | .kv k shown :: items, key => if k = key then shown else lookup items key
  | .redacted _ _ :: items, key => lookup items key

section Lookup

variable {items : List Item}

theorem get_entries (h : (items.filterMap Item.key).Nodup) (key : String) :
    KeyDiff.get (entries items) key.toList =
      (lookup items key).map fun s => s.value.displayed := by
  induction items with
  | nil => rfl
  | cons item items ih =>
    rcases item with ⟨k, shown⟩ | ⟨keys, set⟩
    · obtain ⟨hk, hrest⟩ := List.nodup_cons.mp (show (k.toList :: _).Nodup from h)
      rw [lookup]
      split
      · next heq =>
        subst heq
        cases shown with
        | none =>
          apply KeyDiff.get_eq_none_iff.mpr
          rw [entries, List.map_map]
          exact fun hmem => hk ((shownItems_sublist items).subset hmem)
        | some s => simp [entries, shownItems, KeyDiff.get]
      · next hne =>
        have hne' : k.toList ≠ key.toList := fun heq => hne (String.ext heq)
        rw [← ih hrest]
        cases shown with
        | none => rfl
        | some s => simp [entries, shownItems, KeyDiff.get, hne']
    · exact ih h

end Lookup

section Fields

variable {items : List Item} {key : String} {α β : Type} {read : Value → Option β}

theorem field_entries (h : WellKeyed items) (key : String) (read : Value → Option α) :
    field (entries items) key read =
      readOpt read ((lookup items key).map fun s => s.value.displayed) := by
  rw [field, get_entries h.nodup]

theorem field_kv {s : Shown} {b : β} (h : WellKeyed items) (hv : lookup items key = some s)
    (hread : read s.value.displayed = some b) :
    field (entries items) key read = some (some b) := by
  rw [field_entries h, hv, Option.map_some, readOpt, hread]
  rfl

theorem field_opt {f : α → Shown} {g : α → β} {o : Option α} (h : WellKeyed items)
    (hv : lookup items key = o.map f) (hread : ∀ a, read (f a).value.displayed = some (g a)) :
    field (entries items) key read = some (o.map g) := by
  rw [field_entries h, hv]
  cases o with
  | none => rfl
  | some a =>
    rw [Option.map_some, Option.map_some, readOpt, hread]
    rfl

theorem field_kvOpt {f : α → Value} {g : α → β} {o : Option α} (h : WellKeyed items)
    (hv : lookup items key = (o.map f).map (⟨·, none⟩))
    (hread : ∀ a, read (f a).displayed = some (g a)) :
    field (entries items) key read = some (o.map g) :=
  field_opt h (hv.trans (Option.map_map _ _ _)) hread

theorem field_absent (h : WellKeyed items) (hv : lookup items key = none) :
    field (entries items) key read = some none := by
  rw [field_entries h, hv]
  rfl

theorem readText_text (p : Path) : readText (Value.text p).displayed = some p.display :=
  congrArg some (Path.display_ofText p.display)

theorem readText_chars (s : List Char) : readText (Value.chars s).displayed = some s :=
  (readText_text (Path.ofText s)).trans (congrArg some (Path.display_ofText s))

theorem readText_str (s : String) : readText (Value.str s).displayed = some s.toList :=
  readText_chars s.toList

theorem readFlag_flag (b : Bool) : readFlag (Value.flag b).displayed = some b := rfl

theorem readList_list (l : List (List Char)) : readList (Value.list l).displayed = some l := rfl

theorem readNumber_number {bound n : ℕ} [NeZero bound] (h : n < bound) :
    readNumber bound (Value.number n).displayed = some (Fin.ofNat bound n) := by
  rw [Value.displayed, readNumber, dif_pos h]
  exact congrArg some (Fin.ext (Nat.mod_eq_of_lt h).symm)

theorem denyUnknown_entries {keys : List String} {own : List String}
    (h : items.filterMap Item.key = own.map String.toList) (hsub : own ⊆ keys) :
    denyUnknown (entries items) keys = some () := by
  rw [denyUnknown, if_pos]
  intro x hx
  obtain ⟨y, hy, rfl⟩ := List.mem_map.mp hx
  have hmem := (shownItems_sublist items).subset (List.mem_map_of_mem hy)
  rw [h] at hmem
  exact List.map_subset _ hsub hmem

end Fields

/-! ## Tables -/

section Tables

variable {lib : Libraries} {c : AppConfig} {items : List Item} {t : List Char} {i : ℕ}

theorem wellKeyed_of_fixed (h : (fixedTables lib c)[i]? = some (t, items)) : WellKeyed items :=
  fixedTables_wellKeyed (List.mem_of_getElem? h)

theorem denyUnknown_of_fixed {keys : List String} (h : (fixedTables lib c)[i]? = some (t, items))
    (hsub : (fixedKeys[i]?.elim [] Prod.snd) ⊆ keys) :
    denyUnknown (entries items) keys = some () := by
  have hget := congrArg (fun l => l[i]?) (fixedTables_keys lib c)
  simp only [List.getElem?_map, h, Option.map_some] at hget
  obtain ⟨x, hx, heq⟩ := Option.map_eq_some_iff.mp hget.symm
  rw [hx] at hsub
  exact denyUnknown_entries (Prod.ext_iff.mp heq).2.symm hsub

end Tables

/-! ## Numbers -/

/-- Each number is one that its key can hold. -/
structure PoolsConfig.InRange (p : PoolsConfig) : Prop where
  transparentGapLimit : p.transparentGapLimit < 2 ^ 32
  transparentInitialScan : p.transparentInitialScan < 2 ^ 32
  transparentGapWarnThreshold : p.transparentGapWarnThreshold < 2 ^ 32

structure BackendConfig.InRange (b : BackendConfig) : Prop where
  connectTimeoutSecs : b.connectTimeoutSecs < 2 ^ 63
  reconnectBaseSecs : b.reconnectBaseSecs < 2 ^ 63
  reconnectMaxSecs : b.reconnectMaxSecs < 2 ^ 63

structure RpcConfig.InRange (r : RpcConfig) : Prop where
  port : r.port < 2 ^ 16
  workQueue : r.workQueue < 2 ^ 63

structure SyncConfig.InRange (s : SyncConfig) : Prop where
  intervalSecs : s.intervalSecs < 2 ^ 63
  rebroadcastSecs : s.rebroadcastSecs < 2 ^ 63
  batchSize : s.batchSize < 2 ^ 32
  writerCacheMib : s.writerCacheMib < 2 ^ 32
  enhanceConcurrency : s.enhanceConcurrency < 2 ^ 63

structure SpendConfig.InRange (s : SpendConfig) : Prop where
  trustedConfirmations : s.trustedConfirmations < 2 ^ 32
  untrustedConfirmations : s.untrustedConfirmations < 2 ^ 32
  orchardActionLimit : s.orchardActionLimit < 2 ^ 63
  maxTxBytes : s.maxTxBytes < 2 ^ 63
  targetNoteCount : s.targetNoteCount < 2 ^ 63
  minSplitOutputValue : s.minSplitOutputValue < 2 ^ 63
  shutdownDrainSecs : s.shutdownDrainSecs < 2 ^ 63
  maxSendCatchupBlocks : s.maxSendCatchupBlocks < 2 ^ 32

structure HealthConfig.InRange (h : HealthConfig) : Prop where
  port : h.port < 2 ^ 16
  maxScanLag : h.maxScanLag < 2 ^ 32

structure FleetConfig.InRange (f : FleetConfig) : Prop where
  shardSize : f.shardSize < 2 ^ 63
  cohortDepth : f.cohortDepth < 2 ^ 32

structure AppConfig.InRange (c : AppConfig) : Prop where
  backend : c.backend.InRange
  rpc : c.rpc.InRange
  sync : c.sync.InRange
  spend : c.spend.InRange
  pools : c.pools.InRange
  health : c.health.InRange
  fleet : c.fleet.InRange
  wallets : ∀ x ∈ c.wallets, x.2.pools.InRange

/-! ## The file -/

def backendFileOf (b : BackendConfig) : BackendFile where
  server := some b.server
  connectTimeoutSecs := some (Fin.ofNat _ b.connectTimeoutSecs)
  reconnectBaseSecs := some (Fin.ofNat _ b.reconnectBaseSecs)
  reconnectMaxSecs := some (Fin.ofNat _ b.reconnectMaxSecs)
  rfc1918IsLocal := some b.rfc1918IsLocal
  allowRemoteCleartext := some b.allowRemoteCleartext
  tls := some (tlsMode b.tls).toList
  tlsRoots := some b.tlsRoots.show.toList
  tlsInsecureSkipVerify := some b.tlsInsecureSkipVerify
  tlsCaFile := b.tlsCaFile.map Path.display
  tlsPinnedSha256 := if b.tlsPins = [] then none else some (b.tlsPins.map (·.display))
  assumeTransparentInCompactBlocks := some b.assumeTransparentInCompactBlocks
  proxy := b.proxy.map (·.display)

def rpcFileOf (lib : Libraries) (r : RpcConfig) : RpcFile where
  bind := some (lib.displayIp r.bind)
  port := some (Fin.ofNat _ r.port)
  cookiefile := r.cookiefile.map Path.display
  workQueue := some (Fin.ofNat _ r.workQueue)
  allowedMethods := some r.allowedMethods
  allowDuplicateShieldedRecipients := some r.allowDuplicateShieldedRecipients

def keysFileOf (k : KeysConfig) : KeysFile where
  ageIdentity := k.ageIdentity.map Path.display
  autoUnlock := some k.autoUnlock
  bootstrapFromKeys := some k.bootstrapFromKeys
  allowMultipleSpendingWallets := some k.allowMultipleSpendingWallets

def syncFileOf (s : SyncConfig) : SyncFile where
  intervalSecs := some (Fin.ofNat _ s.intervalSecs)
  rebroadcastSecs := some (Fin.ofNat _ s.rebroadcastSecs)
  fetchMemos := some s.fetchMemos
  batchSize := some (Fin.ofNat _ s.batchSize)
  writerCacheMib := some (Fin.ofNat _ s.writerCacheMib)
  enhanceConcurrency := some (Fin.ofNat _ s.enhanceConcurrency)

def spendFileOf (s : SpendConfig) : SpendFile where
  trustedConfirmations := some (Fin.ofNat _ s.trustedConfirmations)
  untrustedConfirmations := some (Fin.ofNat _ s.untrustedConfirmations)
  trustOwnTransactions := some s.trustOwnTransactions
  privacyPolicy := some s.privacy.show.toList
  orchardActionLimit := some (Fin.ofNat _ s.orchardActionLimit)
  maxTxBytes := some (Fin.ofNat _ s.maxTxBytes)
  cacheProvingKey := some s.cacheProvingKey
  pipelineProving := some s.pipelineProving
  targetNoteCount := some (Fin.ofNat _ s.targetNoteCount)
  minSplitOutputValue := some (Fin.ofNat _ s.minSplitOutputValue)
  shutdownDrainSecs := some (Fin.ofNat _ s.shutdownDrainSecs)
  maxSendCatchupBlocks := some (Fin.ofNat _ s.maxSendCatchupBlocks)

def poolsFileOf (p : PoolsConfig) : PoolsFile where
  enabled := some p.enabled.names
  defaultReceivers := some p.defaultReceivers.names
  transparent := some p.transparentEnabled
  transparentDefault := some p.transparentDefault
  transparentGapLimit := some (Fin.ofNat _ p.transparentGapLimit)
  transparentInitialScan := some (Fin.ofNat _ p.transparentInitialScan)
  transparentAllowBeyondRecoveryWindow := some p.transparentAllowBeyondRecoveryWindow
  transparentGapWarnThreshold := some (Fin.ofNat _ p.transparentGapWarnThreshold)

def healthFileOf (lib : Libraries) (h : HealthConfig) : HealthFile where
  enabled := some h.enabled
  bind := some (lib.displayIp h.bind)
  port := some (Fin.ofNat _ h.port)
  readiness := some h.readiness.asStr.toList
  maxScanLag := some (Fin.ofNat _ h.maxScanLag)

def fleetFileOf (f : FleetConfig) : FleetFile where
  enabled := some f.enabled
  manifestDir := some (Path.display f.manifestDir)
  dir := some (Path.display f.dir)
  shardSize := some (Fin.ofNat _ f.shardSize)
  cohortDepth := some (Fin.ofNat _ f.cohortDepth)

def walletFileOf (w : WalletEntry) : WalletFile where
  dir := some (Path.display w.dir)
  keysFile := w.keysFile.map Path.display
  server := w.backend.server
  tls := w.backend.tls.map fun tls => (tlsMode tls).toList
  tlsRoots := w.backend.tlsRoots.map fun roots => roots.show.toList
  tlsInsecureSkipVerify := w.backend.tlsInsecureSkipVerify
  tlsCaFile := w.backend.tlsCaFile.map Path.display
  tlsPinnedSha256 := w.backend.tlsPins.map fun pins => pins.map (·.display)
  assumeTransparentInCompactBlocks := w.backend.assumeTransparentInCompactBlocks
  pools := poolsFileOf w.pools

def fileOf (lib : Libraries) (c : AppConfig) : ConfigFile where
  network := some c.network.name.toList
  datadir := some (Path.display c.datadir)
  defaultWallet := some c.defaultWallet
  wallets := c.wallets.map fun x => (x.1, walletFileOf x.2)
  wallets_sorted := by simpa [List.map_map, Function.comp_def] using c.wallets_sorted
  backend := some (backendFileOf c.backend)
  zebra := some { rpcCookie := c.zebra.rpcCookie.map Path.display }
  rpc := some (rpcFileOf lib c.rpc)
  keys := some (keysFileOf c.keys)
  sync := some (syncFileOf c.sync)
  spend := some (spendFileOf c.spend)
  pools := some (poolsFileOf c.pools)
  health := some (healthFileOf lib c.health)
  log := some ⟨some c.log.level, some c.log.format⟩
  fleet := some (fleetFileOf c.fleet)

/-! ## Each section is read -/

section Sections

variable {lib : Libraries} {c : AppConfig}

theorem backend_ofTable (h : c.backend.InRange) :
    BackendFile.ofTable (entries (backendItems lib c)) = some (backendFileOf c.backend) := by
  have hget : (fixedTables lib c)[0]? = some ("backend".toList, backendItems lib c) := rfl
  have hkeys := wellKeyed_of_fixed hget
  -- A list of pins that is empty is not written.
  have hpins : field (entries (backendItems lib c)) "tls_pinned_sha256" readList =
      some (backendFileOf c.backend).tlsPinnedSha256 := by
    rw [field_entries hkeys]
    change readOpt readList (Option.map _ (Option.map _ (if _ then _ else _))) =
      some (if _ then _ else _)
    split <;> rfl
  rw [BackendFile.ofTable, denyUnknown_of_fixed hget (by decide),
    field_kv hkeys rfl (readText_chars c.backend.server),
    field_kv hkeys rfl (readNumber_number h.connectTimeoutSecs),
    field_kv hkeys rfl (readNumber_number h.reconnectBaseSecs),
    field_kv hkeys rfl (readNumber_number h.reconnectMaxSecs),
    field_kv hkeys rfl (readFlag_flag c.backend.rfc1918IsLocal),
    field_kv hkeys rfl (readFlag_flag c.backend.allowRemoteCleartext),
    field_kv hkeys rfl (readText_str (tlsMode c.backend.tls)),
    field_kv hkeys rfl (readText_str c.backend.tlsRoots.show),
    field_kv hkeys rfl (readFlag_flag c.backend.tlsInsecureSkipVerify),
    field_kvOpt (o := c.backend.tlsCaFile) hkeys rfl readText_text, hpins,
    field_kv hkeys rfl (readFlag_flag c.backend.assumeTransparentInCompactBlocks),
    field_kvOpt (o := c.backend.proxy) hkeys rfl fun p => readText_chars p.display]
  rfl

theorem zebra_ofTable (lib : Libraries) (c : AppConfig) :
    ZebraFile.ofTable (entries (zebraItems c)) =
      some { rpcCookie := c.zebra.rpcCookie.map Path.display } := by
  have hget : (fixedTables lib c)[1]? = some ("zebra".toList, zebraItems c) := rfl
  have hkeys := wellKeyed_of_fixed hget
  rw [ZebraFile.ofTable, denyUnknown_of_fixed hget (by decide), field_absent hkeys rfl,
    field_absent hkeys rfl, field_kvOpt (o := c.zebra.rpcCookie) hkeys rfl readText_text]
  rfl

theorem rpc_ofTable (h : c.rpc.InRange) :
    RpcFile.ofTable (entries (rpcItems lib c)) = some (rpcFileOf lib c.rpc) := by
  have hget : (fixedTables lib c)[2]? = some ("rpc".toList, rpcItems lib c) := rfl
  have hkeys := wellKeyed_of_fixed hget
  rw [RpcFile.ofTable, denyUnknown_of_fixed hget (by decide),
    field_kv hkeys rfl (readText_chars (lib.displayIp c.rpc.bind)),
    field_kv hkeys rfl (readNumber_number h.port), field_absent hkeys rfl,
    field_absent hkeys rfl, field_absent hkeys rfl, field_absent hkeys rfl,
    field_kvOpt (o := c.rpc.cookiefile) hkeys rfl readText_text,
    field_kv hkeys rfl (readNumber_number h.workQueue),
    field_kv hkeys rfl (readList_list c.rpc.allowedMethods),
    field_kv hkeys rfl (readFlag_flag c.rpc.allowDuplicateShieldedRecipients)]
  rfl

theorem keys_ofTable (lib : Libraries) (c : AppConfig) :
    KeysFile.ofTable (entries (keysItems c)) = some (keysFileOf c.keys) := by
  have hget : (fixedTables lib c)[3]? = some ("keys".toList, keysItems c) := rfl
  have hkeys := wellKeyed_of_fixed hget
  rw [KeysFile.ofTable, denyUnknown_of_fixed hget (by decide),
    field_kvOpt (o := c.keys.ageIdentity) hkeys rfl readText_text,
    field_kv hkeys rfl (readFlag_flag c.keys.autoUnlock), field_absent hkeys rfl,
    field_kv hkeys rfl (readFlag_flag c.keys.bootstrapFromKeys),
    field_kv hkeys rfl (readFlag_flag c.keys.allowMultipleSpendingWallets)]
  rfl

theorem sync_ofTable (lib : Libraries) (h : c.sync.InRange) :
    SyncFile.ofTable (entries (syncItems c)) = some (syncFileOf c.sync) := by
  have hget : (fixedTables lib c)[4]? = some ("sync".toList, syncItems c) := rfl
  have hkeys := wellKeyed_of_fixed hget
  rw [SyncFile.ofTable, denyUnknown_of_fixed hget (by decide),
    field_kv hkeys rfl (readNumber_number h.intervalSecs),
    field_kv hkeys rfl (readNumber_number h.rebroadcastSecs),
    field_kv hkeys rfl (readFlag_flag c.sync.fetchMemos),
    field_kv hkeys rfl (readNumber_number h.batchSize),
    field_kv hkeys rfl (readNumber_number h.writerCacheMib),
    field_kv hkeys rfl (readNumber_number h.enhanceConcurrency)]
  rfl

theorem spend_ofTable (lib : Libraries) (h : c.spend.InRange) :
    SpendFile.ofTable (entries (spendItems c)) = some (spendFileOf c.spend) := by
  have hget : (fixedTables lib c)[5]? = some ("spend".toList, spendItems c) := rfl
  have hkeys := wellKeyed_of_fixed hget
  rw [SpendFile.ofTable, denyUnknown_of_fixed hget (by decide),
    field_kv hkeys rfl (readNumber_number h.trustedConfirmations),
    field_kv hkeys rfl (readNumber_number h.untrustedConfirmations),
    field_kv hkeys rfl (readFlag_flag c.spend.trustOwnTransactions),
    field_kv hkeys rfl (readText_str c.spend.privacy.show),
    field_kv hkeys rfl (readNumber_number h.orchardActionLimit),
    field_kv hkeys rfl (readNumber_number h.maxTxBytes),
    field_kv hkeys rfl (readFlag_flag c.spend.cacheProvingKey),
    field_kv hkeys rfl (readFlag_flag c.spend.pipelineProving),
    field_kv hkeys rfl (readNumber_number h.targetNoteCount),
    field_kv hkeys rfl (readNumber_number h.minSplitOutputValue),
    field_kv hkeys rfl (readNumber_number h.shutdownDrainSecs),
    field_kv hkeys rfl (readNumber_number h.maxSendCatchupBlocks)]
  rfl

def poolsShown (p : PoolsConfig) : List (Option Shown) :=
  (poolsKeys "enabled" p).map fun item => match item with
    | .kv _ shown => shown
    | .redacted _ _ => none

theorem pools_ofFields {items : List Item} {enabledKey : String} {p : PoolsConfig}
    (hkeys : WellKeyed items)
    (hitems : (poolsFileKeys enabledKey).map (lookup items) = poolsShown p)
    (h : p.InRange) : PoolsFile.ofFields enabledKey (entries items) = some (poolsFileOf p) := by
  simp only [poolsFileKeys, poolsShown, poolsKeys, kv, List.map_cons, List.map_nil,
    List.cons.injEq, and_true] at hitems
  obtain ⟨henabled, hreceivers, htransparent, hdefault, hgap, hinitial, hbeyond, hwarn⟩ := hitems
  rw [PoolsFile.ofFields, field_kv hkeys henabled (readList_list p.enabled.names),
    field_kv hkeys hreceivers (readList_list p.defaultReceivers.names),
    field_kv hkeys htransparent (readFlag_flag p.transparentEnabled),
    field_kv hkeys hdefault (readFlag_flag p.transparentDefault),
    field_kv hkeys hgap (readNumber_number h.transparentGapLimit),
    field_kv hkeys hinitial (readNumber_number h.transparentInitialScan),
    field_kv hkeys hbeyond (readFlag_flag p.transparentAllowBeyondRecoveryWindow),
    field_kv hkeys hwarn (readNumber_number h.transparentGapWarnThreshold)]
  rfl

theorem pools_ofTable (lib : Libraries) (h : c.pools.InRange) :
    PoolsFile.ofTable (entries (poolsKeys "enabled" c.pools)) = some (poolsFileOf c.pools) := by
  have hget : (fixedTables lib c)[6]? = some ("pools".toList, poolsKeys "enabled" c.pools) := rfl
  rw [PoolsFile.ofTable, denyUnknown_of_fixed hget (by decide),
    pools_ofFields (wellKeyed_of_fixed hget) rfl h]
  rfl

theorem health_ofTable (h : c.health.InRange) :
    HealthFile.ofTable (entries (healthItems lib c)) = some (healthFileOf lib c.health) := by
  have hget : (fixedTables lib c)[7]? = some ("health".toList, healthItems lib c) := rfl
  have hkeys := wellKeyed_of_fixed hget
  rw [HealthFile.ofTable, denyUnknown_of_fixed hget (by decide),
    field_kv hkeys rfl (readFlag_flag c.health.enabled),
    field_kv hkeys rfl (readText_chars (lib.displayIp c.health.bind)),
    field_kv hkeys rfl (readNumber_number h.port),
    field_kv hkeys rfl (readText_str c.health.readiness.asStr),
    field_kv hkeys rfl (readNumber_number h.maxScanLag)]
  rfl

theorem fleet_ofTable (lib : Libraries) (h : c.fleet.InRange) :
    FleetFile.ofTable (entries (fleetItems c)) = some (fleetFileOf c.fleet) := by
  have hget : (fixedTables lib c)[8]? = some ("fleet".toList, fleetItems c) := rfl
  have hkeys := wellKeyed_of_fixed hget
  rw [FleetFile.ofTable, denyUnknown_of_fixed hget (by decide),
    field_kv hkeys rfl (readFlag_flag c.fleet.enabled),
    field_kv hkeys rfl (readText_text c.fleet.manifestDir),
    field_kv hkeys rfl (readText_text c.fleet.dir),
    field_kv hkeys rfl (readNumber_number h.shardSize),
    field_kv hkeys rfl (readNumber_number h.cohortDepth)]
  rfl

theorem log_ofTable (lib : Libraries) (c : AppConfig) :
    LogFile.ofTable (entries (logItems c)) = some ⟨some c.log.level, some c.log.format⟩ := by
  have hget : (fixedTables lib c)[9]? = some ("log".toList, logItems c) := rfl
  have hkeys := wellKeyed_of_fixed hget
  rw [LogFile.ofTable, denyUnknown_of_fixed hget (by decide),
    field_kv hkeys rfl (readText_chars c.log.level),
    field_kv hkeys rfl (readText_chars c.log.format)]
  rfl

theorem wallet_ofTable {w : WalletEntry} (h : w.pools.InRange) :
    WalletFile.ofTable (entries (walletItems lib c w)) = some (walletFileOf w) := by
  have hkeys := walletItems_wellKeyed lib c w
  have hknown : denyUnknown (entries (walletItems lib c w)) (["dir", "keys_file", "server", "tls",
      "tls_roots", "tls_insecure_skip_verify", "tls_ca_file", "tls_pinned_sha256",
      "assume_transparent_in_compact_blocks"] ++ poolsFileKeys "pools") = some () :=
    denyUnknown_entries (show _ = walletKeys.map String.toList from rfl) (by decide)
  rw [WalletFile.ofTable, hknown, field_kv hkeys rfl (readText_text w.dir),
    field_kvOpt (o := w.keysFile) hkeys rfl readText_text,
    field_opt (o := w.backend.server) hkeys rfl readText_chars,
    field_kvOpt (o := w.backend.tls) hkeys rfl fun tls => readText_str (tlsMode tls),
    field_kvOpt (o := w.backend.tlsRoots) hkeys rfl fun roots => readText_str roots.show,
    field_kvOpt (o := w.backend.tlsInsecureSkipVerify) hkeys rfl readFlag_flag,
    field_kvOpt (o := w.backend.tlsCaFile) hkeys rfl readText_text,
    field_kvOpt (o := w.backend.tlsPins) hkeys rfl fun pins =>
      readList_list (pins.map (·.display)),
    field_kvOpt (o := w.backend.assumeTransparentInCompactBlocks) hkeys rfl readFlag_flag,
    pools_ofFields hkeys rfl h, Option.map_id', Option.map_id', Option.map_id']
  rfl

end Sections

/-! ## The document is read -/

section Document

variable {lib : Libraries} {c : AppConfig}

theorem top_known (c : AppConfig) : denyUnknown (entries (topLevelItems c))
    ["network", "datadir", "default_wallet"] = some () :=
  denyUnknown_entries (show _ = topLevelKeys.map String.toList from rfl) (by decide)

theorem documentOf_known (lib : Libraries) (c : AppConfig) :
    (documentOf lib c).tables.all knownTable = true := by
  rw [documentOf, List.all_append, Bool.and_eq_true]
  constructor
  · rfl
  · rw [List.all_map, List.all_eq_true]
    intro x _
    simp [knownTable, walletName]

theorem tableOf_documentOf {α : Type} {name : String} {items : List Item} {i : ℕ} {a : α}
    {read : Table → Option α} (hget : (fixedTables lib c)[i]? = some (name.toList, items))
    (hread : read (entries items) = some a) :
    tableOf (documentOf lib c) name read = some (some a) := by
  have hfixed : KeyDiff.get ((fixedTables lib c).map fun x => ([x.1], entries x.2)) [name.toList] =
      some (entries items) := by
    apply (KeyDiff.get_eq_some_iff _).mpr
    · exact List.mem_map.mpr ⟨_, List.mem_of_getElem? hget, rfl⟩
    · have hsingle := (fixedTables_nodup lib c).map fun _ _ (h : [_] = [_]) => (List.cons.inj h).1
      rw [List.map_map] at hsingle ⊢
      exact hsingle
  have hfound : KeyDiff.get (documentOf lib c).tables [name.toList] = some (entries items) := by
    rw [KeyDiff.get] at hfixed ⊢
    obtain ⟨x, hx, hentries⟩ := Option.map_eq_some_iff.mp hfixed
    rw [documentOf, List.find?_append, hx]
    exact congrArg some hentries
  rw [tableOf, hfound]
  exact congrArg (Option.map some) hread

theorem wallets_documentOf (lib : Libraries) (c : AppConfig) :
    ((documentOf lib c).tables.filterMap fun x => (walletName x.1).map (·, x.2)) =
      c.wallets.map fun x => (x.1, entries (walletItems lib c x.2)) := by
  have hfixed : (((fixedTables lib c).map fun x => ([x.1], entries x.2)).filterMap fun x =>
      (walletName x.1).map (·, x.2)) = [] := rfl
  rw [documentOf, List.filterMap_append, hfixed, List.nil_append, List.filterMap_map]
  exact congrFun List.filterMap_eq_map c.wallets

theorem readWallets_documentOf (lib : Libraries) (h : ∀ x ∈ c.wallets, x.2.pools.InRange) :
    readWallets (documentOf lib c) = some (c.wallets.map fun x => (x.1, walletFileOf x.2)) := by
  rw [readWallets, wallets_documentOf]
  generalize c.wallets = wallets at h
  induction wallets with
  | nil => rfl
  | cons x wallets ih =>
    obtain ⟨hx, hwallets⟩ := List.forall_mem_cons.mp h
    rw [List.map_cons, List.mapM_cons, wallet_ofTable hx, ih hwallets]
    rfl

/-- The document of a rendering is read as the file of its configuration. -/
theorem ofDocument_documentOf (h : c.InRange) :
    ConfigFile.ofDocument (documentOf lib c) = some (fileOf lib c) := by
  have htop := topLevelItems_wellKeyed c
  have hsorted : ((c.wallets.map fun x => (x.1, walletFileOf x.2)).mergeSort fun x y =>
      decide (x.1 ≤ y.1)) = c.wallets.map fun x => (x.1, walletFileOf x.2) := by
    apply List.mergeSort_of_pairwise
    have hnames := (fileOf lib c).wallets_sorted
    exact (List.pairwise_map.mp hnames).imp fun hlt => decide_eq_true hlt.le
  rw [ConfigFile.ofDocument]
  change (denyUnknown (entries (topLevelItems c)) _ >>= _) = _
  rw [top_known, Option.bind_eq_bind, Option.bind_some, if_pos (documentOf_known lib c)]
  change (field (entries (topLevelItems c)) _ _ >>= fun network =>
    field (entries (topLevelItems c)) _ _ >>= fun datadir =>
    field (entries (topLevelItems c)) _ _ >>= _) = _
  rw [field_kv htop rfl (readText_str c.network.name), field_kv htop rfl (readText_text c.datadir),
    field_kv htop rfl (readText_chars c.defaultWallet), readWallets_documentOf lib h.wallets,
    tableOf_documentOf (i := 0) rfl (backend_ofTable h.backend),
    tableOf_documentOf (i := 1) rfl (zebra_ofTable lib c),
    tableOf_documentOf (i := 2) rfl (rpc_ofTable h.rpc),
    tableOf_documentOf (i := 3) rfl (keys_ofTable lib c),
    tableOf_documentOf (i := 4) rfl (sync_ofTable lib h.sync),
    tableOf_documentOf (i := 5) rfl (spend_ofTable lib h.spend),
    tableOf_documentOf (i := 6) rfl (pools_ofTable lib h.pools),
    tableOf_documentOf (i := 7) rfl (health_ofTable h.health),
    tableOf_documentOf (i := 9) rfl (log_ofTable lib c),
    tableOf_documentOf (i := 8) rfl (fleet_ofTable lib h.fleet)]
  simp only [Option.bind_eq_bind, Option.bind_some, hsorted]
  exact dif_pos (fileOf lib c).wallets_sorted

end Document

end Zecd.Config
