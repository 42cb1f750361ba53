import Zecd.Config.Resolved

/-! # Resolving the file of a rendering

The file that a rendering is read as resolves without overrides. Each section is as it was,
except for the secrets, which are gone, and for the paths and the proxy, which were written as
text: a path as it is displayed, the directories of a fleet joined to the data directory once
more.
-/

namespace Zecd.Config

open Fallible

/-! ## What is written -/

def Path.written (p : Path) : Path := .ofText p.display

def Path.IsText (p : Path) : Prop := p.written = p

instance (p : Path) : Decidable p.IsText := inferInstanceAs (Decidable (_ = _))

def WalletEntry.written (w : WalletEntry) : WalletEntry :=
  { w with dir := w.dir.written, keysFile := w.keysFile.map Path.written }

/-- A fleet's directory that was written, and joined to the data directory. -/
def fleetPathAgain (datadir p : Path) : Path := Path.join datadir.written p.written

/-- The configuration that a rendering resolves to, under the proxy that is read. -/
def AppConfig.rewritten (c : AppConfig) (proxy : Option Upstream.SocksProxy) : AppConfig where
  network := c.network
  datadir := c.datadir.written
  defaultWallet := c.defaultWallet
  wallets := c.wallets.map fun x => (x.1, x.2.written)
  wallets_sorted := by simpa [List.map_map, Function.comp_def] using c.wallets_sorted
  backend := { c.backend with proxy }
  zebra := ⟨none, none, c.zebra.rpcCookie.map Path.written⟩
  rpc := { c.rpc with
    user := none
    password := none
    auth := []
    cookiefile := c.rpc.cookiefile.map Path.written }
  keys := { c.keys with ageIdentity := c.keys.ageIdentity.map Path.written }
  sync := c.sync
  spend := c.spend
  pools := c.pools
  health := c.health
  log := c.log
  fleet := { c.fleet with
    manifestDir := fleetPathAgain c.datadir c.fleet.manifestDir
    dir := fleetPathAgain c.datadir c.fleet.dir }

/-! ## Each section resolves -/

section Values

variable {n d k : ℕ}

theorem number_some (h : k < n) [NeZero n] : number (some (Fin.ofNat n k)) d = k :=
  Nat.mod_eq_of_lt h

theorem max_number_some {m : ℕ} (h : k < n) (hm : m ≤ k) [NeZero n] :
    max (number (some (Fin.ofNat n k)) d) m = k := by
  rw [number_some h, max_eq_left hm]

theorem parseOpt_map {α β : Type} {text : String} {parse : α → Except Fault β} {shown : β → α}
    (h : ∀ b, parse (shown b) = .ok b) (o : Option β) :
    parseOpt text parse (o.map shown) = .ok o := by
  cases o with
  | none => rfl
  | some b => rw [Option.map_some, parseOpt, h]; rfl

theorem parseOpt_some {α β : Type} {text : String} {parse : α → Except Fault β} {a : α} {b : β}
    (h : parse a = .ok b) : parseOpt text parse (some a) = .ok (some b) := by
  rw [parseOpt, h]
  rfl

theorem parsePins_display (pins : List CertFingerprint) :
    parsePins (pins.map (·.display)) = .ok pins := by
  induction pins with
  | nil => rfl
  | cons f pins ih => exact mapM_cons_ok.mpr ⟨f, pins, parse_fingerprint f, ih, rfl⟩

end Values

section Sections

variable {lib : Libraries} {host : Host} {defaults : BinaryDefaults} {p g : PoolsConfig}

theorem PoolsConfig.Valid.validateReceivers (h : p.Valid) (ctx : String) :
    validateReceivers ctx p.enabled p.defaultReceivers = .ok () :=
  ensure_eq_ok.mpr h.receivers

theorem PoolsConfig.Valid.validateTransparentFlags (h : p.Valid) (ctx : String) :
    validateTransparentFlags ctx p.transparentEnabled p.transparentDefault
      p.transparentGapLimit = .ok () :=
  bind_eq_ok.mpr ⟨(), ensure_eq_ok.mpr h.transparent, ensure_eq_ok.mpr h.gapLimit⟩

theorem globalPools_fileOf (h : p.Valid) : resolveGlobalPools host (poolsFileOf p) = .ok p := by
  simp only [resolveGlobalPools, poolsFileOf, parseOpt_some (parse_names host _), ok_bind,
    Option.getD_some, number_some h.inRange.transparentGapLimit,
    number_some h.inRange.transparentInitialScan,
    number_some h.inRange.transparentGapWarnThreshold, h.validateReceivers,
    h.validateTransparentFlags]

theorem walletPools_fileOf (h : p.Valid) (name : List Char) :
    resolveWalletPools host name (poolsFileOf p) g = .ok p := by
  simp only [resolveWalletPools, poolsFileOf, parseOpt_some (parse_names host _), ok_bind,
    Option.getD_some, number_some h.inRange.transparentGapLimit,
    number_some h.inRange.transparentInitialScan,
    number_some h.inRange.transparentGapWarnThreshold, h.validateReceivers,
    h.validateTransparentFlags]

theorem CaRead.again {file : Option Path} {pem : Option (List UInt8)} (h : CaRead host file pem)
    (ctx : String) :
    (file.map Path.display).map Path.ofText = file ∧
      readCa host ctx (file.map Path.display) = .ok pem := by
  obtain ⟨text, rfl, hread⟩ := h
  have htext : (text.map Path.ofText).map Path.display = text := by
    rw [Option.map_map]
    exact (congrFun (congrArg Option.map (funext Path.display_ofText)) text).trans Option.map_id'
  rw [htext]
  exact ⟨rfl, hread ctx⟩

theorem pins_fileOf (b : BackendConfig) :
    parsePins ((if b.tlsPins = [] then none else some (b.tlsPins.map (·.display))).getD []) =
      .ok b.tlsPins := by
  split
  · next hnil => rw [hnil]; rfl
  · exact parsePins_display b.tlsPins

theorem backend_fileOf {b : BackendConfig} (h : b.Valid host) :
    resolveBackendTable host {} (backendFileOf b) =
      parseOpt "[backend] proxy" parseProxy (b.proxy.map (·.display)) >>= fun proxy =>
        .ok { b with proxy } := by
  obtain ⟨hca, hread⟩ := h.ca.again "[backend]"
  have hbase := max_number_some (d := 1) h.inRange.reconnectBaseSecs h.reconnectBase
  simp only [resolveBackendTable, backendFileOf, selectServerToken, Option.none_or,
    parseOpt_some (parse_tlsMode b.tls), parseOpt_some (parse_tlsRoots b.tlsRoots), hread,
    pins_fileOf, context, ok_bind, Option.getD_some, hca, hbase,
    max_number_some h.inRange.connectTimeoutSecs h.connectTimeout,
    max_number_some h.inRange.reconnectMaxSecs h.reconnectMax]

theorem wallet_fileOf {ctx : WalletContext} {w : WalletEntry} (h : w.Valid host ctx.network)
    (hkeys : ctx.keysFileGlobal = none) (name : List Char) :
    resolveWallet host ctx name (walletFileOf w) = .ok w.written := by
  obtain ⟨hca, hread⟩ := h.ca.again (walletContext name)
  have hpins : parseOpt (walletContext name ++ " tls_pinned_sha256") parsePins
      (w.backend.tlsPins.map fun pins => pins.map (·.display)) = .ok w.backend.tlsPins :=
    parseOpt_map parsePins_display w.backend.tlsPins
  have hbackend : resolveWalletBackend host name (walletFileOf w) = .ok w.backend := by
    simp only [resolveWalletBackend, walletFileOf, parseOpt_map parse_tlsMode,
      parseOpt_map parse_tlsRoots, hread, hpins, ok_bind, hca]
  rw [resolveWallet, hbackend, ok_bind, walletFileOf, walletPools_fileOf h.pools, ok_bind, hkeys,
    ite_self, Option.or_none, Option.map_map, ← h.chain]
  rfl

theorem wallets_fileOf (lib : Libraries) (ctx : WalletContext) {c : AppConfig}
    (h : ∀ x ∈ c.wallets, x.2.Valid host ctx.network) (hkeys : ctx.keysFileGlobal = none)
    (hdefault : ctx.defaultWallet ∈ c.wallets.map Prod.fst) :
    ∃ ws, resolveWallets host ctx (fileOf lib c) = .ok ws ∧
      ws.1 = c.wallets.map fun x => (x.1, x.2.written) := by
  have hmap : ∀ l : List (List Char × WalletEntry), (∀ x ∈ l, x.2.Valid host ctx.network) →
      ∃ m, mapValues (resolveWallet host ctx) (l.map fun x => (x.1, walletFileOf x.2)) = .ok m ∧
        m.1 = l.map fun x => (x.1, x.2.written) := by
    intro l hl
    induction l with
    | nil => exact ⟨_, rfl, rfl⟩
    | cons x l ih =>
      obtain ⟨hx, hl⟩ := List.forall_mem_cons.mp hl
      obtain ⟨m, hm, heq⟩ := ih hl
      exact ⟨_, bind_eq_ok.mpr ⟨_, wallet_fileOf hx hkeys x.1, bind_eq_ok.mpr ⟨m, hm, rfl⟩⟩,
        congrArg ((x.1, x.2.written) :: ·) heq⟩
  obtain ⟨m, hm, heq⟩ := hmap c.wallets h
  refine ⟨_, bind_eq_ok.mpr ⟨m, hm, rfl⟩, ?_⟩
  rw [← heq]
  apply entryOrInsert_of_mem
  · rw [m.2, List.map_map]
    exact hdefault
  · rw [m.2]
    exact (fileOf lib c).wallets_sorted

theorem rpc_fileOf {r : RpcConfig} (h : r.Valid host)
    (hip : lib.parseIp (lib.displayIp r.bind) = some r.bind) (network : ZNetwork)
    (datadir : Path) :
    resolveRpc lib host defaults {} network datadir (rpcFileOf lib r) = .ok { r with
      user := none
      password := none
      auth := []
      cookiefile := r.cookiefile.map Path.written } := by
  obtain ⟨cookie, hcookie⟩ := Option.isSome_iff_exists.mp h.cookiefile
  have hbind : parseBind lib "parsing rpc bind address" (lib.displayIp r.bind) = .ok r.bind := by
    rw [parseBind, hip]
  simp only [resolveRpc, rpcFileOf, readPassword, ok_bind, Option.getD_some, Option.none_or,
    Option.or_none, h.methods, hbind, number_some h.inRange.port, Option.getD_none,
    max_number_some h.inRange.workQueue h.workQueue, hcookie, Option.map_some, List.append_nil]
  rfl

theorem sync_fileOf {s : SyncConfig} (h : s.Valid) : resolveSync (syncFileOf s) = s := by
  simp only [resolveSync, syncFileOf, Option.getD_some,
    max_number_some h.inRange.intervalSecs h.interval,
    max_number_some h.inRange.rebroadcastSecs h.rebroadcast,
    max_number_some h.inRange.batchSize h.batchSize,
    max_number_some h.inRange.writerCacheMib h.writerCache,
    max_number_some h.inRange.enhanceConcurrency h.concurrency]

theorem spend_fileOf {s : SpendConfig} (h : s.InRange) (hvalid : s.validate = .ok ()) :
    resolveSpend (spendFileOf s) = .ok s := by
  simp only [resolveSpend, spendFileOf, resolvePrivacy, parse_privacy, ok_bind, Option.getD_some,
    number_some h.trustedConfirmations, number_some h.untrustedConfirmations,
    number_some h.orchardActionLimit, number_some h.maxTxBytes, number_some h.targetNoteCount,
    number_some h.minSplitOutputValue, number_some h.shutdownDrainSecs,
    number_some h.maxSendCatchupBlocks, hvalid]

theorem health_fileOf {c : HealthConfig} (h : c.InRange)
    (hip : lib.parseIp (lib.displayIp c.bind) = some c.bind) :
    resolveHealth lib host defaults (healthFileOf lib c) = .ok c := by
  have hbind : parseBind lib "parsing health bind address" (lib.displayIp c.bind) =
      .ok c.bind := by
    rw [parseBind, hip]
  simp only [resolveHealth, healthFileOf, Option.getD_some, hbind, resolveReadiness,
    parse_readiness, ok_bind, number_some h.port, number_some h.maxScanLag]

theorem log_fileOf {l : LogConfig} (h : l.Valid) :
    resolveLog host ⟨some l.level, some l.format⟩ = .ok l :=
  bind_eq_ok.mpr ⟨(), ensure_eq_ok.mpr (decide_eq_true h), rfl⟩

theorem fleet_fileOf {f : FleetConfig} (h : f.InRange) (datadir : Path) :
    resolveFleet datadir.written (fleetFileOf f) = { f with
      manifestDir := fleetPathAgain datadir f.manifestDir
      dir := fleetPathAgain datadir f.dir } := by
  simp only [resolveFleet, fleetFileOf, fleetPath, Option.map_some, Option.getD_some,
    number_some h.shardSize, number_some h.cohortDepth]
  rfl

theorem walletTls_written {b : BackendConfig} {ws : List (List Char × WalletEntry)}
    (proxy : Option Upstream.SocksProxy) (h : ws.forM (validateWalletTls b) = .ok ()) :
    (ws.map fun x => (x.1, x.2.written)).forM (validateWalletTls { b with proxy }) = .ok () := by
  rw [forM_ok] at h ⊢
  exact List.forall_mem_map.mpr h

theorem resolve_fileOf {c : AppConfig} (h : c.Valid host)
    (hip : ∀ ip, lib.parseIp (lib.displayIp ip) = some ip) :
    resolve lib host defaults {} (fileOf lib c) =
      parseOpt "[backend] proxy" parseProxy (c.backend.proxy.map (·.display)) >>= fun proxy =>
        validateFleet (c.rewritten proxy).wallets (c.rewritten proxy).fleet >>= fun _ =>
          .ok (c.rewritten proxy) := by
  obtain ⟨⟨ws, hsorted⟩, hws, rfl⟩ := wallets_fileOf lib ⟨c.datadir.written, c.network,
    c.defaultWallet, none, c.pools⟩ h.wallets rfl h.defaultWallet
  have hnetwork : resolveNetwork {} (fileOf lib c) = .ok c.network := parse_name c.network
  have hpools : resolveGlobalPools host ((fileOf lib c).pools.getD {}) = .ok c.pools :=
    globalPools_fileOf h.pools
  have hbackend : resolveBackendTable host {} ((fileOf lib c).backend.getD {}) = _ :=
    backend_fileOf h.backend
  have hrpc : ∀ datadir, resolveRpc lib host defaults {} c.network datadir
      ((fileOf lib c).rpc.getD {}) = _ := fun datadir =>
    rpc_fileOf h.rpc (hip c.rpc.bind) c.network datadir
  have hspend : resolveSpend ((fileOf lib c).spend.getD {}) = .ok c.spend :=
    spend_fileOf h.spend.1 h.spend.2
  have hhealth : resolveHealth lib host defaults ((fileOf lib c).health.getD {}) = .ok c.health :=
    health_fileOf h.health (hip c.health.bind)
  have hlog : resolveLog host ((fileOf lib c).log.getD {}) = .ok c.log := log_fileOf h.log
  obtain ⟨identity, hidentity⟩ := Option.isSome_iff_exists.mp h.ageIdentity
  have hkeys : resolveKeys {} c.datadir.written ((fileOf lib c).keys.getD {}) =
      { c.keys with ageIdentity := c.keys.ageIdentity.map Path.written } := by
    change (⟨some (((c.keys.ageIdentity.map Path.display).map Path.ofText).getD _), _, _, _⟩ :
      KeysConfig) = _
    rw [hidentity]
    rfl
  have hsync : resolveSync ((fileOf lib c).sync.getD {}) = c.sync := sync_fileOf h.sync
  have hfleet : resolveFleet c.datadir.written ((fileOf lib c).fleet.getD {}) = _ :=
    fleet_fileOf h.fleet.1 c.datadir
  have hzebra : resolveZebra ((fileOf lib c).zebra.getD {}) =
      ⟨none, none, c.zebra.rpcCookie.map Path.written⟩ :=
    congrArg (ZebraConfig.mk none none) (Option.map_map _ _ _)
  have hdatadir : resolveDatadir defaults {} (fileOf lib c) = c.datadir.written := rfl
  have hname : (fileOf lib c).defaultWallet.getD "default".toList = c.defaultWallet := rfl
  have hglobal : keysFileGlobal {} (fileOf lib c) = none := rfl
  simp only [resolve, hnetwork, hpools, hdatadir, hname, hglobal, hws, hbackend, ok_bind]
  cases parseOpt "[backend] proxy" parseProxy (c.backend.proxy.map (·.display)) with
  | error e => rfl
  | ok proxy =>
    have htls : validateBackendTls { c.backend with proxy } = .ok () := h.backend.tls
    have hwalletTls := walletTls_written proxy h.walletTls
    simp only [ok_bind, htls, hwalletTls, hrpc, hspend, hhealth, hfleet, hkeys, hsync, hzebra,
      hlog]
    rfl

end Sections

/-! ## What survives -/

/-- Everything but the secrets. -/
def AppConfig.shown (c : AppConfig) : AppConfig :=
  { c with
    zebra := { c.zebra with rpcUser := none, rpcPassword := none }
    rpc := { c.rpc with user := none, password := none, auth := [] } }

def AppConfig.paths (c : AppConfig) : List Path :=
  [c.datadir, c.fleet.manifestDir, c.fleet.dir] ++ c.zebra.rpcCookie.toList ++
    c.rpc.cookiefile.toList ++ c.keys.ageIdentity.toList ++
    c.wallets.flatMap fun x => x.2.dir :: x.2.keysFile.toList

/-- Every path is text, the directories of the fleet are not joined to another, and the proxy is
read from what is written for it. -/
structure AppConfig.Survives (c : AppConfig) : Prop where
  paths : ∀ p ∈ c.paths, p.IsText
  fleet : c.datadir = [] ∨
    Path.isAbsolute c.fleet.manifestDir = true ∧ Path.isAbsolute c.fleet.dir = true
  proxy : ∀ p ∈ c.backend.proxy, ':' ∈ p.host ∨ p.host.head? ≠ some '['

section Paths

variable {datadir p : Path}

theorem Path.length_written (p : Path) : p.written.length = p.length := by
  simp [Path.written, Path.ofText, Path.display]

theorem fleetPathAgain_eq (hdatadir : datadir.IsText) :
    fleetPathAgain datadir p = p ↔ p.IsText ∧ (datadir = [] ∨ Path.isAbsolute p = true) := by
  rw [fleetPathAgain, hdatadir, Path.join]
  split
  · next h =>
    constructor
    · intro hp
      rw [hp] at h
      exact ⟨hp, h.symm⟩
    · exact And.left
  · next h =>
    obtain ⟨habs, hne⟩ := not_or.mp h
    -- The directory makes the path longer.
    have hlonger : (if datadir.getLast? = some Path.slash then datadir ++ p.written
        else datadir ++ Path.slash :: p.written) ≠ p := by
      intro heq
      have hpos := List.length_pos_iff.mpr hne
      have hlength := congrArg List.length heq
      split at hlength <;>
        simp only [List.length_append, List.length_cons, Path.length_written] at hlength <;> omega
    refine iff_of_false hlonger ?_
    rintro ⟨htext, hnil | hp⟩
    · exact hne hnil
    · rw [htext] at habs
      exact habs hp

theorem map_written_eq {o : Option Path} :
    o.map Path.written = o ↔ ∀ p ∈ o.toList, p.IsText := by
  cases o with
  | none => simp
  | some p => simp [Path.IsText]

end Paths

theorem WalletEntry.written_eq {w : WalletEntry} :
    w.written = w ↔ ∀ p ∈ w.dir :: w.keysFile.toList, p.IsText := by
  rw [List.forall_mem_cons, ← map_written_eq]
  constructor
  · intro h
    exact ⟨congrArg WalletEntry.dir h, congrArg WalletEntry.keysFile h⟩
  · rintro ⟨hdir, hkeys⟩
    rw [WalletEntry.written, hdir, hkeys]

theorem wallets_written_eq {ws : List (List Char × WalletEntry)} :
    (ws.map fun x => (x.1, x.2.written)) = ws ↔
      ∀ p ∈ ws.flatMap fun x => x.2.dir :: x.2.keysFile.toList, p.IsText := by
  rw [List.forall_mem_flatMap]
  simp only [← WalletEntry.written_eq]
  induction ws with
  | nil => simp
  | cons x ws ih =>
    rw [List.forall_mem_cons, ← ih, List.map_cons, List.cons.injEq, Prod.ext_iff]
    exact and_congr_left fun _ => and_iff_right rfl

section Survives

variable {lib : Libraries} {host : Host} {defaults : BinaryDefaults} {c : AppConfig}
  {proxy : Option Upstream.SocksProxy}

theorem rewritten_eq_shown_iff : c.rewritten proxy = c.shown ↔
    (∀ p ∈ c.paths, p.IsText) ∧ (c.datadir = [] ∨
      Path.isAbsolute c.fleet.manifestDir = true ∧ Path.isAbsolute c.fleet.dir = true) ∧
      proxy = c.backend.proxy := by
  simp only [AppConfig.paths, List.forall_mem_append, List.forall_mem_cons,
    ← map_written_eq, ← wallets_written_eq]
  constructor
  · intro h
    have hdatadir : c.datadir.written = c.datadir := congrArg AppConfig.datadir h
    obtain ⟨hmanifest, hjoin⟩ := (fleetPathAgain_eq hdatadir).mp
      (congrArg (fun c : AppConfig => c.fleet.manifestDir) h)
    obtain ⟨hdir, hjoin'⟩ := (fleetPathAgain_eq hdatadir).mp
      (congrArg (fun c : AppConfig => c.fleet.dir) h)
    refine ⟨⟨⟨⟨⟨⟨hdatadir, hmanifest, hdir, fun _ hp => nomatch hp⟩, ?_⟩, ?_⟩, ?_⟩, ?_⟩, ?_, ?_⟩
    · exact congrArg (fun c : AppConfig => c.zebra.rpcCookie) h
    · exact congrArg (fun c : AppConfig => c.rpc.cookiefile) h
    · exact congrArg (fun c : AppConfig => c.keys.ageIdentity) h
    · exact congrArg AppConfig.wallets h
    · exact or_and_left.mpr ⟨hjoin, hjoin'⟩
    · exact congrArg (fun c : AppConfig => c.backend.proxy) h
  · rintro ⟨⟨⟨⟨⟨⟨hdatadir, hmanifest, hdir, -⟩, hzebra⟩, hcookie⟩, hidentity⟩, hwallets⟩, hjoin,
      rfl⟩
    obtain ⟨hjoin, hjoin'⟩ := or_and_left.mp hjoin
    have hmanifest := (fleetPathAgain_eq hdatadir).mpr ⟨hmanifest, hjoin⟩
    have hdir := (fleetPathAgain_eq hdatadir).mpr ⟨hdir, hjoin'⟩
    have hdatadir : c.datadir.written = c.datadir := hdatadir
    simp only [AppConfig.rewritten, hdatadir, hwallets, hzebra, hcookie, hidentity, hmanifest,
      hdir]
    rfl

theorem proxy_again {text : String} {o : Option Upstream.SocksProxy}
    (h : ∀ p ∈ o, ∃ token, Upstream.SocksProxy.parse token = .ok p) :
    parseOpt text parseProxy (o.map (·.display)) = .ok o ↔
      ∀ p ∈ o, ':' ∈ p.host ∨ p.host.head? ≠ some '[' := by
  cases o with
  | none => simp [parseOpt]
  | some p =>
    obtain ⟨token, htoken⟩ := h p rfl
    have htrip : parseOpt text parseProxy (some p.display) = .ok (some p) ↔
        Upstream.SocksProxy.parse p.display = .ok p := by
      rw [parseOpt, parseProxy]
      cases Upstream.SocksProxy.parse p.display with
      | error e => simp [context, bind, Except.bind]
      | ok q => simp [context, bind, Except.bind]
    rw [Option.map_some, htrip, Upstream.round_trip_iff htoken]
    simp

theorem resolve_fileOf_of_survives (h : c.Valid host)
    (hip : ∀ ip, lib.parseIp (lib.displayIp ip) = some ip) (hsurvives : c.Survives) :
    resolve lib host defaults {} (fileOf lib c) = .ok c.shown := by
  have hshown := rewritten_eq_shown_iff.mpr ⟨hsurvives.paths, hsurvives.fleet, rfl⟩
  rw [resolve_fileOf h hip, (proxy_again h.backend.proxy).mpr hsurvives.proxy, ok_bind, hshown]
  change validateFleet c.wallets c.fleet >>= _ = _
  rw [h.fleet.2, ok_bind]

/-- The file of a rendering resolves to the same configuration exactly if that survives. -/
theorem resolve_fileOf_iff (h : c.Valid host)
    (hip : ∀ ip, lib.parseIp (lib.displayIp ip) = some ip) :
    (∃ c', resolve lib host defaults {} (fileOf lib c) = .ok c' ∧ c'.shown = c.shown) ↔
      c.Survives := by
  constructor
  · rintro ⟨c', hresolve, hshown⟩
    simp only [resolve_fileOf h hip, bind_eq_ok, Except.ok.injEq] at hresolve
    obtain ⟨proxy, hproxy, _, -, rfl⟩ := hresolve
    -- What was written has no secrets.
    have hrewritten : c.rewritten proxy = c.shown := hshown
    obtain ⟨hpaths, hfleet, rfl⟩ := rewritten_eq_shown_iff.mp hrewritten
    exact ⟨hpaths, hfleet, (proxy_again h.backend.proxy).mp hproxy⟩
  · exact fun hsurvives => ⟨c.shown, resolve_fileOf_of_survives h hip hsurvives, rfl⟩

end Survives

end Zecd.Config
