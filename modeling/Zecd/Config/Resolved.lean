import Zecd.Config.Rewritten
import Zecd.Config.Resolve

/-! # What is resolved

A configuration that was resolved keeps what `resolve` checks and what it fills in: its numbers
fit their keys, its settings do not contradict each other, and its default wallet is there.
-/

namespace Zecd.Config

open Fallible

/-! ## Sections -/

structure PoolsConfig.Valid (p : PoolsConfig) : Prop where
  inRange : p.InRange
  receivers : p.defaultReceivers.isSubsetOf p.enabled = true
  transparent : (!p.transparentDefault || p.transparentEnabled) = true
  gapLimit : (p.transparentGapLimit != 0) = true

/-- The certificates are what was read from their file, which is named by a text. -/
def CaRead (host : Host) (file : Option Path) (pem : Option (List UInt8)) : Prop :=
  ∃ text, file = text.map Path.ofText ∧ ∀ ctx, readCa host ctx text = .ok pem

structure BackendConfig.Valid (host : Host) (b : BackendConfig) : Prop where
  inRange : b.InRange
  connectTimeout : 1 ≤ b.connectTimeoutSecs
  reconnectBase : 1 ≤ b.reconnectBaseSecs
  reconnectMax : b.reconnectBaseSecs ≤ b.reconnectMaxSecs
  ca : CaRead host b.tlsCaFile b.tlsCaPem
  tls : validateBackendTls b = .ok ()
  proxy : ∀ p ∈ b.proxy, ∃ token, Upstream.SocksProxy.parse token = .ok p

structure WalletEntry.Valid (host : Host) (network : ZNetwork) (w : WalletEntry) : Prop where
  chain : w.chain = network
  pools : w.pools.Valid
  ca : CaRead host w.backend.tlsCaFile w.backend.tlsCaPem

structure RpcConfig.Valid (host : Host) (r : RpcConfig) : Prop where
  inRange : r.InRange
  workQueue : 1 ≤ r.workQueue
  methods : r.allowedMethods.forM (checkMethod host) = .ok ()
  cookiefile : r.cookiefile.isSome = true

structure SyncConfig.Valid (s : SyncConfig) : Prop where
  inRange : s.InRange
  interval : 1 ≤ s.intervalSecs
  rebroadcast : 1 ≤ s.rebroadcastSecs
  batchSize : 1 ≤ s.batchSize
  writerCache : 1 ≤ s.writerCacheMib
  concurrency : 1 ≤ s.enhanceConcurrency

def LogConfig.Valid (l : LogConfig) : Prop :=
  Hex.asciiLower l.format ∈ ["text".toList, "json".toList]

structure AppConfig.Valid (host : Host) (c : AppConfig) : Prop where
  wallets : ∀ x ∈ c.wallets, x.2.Valid host c.network
  defaultWallet : c.defaultWallet ∈ c.wallets.map Prod.fst
  backend : c.backend.Valid host
  walletTls : c.wallets.forM (validateWalletTls c.backend) = .ok ()
  rpc : c.rpc.Valid host
  ageIdentity : c.keys.ageIdentity.isSome = true
  sync : c.sync.Valid
  spend : c.spend.InRange ∧ c.spend.validate = .ok ()
  pools : c.pools.Valid
  health : c.health.InRange
  fleet : c.fleet.InRange ∧ validateFleet c.wallets c.fleet = .ok ()
  log : c.log.Valid

theorem AppConfig.Valid.inRange {host : Host} {c : AppConfig} (h : c.Valid host) : c.InRange where
  backend := h.backend.inRange
  rpc := h.rpc.inRange
  sync := h.sync.inRange
  spend := h.spend.1
  pools := h.pools.inRange
  health := h.health
  fleet := h.fleet.1
  wallets x hx := (h.wallets x hx).pools.inRange

/-! ## Each section is valid -/

section Numbers

variable {n d k : ℕ} {key : Option (Fin n)}

theorem number_lt (hd : d < n) : number key d < n := by
  cases key with
  | none => exact hd
  | some k => exact k.isLt

theorem max_number_lt (hd : d < n) (hk : k < n) : max (number key d) k < n :=
  max_lt (number_lt hd) hk

end Numbers

section Valid

variable {lib : Libraries} {host : Host} {defaults : BinaryDefaults} {cli : ConfigOverrides}

theorem globalPools_valid {file : PoolsFile} {p : PoolsConfig}
    (h : resolveGlobalPools host file = .ok p) : p.Valid := by
  simp only [resolveGlobalPools, validateReceivers, validateTransparentFlags, bind_eq_ok,
    ensure_eq_ok, Except.ok.injEq] at h
  obtain ⟨enabled, -, receivers, -, -, hreceivers, -, ⟨-, hdefault, hgap⟩, rfl⟩ := h
  exact ⟨⟨number_lt (by decide), number_lt (by decide), number_lt (by decide)⟩, hreceivers,
    hdefault, hgap⟩

theorem walletPools_valid {name : List Char} {file : PoolsFile} {g p : PoolsConfig}
    (hg : g.Valid) (h : resolveWalletPools host name file g = .ok p) : p.Valid := by
  simp only [resolveWalletPools, validateReceivers, validateTransparentFlags, bind_eq_ok,
    ensure_eq_ok, Except.ok.injEq] at h
  obtain ⟨enabled, -, receivers, -, -, hreceivers, -, ⟨-, hdefault, hgap⟩, rfl⟩ := h
  exact ⟨⟨number_lt hg.inRange.transparentGapLimit, number_lt hg.inRange.transparentInitialScan,
    number_lt hg.inRange.transparentGapWarnThreshold⟩, hreceivers, hdefault, hgap⟩

theorem caRead_of_readCa {ctx : String} {text : Option (List Char)} {pem : Option (List UInt8)}
    (h : readCa host ctx text = .ok pem) : CaRead host (text.map Path.ofText) pem := by
  refine ⟨text, rfl, fun ctx' => ?_⟩
  cases text with
  | none => exact h
  | some path =>
    rw [readCa] at h ⊢
    split at h
    · cases h
    · exact h

theorem proxy_parsed {text : String} {token : Option (List Char)}
    {proxy : Option Upstream.SocksProxy} (h : parseOpt text parseProxy token = .ok proxy) :
    ∀ p ∈ proxy, ∃ token, Upstream.SocksProxy.parse token = .ok p := by
  cases token with
  | none =>
    cases h
    exact fun _ hp => nomatch hp
  | some token =>
    simp only [parseOpt, bind_eq_ok, Except.ok.injEq] at h
    obtain ⟨q, hq, rfl⟩ := h
    rintro p ⟨⟩
    refine ⟨token, ?_⟩
    rw [parseProxy] at hq
    split at hq
    · cases hq
    · next hparse =>
      cases hq
      exact hparse

theorem backend_valid {file : BackendFile} {b : BackendConfig}
    (h : resolveBackendTable host cli file = .ok b) (htls : validateBackendTls b = .ok ()) :
    b.Valid host := by
  simp only [resolveBackendTable, bind_eq_ok, Except.ok.injEq] at h
  obtain ⟨tls, -, roots, -, pem, hpem, pins, -, proxy, hproxy, rfl⟩ := h
  have hbase : max (number file.reconnectBaseSecs 1) 1 < 2 ^ 63 :=
    max_number_lt (by decide) (by decide)
  exact {
    inRange := ⟨max_number_lt (by decide) (by decide), hbase, max_number_lt (by decide) hbase⟩
    connectTimeout := le_max_right _ _
    reconnectBase := le_max_right _ _
    reconnectMax := le_max_right _ _
    ca := caRead_of_readCa hpem
    tls := htls
    proxy := proxy_parsed hproxy }

theorem wallet_valid {ctx : WalletContext} {name : List Char} {file : WalletFile} {w : WalletEntry}
    (hpools : ctx.pools.Valid) (h : resolveWallet host ctx name file = .ok w) :
    w.Valid host ctx.network := by
  simp only [resolveWallet, bind_eq_ok, Except.ok.injEq] at h
  obtain ⟨backend, hbackend, pools, hwallet, rfl⟩ := h
  simp only [resolveWalletBackend, bind_eq_ok, Except.ok.injEq] at hbackend
  obtain ⟨tls, -, roots, -, pem, hpem, pins, -, rfl⟩ := hbackend
  exact ⟨rfl, walletPools_valid hpools hwallet, caRead_of_readCa hpem⟩

theorem implicitWallet_valid {ctx : WalletContext} (hpools : ctx.pools.Valid) :
    (implicitWallet ctx).Valid host ctx.network :=
  ⟨rfl, hpools, ⟨none, rfl, fun _ => rfl⟩⟩

theorem rpc_valid {network : ZNetwork} {datadir : Path} {file : RpcFile} {r : RpcConfig}
    (h : resolveRpc lib host defaults cli network datadir file = .ok r) : r.Valid host := by
  simp only [resolveRpc, bind_eq_ok, Except.ok.injEq] at h
  obtain ⟨password, -, _, hmethods, bind, -, rfl⟩ := h
  refine ⟨⟨number_lt ?_, max_number_lt (by decide) (by decide)⟩, le_max_right _ _, hmethods, rfl⟩
  split
  · exact defaults.rpcPortMain.isLt
  · exact defaults.rpcPortTest.isLt

theorem sync_valid (file : SyncFile) : (resolveSync file).Valid where
  inRange := ⟨max_number_lt (by decide) (by decide), max_number_lt (by decide) (by decide),
    max_number_lt (by decide) (by decide), max_number_lt (by decide) (by decide),
    max_number_lt (by decide) (by decide)⟩
  interval := le_max_right _ _
  rebroadcast := le_max_right _ _
  batchSize := le_max_right _ _
  writerCache := le_max_right _ _
  concurrency := le_max_right _ _

theorem spend_valid {file : SpendFile} {s : SpendConfig} (h : resolveSpend file = .ok s) :
    s.InRange ∧ s.validate = .ok () := by
  simp only [resolveSpend, bind_eq_ok, Except.ok.injEq] at h
  obtain ⟨privacy, -, _, hvalid, rfl⟩ := h
  exact ⟨⟨number_lt (by decide), number_lt (by decide), number_lt (by decide),
    number_lt (by decide), number_lt (by decide), number_lt (by decide), number_lt (by decide),
    number_lt (by decide)⟩, hvalid⟩

theorem health_valid {file : HealthFile} {c : HealthConfig}
    (h : resolveHealth lib host defaults file = .ok c) : c.InRange := by
  simp only [resolveHealth, bind_eq_ok, Except.ok.injEq] at h
  obtain ⟨bind, -, readiness, -, rfl⟩ := h
  exact ⟨number_lt defaults.healthPort.isLt, number_lt (by decide)⟩

theorem fleet_inRange (datadir : Path) (file : FleetFile) : (resolveFleet datadir file).InRange :=
  ⟨number_lt (by decide), number_lt (by decide)⟩

theorem log_valid {file : LogFile} {l : LogConfig} (h : resolveLog host file = .ok l) :
    l.Valid := by
  simp only [resolveLog, bind_eq_ok, ensure_eq_ok, decide_eq_true_eq, Except.ok.injEq] at h
  obtain ⟨-, hformat, rfl⟩ := h
  exact hformat

/-! ## The whole configuration -/

theorem mapValues_ok {α β ε : Type} {f : List Char → α → Except ε β} {l : List (List Char × α)}
    {m : {m : List (List Char × β) // m.map Prod.fst = l.map Prod.fst}}
    (h : mapValues f l = .ok m) : ∀ x ∈ m.1, ∃ a, f x.1 a = .ok x.2 := by
  induction l with
  | nil =>
    cases h
    exact fun _ hx => nomatch hx
  | cons y l ih =>
    simp only [mapValues, bind_eq_ok, Except.ok.injEq] at h
    obtain ⟨b, hb, rest, hrest, rfl⟩ := h
    exact List.forall_mem_cons.mpr ⟨⟨y.2, hb⟩, ih hrest⟩

theorem mem_map_entryOrInsert {α : Type} (name : List Char) (v : α) (l : List (List Char × α)) :
    name ∈ (entryOrInsert name v l).map Prod.fst := by
  induction l with
  | nil => exact List.mem_singleton_self name
  | cons x l ih =>
    rw [entryOrInsert]
    split
    · next h => exact List.mem_cons.mpr (Or.inl h.symm)
    · split
      · exact List.mem_cons_self
      · exact List.mem_cons_of_mem _ ih

theorem wallets_valid {ctx : WalletContext} {file : ConfigFile}
    {ws : {l : List (List Char × WalletEntry) // (l.map Prod.fst).Pairwise (· < ·)}}
    (hpools : ctx.pools.Valid) (h : resolveWallets host ctx file = .ok ws) :
    (∀ x ∈ ws.1, x.2.Valid host ctx.network) ∧ ctx.defaultWallet ∈ ws.1.map Prod.fst := by
  simp only [resolveWallets, bind_eq_ok, Except.ok.injEq] at h
  obtain ⟨m, hm, rfl⟩ := h
  refine ⟨fun x hx => ?_, mem_map_entryOrInsert _ _ _⟩
  rcases mem_entryOrInsert hx with rfl | hx
  · exact implicitWallet_valid hpools
  · obtain ⟨file, hfile⟩ := mapValues_ok hm x hx
    exact wallet_valid hpools hfile

theorem resolve_valid {file : ConfigFile} {c : AppConfig}
    (h : resolve lib host defaults cli file = .ok c) : c.Valid host := by
  simp only [resolve, bind_eq_ok, Except.ok.injEq] at h
  obtain ⟨network, -, pools, hpools, wallets, hwallets, backend, hbackend, _, htls, _, hwalletTls,
    rpc, hrpc, spend, hspend, health, hhealth, _, hfleet, log, hlog, rfl⟩ := h
  obtain ⟨hvalid, hdefault⟩ := wallets_valid (globalPools_valid hpools) hwallets
  exact {
    wallets := hvalid
    defaultWallet := hdefault
    backend := backend_valid hbackend htls
    walletTls := hwalletTls
    rpc := rpc_valid hrpc
    ageIdentity := rfl
    sync := sync_valid _
    spend := spend_valid hspend
    pools := globalPools_valid hpools
    health := health_valid hhealth
    fleet := ⟨fleet_inRange _ _, hfleet⟩
    log := log_valid hlog }

end Valid

end Zecd.Config
