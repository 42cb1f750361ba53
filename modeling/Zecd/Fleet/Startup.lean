import Zecd.Fleet.Names

/-! # What a start registers

A configured wallet that cannot be opened is skipped, but some of its errors and a second
spending wallet end the start. Of the fleet's stages the first, reading the manifests, leaves a
bad one out. The later ones, reading the shards back and reconciling their members, end the
start at the first error. A start registers every wallet it should exactly when nothing that
ends it is met, or when there is nothing to register.
-/

namespace Zecd.Fleet

open Runs

variable {Key : Type} (cfg : FleetConfig Key)

section Statement

/-- The file parses into the member. -/
def Manifested (w : World Key) (m : ShardMember) : Prop :=
  ∃ f ∈ w.manifests.files, readManifest cfg f = .ok m

def ShardDb.state (db : ShardDb Key) : ShardState :=
  ⟨db.accounts.length, (db.accounts.map ShardAccount.birthday).min?⟩

def ShardDb.placements (db : ShardDb Key) (index : ℕ) : List (String × ℕ) :=
  db.accounts.map fun a => (a.name, index)

def shardsOf (w : World Key) : List (ℕ × List ShardMember) :=
  match loadManifests cfg w.manifests with
  | .error _ => []
  | .ok (members, _) =>
    plan cfg members
      ((existingShardDirs w.dirs).flatMap fun i => (shardDb w.dirs i).placements i)
      ((existingShardDirs w.dirs).map fun i => (shardDb w.dirs i).state)

/-- An account of the database has the member's name, and none has its key. -/
def BoundElsewhere (db : ShardDb Key) (m : ShardMember) : Prop :=
  (∃ a ∈ db.accounts, a.name = m.name) ∧ ∀ a ∈ db.accounts, keyOf cfg m ≠ some a.ufvk

/-- The wallet's file parses, its key decodes, and its shard does not hold its name under a
different key. -/
def Servable (w : World Key) (m : ShardMember) : Prop :=
  Manifested cfg w m ∧ (keyOf cfg m).isSome ∧
    ∀ s ∈ shardsOf cfg w, m ∈ s.2 → ¬ BoundElsewhere cfg (shardDb w.dirs s.1) m

/-- Whether a configured wallet that loads is watch-only. -/
def WalletStart.watchOnly : WalletStart → Option Bool
  | .loaded watchOnly => some watchOnly
  | .skipped | .fatal _ => none

/-- Nothing outside the fleet ends the start: the data directory migrates, the settings and the
servers resolve, no wallet's keys are bound to another account, and at most one wallet that
loads can spend, unless the settings allow more. -/
structure Startup.Clears (s : Startup) : Prop where
  migration : s.migration = .ok ()
  confirmationsPolicy : s.confirmationsPolicy = .ok ()
  wallets : ∀ n ∈ cfg.wallets, ∀ why, s.wallet n ≠ .fatal why
  fleetServer : s.fleetServer = .ok ()
  spenders : cfg.allowMultipleSpendingWallets = true ∨
    (cfg.wallets.filter fun n => (s.wallet n).watchOnly == some false).length ≤ 1

variable [DecidableEq Key]

/-- The start registers every configured wallet that can start, and of the manifested wallets
those that can be served. -/
def StartRegisters (w : World Key) (s : Startup) : Prop :=
  (∀ n ∈ cfg.wallets, (s.wallet n).watchOnly.isSome →
      ∃ d ∈ (start cfg w s).1.daemon, n ∈ d.loaded) ∧
    ∀ m, Manifested cfg w m → (Servable cfg w m ↔
      ∃ d ∈ (start cfg w s).1.daemon, ∃ h ∈ d.fleet, h.member = m)

end Statement

section Stages

variable {cfg} {dirs dirs' : List (ShardDir Key)} {is : List ℕ} {db : ShardDb Key}

theorem inspectShards_eq (h : ∀ i ∈ is, (dbAt dirs i).isSome) :
    inspectShards dirs is = .ok (is.flatMap fun i => (shardDb dirs i).placements i,
      is.map fun i => (shardDb dirs i).state) := by
  induction is with
  | nil => rfl
  | cons i is ih =>
    obtain ⟨db, hdb⟩ := Option.isSome_iff_exists.mp (h i List.mem_cons_self)
    rw [inspectShards, inspectShard, hdb]
    simp only [ih fun j hj => h j (List.mem_cons_of_mem _ hj), List.flatMap_cons, List.map_cons,
      shardDb, hdb, Option.getD_some, ShardDb.placements, ShardDb.state]

theorem inspectShards_isSome {r : List (String × ℕ) × List ShardState}
    (h : inspectShards dirs is = .ok r) : ∀ i ∈ is, (dbAt dirs i).isSome := by
  induction is generalizing r with
  | nil => simp
  | cons i is ih =>
    unfold inspectShards at h
    split at h
    · cases h
    · next hi =>
      split at h
      · cases h
      · next his =>
        rintro j (_ | ⟨_, hj⟩)
        · unfold inspectShard at hi
          split at hi
          · cases hi
          · next hdb => rw [hdb, Option.isSome_some]
        · exact ih his j hj

variable [DecidableEq Key]

/-- A shard's members are reconciled together: one that cannot be refuses them all. -/
theorem reconcileAccounts_isOk_iff {ms : List ShardMember} :
    (∃ r, reconcileAccounts cfg db ms = .ok r) ↔
      ∀ m ∈ ms, (keyOf cfg m).isSome ∧ ¬ BoundElsewhere cfg db m := by
  induction ms with
  | nil => simp [reconcileAccounts]
  | cons m ms ih =>
    rw [List.forall_mem_cons, ← ih, reconcileAccounts]
    split
    · next why hwhy =>
      have hkey : ¬ (keyOf cfg m).isSome := fun h => by
        obtain ⟨key, hk⟩ := decodeUfvk_isOk h
        rw [hk] at hwhy
        cases hwhy
      simp [hkey]
    · next key hkey =>
      have hm := keyOf_eq_some hkey
      split
      · next a ha =>
        have hown : ¬ BoundElsewhere cfg db m := by
          rintro ⟨-, hother⟩
          have hak : a.ufvk = key := by simpa using List.find?_some ha
          exact hother a (List.mem_of_find?_eq_some ha) (hak ▸ hm)
        cases reconcileAccounts cfg db ms with
        | error why => simp
        | ok r => simp [hm, hown]
      · next hnone =>
        have hother : ∀ a ∈ db.accounts, keyOf cfg m ≠ some a.ufvk := by
          intro a ha hak
          rw [hm, Option.some.injEq] at hak
          simpa [hak] using List.find?_eq_none.mp hnone a ha
        split
        · next hname =>
          have hbound : BoundElsewhere cfg db m := ⟨by simpa using hname, hother⟩
          simp [hbound]
        · next hname =>
          have hfree : ¬ BoundElsewhere cfg db m := fun hb => hname (by simpa using hb.1)
          cases reconcileAccounts cfg db ms with
          | error why => simp
          | ok r => simp [hm, hfree]

variable (dirs) in
theorem spawnShard_isOk_iff {index : ℕ} {members : List ShardMember} :
    (∃ rs, spawnShard cfg (initDb (createDir dirs index) index) index members = .ok rs) ↔
      ∀ m ∈ members, (keyOf cfg m).isSome ∧ ¬ BoundElsewhere cfg (shardDb dirs index) m := by
  rw [← reconcileAccounts_isOk_iff, spawnShard, dbAt_prepare_self]
  dsimp only
  cases reconcileAccounts cfg (shardDb dirs index) members with
  | error why => simp
  | ok r => simp

variable {d d' : Daemon} {layout : List (ℕ × List ShardMember)}

theorem spawnShards_isOk_iff : (∃ d', (spawnShards cfg dirs d layout).2 = .ok d') ↔
    ∀ s ∈ layout, ∀ m ∈ s.2, (keyOf cfg m).isSome ∧
      ¬ BoundElsewhere cfg (shardDb dirs s.1) m := by
  induction layout generalizing dirs d with
  | nil => simp [spawnShards]
  | cons s layout ih =>
    obtain ⟨index, members⟩ := s
    rw [List.forall_mem_cons, ← spawnShard_isOk_iff dirs]
    unfold spawnShards
    dsimp only
    split
    · next why hwhy =>
      rw [hwhy]
      simp
    · next rs hrs =>
      rw [ih, hrs]
      simp only [shardDb_prepare, Except.ok.injEq, exists_eq', true_and]

theorem spawnShards_registers (h : spawnShards cfg dirs d layout = (dirs', .ok d')) :
    d'.loaded = d.loaded ∧
      d'.fleet.map FleetHandle.member = d.fleet.map FleetHandle.member ++ layout.flatMap (·.2) := by
  induction layout generalizing dirs d with
  | nil =>
    cases h
    simp
  | cons s layout ih =>
    obtain ⟨index, members⟩ := s
    unfold spawnShards at h
    dsimp only at h
    split at h
    · cases h
    · obtain ⟨hloaded, hfleet⟩ := ih h
      refine ⟨hloaded, ?_⟩
      rw [hfleet, List.map_append, List.map_map, List.flatMap_cons, List.append_assoc]
      congr 2
      exact List.map_id members

end Stages

section Configured

variable {cfg} {s : Startup} {loaded : List (String × Bool)}

def Startup.loads (s : Startup) (names : List String) : List (String × Bool) :=
  names.filterMap fun n => (s.wallet n).watchOnly.map (n, ·)

theorem mem_loads {names : List String} {n : String} :
    n ∈ (s.loads names).map (·.1) ↔ n ∈ names ∧ (s.wallet n).watchOnly.isSome := by
  simp only [Startup.loads, List.mem_map, List.mem_filterMap, Option.map_eq_some_iff,
    Option.isSome_iff_exists]
  constructor
  · rintro ⟨_, ⟨_, hn, watchOnly, hloads, rfl⟩, rfl⟩
    exact ⟨hn, watchOnly, hloads⟩
  · rintro ⟨hn, watchOnly, hloads⟩
    exact ⟨_, ⟨n, hn, watchOnly, hloads, rfl⟩, rfl⟩

theorem length_spenders (names : List String) : ((s.loads names).filter fun w => !w.2).length =
    (names.filter fun n => (s.wallet n).watchOnly == some false).length := by
  induction names with
  | nil => rfl
  | cons n names ih =>
    unfold Startup.loads at ih ⊢
    rw [List.filterMap_cons, List.filter_cons]
    cases (s.wallet n).watchOnly with
    | none => exact ih
    | some watchOnly => cases watchOnly <;> simp [ih]

theorem spawnWallets_eq_ok {names : List String} : spawnWallets s.wallet names = .ok loaded ↔
    (∀ n ∈ names, ∀ why, s.wallet n ≠ .fatal why) ∧ loaded = s.loads names := by
  induction names generalizing loaded with
  | nil => simp [spawnWallets, Startup.loads, eq_comm]
  | cons n names ih =>
    rw [spawnWallets, List.forall_mem_cons, Startup.loads, List.filterMap_cons, ← Startup.loads]
    cases hn : s.wallet n with
    | fatal why => simp
    | skipped => simp [ih, WalletStart.watchOnly]
    | loaded watchOnly =>
      have hrest : (∃ rest, spawnWallets s.wallet names = .ok rest) ↔
          ∀ n ∈ names, ∀ why, s.wallet n ≠ .fatal why := by simp [ih]
      cases hnames : spawnWallets s.wallet names with
      | error why => simp [← hrest, hnames]
      | ok rest =>
        obtain ⟨hall, rfl⟩ := ih.mp hnames
        simpa [WalletStart.watchOnly, eq_comm] using fun _ => hall

theorem spawnConfigured_eq_ok : spawnConfigured cfg s = .ok loaded ↔
    s.migration = .ok () ∧ s.confirmationsPolicy = .ok () ∧
      (∀ n ∈ cfg.wallets, ∀ why, s.wallet n ≠ .fatal why) ∧ s.fleetServer = .ok () ∧
      loaded = s.loads cfg.wallets := by
  unfold spawnConfigured
  cases hmigration : s.migration with
  | error why => simp [bind, Except.bind]
  | ok _ =>
    cases hpolicy : s.confirmationsPolicy with
    | error why => simp [bind, Except.bind]
    | ok _ =>
      have hwallets := @spawnWallets_eq_ok s
      cases hloaded : spawnWallets s.wallet cfg.wallets with
      | error why =>
        have hnot : ¬ ∀ n ∈ cfg.wallets, ∀ why, s.wallet n ≠ .fatal why := fun hall => by
          rw [hwallets.mpr ⟨hall, rfl⟩] at hloaded
          cases hloaded
        simp [bind, Except.bind, hnot]
      | ok loaded' =>
        obtain ⟨hall, rfl⟩ := hwallets.mp hloaded
        cases s.fleetServer with
        | error why => simp [bind, Except.bind]
        | ok _ => simpa [bind, Except.bind, pure, Except.pure, eq_comm] using fun _ => hall

theorem ensureSingleSpendingWallet_eq_ok {allowMultiple : Bool} :
    ensureSingleSpendingWallet loaded allowMultiple = .ok () ↔
      allowMultiple = true ∨ (loaded.filter fun w => !w.2).length ≤ 1 := by
  unfold ensureSingleSpendingWallet
  generalize (loaded.filter fun w => !w.2) = spenders
  match spenders with
  | [] | [_] => simp
  | _ :: _ :: _ => cases allowMultiple <;> simp

/-- A start gets past its configured wallets exactly when nothing outside the fleet ends it. -/
theorem clears_iff : s.Clears cfg ↔ ∃ loaded, spawnConfigured cfg s = .ok loaded ∧
    ensureSingleSpendingWallet loaded cfg.allowMultipleSpendingWallets = .ok () := by
  simp only [spawnConfigured_eq_ok, ensureSingleSpendingWallet_eq_ok]
  constructor
  · rintro ⟨hmigration, hpolicy, hwallets, hserver, hspenders⟩
    exact ⟨_, ⟨hmigration, hpolicy, hwallets, hserver, rfl⟩, length_spenders _ ▸ hspenders⟩
  · rintro ⟨_, ⟨hmigration, hpolicy, hwallets, hserver, rfl⟩, hspenders⟩
    exact ⟨hmigration, hpolicy, hwallets, hserver, length_spenders (s := s) _ ▸ hspenders⟩

end Configured

section Start

variable {cfg} {w : World Key} {m : ShardMember}

theorem mem_shardsOf_iff : (∃ s ∈ shardsOf cfg w, m ∈ s.2) ↔ Manifested cfg w m := by
  obtain ⟨members, skipped, hload, -, hmem⟩ := loadManifests_spec cfg w.manifests
  rw [shardsOf, hload]
  exact mem_plan_members.trans (hmem m)

/-- Every shard directory has its database, and every manifested wallet can be served. -/
def NothingBad (cfg : FleetConfig Key) (w : World Key) : Prop :=
  (∀ i ∈ existingShardDirs w.dirs, (dbAt w.dirs i).isSome) ∧
    ∀ m, Manifested cfg w m → Servable cfg w m

/-- No configured wallet can start and no manifested wallet can be served. -/
def NothingToRegister (cfg : FleetConfig Key) (w : World Key) (s : Startup) : Prop :=
  (∀ n ∈ cfg.wallets, (s.wallet n).watchOnly = none) ∧ ∀ m, Manifested cfg w m → ¬ Servable cfg w m

variable [DecidableEq Key] {s : Startup} {loaded : List String}

theorem spawnFleet_eq (hcollide : ∀ f ∈ w.manifests.files, f.stem ∉ cfg.wallets)
    (hread : ∀ i ∈ existingShardDirs w.dirs, (dbAt w.dirs i).isSome) :
    spawnFleet cfg w loaded = spawnShards cfg w.dirs ⟨loaded, [], []⟩ (shardsOf cfg w) := by
  obtain ⟨members, skipped, hload, -, hmem⟩ := loadManifests_spec cfg w.manifests
  have hfree : members.find? (fun m => cfg.wallets.contains m.name) = none := by
    apply List.find?_eq_none.mpr
    intro m hm
    obtain ⟨f, hf, hfm⟩ := (hmem m).mp hm
    have hname := readManifest_name hfm
    simpa [hname] using hcollide f hf
  unfold spawnFleet shardsOf
  rw [hload]
  dsimp only
  rw [hfree]
  dsimp only
  rw [inspectShards_eq hread]

theorem spawnFleet_isSome {dirs' : List (ShardDir Key)} {d' : Daemon}
    (h : spawnFleet cfg w loaded = (dirs', .ok d')) :
    ∀ i ∈ existingShardDirs w.dirs, (dbAt w.dirs i).isSome := by
  unfold spawnFleet at h
  split at h
  · cases h
  · split at h
    · cases h
    · split at h
      · cases h
      · next hread => exact inspectShards_isSome hread

theorem spawnFleet_isOk_iff (hcollide : ∀ f ∈ w.manifests.files, f.stem ∉ cfg.wallets) :
    (∃ d', (spawnFleet cfg w loaded).2 = .ok d') ↔ NothingBad cfg w := by
  constructor
  · rintro ⟨d', hd'⟩
    have hread := spawnFleet_isSome (Prod.ext rfl hd')
    rw [spawnFleet_eq hcollide hread] at hd'
    have hall := spawnShards_isOk_iff.mp ⟨d', hd'⟩
    refine ⟨hread, fun m hm => ?_⟩
    obtain ⟨s, hs, hms⟩ := mem_shardsOf_iff.mpr hm
    exact ⟨hm, (hall s hs m hms).1, fun s' hs' hms' => (hall s' hs' m hms').2⟩
  · rintro ⟨hread, hall⟩
    rw [spawnFleet_eq hcollide hread]
    apply spawnShards_isOk_iff.mpr
    intro s hs m hms
    obtain ⟨-, hkey, hfree⟩ := hall m (mem_shardsOf_iff.mp ⟨s, hs, hms⟩)
    exact ⟨hkey, hfree s hs hms⟩

/-- A daemon serves only after a start that met nothing bad, in the fleet or outside it. -/
theorem clears_of_started (hstopped : w.daemon = none)
    (hcollide : ∀ f ∈ w.manifests.files, f.stem ∉ cfg.wallets)
    (hstarted : (start cfg w s).1.daemon ≠ none) : s.Clears cfg ∧ NothingBad cfg w := by
  generalize hstart : start cfg w s = p at hstarted
  obtain ⟨w', r⟩ := p
  rcases start_cases hstart with ⟨dirs', why, rfl, -⟩ |
    ⟨loaded, dirs', d', hconfigured, hspawn, hspender, rfl, -⟩
  · exact absurd hstopped hstarted
  · exact ⟨clears_iff.mpr ⟨loaded, hconfigured, hspender⟩,
      (spawnFleet_isOk_iff hcollide).mp ⟨d', congrArg Prod.snd hspawn⟩⟩

/-- A start that meets nothing bad registers the configured wallets that can start and every
manifested one. -/
theorem start_registers (hcollide : ∀ f ∈ w.manifests.files, f.stem ∉ cfg.wallets)
    (hclears : s.Clears cfg) (hgood : NothingBad cfg w) :
    (∀ n ∈ cfg.wallets, (s.wallet n).watchOnly.isSome →
        ∃ d ∈ (start cfg w s).1.daemon, n ∈ d.loaded) ∧
      ∀ m, Manifested cfg w m →
        ∃ d ∈ (start cfg w s).1.daemon, ∃ h ∈ d.fleet, h.member = m := by
  obtain ⟨loaded, hspawned, hspender⟩ := clears_iff.mp hclears
  obtain ⟨-, -, -, -, rfl⟩ := spawnConfigured_eq_ok.mp hspawned
  obtain ⟨d', hd'⟩ : ∃ d', (spawnFleet cfg w ((s.loads cfg.wallets).map (·.1))).2 = .ok d' :=
    (spawnFleet_isOk_iff hcollide).mpr hgood
  obtain ⟨dirs', hspawn⟩ : ∃ dirs', spawnFleet cfg w ((s.loads cfg.wallets).map (·.1)) =
      (dirs', .ok d') := ⟨_, Prod.ext rfl hd'⟩
  rw [spawnFleet_eq hcollide hgood.1] at hspawn
  obtain ⟨hloaded, hfleet⟩ := spawnShards_registers hspawn
  have hconfigured : ∀ n ∈ cfg.wallets, (s.wallet n).watchOnly.isSome → n ∈ d'.loaded := by
    intro n hn hok
    rw [hloaded]
    exact mem_loads.mpr ⟨hn, hok⟩
  have hmanifested : ∀ m, Manifested cfg w m → ∃ h ∈ d'.fleet, h.member = m := by
    intro m hm
    apply List.mem_map.mp
    rw [hfleet]
    obtain ⟨l, hl, hml⟩ := mem_shardsOf_iff.mpr hm
    exact List.mem_append_right _ (List.mem_flatMap.mpr ⟨l, hl, hml⟩)
  unfold start
  rw [hspawned]
  dsimp only
  rw [spawnFleet_eq hcollide hgood.1, hspawn]
  dsimp only
  split
  · next hempty =>
    obtain ⟨hl, hf⟩ : d'.loaded = [] ∧ d'.fleet = [] := by simpa using hempty
    constructor
    · intro n hn hok
      exact absurd (hl ▸ hconfigured n hn hok) List.not_mem_nil
    · intro m hm
      obtain ⟨h, hh, -⟩ := hmanifested m hm
      exact absurd (hf ▸ hh) List.not_mem_nil
  · rw [hspender]
    exact ⟨fun n hn hok => ⟨d', rfl, hconfigured n hn hok⟩,
      fun m hm => ⟨d', rfl, hmanifested m hm⟩⟩

/-- Over every shard tree and every set of manifests of free names, a start registers all it
should exactly when it meets nothing bad or there is nothing to register: one bad wallet or
directory costs every other wallet its registration. -/
theorem start_registers_iff (hstopped : w.daemon = none)
    (hcollide : ∀ f ∈ w.manifests.files, f.stem ∉ cfg.wallets) :
    StartRegisters cfg w s ↔
      (s.Clears cfg ∧ NothingBad cfg w) ∨ NothingToRegister cfg w s := by
  by_cases hall : s.Clears cfg ∧ NothingBad cfg w
  · obtain ⟨hconfigured, hmanifested⟩ := start_registers hcollide hall.1 hall.2
    refine iff_of_true ⟨hconfigured, fun m hm => ?_⟩ (Or.inl hall)
    exact iff_of_true (hall.2.2 m hm) (hmanifested m hm)
  · have hnone : (start cfg w s).1.daemon = none := by
      by_contra hstarted
      exact hall (clears_of_started hstopped hcollide hstarted)
    simp [StartRegisters, NothingToRegister, hall, hnone]

def noManifests : ManifestDir := ⟨[], List.nodup_nil⟩

/-- A daemon that serves a configured wallet besides its fleet. -/
def oneConfigured : FleetConfig String := { uviewFleet with wallets := ["main"] }

def oneManifest : World String :=
  fresh ⟨[⟨"acct", .ok ⟨"uviewA", 100⟩⟩], List.nodup_singleton _⟩

theorem oneManifest_registers : StartRegisters oneConfigured oneManifest cleanStart := by
  have hclears : cleanStart.Clears oneConfigured :=
    ⟨rfl, rfl, fun _ _ _ => nofun, rfl, Or.inr (by decide)⟩
  refine (start_registers_iff rfl (by decide)).mpr
    (Or.inl ⟨hclears, by decide, ?_⟩)
  intro m hm
  obtain rfl : ShardMember.mk "acct" "uviewA" 100 = m := by
    obtain ⟨f, hf, hfm⟩ := hm
    obtain rfl := List.mem_singleton.mp hf
    exact Except.ok.inj hfm
  refine ⟨hm, by decide, fun s _ _ hbound => ?_⟩
  obtain ⟨a, ha, -⟩ := hbound.1
  exact List.not_mem_nil ha

/-- A wallet is created, but its shard's actor is cut off before it initialises the database. -/
def halfOpenedRun : List Event :=
  [.start cleanStart, .createwallet ⟨.string "acct", .absent, .absent, .absent, .string "uviewA",
    .number 100⟩ (.noDatabase "no space left on device"), .stop]

/-- The directory it leaves behind keeps the configured wallet from starting too. -/
theorem halfOpenedRun_registers_nothing :
    (run (step oneConfigured) (fresh noManifests) halfOpenedRun).daemon = none ∧
    (run (step oneConfigured) (fresh noManifests) halfOpenedRun).manifests.files = [] ∧
    ¬ StartRegisters oneConfigured
      (run (step oneConfigured) (fresh noManifests) halfOpenedRun) cleanStart := by
  refine ⟨by decide, by decide, fun hall => ?_⟩
  obtain ⟨d, hd, -⟩ := hall.1 "main" (by decide) rfl
  have hnone : (start oneConfigured
      (run (step oneConfigured) (fresh noManifests) halfOpenedRun) cleanStart).1.daemon = none := by
    decide
  rw [hnone] at hd
  cases hd

end Start

end Zecd.Fleet
