import Zecd.Fleet.Placement

/-! # Placement over whole lifetimes

A daemon starts and stops, its manifests change and its shard directories are removed. Wherever
the views of placement agree, no key is imported twice, no directory is run twice and no shard is
overfilled. Nothing in the code makes them agree.
-/

namespace Zecd.Fleet

open Runs

variable {Key : Type} (cfg : FleetConfig Key)

/-! ## Directories removed by hand -/

def removeDir (dirs : List (ShardDir Key)) (index : ℕ) : List (ShardDir Key) :=
  dirs.filter fun s => s.index != index

/-- Keys are apart, and the shards of a daemon run as they should. -/
structure PlacementInv (w : World Key) : Prop where
  keys : KeysApart w.dirs
  running : ∀ d ∈ w.daemon, Running cfg w.dirs d.shards

section Removed

variable {cfg} {dirs : List (ShardDir Key)} {i : ℕ} {db : ShardDb Key} {w : World Key}

theorem dbAt_of_removeDir {index : ℕ} (h : dbAt (removeDir dirs index) i = some db) :
    dbAt dirs i = some db := by
  obtain ⟨s, hs, hdb⟩ := Option.bind_eq_some_iff.mp h
  have hmem := List.mem_filter.mp (List.mem_of_find?_eq_some hs)
  have hi : s.index = i := by simpa using List.find?_some hs
  have hne : i ≠ index := by simpa [hi] using hmem.2
  have hfind : (dirs.find? fun s => s.index == i) = some s := by
    rw [removeDir, List.find?_filter] at hs
    rw [← hs]
    congr 1
    funext t
    by_cases ht : t.index = i
    · simp [ht, hne]
    · simp [ht]
  rw [dbAt, hfind]
  exact hdb

theorem account_of_removeDir {index : ℕ} {a : ShardAccount Key}
    (ha : a ∈ (shardDb (removeDir dirs index) i).accounts) : a ∈ (shardDb dirs i).accounts := by
  cases hdb : dbAt (removeDir dirs index) i with
  | none =>
    rw [shardDb, hdb] at ha
    exact absurd ha List.not_mem_nil
  | some db =>
    rw [shardDb_of_dbAt hdb] at ha
    rwa [shardDb_of_dbAt (dbAt_of_removeDir hdb)]

/-- Removing a directory removes accounts, and the queue of its shard with its database. -/
theorem removeDir_inv (index : ℕ) (h : PlacementInv cfg w) :
    PlacementInv cfg { w with dirs := removeDir w.dirs index } where
  keys i j a ha b hb := h.keys i j a (account_of_removeDir ha) b (account_of_removeDir hb)
  running d hd :=
    have hrun := h.running d hd
    { dirs_nodup := hrun.dirs_nodup
      accounts := fun rs hrs m hm i a ha => hrun.accounts rs hrs m hm i a (account_of_removeDir ha)
      queues := hrun.queues
      fits := fun rs hrs db hdb => hrun.fits rs hrs db (dbAt_of_removeDir hdb) }

theorem answered_fst (r : World Key × Except RpcError WalletResponse) :
    (answered r).1 = r.1 := by
  obtain ⟨w, r⟩ := r
  cases r <;> rfl

end Removed

variable [DecidableEq Key]

/-! ## Lifetimes -/

/-- An event of the daemon or its manifests, or a shard directory removed by hand. -/
inductive LifeEvent
  | daemon (e : Event)
  | removeShardDir (index : ℕ)

def liveStep (w : World Key) (e : LifeEvent) : World Key :=
  match e with
  | .daemon e => step cfg w e
  | .removeShardDir index => { w with dirs := removeDir w.dirs index }

/-! ## What is asked of a step -/

def Event.isStart : Event → Bool
  | .start _ => true
  | _ => false

def LifeEvent.isStart : LifeEvent → Bool
  | .daemon e => e.isStart
  | .removeShardDir _ => false

/-- After the event no key is in two shards and no directory under two actors; a start plans no
existing directory that it did not inspect; and an import finds room in its shard. -/
structure SafelyPlaced (w : World Key) (e : LifeEvent) : Prop where
  keys : KeysApart (liveStep cfg w e).dirs
  actors : ∀ d ∈ (liveStep cfg w e).daemon, (d.shards.map ShardRuntime.dir).Nodup
  inspected : e.isStart = true → w.daemon = none → ∀ s ∈ shardsOf cfg w,
    dirExists w.dirs s.1 = true → s.1 ∈ existingShardDirs w.dirs
  room : ∀ i, ∀ a ∈ (shardDb (liveStep cfg w e).dirs i).accounts,
    a ∉ (shardDb w.dirs i).accounts → (shardDb w.dirs i).state.Takes cfg a.birthday

def LifeEvent.daemonEvent : LifeEvent → Option Event
  | .daemon e => some e
  | .removeShardDir _ => none

def Event.pass : Event → Option (ℕ × ImportPass)
  | .importPass p pass => some (p, pass)
  | _ => none

def ViewsAgree (w : World Key) (e : LifeEvent) : Prop :=
  ∀ e' ∈ e.daemonEvent,
    (e'.isStart = true → w.daemon = none → Restartable cfg w) ∧
    ∀ d ∈ w.daemon,
      (∀ a ∈ onboards cfg w e', (onboardChecks cfg w d a.1 a.2).isOk = true →
        Admits cfg w.dirs d a.1) ∧
      ∀ a ∈ e'.pass, ∀ rs ∈ d.shards[a.1]?, RefusalFits cfg w.dirs rs a.2

instance (w : World Key) (e : LifeEvent) : Decidable (ViewsAgree cfg w e) :=
  inferInstanceAs (Decidable (∀ e' ∈ e.daemonEvent, _))

/-! ## Steps -/

section Steps

variable {cfg} {m : ShardMember} {i : ℕ} {w w' : World Key}

theorem onboard_inv {d : Daemon} {persist : Bool} {answer : ActorAnswer}
    {r : Except OnboardError Unit} (hsize : 0 < cfg.shardSize)
    (honboard : onboard cfg w d m persist answer = (w', r)) (hd : w.daemon = some d)
    (hadmits : (onboardChecks cfg w d m persist).isOk = true → Admits cfg w.dirs d m)
    (h : PlacementInv cfg w) :
    (∀ i, shardDb w'.dirs i = shardDb w.dirs i) ∧ PlacementInv cfg w' := by
  rcases onboard_cases honboard with ⟨e, rfl, -⟩ |
    ⟨manifests, dirs', d', handle, hchecks, hplace, rfl, -⟩ |
    ⟨manifests, dirs', d', why, hchecks, hplace, rfl, -⟩
  · exact ⟨fun _ => rfl, h⟩
  · obtain ⟨hdbs, hrunning⟩ := place_running hsize hplace (hadmits (by rw [hchecks]; rfl))
      (h.running d hd)
    refine ⟨hdbs, h.keys.congr hdbs, ?_⟩
    rintro _ ⟨⟩
    exact hrunning
  · obtain ⟨hdbs, hrunning⟩ := place_running hsize hplace (hadmits (by rw [hchecks]; rfl))
      (h.running d hd)
    refine ⟨hdbs, h.keys.congr hdbs, ?_⟩
    rintro _ ⟨⟩
    exact hrunning

theorem shardDb_start {s : Startup} : shardDb (start cfg w s).1.dirs i = shardDb w.dirs i := by
  have hspawned : ∀ {loaded : List String} {dirs' : List (ShardDir Key)}
      {r : Except String Daemon}, spawnFleet cfg w loaded = (dirs', r) →
        shardDb dirs' i = shardDb w.dirs i := by
    intro loaded dirs' r hspawn
    have hdirs : (spawnFleet cfg w loaded).1 = dirs' := congrArg Prod.fst hspawn
    exact hdirs ▸ spawnFleet_shardDb
  unfold start
  split
  · rfl
  · split
    · next hspawn => exact hspawned hspawn
    · next hspawn =>
      split
      · exact hspawned hspawn
      · split
        · exact hspawned hspawn
        · exact hspawned hspawn

theorem start_inv {s : Startup} (hsize : 0 < cfg.shardSize) (hd : w.daemon = none)
    (hrestart : Restartable cfg w) (h : PlacementInv cfg w) :
    PlacementInv cfg (start cfg w s).1 := by
  refine ⟨h.keys.congr fun _ => shardDb_start, ?_⟩
  generalize hstart : start cfg w s = p
  obtain ⟨w', r⟩ := p
  rcases start_cases hstart with ⟨dirs', why, rfl, -⟩ | ⟨loaded, dirs', d', -, hspawn, -, rfl, -⟩
  · intro d hd'
    rw [hd] at hd'
    cases hd'
  · rintro _ ⟨⟩
    exact spawnFleet_running hsize hrestart hspawn

theorem step_placement {e : Event} (hsize : 0 < cfg.shardSize)
    (hagree : ViewsAgree cfg w (.daemon e)) (h : PlacementInv cfg w) :
    PlacementInv cfg (step cfg w e) ∧
      ∀ i, ∀ a ∈ (shardDb (step cfg w e).dirs i).accounts, a ∉ (shardDb w.dirs i).accounts →
        (shardDb w.dirs i).state.Takes cfg a.birthday := by
  obtain ⟨hrestart, hdaemon⟩ := hagree e rfl
  have hkept : ∀ {w' : World Key}, (∀ i, shardDb w'.dirs i = shardDb w.dirs i) →
      ∀ i, ∀ a ∈ (shardDb w'.dirs i).accounts, a ∉ (shardDb w.dirs i).accounts →
        (shardDb w.dirs i).state.Takes cfg a.birthday :=
    fun hdbs i a ha hnew => absurd (hdbs i ▸ ha) hnew
  cases hd : w.daemon with
  | none =>
    have hstopped : PlacementInv cfg { w with daemon := none } := by
      refine ⟨h.keys, ?_⟩
      intro d hnone
      cases hnone
    cases e with
    | start s =>
      have hstep : step cfg w (.start s) = (start cfg w s).1 := by
        simp only [step, handle, hd]
        split <;> simp_all
      rw [hstep]
      exact ⟨start_inv hsize hd (hrestart rfl hd) h, hkept fun _ => shardDb_start⟩
    | stop => exact ⟨hstopped, hkept fun _ => rfl⟩
    | putManifest file => exact ⟨⟨h.keys, h.running⟩, hkept fun _ => rfl⟩
    | removeManifest name => exact ⟨⟨h.keys, h.running⟩, hkept fun _ => rfl⟩
    | createwallet | loadwallet | unloadwallet | importPass =>
      simp only [step, handle, hd]
      exact ⟨h, hkept fun _ => rfl⟩
  | some d =>
    obtain ⟨honboards, hpass⟩ := hdaemon d hd
    cases e with
    | start s =>
      simp only [step, handle, hd]
      exact ⟨h, hkept fun _ => rfl⟩
    | stop =>
      refine ⟨⟨h.keys, ?_⟩, hkept fun _ => rfl⟩
      intro d hnone
      cases hnone
    | putManifest file => exact ⟨⟨h.keys, h.running⟩, hkept fun _ => rfl⟩
    | removeManifest name => exact ⟨⟨h.keys, h.running⟩, hkept fun _ => rfl⟩
    | createwallet p answer =>
      simp only [step, handle, hd, answered_fst]
      cases hcall : createwallet cfg w d p answer with
      | mk w' r =>
        rcases createwallet_cases hcall with ⟨_, rfl, -⟩ | ⟨m, r', hm, honboard, -⟩
        · exact ⟨h, hkept fun _ => rfl⟩
        · obtain ⟨hdbs, hinv⟩ := onboard_inv hsize honboard hd (honboards (m, true) hm) h
          exact ⟨hinv, hkept hdbs⟩
    | loadwallet name answer =>
      simp only [step, handle, hd, answered_fst]
      cases hcall : loadwallet cfg w d name answer with
      | mk w' r =>
        rcases loadwallet_cases hcall with ⟨_, rfl, -⟩ | ⟨m, r', hm, honboard, -⟩
        · exact ⟨h, hkept fun _ => rfl⟩
        · obtain ⟨hdbs, hinv⟩ := onboard_inv hsize honboard hd (honboards (m, false) hm) h
          exact ⟨hinv, hkept hdbs⟩
    | unloadwallet name loadOnStartup routed =>
      simp only [step, handle, hd, answered_fst]
      cases hcall : unloadwallet cfg w d name loadOnStartup routed with
      | mk w' r =>
        rcases unloadwallet_cases hcall with ⟨_, rfl, -⟩ | ⟨_, _, -, rfl⟩
        · exact ⟨h, hkept fun _ => rfl⟩
        · refine ⟨⟨h.keys, ?_⟩, hkept fun _ => rfl⟩
          rintro _ ⟨⟩
          exact h.running d hd
    | importPass p pass =>
      simp only [step, handle, hd]
      split
      · exact ⟨h, hkept fun _ => rfl⟩
      · next rs hrs =>
        obtain ⟨hkeys, hrunning, hroom⟩ := importPass_running hrs rfl
          (hpass (p, pass) rfl rs hrs) h.keys (h.running d hd)
        refine ⟨⟨hkeys, ?_⟩, hroom⟩
        rintro _ ⟨⟩
        exact hrunning

theorem liveStep_placement {e : LifeEvent} (hsize : 0 < cfg.shardSize)
    (hagree : ViewsAgree cfg w e) (h : PlacementInv cfg w) :
    PlacementInv cfg (liveStep cfg w e) ∧
      ∀ i, ∀ a ∈ (shardDb (liveStep cfg w e).dirs i).accounts, a ∉ (shardDb w.dirs i).accounts →
        (shardDb w.dirs i).state.Takes cfg a.birthday := by
  cases e with
  | daemon e => exact step_placement hsize hagree h
  | removeShardDir index =>
    exact ⟨removeDir_inv index h, fun i a ha hnew => absurd (account_of_removeDir ha) hnew⟩

theorem safelyPlaced {e : LifeEvent} (hsize : 0 < cfg.shardSize) (hagree : ViewsAgree cfg w e)
    (h : PlacementInv cfg w) : SafelyPlaced cfg w e where
  keys := (liveStep_placement hsize hagree h).1.keys
  actors d hd := ((liveStep_placement hsize hagree h).1.running d hd).dirs_nodup
  inspected hstart hd s _ hdir := by
    cases e with
    | removeShardDir index => cases hstart
    | daemon e =>
      obtain ⟨t, ht, hi⟩ := exists_dir_of_dirExists hdir
      exact hi ▸ ((hagree e rfl).1 hstart hd).noGap t ht
  room := (liveStep_placement hsize hagree h).2

end Steps

/-! ## Lifetimes whose views agree -/

/-- Where the views agree throughout a lifetime, every event of it leaves the wallets safely
placed. -/
theorem lifetimes_safelyPlaced (hsize : 0 < cfg.shardSize) (manifests : ManifestDir)
    (es : List LifeEvent) (hagree : Along (liveStep cfg) (ViewsAgree cfg) (fresh manifests) es) :
    Along (liveStep cfg) (SafelyPlaced cfg) (fresh manifests) es := by
  have hfresh : PlacementInv cfg (fresh manifests) := ⟨fun _ _ a ha => absurd ha List.not_mem_nil,
    nofun⟩
  exact along_imp (I := PlacementInv cfg) (fun _ _ h he => (liveStep_placement hsize he h).1)
    (fun _ _ h he => safelyPlaced hsize he h) hfresh hagree

/-- Shards of at most two wallets. -/
def pairFleet : FleetConfig String := { uviewFleet with shardSize := 2 }

def createView (name ufvk : String) : Event :=
  .createwallet ⟨.string name, .absent, .absent, .absent, .string ufvk, .number 100⟩ .up

/-- Two wallets fill a shard, one opens the next shard, and all are found again at a restart. -/
def fullShardRun : List LifeEvent :=
  [.daemon (.start cleanStart), .daemon (createView "a" "uviewA"),
    .daemon (createView "b" "uviewB"), .daemon (createView "c" "uviewC"),
    .daemon (.importPass 0 (.imports 1)), .daemon (.importPass 0 (.imports 2)),
    .daemon (.importPass 1 (.imports 3)), .daemon .stop, .daemon (.start cleanStart)]

theorem fullShardRun_safelyPlaced :
    0 < pairFleet.shardSize ∧
    Along (liveStep pairFleet) (SafelyPlaced pairFleet) (fresh noManifests) fullShardRun :=
  ⟨by decide, lifetimes_safelyPlaced pairFleet (by decide) noManifests fullShardRun
    (by decide)⟩

/-- The manifest of one of two imported wallets is removed before a restart. -/
def unlistedRun : List LifeEvent :=
  [.daemon (.putManifest ⟨"a", .ok ⟨"uviewA", 100⟩⟩),
    .daemon (.putManifest ⟨"b", .ok ⟨"uviewB", 100⟩⟩), .daemon (.start cleanStart),
    .daemon (.importPass 0 (.imports 1)), .daemon (.importPass 0 (.imports 2)), .daemon .stop,
    .daemon (.removeManifest "b"), .daemon (.start cleanStart),
    .daemon (createView "c" "uviewC")]

/-- The manager counts one wallet in the full shard, and a third account is imported into it. -/
theorem unlistedRun_overfills :
    0 < pairFleet.shardSize ∧ ¬ Along (liveStep pairFleet) (SafelyPlaced pairFleet)
      (fresh noManifests) (unlistedRun ++ [.daemon (.importPass 0 (.imports 3))]) := by
  refine ⟨by decide, fun hall => ?_⟩
  have hlast := ((along_append.mp hall).2).1
  have hfull : (shardDb (run (liveStep pairFleet) (fresh noManifests) unlistedRun).dirs
      0).accounts.length = 2 := by decide
  have hold : ∀ a ∈ (shardDb (run (liveStep pairFleet) (fresh noManifests) unlistedRun).dirs
      0).accounts, a.uuid ≠ 3 := by decide
  have hnew : ∃ a ∈ (shardDb (liveStep pairFleet (run (liveStep pairFleet) (fresh noManifests)
      unlistedRun) (.daemon (.importPass 0 (.imports 3)))).dirs 0).accounts, a.uuid = 3 := by
    decide
  obtain ⟨a, ha, huuid⟩ := hnew
  have hsize := (hlast.room 0 a ha fun h => hold a h huuid).size
  rw [ShardDb.state, hfull] at hsize
  exact absurd hsize (by decide)

end Zecd.Fleet
