import Zecd.Fleet.Queues

/-! # Shards that run as they should

Startup places by the names in the shard databases, onboarding by the names and counts that the
manager keeps, and an import binds by viewing key within one shard. Where these views agree,
queues go on fitting their shards and a queued key is nowhere else.
-/

namespace Zecd.Fleet

variable {Key : Type} (cfg : FleetConfig Key)

/-- No viewing key has accounts in two shards. -/
def KeysApart (dirs : List (ShardDir Key)) : Prop :=
  ∀ i j, ∀ a ∈ (shardDb dirs i).accounts, ∀ b ∈ (shardDb dirs j).accounts,
    a.ufvk = b.ufvk → i = j

/-! ## Where the views agree -/

section Statement

variable [DecidableEq Key]

/-- No other shard has an account of the member's key, or a member of that key queued. -/
def KeyOnlyIn (dirs : List (ShardDir Key)) (shards : List ShardRuntime) (i : ℕ)
    (m : ShardMember) : Prop :=
  (∀ s ∈ dirs, ∀ a ∈ (shardDb dirs s.index).accounts,
    keyOf cfg m = some a.ufvk → s.index = i) ∧
  ∀ rs ∈ shards, ∀ q ∈ rs.actor.shardPending, keyOf cfg q = keyOf cfg m → rs.dir = i

/-- The shard's database and queue, and not only the manager's record, have room. -/
def HasRoom (dirs : List (ShardDir Key)) (rs : ShardRuntime) (m : ShardMember) : Prop :=
  ∀ db ∈ dbAt dirs rs.dir, (db.state.addAll rs.actor.shardPending).Takes cfg m.birthday

def targetShard (d : Daemon) (m : ShardMember) : ℕ :=
  (placeMembers cfg (d.shards.map ShardRuntime.state) [m]).headD 0

/-- A member that is queued again, or queued in the shard that the manager picks, finds room
there, and its key nowhere else. One that opens a shard finds its key nowhere, and the
directories of the running shards in place. -/
structure Admits (dirs : List (ShardDir Key)) (d : Daemon) (m : ShardMember) : Prop where
  requeued : ∀ p ∈ d.shardHolding m.name, ∀ rs ∈ d.shards[p]?,
    rs.actor.hasImportError m.name = true →
      KeyOnlyIn cfg dirs d.shards rs.dir m ∧ HasRoom cfg dirs rs m
  queued : d.shardHolding m.name = none → ∀ rs ∈ d.shards[targetShard cfg d m]?,
    KeyOnlyIn cfg dirs d.shards rs.dir m ∧ HasRoom cfg dirs rs m
  opened : d.shardHolding m.name = none → d.shards[targetShard cfg d m]? = none →
    (∀ rs ∈ d.shards, dirExists dirs rs.dir = true) ∧
      KeyOnlyIn cfg dirs d.shards (nextFreeShardDir dirs (targetShard cfg d m)) m

/-- The pass drops the member from its queue without an account. -/
def refuses (db : ShardDb Key) (m : ShardMember) : ImportPass → Bool
  | .waits => false
  | .refused _ => true
  | .imports uuid => !(importMember cfg db m uuid).isOk

def RefusalFits (dirs : List (ShardDir Key)) (rs : ShardRuntime) (pass : ImportPass) : Prop :=
  ∀ db ∈ dbAt dirs rs.dir, ∀ m ∈ rs.actor.shardPending.head?, refuses cfg db m pass = true →
    QueueFits cfg db.state rs.actor.shardPending.tail

instance (dirs : List (ShardDir Key)) (shards : List ShardRuntime) (i : ℕ) (m : ShardMember) :
    Decidable (KeyOnlyIn cfg dirs shards i m) :=
  inferInstanceAs (Decidable (_ ∧ _))

instance (dirs : List (ShardDir Key)) (rs : ShardRuntime) (m : ShardMember) :
    Decidable (HasRoom cfg dirs rs m) :=
  inferInstanceAs (Decidable (∀ db ∈ dbAt dirs rs.dir, _))

instance (dirs : List (ShardDir Key)) (d : Daemon) (m : ShardMember) :
    Decidable (Admits cfg dirs d m) :=
  decidable_of_iff
    ((∀ p ∈ d.shardHolding m.name, ∀ rs ∈ d.shards[p]?,
      rs.actor.hasImportError m.name = true →
        KeyOnlyIn cfg dirs d.shards rs.dir m ∧ HasRoom cfg dirs rs m) ∧
    (d.shardHolding m.name = none → ∀ rs ∈ d.shards[targetShard cfg d m]?,
      KeyOnlyIn cfg dirs d.shards rs.dir m ∧ HasRoom cfg dirs rs m) ∧
    (d.shardHolding m.name = none → d.shards[targetShard cfg d m]? = none →
      (∀ rs ∈ d.shards, dirExists dirs rs.dir = true) ∧
        KeyOnlyIn cfg dirs d.shards (nextFreeShardDir dirs (targetShard cfg d m)) m))
    ⟨fun h => ⟨h.1, h.2.1, h.2.2⟩, fun h => ⟨h.requeued, h.queued, h.opened⟩⟩

instance (dirs : List (ShardDir Key)) (rs : ShardRuntime) (pass : ImportPass) :
    Decidable (RefusalFits cfg dirs rs pass) :=
  inferInstanceAs (Decidable (∀ db ∈ dbAt dirs rs.dir, _))

end Statement

/-! ## Running shards -/

/-- No directory is run twice; a queued member's key is only in its own shard, whose queue fits
its database. -/
structure Running (dirs : List (ShardDir Key)) (shards : List ShardRuntime) : Prop where
  dirs_nodup : (shards.map ShardRuntime.dir).Nodup
  accounts : ∀ rs ∈ shards, ∀ m ∈ rs.actor.shardPending, ∀ i,
    ∀ a ∈ (shardDb dirs i).accounts, keyOf cfg m = some a.ufvk → i = rs.dir
  queues : ∀ rs ∈ shards, ∀ rs' ∈ shards, ∀ m ∈ rs.actor.shardPending,
    ∀ m' ∈ rs'.actor.shardPending, (keyOf cfg m).isSome → keyOf cfg m = keyOf cfg m' →
      rs.dir = rs'.dir
  fits : ∀ rs ∈ shards, ∀ db ∈ dbAt dirs rs.dir, QueueFits cfg db.state rs.actor.shardPending

section Steps

variable {cfg} {dirs dirs' : List (ShardDir Key)} {shards : List ShardRuntime}
  {rs rs' rs'' : ShardRuntime} {m : ShardMember} {ms : List ShardMember} {p i : ℕ}
  {db : ShardDb Key}

theorem shardDb_of_dbAt (h : dbAt dirs i = some db) : shardDb dirs i = db := by
  rw [shardDb, h, Option.getD_some]

theorem KeysApart.congr (h : KeysApart dirs) (hdbs : ∀ i, shardDb dirs' i = shardDb dirs i) :
    KeysApart dirs' := by
  intro i j a ha b hb
  rw [hdbs] at ha hb
  exact h i j a ha b hb

theorem keyOnlyIn_accounts (h : KeyOnlyIn cfg dirs shards i m) {j : ℕ} {a : ShardAccount Key}
    (ha : a ∈ (shardDb dirs j).accounts) (hkey : keyOf cfg m = some a.ufvk) : j = i := by
  obtain ⟨s, hs, rfl⟩ := exists_dir_of_account ha
  exact h.1 s hs a ha hkey

theorem mem_set_cases (hnodup : (shards.map ShardRuntime.dir).Nodup)
    (hrs : shards[p]? = some rs) (h : rs'' ∈ shards.set p rs') :
    rs'' = rs' ∨ rs'' ∈ shards ∧ rs''.dir ≠ rs.dir := by
  obtain ⟨q, hq⟩ := List.mem_iff_getElem?.mp h
  by_cases hqp : q = p
  · subst hqp
    have hlt := (List.getElem?_eq_some_iff.mp hrs).1
    rw [List.getElem?_set_self hlt] at hq
    exact .inl (Option.some.inj hq).symm
  · rw [List.getElem?_set_ne (Ne.symm hqp)] at hq
    refine .inr ⟨List.mem_of_getElem? hq, fun hdir => hqp ?_⟩
    have hlt := (List.getElem?_eq_some_iff.mp hq).1
    refine (List.getElem?_inj (by rwa [List.length_map]) hnodup).mp ?_
    rw [List.getElem?_map, List.getElem?_map, hq, hrs, Option.map_some, Option.map_some, hdir]

theorem map_dir_set (hrs : shards[p]? = some rs) (hdir : rs'.dir = rs.dir) :
    (shards.set p rs').map ShardRuntime.dir = shards.map ShardRuntime.dir := by
  obtain ⟨hlt, heq⟩ := List.getElem?_eq_some_iff.mp hrs
  rw [List.map_set, hdir, ← heq]
  refine List.ext_getElem? fun q => ?_
  by_cases hq : q = p
  · subst hq
    rw [List.getElem?_set_self (by rwa [List.length_map]), List.getElem?_map,
      List.getElem?_eq_getElem hlt, Option.map_some]
  · rw [List.getElem?_set_ne (Ne.symm hq)]

namespace Running

theorem mono (h : Running cfg dirs shards) (hdbs : ∀ i, shardDb dirs' i = shardDb dirs i)
    (hrunning : ∀ rs ∈ shards, dbAt dirs' rs.dir = dbAt dirs rs.dir) :
    Running cfg dirs' shards where
  dirs_nodup := h.dirs_nodup
  accounts rs hrs m hm i a ha hkey := h.accounts rs hrs m hm i a (hdbs i ▸ ha) hkey
  queues := h.queues
  fits rs hrs db hdb := h.fits rs hrs db (hrunning rs hrs ▸ hdb)

theorem queue (h : Running cfg dirs shards) (hrs : shards[p]? = some rs)
    (hdir : rs'.dir = rs.dir) (hpending : rs'.actor.shardPending = rs.actor.shardPending ++ [m])
    (hkey : KeyOnlyIn cfg dirs shards rs.dir m) (hroom : HasRoom cfg dirs rs m) :
    Running cfg dirs (shards.set p rs') := by
  have hmem := List.mem_of_getElem? hrs
  have hqueued : ∀ q ∈ rs'.actor.shardPending, q ∈ rs.actor.shardPending ∨ q = m := by
    intro q hq
    rw [hpending, List.mem_append, List.mem_singleton] at hq
    exact hq
  refine ⟨by rw [map_dir_set hrs hdir]; exact h.dirs_nodup, ?_, ?_, ?_⟩
  · intro r hr q hq i a ha hk
    rcases mem_set_cases h.dirs_nodup hrs hr with rfl | ⟨hr, -⟩
    · rw [hdir]
      rcases hqueued q hq with hq | rfl
      · exact h.accounts rs hmem q hq i a ha hk
      · exact keyOnlyIn_accounts hkey ha hk
    · exact h.accounts r hr q hq i a ha hk
  · -- each queue is an old one, or has the new member behind an old one
    have hold : ∀ r ∈ shards.set p rs', ∀ q ∈ r.actor.shardPending,
        (q = m ∧ r.dir = rs.dir) ∨ ∃ r₀ ∈ shards, r₀.dir = r.dir ∧ q ∈ r₀.actor.shardPending := by
      intro r hr q hq
      rcases mem_set_cases h.dirs_nodup hrs hr with rfl | ⟨hr, -⟩
      · rcases hqueued q hq with hq | rfl
        · exact .inr ⟨rs, hmem, hdir.symm, hq⟩
        · exact .inl ⟨rfl, hdir⟩
      · exact .inr ⟨r, hr, rfl, hq⟩
    intro r hr r' hr' q hq q' hq' hsome hk
    rcases hold r hr q hq with ⟨rfl, hd⟩ | ⟨r₀, hr₀, hd, hq₀⟩
    · rcases hold r' hr' q' hq' with ⟨rfl, hd'⟩ | ⟨r₀', hr₀', hd', hq₀'⟩
      · rw [hd, hd']
      · rw [hd, ← hd']
        exact (hkey.2 r₀' hr₀' q' hq₀' hk.symm).symm
    · rcases hold r' hr' q' hq' with ⟨rfl, hd'⟩ | ⟨r₀', hr₀', hd', hq₀'⟩
      · rw [hd', ← hd]
        exact hkey.2 r₀ hr₀ q hq₀ hk
      · rw [← hd, ← hd']
        exact h.queues r₀ hr₀ r₀' hr₀' q hq₀ q' hq₀' hsome hk
  · intro r hr db hdb
    rcases mem_set_cases h.dirs_nodup hrs hr with rfl | ⟨hr, -⟩
    · rw [hdir] at hdb
      rw [hpending]
      exact queueFits_append.mpr ⟨h.fits rs hmem db hdb, hroom db hdb⟩
    · exact h.fits r hr db hdb

/-- The head of a queue is dropped, or becomes the account that the shard's database gains. -/
theorem pop (h : Running cfg dirs shards) (hrs : shards[p]? = some rs) (hdir : rs'.dir = rs.dir)
    (hq : rs.actor.shardPending = m :: ms) (hpending : rs'.actor.shardPending = ms)
    (hothers : ∀ i, i ≠ rs.dir → dbAt dirs' i = dbAt dirs i)
    (hself : ∀ a ∈ (shardDb dirs' rs.dir).accounts,
      a ∈ (shardDb dirs rs.dir).accounts ∨ keyOf cfg m = some a.ufvk)
    (hfits : ∀ db ∈ dbAt dirs' rs.dir, QueueFits cfg db.state ms) :
    Running cfg dirs' (shards.set p rs') := by
  have hmem := List.mem_of_getElem? hrs
  have hold : ∀ r ∈ shards.set p rs', ∃ r₀ ∈ shards, r₀.dir = r.dir ∧
      ∀ q ∈ r.actor.shardPending, q ∈ r₀.actor.shardPending := by
    intro r hr
    rcases mem_set_cases h.dirs_nodup hrs hr with rfl | ⟨hr, -⟩
    · refine ⟨rs, hmem, hdir.symm, fun q hq' => ?_⟩
      rw [hq]
      exact List.mem_cons_of_mem m (hpending ▸ hq')
    · exact ⟨r, hr, rfl, fun _ hq => hq⟩
  refine ⟨by rw [map_dir_set hrs hdir]; exact h.dirs_nodup, ?_, ?_, ?_⟩
  · intro r hr q hqr i a ha hk
    obtain ⟨r₀, hr₀, hd, hsub⟩ := hold r hr
    rw [← hd]
    by_cases hi : i = rs.dir
    · subst hi
      rcases hself a ha with ha | hkey
      · exact h.accounts r₀ hr₀ q (hsub q hqr) _ a ha hk
      · -- the new account has the key of a queued member, which is queued nowhere else
        refine h.queues rs hmem r₀ hr₀ m (hq ▸ List.mem_cons_self) q (hsub q hqr) ?_ ?_
        · rw [hkey, Option.isSome_some]
        · rw [hkey, hk]
    · have ha' : a ∈ (shardDb dirs i).accounts := by rwa [shardDb, ← hothers i hi]
      exact h.accounts r₀ hr₀ q (hsub q hqr) i a ha' hk
  · intro r hr r' hr' q hqr q' hqr' hsome hk
    obtain ⟨r₀, hr₀, hd, hsub⟩ := hold r hr
    obtain ⟨r₀', hr₀', hd', hsub'⟩ := hold r' hr'
    rw [← hd, ← hd']
    exact h.queues r₀ hr₀ r₀' hr₀' q (hsub q hqr) q' (hsub' q' hqr') hsome hk
  · intro r hr db hdb
    rcases mem_set_cases h.dirs_nodup hrs hr with rfl | ⟨hr, hne⟩
    · rw [hpending]
      exact hfits db (hdir ▸ hdb)
    · exact h.fits r hr db (hothers r.dir hne ▸ hdb)

theorem append (h : Running cfg dirs shards) (hdir : ∀ r ∈ shards, r.dir ≠ rs.dir)
    (hkeys : ∀ m ∈ rs.actor.shardPending, KeyOnlyIn cfg dirs shards rs.dir m)
    (hfits : ∀ db ∈ dbAt dirs rs.dir, QueueFits cfg db.state rs.actor.shardPending) :
    Running cfg dirs (shards ++ [rs]) := by
  have hcases : ∀ r ∈ shards ++ [rs], r ∈ shards ∨ r = rs := by
    intro r hr
    rwa [List.mem_append, List.mem_singleton] at hr
  refine ⟨?_, ?_, ?_, ?_⟩
  · rw [List.map_append, List.nodup_append]
    refine ⟨h.dirs_nodup, List.nodup_singleton _, fun i hi j hj => ?_⟩
    obtain ⟨r, hr, rfl⟩ := List.mem_map.mp hi
    rw [List.mem_singleton.mp hj]
    exact hdir r hr
  · intro r hr q hq i a ha hk
    rcases hcases r hr with hr | rfl
    · exact h.accounts r hr q hq i a ha hk
    · exact keyOnlyIn_accounts (hkeys q hq) ha hk
  · intro r hr r' hr' q hq q' hq' hsome hk
    rcases hcases r hr with hold | rfl
    · rcases hcases r' hr' with hold' | rfl
      · exact h.queues r hold r' hold' q hq q' hq' hsome hk
      · exact (hkeys q' hq').2 r hold q hq hk
    · rcases hcases r' hr' with hold' | rfl
      · exact ((hkeys q hq).2 r' hold' q' hq' hk.symm).symm
      · rfl
  · intro r hr db hdb
    rcases hcases r hr with hr | rfl
    · exact h.fits r hr db hdb
    · exact hfits db hdb

end Running

/-! ## Onboarding -/

theorem nextFreeShardDir_free (dirs : List (ShardDir Key)) (start : ℕ) :
    dirExists dirs (nextFreeShardDir dirs start) = false := by
  unfold nextFreeShardDir
  cases hfind : (List.range' start (dirs.length + 1)).find? fun i => !dirExists dirs i with
  | some i => simpa using List.find?_some hfind
  | none =>
    -- more directories would be there than there are
    have hall : List.range' start (dirs.length + 1) ⊆ dirs.map ShardDir.index := by
      intro i hi
      have hdir : dirExists dirs i = true := by simpa using List.find?_eq_none.mp hfind i hi
      obtain ⟨s, hs, rfl⟩ := exists_dir_of_dirExists hdir
      exact List.mem_map_of_mem hs
    have hle := (List.subperm_of_subset List.nodup_range' hall).length_le
    rw [List.length_range', List.length_map] at hle
    omega

theorem shardDb_createDir : shardDb (createDir dirs i) p = shardDb dirs p := by
  rw [shardDb, dbAt_createDir, shardDb]

theorem ne_of_dirExists (hdir : dirExists dirs p = true) (hfree : dirExists dirs i = false) :
    p ≠ i := by
  rintro rfl
  rw [hdir] at hfree
  cases hfree

variable [DecidableEq Key]

theorem spawnShard_cases (h : spawnShard cfg dirs i ms = .ok rs) :
    ∃ r, reconcileAccounts cfg (shardDb dirs i) ms = .ok r ∧ rs.dir = i ∧
      rs.actor.shardPending = r.pending := by
  unfold spawnShard at h
  split at h
  · cases h
  · next db hdb =>
    split at h
    · cases h
    · next r hr =>
      cases h
      exact ⟨r, by rw [shardDb_of_dbAt hdb]; exact hr, rfl, rfl⟩

theorem spawnShard_fresh (hfree : dirExists dirs i = false)
    (h : spawnShard cfg (initDb (createDir dirs i) i) i [m] = .ok rs) :
    rs.dir = i ∧ rs.actor.shardPending = [m] := by
  obtain ⟨r, hr, hdir, hpending⟩ := spawnShard_cases h
  refine ⟨hdir, hpending.trans ?_⟩
  rw [shardDb_prepare, shardDb_of_not_dirExists hfree] at hr
  rw [reconcileAccounts_pending hr]
  rfl

/-- Placing an admitted member changes no account, and the shards go on running as they should. -/
theorem place_running {d d' : Daemon} {answer : ActorAnswer} {r : Except String FleetHandle}
    (hsize : 0 < cfg.shardSize) (hplace : place cfg dirs d m answer = (dirs', d', r))
    (hadmits : Admits cfg dirs d m) (h : Running cfg dirs d.shards) :
    (∀ i, shardDb dirs' i = shardDb dirs i) ∧ Running cfg dirs' d'.shards := by
  unfold place at hplace
  split at hplace
  · next p hp =>
    split at hplace
    · cases hplace
      exact ⟨fun _ => rfl, h⟩
    · next rs hrs =>
      split at hplace
      · next herror =>
        split at hplace
        · next rs' hq =>
          cases hplace
          obtain ⟨-, -, rfl⟩ := queueMember_cases hq
          obtain ⟨hkey, hroom⟩ := hadmits.requeued p hp rs hrs herror
          exact ⟨fun _ => rfl, h.queue hrs rfl rfl hkey hroom⟩
        · cases hplace
          exact ⟨fun _ => rfl, h⟩
      · cases hplace
        exact ⟨fun _ => rfl, h⟩
  · next hnone =>
    dsimp only at hplace
    split at hplace
    · next rs hrs =>
      split at hplace
      · next rs' hq =>
        cases hplace
        obtain ⟨-, -, rfl⟩ := queueMember_cases hq
        obtain ⟨hkey, hroom⟩ := hadmits.queued hnone rs hrs
        exact ⟨fun _ => rfl, h.queue hrs rfl rfl hkey hroom⟩
      · cases hplace
        exact ⟨fun _ => rfl, h⟩
    · next htarget =>
      obtain ⟨hdirs, hkey⟩ := hadmits.opened hnone htarget
      have hfree := nextFreeShardDir_free dirs (targetShard cfg d m)
      unfold targetShard at hkey hfree
      generalize nextFreeShardDir dirs
        ((placeMembers cfg (d.shards.map ShardRuntime.state) [m]).headD 0) = free at *
      have hrunning : ∀ rs ∈ d.shards, rs.dir ≠ free := fun rs hrs =>
        ne_of_dirExists (hdirs rs hrs) hfree
      have hprepared : Running cfg (initDb (createDir dirs free) free) d.shards :=
        h.mono (fun _ => shardDb_prepare) fun rs hrs => dbAt_prepare_of_ne (hrunning rs hrs)
      split at hplace
      · cases hplace
        exact ⟨fun _ => shardDb_createDir, h.mono (fun _ => shardDb_createDir) fun _ _ =>
          dbAt_createDir⟩
      · cases hplace
        exact ⟨fun _ => shardDb_prepare, hprepared⟩
      · split at hplace
        · cases hplace
          exact ⟨fun _ => shardDb_prepare, hprepared⟩
        · next rs hspawn =>
          cases hplace
          obtain ⟨rfl, hpending⟩ := spawnShard_fresh hfree hspawn
          refine ⟨fun _ => shardDb_prepare, hprepared.append hrunning ?_ ?_⟩
          · intro q hq
            rw [hpending, List.mem_singleton] at hq
            subst hq
            refine ⟨fun s hs a ha hk => ?_, hkey.2⟩
            rw [shardDb_prepare] at ha
            exact keyOnlyIn_accounts hkey ha hk
          · intro db hdb
            rw [hpending, ← shardDb_of_dbAt hdb, shardDb_prepare, shardDb_of_not_dirExists hfree]
            exact ⟨emptyShard_takes hsize _, trivial⟩

/-! ## Starts -/

theorem spawnShards_shardDb {d : Daemon} {layout : List (ℕ × List ShardMember)} :
    shardDb (spawnShards cfg dirs d layout).1 i = shardDb dirs i := by
  induction layout generalizing dirs d with
  | nil => rfl
  | cons s layout ih =>
    obtain ⟨index, members⟩ := s
    unfold spawnShards
    dsimp only
    split
    · exact shardDb_prepare
    · exact ih.trans shardDb_prepare

theorem spawnShards_started {d d' : Daemon} {layout : List (ℕ × List ShardMember)}
    (h : spawnShards cfg dirs d layout = (dirs', .ok d')) :
    ∃ started, d'.shards = d.shards ++ started ∧
      started.map ShardRuntime.dir = layout.map (·.1) ∧
      ∀ rs ∈ started, ∃ s ∈ layout, ∃ r, rs.dir = s.1 ∧
        reconcileAccounts cfg (shardDb dirs s.1) s.2 = .ok r ∧
        rs.actor.shardPending = r.pending := by
  induction layout generalizing dirs d with
  | nil =>
    cases h
    exact ⟨[], (List.append_nil _).symm, rfl, fun _ h => absurd h List.not_mem_nil⟩
  | cons s layout ih =>
    obtain ⟨index, members⟩ := s
    unfold spawnShards at h
    dsimp only at h
    split at h
    · cases h
    · next rs hrs =>
      obtain ⟨started, hshards, hdirs, hall⟩ := ih h
      obtain ⟨r, hr, hdir, hpending⟩ := spawnShard_cases hrs
      refine ⟨rs :: started, ?_, ?_, ?_⟩
      · rw [hshards, List.append_assoc, List.singleton_append]
      · rw [List.map_cons, List.map_cons, hdirs, hdir]
      · intro rs' hrs'
        rcases List.mem_cons.mp hrs' with rfl | hrs'
        · rw [shardDb_prepare] at hr
          exact ⟨_, List.mem_cons_self, r, hdir, hr, hpending⟩
        · obtain ⟨s, hs, r', hdir', hr', hpending'⟩ := hall rs' hrs'
          rw [shardDb_prepare] at hr'
          exact ⟨s, List.mem_cons_of_mem _ hs, r', hdir', hr', hpending'⟩

variable {w w' : World Key}

theorem spawnFleet_shardDb {loaded : List String} :
    shardDb (spawnFleet cfg w loaded).1 i = shardDb w.dirs i := by
  unfold spawnFleet
  split
  · rfl
  · split
    · rfl
    · split
      · rfl
      · exact spawnShards_shardDb

theorem spawnFleet_cases {loaded : List String} {d' : Daemon}
    (h : spawnFleet cfg w loaded = (dirs', .ok d')) :
    ∃ members skipped, loadManifests cfg w.manifests = .ok (members, skipped) ∧
      spawnShards cfg w.dirs ⟨loaded, [], []⟩ (shardsOf cfg w) = (dirs', .ok d') := by
  have hread := spawnFleet_isSome h
  unfold spawnFleet at h
  split at h
  · cases h
  · next members skipped hload =>
    refine ⟨members, skipped, hload, ?_⟩
    split at h
    · cases h
    · rw [inspectShards_eq hread] at h
      rw [shardsOf_eq hload]
      exact h

theorem spawnFleet_running (hsize : 0 < cfg.shardSize) (hrestart : Restartable cfg w)
    {loaded : List String} {d' : Daemon} (h : spawnFleet cfg w loaded = (dirs', .ok d')) :
    Running cfg dirs' d'.shards := by
  have hfst : (spawnFleet cfg w loaded).1 = dirs' := by rw [h]
  have hdbs : ∀ i, shardDb dirs' i = shardDb w.dirs i := fun i => hfst ▸ spawnFleet_shardDb
  obtain ⟨members, skipped, hload, hspawn⟩ := spawnFleet_cases h
  obtain ⟨started, hshards, hdirs, hall⟩ := spawnShards_started hspawn
  rw [List.nil_append] at hshards
  rw [hshards]
  have hmember : ∀ s ∈ shardsOf cfg w, ∀ r,
      reconcileAccounts cfg (shardDb w.dirs s.1) s.2 = .ok r → ∀ m ∈ r.pending,
        m ∈ s.2 ∧ m ∈ unplacedMembers w.dirs members ∧ m ∈ manifestedMembers cfg w := by
    intro s hs r hr m hm
    have hmem := (reconcileAccounts_spec hr).2.1 m hm
    rw [hrestart.pending hload hs hr] at hm
    have hunplaced := mem_of_mem_sentTo hm
    exact ⟨hmem, hunplaced, manifested_of_loaded hload (List.mem_filter.mp hunplaced).1⟩
  refine ⟨?_, ?_, ?_, ?_⟩
  · rw [hdirs, shardsOf_eq hload]
    exact plan_indices_nodup
  · intro rs hrs m hm i a ha hk
    obtain ⟨s, hs, r, -, hr, hpending⟩ := hall rs hrs
    obtain ⟨-, hunplaced, hmanifest⟩ := hmember s hs r hr m (hpending ▸ hm)
    exact absurd hk (hrestart.free hunplaced hmanifest (hdbs i ▸ ha))
  · intro rs hrs rs' hrs' m hm m' hm' hsome hk
    obtain ⟨s, hs, r, hdir, hr, hpending⟩ := hall rs hrs
    obtain ⟨s', hs', r', hdir', hr', hpending'⟩ := hall rs' hrs'
    obtain ⟨hms, -, hmanifest⟩ := hmember s hs r hr m (hpending ▸ hm)
    obtain ⟨hms', -, hmanifest'⟩ := hmember s' hs' r' hr' m' (hpending' ▸ hm')
    obtain rfl := hrestart.oneName m hmanifest m' hmanifest' hsome hk
    rw [hdir, hdir']
    rw [shardsOf_eq hload] at hs hs'
    exact plan_shard_unique (loadManifests_names_nodup hload) hs hs' hms hms'
  · intro rs hrs db hdb
    obtain ⟨s, hs, r, hdir, hr, hpending⟩ := hall rs hrs
    rw [← shardDb_of_dbAt hdb, hdbs, hdir, hpending]
    exact hrestart.fits hsize hload hs hr

/-! ## Imports -/

omit [DecidableEq Key] in
theorem state_import {db' : ShardDb Key} {a : ShardAccount Key}
    (h : cfg.importAccountUfvk db a = some db') : db'.state = db.state.add a.birthday := by
  have hmin : ∀ l : List ℕ, (l ++ [a.birthday]).min? =
      some ((l.min?.map (min · a.birthday)).getD a.birthday) := by
    intro l
    cases l with
    | nil => rfl
    | cons b l =>
      rw [List.cons_append, List.min?_cons', List.foldl_append, List.min?_cons', Option.map_some,
        Option.getD_some]
      rfl
  rw [ShardDb.state, cfg.appends h, List.length_append, List.length_singleton,
    List.map_append, List.map_singleton, hmin]
  rfl

omit [DecidableEq Key] in
/-- One import pass: what it adds has room, and its key is in no other shard. -/
theorem importPass_running {pass : ImportPass} (hrs : shards[p]? = some rs)
    (hpass : importPendingShardMember cfg dirs rs pass = (dirs', rs'))
    (hrefusal : RefusalFits cfg dirs rs pass) (hkeys : KeysApart dirs)
    (h : Running cfg dirs shards) :
    KeysApart dirs' ∧ Running cfg dirs' (shards.set p rs') ∧
      ∀ i, ∀ a ∈ (shardDb dirs' i).accounts, a ∉ (shardDb dirs i).accounts →
        (shardDb dirs i).state.Takes cfg a.birthday := by
  have hidle : Running cfg dirs (shards.set p rs) := by
    obtain ⟨hlt, heq⟩ := List.getElem?_eq_some_iff.mp hrs
    rw [← heq, List.set_getElem_self]
    exact h
  have hsame : ∀ i, ∀ a ∈ (shardDb dirs i).accounts, a ∉ (shardDb dirs i).accounts →
      (shardDb dirs i).state.Takes cfg a.birthday := fun _ _ ha hnew => absurd ha hnew
  have hmem := List.mem_of_getElem? hrs
  unfold importPendingShardMember at hpass
  split at hpass
  · cases hpass
    exact ⟨hkeys, hidle, hsame⟩
  · next m ms hq =>
    have hdropped : ∀ why : String, (∀ db ∈ dbAt dirs rs.dir, refuses cfg db m pass = true) →
        Running cfg dirs (shards.set p { rs with actor := rs.actor.dropPending m ms why }) := by
      intro why hrefuses
      refine h.pop hrs rfl hq rfl (fun _ _ => rfl) (fun a ha => .inl ha) fun db hdb => ?_
      have hfits := hrefusal db hdb m (by rw [hq]; rfl) (hrefuses db hdb)
      rwa [hq] at hfits
    split at hpass
    · cases hpass
      exact ⟨hkeys, hidle, hsame⟩
    · next why =>
      cases hpass
      exact ⟨hkeys, hdropped why fun _ _ => rfl, hsame⟩
    · next uuid =>
      split at hpass
      · cases hpass
        exact ⟨hkeys, hidle, hsame⟩
      · next db hdb =>
        split at hpass
        · next why himport =>
          cases hpass
          refine ⟨hkeys, hdropped why fun db' hdb' => ?_, hsame⟩
          rw [hdb] at hdb'
          obtain rfl := Option.some.inj hdb'
          rw [refuses, himport]
          rfl
        · next db' himport =>
          cases hpass
          obtain ⟨key, hkey, hadd⟩ := importMember_cases himport
          have haccounts := cfg.appends hadd
          have hself : shardDb (setDb dirs rs.dir db') rs.dir = db' :=
            shardDb_of_dbAt (dbAt_setDb_self (dirExists_of_dbAt hdb))
          have hothers : ∀ i, i ≠ rs.dir → dbAt (setDb dirs rs.dir db') i = dbAt dirs i :=
            fun i hi => dbAt_setDb_of_ne hi
          have hcases : ∀ i, ∀ a ∈ (shardDb (setDb dirs rs.dir db') i).accounts,
              a ∈ (shardDb dirs i).accounts ∨
                i = rs.dir ∧ a = ⟨uuid, m.name, key, m.birthday⟩ := by
            intro i a ha
            by_cases hi : i = rs.dir
            · subst hi
              rw [hself, haccounts, List.mem_append, List.mem_singleton] at ha
              rw [shardDb_of_dbAt hdb]
              exact ha.imp_right fun ha => ⟨rfl, ha⟩
            · rw [shardDb, hothers i hi] at ha
              exact .inl ha
          have hm : m ∈ rs.actor.shardPending := hq ▸ List.mem_cons_self
          have hfits := h.fits rs hmem db hdb
          rw [hq] at hfits
          refine ⟨?_, h.pop hrs rfl hq rfl hothers ?_ ?_, ?_⟩
          · intro i j a ha b hb hab
            rcases hcases i a ha with ha | ⟨rfl, rfl⟩
            · rcases hcases j b hb with hb | ⟨rfl, rfl⟩
              · exact hkeys i j a ha b hb hab
              · exact h.accounts rs hmem m hm i a ha (hkey.trans (congrArg some hab.symm))
            · rcases hcases j b hb with hb | ⟨rfl, rfl⟩
              · exact (h.accounts rs hmem m hm j b hb (hkey.trans (congrArg some hab))).symm
              · rfl
          · intro a ha
            rcases hcases rs.dir a ha with ha | ⟨-, rfl⟩
            · exact .inl ha
            · exact .inr hkey
          · intro db₁ hdb₁
            rw [← shardDb_of_dbAt hdb₁, hself, state_import hadd]
            exact hfits.2
          · intro i a ha hnew
            rcases hcases i a ha with ha | ⟨rfl, rfl⟩
            · exact absurd ha hnew
            · rw [shardDb_of_dbAt hdb]
              exact hfits.1

end Steps

end Zecd.Fleet
