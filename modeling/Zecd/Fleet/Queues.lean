import Zecd.Fleet.Startup

/-! # Where a wallet is placed

A shard is sealed once it is full, and takes no birthday far below its lowest one. Placement
decides by these rules before the accounts exist. A queue of members fits a shard when each
still obeys them once those before it are imported. What a start queues for a shard fits it.
-/

namespace Zecd.Fleet

variable {Key : Type} (cfg : FleetConfig Key)

/-! ## Room -/

/-- The shard is not full, and its lowest birthday is not far above this one. -/
structure ShardState.Takes (s : ShardState) (height : ℕ) : Prop where
  size : s.accounts < cfg.shardSize
  cohort : ∀ lowest ∈ s.lowestBirthday, lowest ≤ height + cfg.cohortDepth

instance (s : ShardState) (height : ℕ) : Decidable (s.Takes cfg height) :=
  decidable_of_iff (s.accounts < cfg.shardSize ∧
      ∀ lowest ∈ s.lowestBirthday, lowest ≤ height + cfg.cohortDepth)
    ⟨fun h => ⟨h.1, h.2⟩, fun h => ⟨h.size, h.cohort⟩⟩

/-- Each member obeys the rules once those before it are imported. -/
def QueueFits : ShardState → List ShardMember → Prop
  | _, [] => True
  | s, m :: ms => s.Takes cfg m.birthday ∧ QueueFits (s.add m.birthday) ms

instance decidableQueueFits : (s : ShardState) → (ms : List ShardMember) →
    Decidable (QueueFits cfg s ms)
  | _, [] => inferInstanceAs (Decidable True)
  | s, m :: ms => @instDecidableAnd _ _ inferInstance (decidableQueueFits (s.add m.birthday) ms)

def ShardState.addAll (s : ShardState) (ms : List ShardMember) : ShardState :=
  ms.foldl (fun s m => s.add m.birthday) s

def emptyShard : ShardState := ⟨0, none⟩

/-- The members that placement sends to one shard, in the order they are given. -/
def sentTo (existing : List ShardState) (ms : List ShardMember) (i : ℕ) : List ShardMember :=
  ((ms.zip (placeMembers cfg existing ms)).filter fun a => a.2 == i).map (·.1)

section Fits

variable {cfg} {s : ShardState} {ms : List ShardMember} {m : ShardMember}
  {existing : List ShardState}

/-- The code's 32-bit check is no weaker. -/
theorem takes_of_accepts {height : ℕ} (h : s.accepts cfg height = true) : s.Takes cfg height := by
  rw [ShardState.accepts, Bool.and_eq_true, decide_eq_true_eq] at h
  refine ⟨h.1, fun lowest hl => ?_⟩
  have hle := h.2
  rw [Option.mem_def.mp hl, Option.all_some, decide_eq_true_eq] at hle
  exact hle.trans (Nat.mod_le _ _)

theorem emptyShard_takes (hsize : 0 < cfg.shardSize) (height : ℕ) :
    emptyShard.Takes cfg height :=
  ⟨hsize, nofun⟩

theorem queueFits_append : QueueFits cfg s (ms ++ [m]) ↔
    QueueFits cfg s ms ∧ (s.addAll ms).Takes cfg m.birthday := by
  induction ms generalizing s with
  | nil => simp [QueueFits, ShardState.addAll]
  | cons m' ms ih =>
    rw [List.cons_append, QueueFits, ih, QueueFits, and_assoc]
    rfl

theorem accepts_of_placementTarget {height i : ℕ}
    (h : placementTarget cfg existing height = some i) :
    ∃ s, existing[i]? = some s ∧ s.accepts cfg height = true := by
  have hany := List.find?_some h
  cases hs : existing[i]? with
  | none => rw [hs] at hany; cases hany
  | some s =>
    rw [hs, Option.any_some] at hany
    exact ⟨s, rfl, hany⟩

variable (cfg) in
theorem sentTo_cons (i : ℕ) : sentTo cfg existing (m :: ms) i =
    match placementTarget cfg existing m.birthday with
    | some j => (if j = i then [m] else []) ++
        sentTo cfg (existing.modify j (·.add m.birthday)) ms i
    | none => (if existing.length = i then [m] else []) ++
        sentTo cfg (existing ++ [emptyShard.add m.birthday]) ms i := by
  unfold sentTo
  rw [placeMembers]
  cases placementTarget cfg existing m.birthday with
  | some j =>
    dsimp only
    rw [List.zip_cons_cons]
    by_cases hj : j = i
    · simp [hj]
    · simp [hj]
  | none =>
    dsimp only
    rw [List.zip_cons_cons]
    by_cases hj : existing.length = i
    · simp [hj, emptyShard]
    · simp [hj, emptyShard]

theorem sentTo_fits (hsize : 0 < cfg.shardSize) (i : ℕ) :
    QueueFits cfg (existing[i]?.getD emptyShard) (sentTo cfg existing ms i) := by
  induction ms generalizing existing with
  | nil => trivial
  | cons m ms ih =>
    rw [sentTo_cons]
    cases htarget : placementTarget cfg existing m.birthday with
    | some j =>
      obtain ⟨s, hs, haccepts⟩ := accepts_of_placementTarget htarget
      have hrest := @ih (existing.modify j (·.add m.birthday))
      dsimp only
      by_cases hj : j = i
      · subst hj
        rw [List.getElem?_modify_eq, hs, Option.map_eq_map, Option.map_some,
          Option.getD_some] at hrest
        rw [if_pos rfl, hs, Option.getD_some]
        exact ⟨takes_of_accepts haccepts, hrest⟩
      · rw [List.getElem?_modify_ne _ _ hj] at hrest
        rw [if_neg hj]
        exact hrest
    | none =>
      have hrest := @ih (existing ++ [emptyShard.add m.birthday])
      dsimp only
      by_cases hj : existing.length = i
      · subst hj
        rw [List.getElem?_concat_length, Option.getD_some] at hrest
        rw [if_pos rfl, List.getElem?_eq_none le_rfl, Option.getD_none]
        exact ⟨emptyShard_takes hsize _, hrest⟩
      · rw [if_neg hj]
        rcases Nat.lt_or_ge i existing.length with hlt | hge
        · rwa [List.getElem?_append_left hlt] at hrest
        · have hpast : (existing ++ [emptyShard.add m.birthday]).length ≤ i := by
            rw [List.length_append, List.length_singleton]
            omega
          rw [List.getElem?_eq_none hpast] at hrest
          rwa [List.getElem?_eq_none hge]

end Fits

/-! ## What a start queues -/

def manifestedMembers (w : World Key) : List ShardMember :=
  w.manifests.files.filterMap fun f => (readManifest cfg f).toOption

/-- The shard directories have no gap, each key is manifested under one name, and under the name
its account has, if it has one. -/
structure Restartable (w : World Key) : Prop where
  noGap : ∀ s ∈ w.dirs, s.index ∈ existingShardDirs w.dirs
  oneName : ∀ m ∈ manifestedMembers cfg w, ∀ m' ∈ manifestedMembers cfg w,
    (keyOf cfg m).isSome → keyOf cfg m = keyOf cfg m' → m = m'
  sameName : ∀ s ∈ w.dirs, ∀ a ∈ (shardDb w.dirs s.index).accounts,
    ∀ m ∈ manifestedMembers cfg w, keyOf cfg m = some a.ufvk → a.name = m.name

instance [DecidableEq Key] (w : World Key) : Decidable (Restartable cfg w) :=
  decidable_of_iff ((∀ s ∈ w.dirs, s.index ∈ existingShardDirs w.dirs) ∧
      (∀ m ∈ manifestedMembers cfg w, ∀ m' ∈ manifestedMembers cfg w,
        (keyOf cfg m).isSome → keyOf cfg m = keyOf cfg m' → m = m') ∧
      ∀ s ∈ w.dirs, ∀ a ∈ (shardDb w.dirs s.index).accounts,
        ∀ m ∈ manifestedMembers cfg w, keyOf cfg m = some a.ufvk → a.name = m.name)
    ⟨fun h => ⟨h.1, h.2.1, h.2.2⟩, fun h => ⟨h.noGap, h.oneName, h.sameName⟩⟩

def readBack (dirs : List (ShardDir Key)) : List (String × ℕ) :=
  (existingShardDirs dirs).flatMap fun i => (shardDb dirs i).placements i

def readStates (dirs : List (ShardDir Key)) : List ShardState :=
  (existingShardDirs dirs).map fun i => (shardDb dirs i).state

/-- The members that a start finds no account for by name. -/
def unplacedMembers (dirs : List (ShardDir Key)) (members : List ShardMember) :
    List ShardMember :=
  members.filter fun m => !(placedAt (readBack dirs) (readStates dirs) m).isSome

section Start

variable {cfg} {w : World Key} {m : ShardMember} {members : List ShardMember}
  {placed : List (String × ℕ)} {existing : List ShardState} {dirs : List (ShardDir Key)}
  {db : ShardDb Key} {i : ℕ}

theorem mem_manifestedMembers : m ∈ manifestedMembers cfg w ↔ Manifested cfg w m := by
  rw [manifestedMembers, List.mem_filterMap]
  refine exists_congr fun f => and_congr_right fun _ => ?_
  cases readManifest cfg f with
  | error why => simp [Except.toOption]
  | ok m' => simp [Except.toOption]

theorem existingShardDirs_eq (dirs : List (ShardDir Key)) :
    existingShardDirs dirs = List.range (existingShardDirs dirs).length := by
  have hprefix : existingShardDirs dirs <+: List.range dirs.length :=
    List.takeWhile_prefix (dirExists dirs)
  have hle := hprefix.length_le
  rw [List.length_range] at hle
  calc existingShardDirs dirs
      = (List.range dirs.length).take (existingShardDirs dirs).length :=
        List.prefix_iff_eq_take.mp hprefix
    _ = List.range (existingShardDirs dirs).length := by
        rw [List.take_range, Nat.min_eq_left hle]

theorem exists_dir_of_dirExists (h : dirExists dirs i = true) : ∃ s ∈ dirs, s.index = i := by
  obtain ⟨s, hs, hi⟩ := List.any_eq_true.mp h
  exact ⟨s, hs, eq_of_beq hi⟩

theorem shardDb_of_not_dirExists (h : dirExists dirs i = false) : shardDb dirs i = emptyDb := by
  unfold shardDb
  cases hdb : dbAt dirs i with
  | none => rfl
  | some db => rw [dirExists_of_dbAt hdb] at h; cases h

theorem exists_dir_of_account {a : ShardAccount Key} (ha : a ∈ (shardDb dirs i).accounts) :
    ∃ s ∈ dirs, s.index = i := by
  cases h : dirExists dirs i with
  | true => exact exists_dir_of_dirExists h
  | false =>
    rw [shardDb_of_not_dirExists h] at ha
    exact absurd ha List.not_mem_nil

theorem Restartable.states (h : Restartable cfg w) (i : ℕ) :
    (readStates w.dirs)[i]?.getD emptyShard = (shardDb w.dirs i).state := by
  rw [readStates, existingShardDirs_eq, List.getElem?_map]
  rcases Nat.lt_or_ge i (existingShardDirs w.dirs).length with hlt | hge
  · rw [List.getElem?_range hlt]
    rfl
  · rw [List.getElem?_eq_none (by rwa [List.length_range]), Option.map_none, Option.getD_none]
    cases hdir : dirExists w.dirs i with
    | false => rw [shardDb_of_not_dirExists hdir]; rfl
    | true =>
      obtain ⟨s, hs, rfl⟩ := exists_dir_of_dirExists hdir
      have hmem := h.noGap s hs
      rw [existingShardDirs_eq, List.mem_range] at hmem
      exact absurd hmem (not_lt.mpr hge)

theorem mem_of_placedAt (h : placedAt placed existing m = some i) : (m.name, i) ∈ placed := by
  obtain ⟨hfind, -⟩ := Option.filter_eq_some_iff.mp h
  obtain ⟨e, he, rfl⟩ := Option.map_eq_some_iff.mp hfind
  have hname : e.1 = m.name := by simpa using List.find?_some he
  rw [← hname]
  exact List.mem_reverse.mp (List.mem_of_find?_eq_some he)

theorem name_ne_of_placedAt (hlt : ∀ e ∈ placed, e.2 < existing.length)
    (h : placedAt placed existing m = none) : ∀ e ∈ placed, e.1 ≠ m.name := by
  intro e he hname
  have hfound : (placed.reverse.find? fun e => e.1 == m.name).isSome :=
    List.find?_isSome.mpr ⟨e, List.mem_reverse.mpr he, by simpa using hname⟩
  obtain ⟨e', he'⟩ := Option.isSome_iff_exists.mp hfound
  have hmem := hlt e' (List.mem_reverse.mp (List.mem_of_find?_eq_some he'))
  simp only [placedAt, he', Option.map_some, Option.filter, decide_eq_true_eq, hmem, if_true] at h
  cases h

/-- The members that a plan sends to a shard: those that have an account there by name, and
those that placement sends there. -/
theorem plan_members {s : ℕ × List ShardMember} (hs : s ∈ plan cfg members placed existing) :
    s.2 = (members.filter fun m => placedAt placed existing m == some s.1) ++
      sentTo cfg existing (members.filter fun m => !(placedAt placed existing m).isSome) s.1 := by
  have hsettled : ∀ ms : List ShardMember,
      (((ms.filterMap fun m => (placedAt placed existing m).map (m, ·)).filter
        fun a => a.2 == s.1).map (·.1)) =
        ms.filter fun m => placedAt placed existing m == some s.1 := by
    intro ms
    induction ms with
    | nil => rfl
    | cons m ms ih =>
      cases hm : placedAt placed existing m with
      | none => simpa [hm] using ih
      | some i =>
        by_cases hi : i = s.1
        · simpa [hm, hi] using ih
        · simpa [hm, hi] using ih
  rw [(mem_plan_iff.mp hs).1, assignShards, List.filter_append, List.map_append, hsettled]
  rfl

theorem mem_readBack {e : String × ℕ} : e ∈ readBack dirs ↔
    e.2 ∈ existingShardDirs dirs ∧ ∃ a ∈ (shardDb dirs e.2).accounts, a.name = e.1 := by
  obtain ⟨name, i⟩ := e
  simp only [readBack, List.mem_flatMap, ShardDb.placements, List.mem_map, Prod.mk.injEq]
  constructor
  · rintro ⟨j, hj, a, ha, rfl, rfl⟩
    exact ⟨hj, a, ha, rfl⟩
  · rintro ⟨hi, a, ha, rfl⟩
    exact ⟨i, hi, a, ha, rfl, rfl⟩

theorem mem_of_mem_sentTo (h : m ∈ sentTo cfg existing members i) : m ∈ members := by
  obtain ⟨a, ha, rfl⟩ := List.mem_map.mp h
  exact (List.of_mem_zip (List.mem_filter.mp ha).1).1

theorem plan_shard_unique (hnames : (members.map ShardMember.name).Nodup)
    {s s' : ℕ × List ShardMember} (hs : s ∈ plan cfg members placed existing)
    (hs' : s' ∈ plan cfg members placed existing) (hm : m ∈ s.2) (hm' : m ∈ s'.2) :
    s.1 = s'.1 := by
  have hassigned : ((assignShards cfg members placed existing).map (·.1)).Nodup :=
    assignShards_perm.nodup_iff.mpr hnames.of_map
  rw [(mem_plan_iff.mp hs).1] at hm
  rw [(mem_plan_iff.mp hs').1] at hm'
  obtain ⟨a, ha, rfl⟩ := List.mem_map.mp hm
  obtain ⟨b, hb, hba⟩ := List.mem_map.mp hm'
  obtain ⟨ha, hi⟩ := List.mem_filter.mp ha
  obtain ⟨hb, hj⟩ := List.mem_filter.mp hb
  have heq : a = b := List.inj_on_of_nodup_map hassigned ha hb hba.symm
  exact (eq_of_beq hi).symm.trans ((congrArg Prod.snd heq).trans (eq_of_beq hj))

theorem shardsOf_eq {skipped : List SkippedManifest}
    (hload : loadManifests cfg w.manifests = .ok (members, skipped)) :
    shardsOf cfg w = plan cfg members (readBack w.dirs) (readStates w.dirs) := by
  rw [shardsOf, hload]
  rfl

theorem manifested_of_loaded {skipped : List SkippedManifest}
    (hload : loadManifests cfg w.manifests = .ok (members, skipped)) (hm : m ∈ members) :
    m ∈ manifestedMembers cfg w := by
  obtain ⟨members', skipped', h', -, hmem⟩ := loadManifests_spec cfg w.manifests
  rw [hload] at h'
  cases h'
  exact mem_manifestedMembers.mpr ((hmem m).mp hm)

theorem Restartable.free (h : Restartable cfg w) (hm : m ∈ unplacedMembers w.dirs members)
    (hmanifest : m ∈ manifestedMembers cfg w) {a : ShardAccount Key}
    (ha : a ∈ (shardDb w.dirs i).accounts) : keyOf cfg m ≠ some a.ufvk := by
  intro hkey
  obtain ⟨s, hs, rfl⟩ := exists_dir_of_account ha
  have hplaced : placedAt (readBack w.dirs) (readStates w.dirs) m = none := by
    simpa using (List.mem_filter.mp hm).2
  have hlt : ∀ e ∈ readBack w.dirs, e.2 < (readStates w.dirs).length := by
    intro e he
    have hmem := (mem_readBack.mp he).1
    rw [existingShardDirs_eq, List.mem_range] at hmem
    rwa [readStates, List.length_map]
  exact name_ne_of_placedAt hlt hplaced (a.name, s.index)
    (mem_readBack.mpr ⟨h.noGap s hs, a, ha, rfl⟩) (h.sameName s hs a ha m hmanifest hkey)

variable [DecidableEq Key]

theorem reconcileAccounts_pending {ms : List ShardMember} {r : Reconciled}
    (h : reconcileAccounts cfg db ms = .ok r) :
    r.pending = ms.filter fun m => db.accounts.all fun a => keyOf cfg m ≠ some a.ufvk := by
  induction ms generalizing r with
  | nil =>
    cases h
    rfl
  | cons m ms ih =>
    unfold reconcileAccounts at h
    split at h
    · cases h
    · next key hkey =>
      have hm := keyOf_eq_some hkey
      split at h
      · next a ha =>
        split at h
        · cases h
        · next r' hr' =>
          cases h
          have hak : a.ufvk = key := by simpa using List.find?_some ha
          have hheld : (db.accounts.all fun a => keyOf cfg m ≠ some a.ufvk) = false := by
            rw [List.all_eq_false]
            exact ⟨a, List.mem_of_find?_eq_some ha, by simp [hm, hak]⟩
          rw [List.filter_cons_of_neg (by rw [hheld]; exact Bool.false_ne_true), ← ih hr']
      · next hnone =>
        split at h
        · cases h
        · split at h
          · cases h
          · next r' hr' =>
            cases h
            have hfree : (db.accounts.all fun a => keyOf cfg m ≠ some a.ufvk) = true := by
              rw [List.all_eq_true]
              intro a ha
              have hne : a.ufvk ≠ key := by simpa using List.find?_eq_none.mp hnone a ha
              rw [hm, decide_eq_true_eq]
              exact fun heq => hne (Option.some.inj heq).symm
            simp only [List.filter_cons, hfree, if_true, ih hr']

namespace Restartable

/-- A started shard queues just the members that placement sends to it. -/
theorem pending (h : Restartable cfg w) {skipped : List SkippedManifest}
    (hload : loadManifests cfg w.manifests = .ok (members, skipped))
    {s : ℕ × List ShardMember} (hs : s ∈ shardsOf cfg w) {r : Reconciled}
    (hr : reconcileAccounts cfg (shardDb w.dirs s.1) s.2 = .ok r) :
    r.pending = sentTo cfg (readStates w.dirs) (unplacedMembers w.dirs members) s.1 := by
  have hbound := reconcileAccounts_isOk_iff.mp ⟨r, hr⟩
  rw [shardsOf_eq hload] at hs
  have hmembers := plan_members hs
  rw [reconcileAccounts_pending hr, hmembers, List.filter_append]
  have hsettled : ((members.filter fun m =>
      placedAt (readBack w.dirs) (readStates w.dirs) m == some s.1).filter fun m =>
        (shardDb w.dirs s.1).accounts.all fun a => keyOf cfg m ≠ some a.ufvk) = [] := by
    refine List.filter_eq_nil_iff.mpr fun m hm hfree => ?_
    have hplaced := eq_of_beq (List.mem_filter.mp hm).2
    obtain ⟨-, a, ha, hname⟩ := mem_readBack.mp (mem_of_placedAt hplaced)
    refine (hbound m (hmembers ▸ List.mem_append_left _ hm)).2 ⟨⟨a, ha, hname⟩, fun b hb => ?_⟩
    simpa using List.all_eq_true.mp hfree b hb
  have hsent : (sentTo cfg (readStates w.dirs) (unplacedMembers w.dirs members) s.1).filter
      (fun m => (shardDb w.dirs s.1).accounts.all fun a => keyOf cfg m ≠ some a.ufvk) =
      sentTo cfg (readStates w.dirs) (unplacedMembers w.dirs members) s.1 := by
    refine List.filter_eq_self.mpr fun m hm => List.all_eq_true.mpr fun a ha => ?_
    have hunplaced := mem_of_mem_sentTo hm
    have hmanifest := manifested_of_loaded hload (List.mem_filter.mp hunplaced).1
    exact decide_eq_true (h.free hunplaced hmanifest ha)
  rw [hsettled, List.nil_append]
  exact hsent

theorem fits (h : Restartable cfg w) (hsize : 0 < cfg.shardSize) {skipped : List SkippedManifest}
    (hload : loadManifests cfg w.manifests = .ok (members, skipped))
    {s : ℕ × List ShardMember} (hs : s ∈ shardsOf cfg w) {r : Reconciled}
    (hr : reconcileAccounts cfg (shardDb w.dirs s.1) s.2 = .ok r) :
    QueueFits cfg (shardDb w.dirs s.1).state r.pending := by
  rw [h.pending hload hs hr, ← h.states s.1]
  exact sentTo_fits hsize s.1

end Restartable

end Start

end Zecd.Fleet
