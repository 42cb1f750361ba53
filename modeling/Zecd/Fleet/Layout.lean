import Mathlib
import Zecd.Read.Tables

/-! # The fleet on disk

A fleet wallet is a manifest file: a name, a viewing key and a birthday. The wallets are
scanned in shard databases, many accounts to a database. This module reads and writes the
manifests, reads the shard databases back, and works out which shard serves which wallet.
-/

namespace Zecd.Fleet

/-- An account of a shard database. Every account of a shard was imported from a member,
under its name and from its viewing key. -/
structure ShardAccount (Key : Type) where
  uuid : AccountUuid
  name : String
  ufvk : Key
  birthday : ℕ

/-- A shard's wallet database. Its schema makes account identifiers and keys unique. -/
structure ShardDb (Key : Type) where
  accounts : List (ShardAccount Key)
  uuids_nodup : (accounts.map ShardAccount.uuid).Nodup
  ufvks_nodup : (accounts.map ShardAccount.ufvk).Nodup

/-- The wallet layer's import of a viewing key, by its documentation: an account it takes is
appended as given, and an account of a fresh identifier and key is taken. A key that the
database holds is refused, since a database holds no key twice. -/
structure AccountImport (Key : Type) where
  importAccountUfvk : ShardDb Key → ShardAccount Key → Option (ShardDb Key)
  appends {db db' : ShardDb Key} {a : ShardAccount Key} :
    importAccountUfvk db a = some db' → db'.accounts = db.accounts ++ [a]
  takes {db : ShardDb Key} {a : ShardAccount Key} :
    (∀ b ∈ db.accounts, b.uuid ≠ a.uuid) → (∀ b ∈ db.accounts, b.ufvk ≠ a.ufvk) →
      (importAccountUfvk db a).isSome

/-- What a running daemon takes from its configuration and network. `decode` decodes an
encoded viewing key; two keys are one when their encodings agree, so `Key` is compared. -/
structure FleetConfig (Key : Type) extends AccountImport Key where
  network : String
  decode : String → Except String Key
  datadir : String
  manifestDir : String
  shardSize : ℕ
  cohortDepth : ℕ
  wallets : List String
  allowMultipleSpendingWallets : Bool

/-- One view wallet: the operator's triple. -/
structure ShardMember where
  name : String
  ufvk : String
  birthday : ℕ
  deriving DecidableEq, Repr

structure ManifestFile where
  ufvk : String
  birthday : ℕ
  deriving DecidableEq, Repr

/-- A `.toml` file of the manifest directory, with why its contents do not parse if they
do not. -/
structure Manifest where
  stem : String
  contents : Except String ManifestFile

/-- The manifest directory: a file name occurs once in it. -/
@[ext]
structure ManifestDir where
  files : List Manifest
  stems_nodup : (files.map Manifest.stem).Nodup

structure SkippedManifest where
  path : String
  reason : String
  deriving DecidableEq, Repr

structure ShardDir (Key : Type) where
  index : ℕ
  db : Option (ShardDb Key)

structure ShardState where
  accounts : ℕ
  lowestBirthday : Option ℕ
  deriving DecidableEq, Repr

namespace AccountImport

variable {Key : Type}

/-- The import that refuses nothing but what the schema does. -/
def bySchema [DecidableEq Key] : AccountImport Key where
  importAccountUfvk db a :=
    if h : (∀ b ∈ db.accounts, b.uuid ≠ a.uuid) ∧ ∀ b ∈ db.accounts, b.ufvk ≠ a.ufvk then
      some {
        accounts := db.accounts ++ [a]
        uuids_nodup := by
          rw [List.map_append, List.nodup_append]
          exact ⟨db.uuids_nodup, by simp, by simpa using h.1⟩
        ufvks_nodup := by
          rw [List.map_append, List.nodup_append]
          exact ⟨db.ufvks_nodup, by simp, by simpa using h.2⟩ }
    else none
  appends h := by
    split at h
    · cases h
      rfl
    · cases h
  takes huuid hkey := by
    rw [dif_pos ⟨huuid, hkey⟩]
    rfl

end AccountImport

section Manifests

variable {Key : Type} (cfg : FleetConfig Key)

/-- The member's viewing key, decoded for the configured network. -/
def decodeUfvk (m : ShardMember) : Except String Key :=
  match cfg.decode m.ufvk with
  | .ok k => .ok k
  | .error e => .error ("wallet '" ++ m.name ++ "': its viewing key is not a valid " ++
      cfg.network ++ " UFVK: " ++ e)

def keyOf (m : ShardMember) : Option Key := (cfg.decode m.ufvk).toOption

variable {cfg} in
theorem keyOf_eq_some {m : ShardMember} {key : Key} (h : decodeUfvk cfg m = .ok key) :
    keyOf cfg m = some key := by
  unfold decodeUfvk at h
  split at h
  · next hk =>
    cases h
    rw [keyOf, hk]
    rfl
  · cases h

variable {cfg} in
theorem decodeUfvk_isOk {m : ShardMember} (h : (keyOf cfg m).isSome) :
    ∃ key, decodeUfvk cfg m = .ok key := by
  unfold keyOf at h
  unfold decodeUfvk
  cases hk : cfg.decode m.ufvk with
  | ok key => exact ⟨key, rfl⟩
  | error e => simp [hk, Except.toOption] at h

def manifestPath (name : String) : String := cfg.manifestDir ++ "/" ++ name ++ ".toml"

/-- Refuse a name that is not addressable as `/wallet/<name>`. -/
def checkWalletName (name path : String) : Except String Unit :=
  if name.isEmpty then
    .error ("fleet manifest " ++ path ++ " has an empty name")
  else if name.toList.all fun c => c.isAlphanum || c == '-' || c == '_' || c == '.' then
    .ok ()
  else
    .error ("fleet manifest " ++ path ++ " names the wallet '" ++ name ++
      "', which is not addressable as /wallet/<name>: use ASCII letters, digits, '-', '_' or '.'")

def readManifest (f : Manifest) : Except String ShardMember :=
  match checkWalletName f.stem (manifestPath cfg f.stem) with
  | .error why => .error why
  | .ok _ =>
    match f.contents with
    | .error why => .error why
    | .ok file => .ok ⟨f.stem, file.ufvk, file.birthday⟩

/-- The first name that appears twice in a name-sorted member list. -/
def firstDuplicate : List ShardMember → Option String
  | m :: m' :: ms => if m.name = m'.name then some m.name else firstDuplicate (m' :: ms)
  | _ => none

/-- Read every manifest, in name order, plus the ones that could not be read. -/
def loadManifests (dir : ManifestDir) :
    Except String (List ShardMember × List SkippedManifest) :=
  let members := (dir.files.filterMap fun f => (readManifest cfg f).toOption).insertionSort
    fun a b => a.name ≤ b.name
  let skipped := (dir.files.filterMap fun f =>
    match readManifest cfg f with
    | .ok _ => none
    | .error why => some (SkippedManifest.mk (manifestPath cfg f.stem) why)).insertionSort
      fun a b => a.path ≤ b.path
  match firstDuplicate members with
  | some dup =>
    .error ("two fleet manifests both name the wallet '" ++ dup ++ "' in " ++ cfg.manifestDir)
  | none => .ok (members, skipped)

namespace ManifestDir

def contains (dir : ManifestDir) (name : String) : Bool :=
  dir.files.any fun f => f.stem == name

def remove (dir : ManifestDir) (name : String) : ManifestDir where
  files := dir.files.filter fun f => f.stem != name
  stems_nodup := (List.filter_sublist.map Manifest.stem).nodup dir.stems_nodup

/-- Put a file into the directory, over the one of its name if there is one. -/
def put (dir : ManifestDir) (f : Manifest) : ManifestDir where
  files := (dir.remove f.stem).files ++ [f]
  stems_nodup := by
    rw [List.map_append, List.nodup_append]
    refine ⟨(dir.remove f.stem).stems_nodup, by simp, ?_⟩
    intro a ha b hb
    obtain ⟨g, hg, rfl⟩ := List.mem_map.mp ha
    have hne : g.stem ≠ f.stem := by simpa using (List.mem_filter.mp hg).2
    simp only [List.map_cons, List.map_nil, List.mem_singleton] at hb
    exact hb ▸ hne

end ManifestDir

def writeManifest (dir : ManifestDir) (m : ShardMember) : Except String ManifestDir :=
  if dir.contains m.name then
    .error ("a manifest for '" ++ m.name ++ "' already exists at " ++ manifestPath cfg m.name)
  else
    .ok (dir.put ⟨m.name, .ok ⟨m.ufvk, m.birthday⟩⟩)

variable {cfg}

theorem remove_of_writeManifest {dir dir' : ManifestDir} {m : ShardMember}
    (h : writeManifest cfg dir m = .ok dir') : dir'.remove m.name = dir := by
  unfold writeManifest at h
  split at h
  · cases h
  · next hnew =>
    cases h
    have hother : ∀ f ∈ dir.files, f.stem ≠ m.name := by
      simpa [ManifestDir.contains] using hnew
    have hkept : dir.files.filter (fun f => f.stem != m.name) = dir.files :=
      List.filter_eq_self.mpr fun f hf => by simpa using hother f hf
    apply ManifestDir.ext
    simp [ManifestDir.remove, ManifestDir.put, hkept]

theorem readManifest_name {f : Manifest} {m : ShardMember} (h : readManifest cfg f = .ok m) :
    m.name = f.stem := by
  unfold readManifest at h
  split at h
  · cases h
  · split at h
    · cases h
    · cases h
      rfl

theorem readManifests_names_nodup (dir : ManifestDir) :
    ((dir.files.filterMap fun f => (readManifest cfg f).toOption).map ShardMember.name).Nodup := by
  have hread : ∀ files : List Manifest, ((files.filterMap fun f =>
      (readManifest cfg f).toOption).map ShardMember.name).Sublist (files.map Manifest.stem) := by
    intro files
    induction files with
    | nil => exact List.Sublist.refl _
    | cons f files ih =>
      cases hf : readManifest cfg f with
      | error why => simpa [hf, Except.toOption] using ih.cons f.stem
      | ok m => simpa [hf, Except.toOption, readManifest_name hf] using ih
  exact (hread dir.files).nodup dir.stems_nodup

theorem firstDuplicate_eq_none {ms : List ShardMember}
    (h : (ms.map ShardMember.name).Nodup) : firstDuplicate ms = none := by
  induction ms with
  | nil => rfl
  | cons m ms ih =>
    obtain ⟨hm, hms⟩ := List.nodup_cons.mp h
    cases ms with
    | nil => rfl
    | cons m' ms =>
      have hne : m.name ≠ m'.name := fun he => hm (he ▸ List.mem_cons_self)
      rw [firstDuplicate, if_neg hne]
      exact ih hms

variable (cfg) in
/-- Reading a manifest directory never fails as a whole: it lists the files that parse. -/
theorem loadManifests_spec (dir : ManifestDir) :
    ∃ members skipped, loadManifests cfg dir = .ok (members, skipped) ∧
      (members.map ShardMember.name).Nodup ∧
      ∀ m, m ∈ members ↔ ∃ f ∈ dir.files, readManifest cfg f = .ok m := by
  have hnames := ((List.perm_insertionSort (fun a b : ShardMember => a.name ≤ b.name)
    (dir.files.filterMap fun f => (readManifest cfg f).toOption)).map
      ShardMember.name).nodup_iff.mpr (readManifests_names_nodup dir)
  unfold loadManifests
  dsimp only
  rw [firstDuplicate_eq_none hnames]
  refine ⟨_, _, rfl, hnames, fun m => ?_⟩
  rw [List.mem_insertionSort, List.mem_filterMap]
  refine exists_congr fun f => and_congr_right fun _ => ?_
  cases readManifest cfg f with
  | error why => simp [Except.toOption]
  | ok m' => simp [Except.toOption]

theorem loadManifests_names_nodup {dir : ManifestDir} {members : List ShardMember}
    {skipped : List SkippedManifest} (h : loadManifests cfg dir = .ok (members, skipped)) :
    (members.map ShardMember.name).Nodup := by
  obtain ⟨members', skipped', h', hnames, -⟩ := loadManifests_spec cfg dir
  rw [h] at h'
  cases h'
  exact hnames

end Manifests

section Placement

variable {Key : Type} (cfg : FleetConfig Key)

/-- Whether a shard has room and its cohort takes the birthday. The heights are 32-bit. -/
def ShardState.accepts (s : ShardState) (height : ℕ) : Bool :=
  decide (s.accounts < cfg.shardSize) &&
    s.lowestBirthday.all fun lowest => decide (lowest ≤ (height + cfg.cohortDepth) % 2 ^ 32)

def ShardState.add (s : ShardState) (height : ℕ) : ShardState :=
  ⟨s.accounts + 1, some ((s.lowestBirthday.map (min · height)).getD height)⟩

/-- The newest shard that takes the birthday. -/
def placementTarget (shards : List ShardState) (height : ℕ) : Option ℕ :=
  (List.range shards.length).reverse.find? fun i => shards[i]?.any (·.accepts cfg height)

/-- Per member, the shard it is imported into; indices past the given shards are new ones. -/
def placeMembers (shards : List ShardState) : List ShardMember → List ℕ
  | [] => []
  | m :: ms =>
    match placementTarget cfg shards m.birthday with
    | some i => i :: placeMembers (shards.modify i (·.add m.birthday)) ms
    | none =>
      shards.length :: placeMembers (shards ++ [ShardState.add ⟨0, none⟩ m.birthday]) ms

/-- The shard a name's account was read back from. -/
def placedAt (placed : List (String × ℕ)) (existing : List ShardState) (m : ShardMember) :
    Option ℕ :=
  ((placed.reverse.find? (·.1 == m.name)).map (·.2)).filter (· < existing.length)

/-- Each member with its shard: where its account lives, else where placement puts it. -/
def assignShards (members : List ShardMember) (placed : List (String × ℕ))
    (existing : List ShardState) : List (ShardMember × ℕ) :=
  let settled := members.filterMap fun m => (placedAt placed existing m).map (m, ·)
  let unplaced := members.filter fun m => !(placedAt placed existing m).isSome
  settled ++ unplaced.zip (placeMembers cfg existing unplaced)

/-- Work out which shard serves which members. Only shards that have members are served. -/
def plan (members : List ShardMember) (placed : List (String × ℕ))
    (existing : List ShardState) : List (ℕ × List ShardMember) :=
  let assigned := assignShards cfg members placed existing
  let count := assigned.foldl (fun n a => max n (a.2 + 1)) existing.length
  ((List.range count).map fun i =>
      (i, (assigned.filter fun a => a.2 == i).map (·.1))).filter fun s => !s.2.isEmpty

variable {cfg} {members : List ShardMember} {placed : List (String × ℕ)}
  {existing : List ShardState}

theorem length_placeMembers : (placeMembers cfg existing members).length = members.length := by
  induction members generalizing existing with
  | nil => rfl
  | cons m ms ih =>
    unfold placeMembers
    split
    · simp [ih]
    · simp [ih]

theorem assignShards_perm :
    ((assignShards cfg members placed existing).map (·.1)).Perm members := by
  have hsettled : ∀ ms : List ShardMember,
      (ms.filterMap fun m => (placedAt placed existing m).map (m, ·)).map (·.1) =
        ms.filter fun m => (placedAt placed existing m).isSome := by
    intro ms
    induction ms with
    | nil => rfl
    | cons m ms ih =>
      cases hm : placedAt placed existing m with
      | none => simpa [hm] using ih
      | some i => simpa [hm] using ih
  unfold assignShards
  rw [List.map_append, hsettled, List.map_fst_zip length_placeMembers.ge]
  exact List.filter_append_perm _ _

theorem lt_shardCount {assigned : List (ShardMember × ℕ)} {n : ℕ} :
    n ≤ assigned.foldl (fun n a => max n (a.2 + 1)) n ∧
      ∀ a ∈ assigned, a.2 < assigned.foldl (fun n a => max n (a.2 + 1)) n := by
  induction assigned generalizing n with
  | nil => simp
  | cons b assigned ih =>
    obtain ⟨hle, hlt⟩ := ih (n := max n (b.2 + 1))
    rw [List.foldl_cons]
    refine ⟨(le_max_left _ _).trans hle, ?_⟩
    rintro a (_ | ⟨_, ha⟩)
    · exact (Nat.lt_succ_self _).trans_le ((le_max_right _ _).trans hle)
    · exact hlt a ha

theorem mem_plan_iff {s : ℕ × List ShardMember} : s ∈ plan cfg members placed existing ↔
    s.2 = ((assignShards cfg members placed existing).filter fun a => a.2 == s.1).map (·.1) ∧
      s.2 ≠ [] := by
  obtain ⟨i, ms⟩ := s
  unfold plan
  simp only [List.mem_filter, List.mem_map, List.mem_range, Prod.mk.injEq, Bool.not_eq_true',
    List.isEmpty_eq_false_iff]
  constructor
  · rintro ⟨⟨_, -, rfl, rfl⟩, hne⟩
    exact ⟨rfl, hne⟩
  · rintro ⟨rfl, hne⟩
    obtain ⟨m, hm⟩ := List.exists_mem_of_ne_nil _ hne
    obtain ⟨a, ha, -⟩ := List.mem_map.mp hm
    obtain ⟨ha, hi⟩ := List.mem_filter.mp ha
    refine ⟨⟨i, ?_, rfl, rfl⟩, hne⟩
    exact eq_of_beq hi ▸ lt_shardCount.2 a ha

/-- Planning leaves no wallet out and adds none. -/
theorem mem_plan_members {m : ShardMember} :
    (∃ s ∈ plan cfg members placed existing, m ∈ s.2) ↔ m ∈ members := by
  rw [← assignShards_perm.mem_iff, List.mem_map]
  constructor
  · rintro ⟨s, hs, hm⟩
    rw [(mem_plan_iff.mp hs).1] at hm
    obtain ⟨a, ha, rfl⟩ := List.mem_map.mp hm
    exact ⟨a, (List.mem_filter.mp ha).1, rfl⟩
  · rintro ⟨a, ha, rfl⟩
    have hmem : a.1 ∈ ((assignShards cfg members placed existing).filter
        fun b => b.2 == a.2).map (·.1) :=
      List.mem_map_of_mem (List.mem_filter.mpr ⟨ha, by simp⟩)
    exact ⟨(a.2, _), mem_plan_iff.mpr ⟨rfl, List.ne_nil_of_mem hmem⟩, hmem⟩

theorem plan_names_nodup (hnames : (members.map ShardMember.name).Nodup)
    {s : ℕ × List ShardMember} (hs : s ∈ plan cfg members placed existing) :
    (s.2.map ShardMember.name).Nodup := by
  rw [(mem_plan_iff.mp hs).1]
  have hall : (((assignShards cfg members placed existing).map (·.1)).map
      ShardMember.name).Nodup := (assignShards_perm.map _).nodup_iff.mpr hnames
  exact ((List.filter_sublist.map _).map ShardMember.name).nodup hall

theorem plan_indices_nodup : ((plan cfg members placed existing).map (·.1)).Nodup := by
  unfold plan
  apply (List.filter_sublist.map _).nodup
  rw [List.map_map]
  exact List.nodup_range.map (fun _ _ h => h)

end Placement

section Directories

variable {Key : Type}

def shardDirName (index : ℕ) : String :=
  "shard-" ++ String.ofList (List.replicate (4 - (toString index).length) '0') ++ toString index

def dirExists (dirs : List (ShardDir Key)) (index : ℕ) : Bool :=
  dirs.any fun d => d.index == index

def dbAt (dirs : List (ShardDir Key)) (index : ℕ) : Option (ShardDb Key) :=
  (dirs.find? fun d => d.index == index).bind ShardDir.db

def accountKey (dirs : List (ShardDir Key)) (index : ℕ) (uuid : AccountUuid) : Option Key :=
  (dbAt dirs index).bind fun db =>
    (db.accounts.find? fun a => a.uuid == uuid).map ShardAccount.ufvk

def setDb (dirs : List (ShardDir Key)) (index : ℕ) (db : ShardDb Key) : List (ShardDir Key) :=
  dirs.map fun d => if d.index = index then ⟨index, some db⟩ else d

def createDir (dirs : List (ShardDir Key)) (index : ℕ) : List (ShardDir Key) :=
  if dirExists dirs index then dirs else dirs ++ [⟨index, none⟩]

def emptyDb : ShardDb Key := ⟨[], by simp, by simp⟩

/-- Initialise the shard's database where there is none; an existing one is kept. -/
def initDb (dirs : List (ShardDir Key)) (index : ℕ) : List (ShardDir Key) :=
  match dbAt dirs index with
  | some _ => dirs
  | none => setDb dirs index emptyDb

/-- The shard directories from index 0 on, up to the first gap. -/
def existingShardDirs (dirs : List (ShardDir Key)) : List ℕ :=
  (List.range dirs.length).takeWhile (dirExists dirs)

/-- The first index at or after `start` whose directory does not exist. -/
def nextFreeShardDir (dirs : List (ShardDir Key)) (start : ℕ) : ℕ :=
  ((List.range' start (dirs.length + 1)).find? fun i => !dirExists dirs i).getD
    (start + dirs.length)

/-- What shard `index` holds, with which name each of its accounts is placed under. A
directory without a database cannot be read. -/
def inspectShard (dirs : List (ShardDir Key)) (index : ℕ) :
    Except String (List (String × ℕ) × ShardState) :=
  match dbAt dirs index with
  | none => .error ("inspecting shard " ++ shardDirName index)
  | some db => .ok (db.accounts.map fun a => (a.name, index),
      ⟨db.accounts.length, (db.accounts.map ShardAccount.birthday).min?⟩)

def inspectShards (dirs : List (ShardDir Key)) :
    List ℕ → Except String (List (String × ℕ) × List ShardState)
  | [] => .ok ([], [])
  | i :: is =>
    match inspectShard dirs i with
    | .error why => .error why
    | .ok (placed, state) =>
      match inspectShards dirs is with
      | .error why => .error why
      | .ok (placed', states) => .ok (placed ++ placed', state :: states)

variable {dirs dirs' dirs'' : List (ShardDir Key)} {i j : ℕ} {db : ShardDb Key}

theorem dbAt_setDb_of_ne (h : j ≠ i) : dbAt (setDb dirs i db) j = dbAt dirs j := by
  unfold dbAt setDb
  induction dirs with
  | nil => rfl
  | cons d dirs ih =>
    by_cases hi : d.index = i
    · have hj : d.index ≠ j := fun hj => h (hj.symm.trans hi)
      simpa [hi, hj, h.symm] using ih
    · by_cases hj : d.index = j
      · have hji : j ≠ i := h
        simp [hj, hji]
      · simpa [hi, hj] using ih

theorem dbAt_setDb_self (h : dirExists dirs i = true) : dbAt (setDb dirs i db) i = some db := by
  unfold dbAt setDb
  induction dirs with
  | nil => simp [dirExists] at h
  | cons d dirs ih =>
    by_cases hi : d.index = i
    · simp [hi]
    · have hd : dirExists dirs i = true := by simpa [dirExists, hi] using h
      simpa [hi] using ih hd

theorem dirExists_of_dbAt (h : dbAt dirs i = some db) : dirExists dirs i = true := by
  obtain ⟨d, hd, -⟩ := Option.bind_eq_some_iff.mp h
  have hi : (d.index == i) = true := by simpa using List.find?_some hd
  exact List.any_eq_true.mpr ⟨d, List.mem_of_find?_eq_some hd, hi⟩

theorem dbAt_createDir : dbAt (createDir dirs i) j = dbAt dirs j := by
  unfold createDir
  split
  · rfl
  · unfold dbAt
    rw [List.find?_append]
    cases hf : dirs.find? fun d => d.index == j with
    | some d => rfl
    | none =>
      by_cases hij : i = j
      · simp [hij]
      · simp [hij]

theorem dbAt_initDb (h : dbAt dirs j = some db) : dbAt (initDb dirs i) j = some db := by
  unfold initDb
  split
  · exact h
  · next hi =>
    have hne : j ≠ i := by
      rintro rfl
      rw [h] at hi
      cases hi
    rw [dbAt_setDb_of_ne hne, h]

/-- Accounts are only ever added to shard databases. -/
def Grows (dirs dirs' : List (ShardDir Key)) : Prop :=
  ∀ i uuid key, accountKey dirs i uuid = some key → accountKey dirs' i uuid = some key

theorem Grows.refl : Grows dirs dirs := fun _ _ _ h => h

theorem Grows.trans (h : Grows dirs dirs') (h' : Grows dirs' dirs'') : Grows dirs dirs'' :=
  fun i uuid key hk => h' i uuid key (h i uuid key hk)

theorem grows_createDir : Grows dirs (createDir dirs i) := by
  intro j uuid key hk
  unfold accountKey at hk ⊢
  rwa [dbAt_createDir]

theorem grows_initDb : Grows dirs (initDb dirs i) := by
  intro j uuid key hk
  obtain ⟨db, hdb, ha⟩ := Option.bind_eq_some_iff.mp hk
  exact Option.bind_eq_some_iff.mpr ⟨db, dbAt_initDb hdb, ha⟩

theorem grows_prepare (i : ℕ) : Grows dirs (initDb (createDir dirs i) i) :=
  grows_createDir.trans grows_initDb

theorem accountKey_of_mem (hdb : dbAt dirs i = some db) {a : ShardAccount Key}
    (ha : a ∈ db.accounts) : accountKey dirs i a.uuid = some a.ufvk := by
  have hfind : db.accounts.find? (fun b => b.uuid == a.uuid) = some a := by
    cases hf : db.accounts.find? fun b => b.uuid == a.uuid with
    | none => simpa using List.find?_eq_none.mp hf a ha
    | some b =>
      have huuid : b.uuid = a.uuid := by simpa using List.find?_some hf
      rw [List.inj_on_of_nodup_map db.uuids_nodup (List.mem_of_find?_eq_some hf) ha huuid]
  rw [accountKey, hdb, Option.bind_some, hfind, Option.map_some]

/-- The accounts of a shard. A directory without a database holds none. -/
def shardDb (dirs : List (ShardDir Key)) (index : ℕ) : ShardDb Key :=
  (dbAt dirs index).getD emptyDb

theorem dirExists_createDir : dirExists (createDir dirs i) i = true := by
  unfold createDir
  split
  · next h => exact h
  · simp [dirExists]

theorem dbAt_prepare_self : dbAt (initDb (createDir dirs i) i) i = some (shardDb dirs i) := by
  have hkept : dbAt dirs i = dbAt (createDir dirs i) i := dbAt_createDir.symm
  unfold initDb shardDb
  split
  · next db hdb => rw [hkept, hdb, Option.getD_some]
  · next hdb => rw [hkept, dbAt_setDb_self dirExists_createDir, hdb, Option.getD_none]

theorem dbAt_prepare_of_ne (h : j ≠ i) :
    dbAt (initDb (createDir dirs i) i) j = dbAt dirs j := by
  unfold initDb
  split
  · exact dbAt_createDir
  · rw [dbAt_setDb_of_ne h, dbAt_createDir]

theorem shardDb_prepare : shardDb (initDb (createDir dirs i) i) j = shardDb dirs j := by
  by_cases h : j = i
  · rw [h, shardDb, dbAt_prepare_self, Option.getD_some]
  · rw [shardDb, dbAt_prepare_of_ne h, shardDb]

end Directories

end Zecd.Fleet
