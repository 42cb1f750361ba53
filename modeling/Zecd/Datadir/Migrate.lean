import Zecd.Foundation.Fallible

/-! # The layout migration

The engine's files move from the root of a wallet directory into its engine directory: what
a run plans, what it refuses, and where a reader looks meanwhile.
-/

namespace Zecd.Datadir

open Fallible

/-- The engine's files in a wallet directory, each database with its sidecars. -/
inductive Artifact
  | dataSqlite | dataSqliteWal | dataSqliteShm
  | blockmetaSqlite | blockmetaSqliteWal | blockmetaSqliteShm
  | blocks
  deriving DecidableEq, Repr

def Artifact.fileName : Artifact → String
  | dataSqlite => "data.sqlite"
  | dataSqliteWal => "data.sqlite-wal"
  | dataSqliteShm => "data.sqlite-shm"
  | blockmetaSqlite => "blockmeta.sqlite"
  | blockmetaSqliteWal => "blockmeta.sqlite-wal"
  | blockmetaSqliteShm => "blockmeta.sqlite-shm"
  | blocks => "blocks"

/-- In the order they are moved: every database before its sidecars. -/
def engineArtifacts : List Artifact :=
  [.dataSqlite, .dataSqliteWal, .dataSqliteShm, .blockmetaSqlite, .blockmetaSqliteWal,
    .blockmetaSqliteShm, .blocks]

theorem mem_engineArtifacts (a : Artifact) : a ∈ engineArtifacts := by
  cases a <;> decide

theorem engineArtifacts_nodup : engineArtifacts.Nodup := by decide

def primaryArtifact : Artifact := .dataSqlite

/-- The two directories an artifact of a wallet may be in. -/
inductive Place | root | engine
  deriving DecidableEq, Repr

def Place.other : Place → Place
  | root => engine
  | engine => root

/-- What lies where: for each wallet and directory, the content of each artifact there. -/
abbrev Tree (β : Type*) := String → Place → Artifact → Option β

variable {β : Type*}

/-- `exists` on the artifact's path. -/
def Tree.has (t : Tree β) (wallet : String) (p : Place) (a : Artifact) : Bool :=
  (t wallet p a).isSome

def Tree.set (t : Tree β) (wallet : String) (p : Place) (a : Artifact) (x : Option β) : Tree β :=
  fun w q b => if w = wallet ∧ q = p ∧ b = a then x else t w q b

/-- `rename` from the root to the engine directory; what was there is replaced. -/
def Tree.rename (t : Tree β) (wallet : String) (a : Artifact) : Tree β :=
  (t.set wallet .engine a (t wallet .root a)).set wallet .root a none

structure WalletEntry where
  dir : String
  coinDir : String
  engine : String
  deriving DecidableEq, Repr

def WalletEntry.engineDir (e : WalletEntry) : String :=
  e.dir ++ "/" ++ e.coinDir ++ "/" ++ e.engine

structure AppConfig where
  wallets : List (String × WalletEntry)
  nodup : (wallets.map Prod.fst).Nodup

def AppConfig.Configured (cfg : AppConfig) (wallet : String) : Prop :=
  wallet ∈ cfg.wallets.map Prod.fst

structure WalletMove where
  wallet : String
  entry : WalletEntry
  artifacts : List Artifact
  deriving DecidableEq, Repr

def bothPlaces (wallet : String) (e : WalletEntry) (a : Artifact) : String :=
  "wallet '" ++ wallet ++ "' has " ++ a.fileName ++ " both at " ++ e.dir ++ "/" ++ a.fileName ++
    " and at " ++ e.engineDir ++ "/" ++ a.fileName ++ ". zecd will not choose between them: " ++
    "keep the one you want (the current layout is " ++ e.engineDir ++ "), move the other out " ++
    "of the wallet directory, and start zecd again"

/-- The artifacts still at the root; one in both places is refused. -/
def planArtifacts (t : Tree β) (wallet : String) (e : WalletEntry) :
    List Artifact → Except String (List Artifact)
  | [] => .ok []
  | a :: as =>
    if t.has wallet .root a = false then planArtifacts t wallet e as
    else if t.has wallet .engine a then .error (bothPlaces wallet e a)
    else do
      let rest ← planArtifacts t wallet e as
      return a :: rest

def planWallets (t : Tree β) : List (String × WalletEntry) → Except String (List WalletMove)
  | [] => .ok []
  | (wallet, e) :: ws => do
    let artifacts ← planArtifacts t wallet e engineArtifacts
    let moves ← planWallets t ws
    return if artifacts.isEmpty then moves else ⟨wallet, e, artifacts⟩ :: moves

def plan (cfg : AppConfig) (t : Tree β) : Except String (List WalletMove) :=
  planWallets t cfg.wallets

def renames (moves : List WalletMove) : List (String × Artifact) :=
  moves.flatMap fun m => m.artifacts.map fun a => (m.wallet, a)

/-- Where a reader opens the databases: the engine directory, unless only the root has one. -/
def engineDirForReading (t : Tree β) (wallet : String) : Place :=
  if t.has wallet .engine primaryArtifact || !t.has wallet .root primaryArtifact then .engine
  else .root

def awaitsMigration (t : Tree β) (wallet : String) : Bool :=
  t.has wallet .root primaryArtifact && !t.has wallet .engine primaryArtifact

theorem awaitsMigration_iff {t : Tree β} {wallet : String} :
    awaitsMigration t wallet = true ↔ engineDirForReading t wallet = .root := by
  unfold awaitsMigration engineDirForReading
  cases t.has wallet .root primaryArtifact <;> cases t.has wallet .engine primaryArtifact <;>
    decide

/-! ## What a rename does -/

section Rename

variable {t : Tree β} {wallet w : String} {p : Place} {a b : Artifact}

@[simp] theorem Tree.rename_root : t.rename wallet a wallet .root a = none := by
  simp [Tree.rename, Tree.set]

@[simp] theorem Tree.rename_engine : t.rename wallet a wallet .engine a = t wallet .root a := by
  simp [Tree.rename, Tree.set]

theorem Tree.rename_of_ne (h : (w, b) ≠ (wallet, a)) : t.rename wallet a w p b = t w p b := by
  have hne : ∀ q : Place, ¬ (w = wallet ∧ q = p ∧ b = a) := fun q hq =>
    h (by rw [hq.1, hq.2.2])
  have hne' : ∀ q : Place, ¬ (w = wallet ∧ p = q ∧ b = a) := fun q hq =>
    h (by rw [hq.1, hq.2.2])
  simp only [Tree.rename, Tree.set, hne', if_false]

end Rename

/-! ## What a plan says -/

section Plan

variable {t : Tree β} {wallet : String} {e : WalletEntry} {as as' : List Artifact}

theorem planArtifacts_ok (h : planArtifacts t wallet e as = .ok as') :
    as' = as.filter (t.has wallet .root) ∧
      ∀ a ∈ as, t.has wallet .root a = true → t.has wallet .engine a = false := by
  induction as generalizing as' with
  | nil => cases h; simp
  | cons a as ih =>
    rw [planArtifacts] at h
    split at h
    · next hroot =>
      obtain ⟨rfl, hrest⟩ := ih h
      refine ⟨by simp [hroot], fun b hb hb' => ?_⟩
      rcases List.mem_cons.mp hb with rfl | hb
      · exact absurd (hb'.symm.trans hroot) (by simp)
      · exact hrest b hb hb'
    · next hroot =>
      split at h
      · cases h
      · next hengine =>
        simp only [bind_eq_ok, pure_eq_ok] at h
        obtain ⟨rest, hplan, rfl⟩ := h
        obtain ⟨rfl, hrest⟩ := ih hplan
        refine ⟨by simp [Bool.not_eq_false _ ▸ hroot], fun b hb hb' => ?_⟩
        rcases List.mem_cons.mp hb with rfl | hb
        · simpa using hengine
        · exact hrest b hb hb'

theorem planArtifacts_of_disjoint
    (h : ∀ a ∈ as, t.has wallet .root a = true → t.has wallet .engine a = false) :
    planArtifacts t wallet e as = .ok (as.filter (t.has wallet .root)) := by
  induction as with
  | nil => rfl
  | cons a as ih =>
    have hrest := ih fun b hb => h b (List.mem_cons_of_mem _ hb)
    rw [planArtifacts]
    cases hroot : t.has wallet .root a with
    | false => simpa [hroot] using hrest
    | true =>
      simp [hroot, h a List.mem_cons_self hroot, hrest, bind, Except.bind, pure, Except.pure]

theorem planWallets_ok {ws : List (String × WalletEntry)} {moves : List WalletMove}
    (h : planWallets t ws = .ok moves) :
    renames moves = ws.flatMap (fun x =>
        (engineArtifacts.filter (t.has x.1 .root)).map fun a => (x.1, a)) ∧
      ∀ x ∈ ws, ∀ a, t.has x.1 .root a = true → t.has x.1 .engine a = false := by
  induction ws generalizing moves with
  | nil => cases h; simp [renames]
  | cons x ws ih =>
    obtain ⟨wallet, e⟩ := x
    simp only [planWallets, bind_eq_ok, pure_eq_ok] at h
    obtain ⟨artifacts, hart, rest, hrest, rfl⟩ := h
    obtain ⟨rfl, hdisj⟩ := planArtifacts_ok hart
    obtain ⟨hrenames, hall⟩ := ih hrest
    refine ⟨?_, List.forall_mem_cons.mpr ⟨fun a => hdisj a (mem_engineArtifacts a), hall⟩⟩
    rw [List.flatMap_cons, ← hrenames]
    split
    · next hempty => simp [List.isEmpty_iff.mp hempty]
    · simp [renames]

theorem planWallets_of_disjoint {ws : List (String × WalletEntry)}
    (h : ∀ x ∈ ws, ∀ a, t.has x.1 .root a = true → t.has x.1 .engine a = false) :
    ∃ moves, planWallets t ws = .ok moves := by
  induction ws with
  | nil => exact ⟨[], rfl⟩
  | cons x ws ih =>
    obtain ⟨rest, hrest⟩ := ih fun y hy => h y (List.mem_cons_of_mem _ hy)
    have hart : planArtifacts t x.1 x.2 engineArtifacts =
        .ok (engineArtifacts.filter (t.has x.1 .root)) :=
      planArtifacts_of_disjoint fun a _ => h x List.mem_cons_self a
    simp only [planWallets, bind_eq_ok, pure_eq_ok]
    exact ⟨_, _, hart, rest, hrest, rfl⟩

variable {cfg : AppConfig} {moves : List WalletMove}

/-- A plan moves exactly what is at the root of a configured wallet, once. -/
theorem mem_renames_iff (h : plan cfg t = .ok moves) {w : String} {a : Artifact} :
    (w, a) ∈ renames moves ↔ cfg.Configured w ∧ t.has w .root a = true := by
  rw [(planWallets_ok h).1, AppConfig.Configured]
  constructor
  · rintro hmem
    obtain ⟨x, hx, hmem⟩ := List.mem_flatMap.mp hmem
    obtain ⟨b, hb, heq⟩ := List.mem_map.mp hmem
    cases heq
    exact ⟨List.mem_map_of_mem hx, (List.mem_filter.mp hb).2⟩
  · rintro ⟨hw, ha⟩
    obtain ⟨x, hx, rfl⟩ := List.mem_map.mp hw
    exact List.mem_flatMap.mpr ⟨x, hx, List.mem_map_of_mem
      (List.mem_filter.mpr ⟨mem_engineArtifacts a, ha⟩)⟩

theorem renames_nodup (h : plan cfg t = .ok moves) : (renames moves).Nodup := by
  rw [(planWallets_ok h).1]
  apply List.nodup_flatMap.mpr
  constructor
  · intro x _
    exact (engineArtifacts_nodup.filter _).map fun a b hab => congrArg Prod.snd hab
  · refine (List.pairwise_map.mp cfg.nodup).imp fun hne => ?_
    rintro ⟨w, a⟩ hx hy
    obtain ⟨_, _, heq⟩ := List.mem_map.mp hx
    obtain ⟨_, _, heq'⟩ := List.mem_map.mp hy
    exact hne ((congrArg Prod.fst heq).trans (congrArg Prod.fst heq').symm)

theorem plan_disjoint (h : plan cfg t = .ok moves) {w : String} (hw : cfg.Configured w)
    {a : Artifact} (ha : t.has w .root a = true) : t.has w .engine a = false := by
  obtain ⟨x, hx, rfl⟩ := List.mem_map.mp hw
  exact (planWallets_ok h).2 x hx a ha

theorem exists_plan (h : ∀ w, cfg.Configured w → ∀ a, t.has w .root a = true →
    t.has w .engine a = false) : ∃ moves, plan cfg t = .ok moves :=
  planWallets_of_disjoint fun x hx => h x.1 (List.mem_map_of_mem hx)

end Plan

end Zecd.Datadir
