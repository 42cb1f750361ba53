import Zecd.Foundation.Runs
import Zecd.Datadir.Migrate

/-! # Interrupted migrations

Runs of the migration, each cut off after any rename, with readers that take no lock. A run that
was cut off is resumed by the next one unless a reader opened a database apart from its sidecars.
-/

namespace Zecd.Datadir

open Runs

variable {β : Type*}

/-- The files, the renames left of the run that holds the datadir lock, and the readers that
chose a directory and have not opened it yet. -/
structure LayoutState (β : Type*) where
  files : Tree β
  run : Option (List (String × Artifact))
  readers : List (String × Place)

def LayoutState.init (t : Tree β) : LayoutState β := ⟨t, none, []⟩

inductive Event where
  | migrate
  | rename
  /-- The run ends: done, failed or killed. -/
  | stop
  | look (wallet : String)
  /-- A reader opens its database, with the files SQLite creates where they are absent. -/
  | openDb (i : ℕ) (creates : Artifact → Bool)

def databaseFiles : List Artifact := [.dataSqlite, .dataSqliteWal, .dataSqliteShm]

/-- Opening a database may leave it and its sidecars behind, empty, where they were absent. -/
def openDatabase (empty : β) (creates : Artifact → Bool) (t : Tree β) (wallet : String)
    (p : Place) : Tree β :=
  fun w q a =>
    if w = wallet ∧ q = p ∧ a ∈ databaseFiles ∧ creates a = true ∧ t.has w q a = false then
      some empty
    else t w q a

def Event.step (cfg : AppConfig) (empty : β) (s : LayoutState β) : Event → LayoutState β
  | .migrate =>
    match s.run with
    | some _ => s
    | none =>
      match plan cfg s.files with
      | .error _ => s
      | .ok moves => { s with run := some (renames moves) }
  | .rename =>
    match s.run with
    | some ((wallet, a) :: rest) =>
      if s.files.has wallet .root a then
        { s with files := s.files.rename wallet a, run := some rest }
      else { s with run := none }
    | _ => s
  | .stop => { s with run := none }
  | .look wallet =>
    { s with readers := s.readers ++ [(wallet, engineDirForReading s.files wallet)] }
  | .openDb i creates =>
    match s.readers[i]? with
    | none => s
    | some (wallet, p) => { s with
        files := openDatabase empty creates s.files wallet p
        readers := s.readers.eraseIdx i }

/-! ## What is asked of the migration -/

/-- No artifact of a configured wallet is in both places. -/
def Apart (cfg : AppConfig) (t : Tree β) : Prop :=
  ∀ w, cfg.Configured w → ∀ a, t.has w .root a = true → t.has w .engine a = false

/-- Whatever the one tree holds, the other still holds in one of the two places. -/
def Keeps (t t' : Tree β) : Prop :=
  ∀ w p a c, t w p a = some c → ∃ q, t' w q a = some c

/-- The next rename lands on nothing. -/
def OverwritesNothing (s : LayoutState β) : Event → Prop
  | .rename => ∀ w a rest, s.run = some ((w, a) :: rest) → s.files.has w .engine a = false
  | _ => True

/-- A database is opened where its `-wal` is, if it has one. -/
def OpensWhole (s : LayoutState β) : Event → Prop
  | .openDb i _ => ∀ w p, s.readers[i]? = some (w, p) → s.files.has w p .dataSqlite = true →
      s.files.has w p.other .dataSqliteWal = false
  | _ => True

/-- A run started now and left alone succeeds: everything is in the engine directories. -/
def Resumes (cfg : AppConfig) (empty : β) (s : LayoutState β) : Prop :=
  ∃ n, ∃ s' : LayoutState β,
    s' = run (Event.step cfg empty) s (.stop :: .migrate :: List.replicate n .rename) ∧
    s'.run = some [] ∧ ∀ w, cfg.Configured w → ∀ a, s'.files w .root a = none ∧
      ∀ p c, s.files w p a = some c → s'.files w .engine a = some c

structure LosslessResumable (cfg : AppConfig) (empty : β) (t : Tree β) (es : List Event) :
    Prop where
  keeps : Keeps t (run (Event.step cfg empty) (.init t) es).files
  overwritesNothing : Along (Event.step cfg empty) OverwritesNothing (.init t) es
  refusedMovesNothing : ∀ e, plan cfg (run (Event.step cfg empty) (.init t) es).files = .error e →
    (Event.migrate.step cfg empty (run (Event.step cfg empty) (.init t) es)) =
      run (Event.step cfg empty) (.init t) es
  opensWhole : Along (Event.step cfg empty) OpensWhole (.init t) es
  resumes : Apart cfg t → Resumes cfg empty (run (Event.step cfg empty) (.init t) es)

/-- A reader opens a database no part of which is in the other directory, unless the database is
here too. -/
def ReaderFits (s : LayoutState β) : Event → Prop
  | .openDb i _ => ∀ w p, s.readers[i]? = some (w, p) →
      s.files.has w p.other .dataSqliteWal = false ∧
      s.files.has w p.other .dataSqliteShm = false ∧
      (s.files.has w p .dataSqlite = false → s.files.has w p.other .dataSqlite = false)
  | _ => True

/-! ## What one step preserves -/

theorem Tree.has_eq_false {t : Tree β} {w : String} {p : Place} {a : Artifact} :
    t.has w p a = false ↔ t w p a = none := by
  simp [Tree.has]

theorem Tree.has_eq_true {t : Tree β} {w : String} {p : Place} {a : Artifact} :
    t.has w p a = true ↔ ∃ c, t w p a = some c := Option.isSome_iff_exists

section Step

variable {cfg : AppConfig} {empty : β} {creates : Artifact → Bool} {t : Tree β}
  {s : LayoutState β} {wallet w : String} {p q : Place} {a : Artifact} {c : β}

theorem keeps_rename (h : t.has wallet .engine a = false) : Keeps t (t.rename wallet a) := by
  intro w q b c hc
  by_cases heq : (w, b) = (wallet, a)
  · cases heq
    cases q with
    | root => exact ⟨.engine, by rw [Tree.rename_engine, hc]⟩
    | engine => exact absurd ((Tree.has_eq_false.mp h).symm.trans hc) (by simp)
  · exact ⟨q, by rw [Tree.rename_of_ne heq, hc]⟩

theorem openDatabase_of_has (h : t w q a = some c) :
    openDatabase empty creates t wallet p w q a = some c := by
  have hhas : t.has w q a = true := Tree.has_eq_true.mpr ⟨c, h⟩
  simp [openDatabase, hhas, h]

theorem openDatabase_new (h : t.has w q a = false)
    (h' : (openDatabase empty creates t wallet p).has w q a = true) :
    w = wallet ∧ q = p ∧ a ∈ databaseFiles := by
  by_contra hne
  have hsame : openDatabase empty creates t wallet p w q a = t w q a := by
    rw [openDatabase, if_neg fun hif => hne ⟨hif.1, hif.2.1, hif.2.2.1⟩]
  rw [Tree.has, hsame] at h'
  exact absurd (h'.symm.trans h) (by simp)

theorem keeps_openDatabase : Keeps t (openDatabase empty creates t wallet p) :=
  fun _ q _ _ hc => ⟨q, openDatabase_of_has hc⟩

theorem Keeps.trans {t' t'' : Tree β} (h : Keeps t t') (h' : Keeps t' t'') : Keeps t t'' := by
  intro w p a c hc
  obtain ⟨q, hq⟩ := h w p a c hc
  exact h' w q a c hq

theorem ReaderFits.other {i : ℕ} (h : ReaderFits s (.openDb i creates))
    (hi : s.readers[i]? = some (wallet, p)) (hnew : s.files.has wallet p a = false)
    (ha : a ∈ databaseFiles) : s.files.has wallet p.other a = false := by
  obtain ⟨hwal, hshm, hdata⟩ := h wallet p hi
  simp only [databaseFiles, List.mem_cons, List.not_mem_nil, or_false] at ha
  rcases ha with rfl | rfl | rfl
  · exact hdata hnew
  · exact hwal
  · exact hshm

/-- The renames left are of files at the root that the engine directory lacks; nothing of the
first tree is lost, and what was apart is. -/
structure LayoutInv (cfg : AppConfig) (t : Tree β) (s : LayoutState β) : Prop where
  nodup : ∀ rs, s.run = some rs → rs.Nodup
  pending : ∀ rs, s.run = some rs → ∀ w a, (w, a) ∈ rs →
    s.files.has w .root a = true ∧ s.files.has w .engine a = false
  keeps : Keeps t s.files
  apart : Apart cfg t → Apart cfg s.files

theorem layoutInv_init : LayoutInv cfg t (.init t) :=
  ⟨(fun _ h => by cases h), (fun _ h => by cases h), fun _ p _ _ hc => ⟨p, hc⟩, id⟩

/-- A run that ends, or has nothing left to do with the files, keeps the invariant. -/
theorem LayoutInv.idle (h : LayoutInv cfg t s) (readers : List (String × Place)) :
    LayoutInv cfg t { s with run := none, readers := readers } :=
  ⟨(fun _ hr => by cases hr), (fun _ hr => by cases hr), h.keeps, h.apart⟩

theorem LayoutInv.migrate (h : LayoutInv cfg t s) :
    LayoutInv cfg t (Event.migrate.step cfg empty s) := by
  simp only [Event.step]
  split
  · exact h
  · split
    · exact h
    · next moves hplan =>
      refine ⟨?_, ?_, h.keeps, h.apart⟩
      · rintro rs hrs
        obtain rfl := Option.some.inj hrs
        exact renames_nodup hplan
      · rintro rs hrs w a hmem
        obtain rfl := Option.some.inj hrs
        obtain ⟨hw, ha⟩ := (mem_renames_iff hplan).mp hmem
        exact ⟨ha, plan_disjoint hplan hw ha⟩

theorem has_rename_of_ne {b : Artifact} (h : (w, b) ≠ (wallet, a)) :
    (t.rename wallet a).has w q b = t.has w q b := by
  rw [Tree.has, Tree.has, Tree.rename_of_ne h]

theorem LayoutInv.rename (h : LayoutInv cfg t s) :
    LayoutInv cfg t (Event.rename.step cfg empty s) := by
  simp only [Event.step]
  split
  · next wallet a rest hrun =>
    obtain ⟨hroot, hengine⟩ := h.pending _ hrun wallet a List.mem_cons_self
    obtain ⟨hnot, hrest⟩ := List.nodup_cons.mp (h.nodup _ hrun)
    rw [if_pos hroot]
    refine ⟨?_, ?_, h.keeps.trans (keeps_rename hengine), fun ht w hw b hb => ?_⟩
    · rintro rs hrs
      obtain rfl := Option.some.inj hrs
      exact hrest
    · rintro rs hrs w b hmem
      obtain rfl := Option.some.inj hrs
      have hne : (w, b) ≠ (wallet, a) := fun heq => hnot (heq ▸ hmem)
      have hold := h.pending _ hrun w b (List.mem_cons_of_mem _ hmem)
      exact ⟨(has_rename_of_ne hne).trans hold.1, (has_rename_of_ne hne).trans hold.2⟩
    · by_cases heq : (w, b) = (wallet, a)
      · cases heq
        simp [Tree.has] at hb
      · exact (has_rename_of_ne heq).trans
          (h.apart ht w hw b ((has_rename_of_ne heq).symm.trans hb))
  · exact h

theorem LayoutInv.openDb (h : LayoutInv cfg t s) {i : ℕ}
    (hfit : ReaderFits s (.openDb i creates)) :
    LayoutInv cfg t ((Event.openDb i creates).step cfg empty s) := by
  simp only [Event.step]
  split
  · exact h
  · next wallet p hi =>
    have hnew : ∀ {w q a}, s.files.has w q a = false →
        (openDatabase empty creates s.files wallet p).has w q a = true →
        q = p ∧ s.files.has w p.other a = false := by
      intro w q a hf ht
      obtain ⟨rfl, rfl, ha⟩ := openDatabase_new hf ht
      exact ⟨rfl, hfit.other hi hf ha⟩
    have hold : ∀ {w q a}, s.files.has w q a = true →
        (openDatabase empty creates s.files wallet p).has w q a = true := by
      intro w q a ht
      obtain ⟨c, hc⟩ := Tree.has_eq_true.mp ht
      exact Tree.has_eq_true.mpr ⟨c, openDatabase_of_has hc⟩
    refine ⟨h.nodup, fun rs hrs w a hmem => ?_, h.keeps.trans keeps_openDatabase,
      fun ht w hw a hroot => ?_⟩
    · obtain ⟨hroot, hengine⟩ := h.pending rs hrs w a hmem
      refine ⟨hold hroot, ?_⟩
      by_contra hcontra
      obtain ⟨rfl, hother⟩ := hnew hengine (by simpa using hcontra)
      exact absurd (hother.symm.trans hroot) (by simp)
    · by_contra hcontra
      have hengine : (openDatabase empty creates s.files wallet p).has w .engine a = true := by
        simpa using hcontra
      cases hr : s.files.has w .root a with
      | true =>
        have he := h.apart ht w hw a hr
        obtain ⟨rfl, hother⟩ := hnew he hengine
        exact absurd (hother.symm.trans hr) (by simp)
      | false =>
        obtain ⟨rfl, hother⟩ := hnew hr hroot
        obtain ⟨hp, _⟩ := hnew hother hengine
        cases hp

theorem LayoutInv.step (h : LayoutInv cfg t s) {e : Event} (hfit : ReaderFits s e) :
    LayoutInv cfg t (e.step cfg empty s) := by
  cases e with
  | migrate => exact h.migrate
  | rename => exact h.rename
  | stop => exact h.idle s.readers
  | look wallet => exact ⟨h.nodup, h.pending, h.keeps, h.apart⟩
  | openDb i creates => exact h.openDb hfit

/-! ## A run left alone -/

variable (cfg empty) in
theorem run_renames {rs : List (String × Artifact)} (hrun : s.run = some rs) (hnodup : rs.Nodup)
    (hroot : ∀ w a, (w, a) ∈ rs → s.files.has w .root a = true) :
    (run (Event.step cfg empty) s (List.replicate rs.length .rename)).run = some [] ∧
    (∀ w a, (w, a) ∈ rs →
      (run (Event.step cfg empty) s (List.replicate rs.length .rename)).files w .root a = none ∧
      (run (Event.step cfg empty) s (List.replicate rs.length .rename)).files w .engine a =
        s.files w .root a) ∧
    ∀ w a p, (w, a) ∉ rs →
      (run (Event.step cfg empty) s (List.replicate rs.length .rename)).files w p a =
        s.files w p a := by
  induction rs generalizing s with
  | nil => exact ⟨hrun, by simp, fun _ _ _ _ => rfl⟩
  | cons x rest ih =>
    obtain ⟨wallet, a⟩ := x
    obtain ⟨hnot, hrest⟩ := List.nodup_cons.mp hnodup
    have hstep : Event.rename.step cfg empty s =
        { s with files := s.files.rename wallet a, run := some rest } := by
      simp only [Event.step, hrun]
      rw [if_pos (hroot wallet a List.mem_cons_self)]
    have hne : ∀ {w b}, (w, b) ∈ rest → (w, b) ≠ (wallet, a) := fun hmem heq => hnot (heq ▸ hmem)
    obtain ⟨hdone, hmoved, hsame⟩ := ih
      (s := { s with files := s.files.rename wallet a, run := some rest }) rfl hrest
      fun w b hmem => (has_rename_of_ne (hne hmem)).trans
        (hroot w b (List.mem_cons_of_mem _ hmem))
    rw [List.length_cons, List.replicate_succ, run_cons, hstep]
    refine ⟨hdone, fun w b hmem => ?_, fun w b p hmem => ?_⟩
    · rcases List.mem_cons.mp hmem with heq | hmem
      · cases heq
        rw [hsame wallet a .root hnot, hsame wallet a .engine hnot]
        exact ⟨Tree.rename_root, Tree.rename_engine⟩
      · obtain ⟨hr, he⟩ := hmoved w b hmem
        exact ⟨hr, he.trans (Tree.rename_of_ne (hne hmem))⟩
    · rw [hsame w b p fun hmem' => hmem (List.mem_cons_of_mem _ hmem')]
      exact Tree.rename_of_ne fun heq => hmem (heq ▸ List.mem_cons_self)

theorem resumes_of_apart (h : Apart cfg s.files) : Resumes cfg empty s := by
  obtain ⟨moves, hplan⟩ := exists_plan h
  have hstart : run (Event.step cfg empty) s [.stop, .migrate] =
      { s with run := some (renames moves) } := by
    simp only [run_cons, run_nil, Event.step, hplan]
  obtain ⟨hdone, hmoved, hsame⟩ := run_renames cfg empty
    (s := { s with run := some (renames moves) }) rfl (renames_nodup hplan)
    fun w a hmem => ((mem_renames_iff hplan).mp hmem).2
  refine ⟨(renames moves).length, _, rfl, ?_⟩
  rw [show (Event.stop :: .migrate :: List.replicate (renames moves).length Event.rename) =
    [.stop, .migrate] ++ List.replicate (renames moves).length .rename from rfl, run_append, hstart]
  refine ⟨hdone, fun w hw a => ?_⟩
  cases hroot : s.files.has w .root a with
  | true =>
    obtain ⟨hr, he⟩ := hmoved w a ((mem_renames_iff hplan).mpr ⟨hw, hroot⟩)
    refine ⟨hr, fun p c hc => ?_⟩
    cases p with
    | root => exact he.trans hc
    | engine =>
      have hnone := Tree.has_eq_false.mp (h w hw a hroot)
      exact absurd (hnone.symm.trans hc) (by simp)
  | false =>
    have hnot : (w, a) ∉ renames moves := fun hmem =>
      absurd (((mem_renames_iff hplan).mp hmem).2.symm.trans hroot) (by simp)
    rw [hsame w a .root hnot, hsame w a .engine hnot]
    have hnone := Tree.has_eq_false.mp hroot
    refine ⟨hnone, fun p c hc => ?_⟩
    cases p with
    | root => exact absurd (hnone.symm.trans hc) (by simp)
    | engine => exact hc

theorem migrate_refused {e : String} (h : plan cfg s.files = .error e) :
    Event.migrate.step cfg empty s = s := by
  simp only [Event.step, h]
  split <;> rfl

end Step

/-! ## Every run -/

/-- If every reader opens its database where no part of it is left in the other directory, the
migration is lossless and resumable, however its runs are cut off. -/
theorem losslessResumable_of_readersFit (cfg : AppConfig) (empty : β) (t : Tree β)
    (es : List Event) (h : Along (Event.step cfg empty) ReaderFits (.init t) es) :
    LosslessResumable cfg empty t es := by
  have hstep : ∀ (s : LayoutState β) (e : Event), LayoutInv cfg t s → ReaderFits s e →
      LayoutInv cfg t (e.step cfg empty s) := fun _ _ hs hfit => hs.step hfit
  have hinv := invariant hstep layoutInv_init h
  refine ⟨hinv.keeps, ?_, fun _ => migrate_refused, ?_, fun ht => resumes_of_apart (hinv.apart ht)⟩
  · refine along_imp hstep (fun s e hs _ => ?_) layoutInv_init h
    cases e with
    | rename => exact fun w a rest hrun => (hs.pending _ hrun w a List.mem_cons_self).2
    | _ => trivial
  · refine along_imp hstep (fun s e _ hfit => ?_) layoutInv_init h
    cases e with
    | openDb i creates => exact fun w p hi _ => (hfit w p hi).1
    | _ => trivial

/-- A start that finds an artifact in both places is refused, and so is every later one. -/
theorem refused_forever (cfg : AppConfig) (empty : β) {s : LayoutState β} {w : String}
    {a : Artifact} (hw : cfg.Configured w) (hrun : s.run = none)
    (hroot : s.files.has w .root a = true) (hengine : s.files.has w .engine a = true)
    (es : List Event) : ∃ e, plan cfg (run (Event.step cfg empty) s es).files = .error e := by
  have hrefused : ∀ s : LayoutState β, s.files.has w .root a = true →
      s.files.has w .engine a = true → ∃ e, plan cfg s.files = .error e := by
    intro s hroot hengine
    cases hplan : plan cfg s.files with
    | error e => exact ⟨e, rfl⟩
    | ok moves => exact absurd (hengine.symm.trans (plan_disjoint hplan hw hroot)) (by simp)
  -- No run gets past its plan, so nothing but a reader touches the files.
  have hstays : ∀ (s : LayoutState β) (e : Event),
      (s.run = none ∧ s.files.has w .root a = true ∧ s.files.has w .engine a = true) →
      ((e.step cfg empty s).run = none ∧ (e.step cfg empty s).files.has w .root a = true ∧
        (e.step cfg empty s).files.has w .engine a = true) := by
    rintro s e ⟨hrun, hroot, hengine⟩
    cases e with
    | migrate =>
      obtain ⟨e, he⟩ := hrefused s hroot hengine
      rw [migrate_refused he]
      exact ⟨hrun, hroot, hengine⟩
    | rename => simp only [Event.step, hrun]; exact ⟨trivial, hroot, hengine⟩
    | stop => exact ⟨rfl, hroot, hengine⟩
    | look wallet => exact ⟨hrun, hroot, hengine⟩
    | openDb i creates =>
      simp only [Event.step]
      split
      · exact ⟨hrun, hroot, hengine⟩
      · obtain ⟨c, hc⟩ := Tree.has_eq_true.mp hroot
        obtain ⟨d, hd⟩ := Tree.has_eq_true.mp hengine
        exact ⟨hrun, Tree.has_eq_true.mpr ⟨c, openDatabase_of_has hc⟩,
          Tree.has_eq_true.mpr ⟨d, openDatabase_of_has hd⟩⟩
  have halways : Along (Event.step cfg empty) (fun _ _ => True) s es :=
    along_of_always fun _ _ => trivial
  have hfinal := invariant (fun s e hs _ => hstays s e hs) ⟨hrun, hroot, hengine⟩ halways
  exact hrefused _ hfinal.2.1 hfinal.2.2

/-! ## A reader between two runs -/

/-- One wallet in the old layout: its database, and a `-wal` with committed transactions. -/
def oneWallet : AppConfig := ⟨[("default", ⟨"default", "zec", "lrz"⟩)], by simp⟩

def legacyWallet : Tree ℕ := fun w p a =>
  if w = "default" ∧ p = .root then
    match a with
    | .dataSqlite => some 1
    | .dataSqliteWal => some 2
    | _ => none
  else none

/-- The migration is killed after its first rename; then a key is exported. -/
def exportAfterKill : List Event :=
  [.migrate, .rename, .stop, .look "default", .openDb 0 fun _ => true]

/-- The reader opens the moved database without its `-wal`, and the empty one it has there makes
every start fail for as long as that one is there: while the reader is open, or once it was
killed. -/
theorem exportAfterKill_stuck :
    ¬ LosslessResumable oneWallet 0 legacyWallet exportAfterKill ∧
    ∀ es, ∃ e, plan oneWallet
      (run (Event.step oneWallet 0) (.init legacyWallet) (exportAfterKill ++ es)).files =
        .error e := by
  constructor
  · intro h
    have hsplit : exportAfterKill = exportAfterKill.take 4 ++ exportAfterKill.drop 4 := rfl
    have hopens := h.opensWhole
    rw [hsplit] at hopens
    have hopen := (along_append.mp hopens).2.1
    have hwhole := hopen "default" .engine (by decide) (by decide)
    revert hwhole
    decide
  · intro es
    rw [run_append]
    have hconf : oneWallet.Configured "default" := List.mem_cons_self
    exact refused_forever oneWallet 0 (a := .dataSqliteWal) hconf (by decide) (by decide)
      (by decide) es

/-- The same key is exported while the migration is killed before it moved anything. -/
theorem exportBeforeMove_lossless :
    LosslessResumable oneWallet 0 legacyWallet
      [.migrate, .stop, .look "default", .openDb 0 fun _ => true, .migrate, .rename, .stop] := by
  refine losslessResumable_of_readersFit oneWallet 0 legacyWallet _
    ⟨trivial, trivial, trivial, ?_, trivial, trivial, trivial, trivial⟩
  intro w p hi
  obtain ⟨rfl, rfl⟩ : w = "default" ∧ p = .root := by
    have hlook : (run (Event.step oneWallet 0) (.init legacyWallet)
        [.migrate, .stop, .look "default"]).readers[0]? = some ("default", .root) := by decide
    simpa [eq_comm] using hi.symm.trans hlook
  decide

end Zecd.Datadir
