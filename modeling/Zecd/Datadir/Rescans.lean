import Zecd.Datadir.LifecycleRuns

/-! # Rescans that are cut off

A rescan removes the engine's files one by one. However it is cut off, and however often, the next
one removes what is left.
-/

namespace Zecd.Lifecycle

open Runs
open Datadir (Artifact engineArtifacts mem_engineArtifacts)

variable {Seed Key : Type} [DecidableEq Key] {d : Derivation Seed Key} {heights : Activations}
  {entry : Entry} {cfg : Bootstrap.Config} {w : World Seed Key}
  {remove : Artifact → Option (String × String)}
  {as : List Artifact}

/-- A database that is not there holds no account. -/
def Stored (w : World Seed Key) : Prop := w.present .dataSqlite = false → w.accounts = []

omit [DecidableEq Key] in
theorem removeArtifacts_stored (remove : Artifact → Option (String × String)) (h : Stored w)
    (as : List Artifact) : Stored (removeArtifacts remove w as).1 := by
  induction as generalizing w with
  | nil => exact h
  | cons a rest ih =>
    unfold removeArtifacts
    split
    · exact ih h
    · split
      · exact h
      · apply ih
        intro hgone
        dsimp only at hgone ⊢
        split
        · rfl
        next hne => exact h (by simpa [Ne.symm hne] using hgone)

theorem step_stored (h : Stored w) (ev : Event Seed Key) :
    Stored (step d heights entry cfg w ev) := by
  cases ev with
  | init o c =>
    obtain ⟨w', -, haccounts, -, hpresent, ⟨hleft, -⟩ | ⟨-, -, -, hdb, e, -, -, -, h'⟩⟩ :=
      initWallet_cases d heights entry w o c
    · rw [step, hleft]
      intro hgone
      rw [haccounts]
      apply h
      by_contra hthere
      rw [hpresent _ (by simpa using hthere)] at hgone
      cases hgone
    · intro hgone
      rcases h' with ⟨cut, -, hleft, -⟩ | ⟨-, hleft⟩
      · rw [step, hleft] at hgone
        cases hdb.symm.trans hgone
      · rw [step, hleft, (createAccount_same _ e c).2.2] at hgone
        cases hdb.symm.trans hgone
  | rescan rc =>
    rcases rescanWallet_cases heights entry w rc with hsame | ⟨-, hleft⟩
    · rw [step, hsame]
      exact h
    · rw [step, hleft]
      exact removeArtifacts_stored _ h _
  | daemon ev =>
    rw [step]
    by_cases hholds : ∃ e, w.keysFile = .holds e
    · obtain ⟨e, he⟩ := hholds
      rw [daemonStep_of_holds _ _ _ he]
      intro hgone
      simp at hgone
    · rw [daemonStep_of_not_holds fun e he => hholds ⟨e, he⟩]
      exact h
  | losesPower kept =>
    intro hgone
    have := h hgone
    simp [step, this]
  | replaceDb accounts present =>
    simp only [step]
    split
    · exact h
    · intro hgone
      exact if_neg (by simpa using hgone)

omit [DecidableEq Key] in
theorem removeArtifacts_all (hall : ∀ a, remove a = none) (hnodup : as.Nodup) (w : World Seed Key) :
    removeArtifacts remove w as = ({ w with
      present := fun b => decide (b ∉ as) && w.present b
      accounts := if .dataSqlite ∈ as ∧ w.present .dataSqlite then [] else w.accounts },
      .ok (as.filter w.present)) := by
  induction as generalizing w with
  | nil => simp [removeArtifacts]
  | cons a rest ih =>
    obtain ⟨hnew, hrest⟩ := List.nodup_cons.mp hnodup
    unfold removeArtifacts
    cases hpresent : w.present a with
    | false =>
      rw [if_pos (by rfl), ih hrest]
      have hfilter : (a :: rest).filter w.present = rest.filter w.present :=
        List.filter_cons_of_neg (by simp [hpresent])
      rw [hfilter]
      congr 2
      · by_cases ha : Artifact.dataSqlite = a
        · subst ha
          simp [hpresent]
        · simp [ha]
      · funext b
        by_cases hb : b = a
        · subst hb
          simp [hpresent]
        · simp [hb]
    | true =>
      rw [if_neg (by simp), hall]
      dsimp only
      rw [ih hrest]
      have hfilter :
          rest.filter (fun b => decide (b ≠ a) && w.present b) = rest.filter w.present := by
        apply List.filter_congr
        intro b hb
        have hne : b ≠ a := fun h => hnew (h ▸ hb)
        simp [hne]
      dsimp only
      rw [hfilter, List.filter_cons_of_pos hpresent]
      congr 2
      · by_cases ha : Artifact.dataSqlite = a
        · subst ha
          simp [hpresent]
        · simp [ha, Ne.symm ha]
      · funext b
        by_cases hb : b = a
        · subst hb
          simp
        · simp [hb]

omit [DecidableEq Key] in
/-- A rescan is admitted only where the account can be rebuilt, from the seed or from the pin. -/
theorem rebuildable_of_admitted {rc : RescanCalls} {st : WalletStore Seed Key}
    (h : admitRescan heights entry w rc = .ok st) : st.seed.isSome ∨ st.pinnedUfvk.isSome := by
  unfold admitRescan at h
  split at h
  · cases h
  · split at h
    · cases h
    · split at h
      · cases h
      · split at h
        · cases h
        next st' _ =>
          split at h
          · cases h
          · split at h
            · cases h
            next hkeys =>
              split at h
              · cases h
              · obtain rfl := Except.ok.inj h
                cases hseed : st'.seed with
                | some seed => exact .inl rfl
                | none =>
                  rw [hseed] at hkeys
                  exact .inr (by simpa [Option.isSome_iff_ne_none] using hkeys)

omit [DecidableEq Key] in
/-- Admission looks at what a rescan never changes. -/
theorem admitRescan_congr {w' : World Seed Key} (hfile : w'.keysFile = w.keysFile)
    (hactor : w'.actor = w.actor) (rc : RescanCalls) :
    admitRescan heights entry w' rc = admitRescan heights entry w rc := by
  unfold admitRescan
  rw [hfile, hactor]

variable (d heights entry cfg) in
theorem rescan_same (rc : RescanCalls) (w : World Seed Key) :
    (step d heights entry cfg w (.rescan rc)).keysFile = w.keysFile ∧
      (step d heights entry cfg w (.rescan rc)).actor = w.actor := by
  rcases rescanWallet_cases heights entry w rc with hsame | ⟨-, hleft⟩
  · rw [step, hsame]
    exact ⟨rfl, rfl⟩
  · rw [step, hleft]
    exact removeArtifacts_same _ _ _

variable (d heights entry cfg) in
theorem rescans_same (rcs : List RescanCalls) (w : World Seed Key) :
    let w' := run (step d heights entry cfg) w (rcs.map .rescan)
    w'.keysFile = w.keysFile ∧ w'.actor = w.actor := by
  induction rcs generalizing w with
  | nil => exact ⟨rfl, rfl⟩
  | cons rc rcs ih =>
    obtain ⟨hfile, hactor⟩ := ih (step d heights entry cfg w (.rescan rc))
    obtain ⟨hfile', hactor'⟩ := rescan_same d heights entry cfg rc w
    exact ⟨hfile.trans hfile', hactor.trans hactor'⟩

/-- Rescans that are cut off, however often and wherever, are completed by the next: it removes what
they left, and ends as if they had not run. What it keeps can rebuild the account. -/
theorem rescan_resumes (d : Derivation Seed Key) (heights : Activations) (entry : Entry)
    (cfg : Bootstrap.Config) (es : List (Event Seed Key)) (cutOff : List RescanCalls)
    (rc : RescanCalls) {st : WalletStore Seed Key} (hall : ∀ a, rc.remove a = none)
    (hadmitted : admitRescan heights entry (run (step d heights entry cfg) .empty es) rc = .ok st) :
    let w := run (step d heights entry cfg) .empty es
    let w' := run (step d heights entry cfg) w (cutOff.map .rescan)
    rescanWallet heights entry w' rc =
        ({ w with present := fun _ => false, accounts := [] },
          .ok (engineArtifacts.filter w'.present)) ∧
      (st.seed.isSome ∨ st.pinnedUfvk.isSome) := by
  intro w w'
  obtain ⟨hfile, hactor⟩ := rescans_same d heights entry cfg cutOff w
  have hstored : Stored w' := by
    have hempty : Stored (World.empty : World Seed Key) := fun _ => rfl
    have hw : Stored w := invariant (P := fun _ _ => True) (fun _ ev h _ => step_stored h ev) hempty
      (along_of_always fun _ _ => trivial)
    exact invariant (P := fun _ _ => True) (fun _ ev h _ => step_stored h ev) hw
      (along_of_always fun _ _ => trivial)
  constructor
  · unfold rescanWallet
    rw [admitRescan_congr hfile hactor, hadmitted]
    dsimp only
    rw [removeArtifacts_all hall Datadir.engineArtifacts_nodup]
    have haccounts : (if Artifact.dataSqlite ∈ engineArtifacts ∧ w'.present .dataSqlite = true
        then [] else w'.accounts) = [] := by
      split
      · rfl
      next hgone =>
        apply hstored
        simpa [mem_engineArtifacts] using hgone
    rw [haccounts]
    have hpresent : (fun b => decide (b ∉ engineArtifacts) && w'.present b) =
        fun _ : Artifact => false := by
      funext b
      simp [mem_engineArtifacts]
    rw [hpresent, hfile, hactor]
  · exact rebuildable_of_admitted hadmitted

/-- The database is removed, and its log is not. -/
def failsAtLog : RescanCalls where
  migrate := true
  confirm := true
  remove
    | .dataSqliteWal => some ("/d/default/zec/data.sqlite-wal", "Permission denied (os error 13)")
    | _ => none

/-- Two of the engine's files are there. -/
def withLog : Artifact → Bool := fun a => decide (a = .dataSqlite ∨ a = .dataSqliteWal)

theorem rescan_resumes_failsAtLog :
    let w := run plainStep .empty [.init newWallet (initCalls true),
      .replaceDb [⟨1, 7000, some 0, false⟩] withLog]
    let w' := run plainStep w ([failsAtLog].map .rescan)
    rescanWallet plainHeights plainEntry w' ⟨true, true, fun _ => none⟩ =
        ({ w with present := fun _ => false, accounts := [] },
          .ok (engineArtifacts.filter w'.present)) ∧
      ((some 7).isSome ∨ (some 7000).isSome) :=
  rescan_resumes plainDerivation plainHeights
    plainEntry ⟨true, true⟩ [.init newWallet (initCalls true),
      .replaceDb [⟨1, 7000, some 0, false⟩] withLog] [failsAtLog] ⟨true, true, fun _ => none⟩
    (fun _ => rfl) rfl

end Zecd.Lifecycle
