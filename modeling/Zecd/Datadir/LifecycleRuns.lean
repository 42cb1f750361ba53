import Zecd.Datadir.Binding
import Zecd.Datadir.Lifecycle

/-! # What holds over the life of a wallet directory

Once an init has written `keys.toml`, its key material never changes, and every account served is
the one it pins, whatever database is put in place. An init or a rescan that is cut off is completed
by the daemon, to one account under the pin.
-/

namespace Zecd.Lifecycle

open Runs
open Config (ZNetwork)
open Datadir (Artifact engineArtifacts mem_engineArtifacts)

variable {Seed Key : Type} [DecidableEq Key] {d : Derivation Seed Key} {heights : Activations}
  {entry : Entry} {cfg : Bootstrap.Config} {w : World Seed Key} {o : InitOptions Seed Key}
  {c : InitCalls} {e : StoreEncoding Seed Key} {out : InitOutcome}

/-! ## keys.toml as the daemon reads it -/

def keysToml (heights : Activations) (e : StoreEncoding Seed Key) : Bootstrap.KeysToml Key :=
  ⟨e.mnemonic.isSome, e.encryption == some encPassphrase,
    e.birthday.getD (heights.nu5 (e.network.getD .test)), e.ufvk⟩

def served (heights : Activations) (e : StoreEncoding Seed Key) (w : World Seed Key) :
    Bootstrap.World Key :=
  ⟨w.accounts, keysToml heights e, w.actor⟩

/-- The key an init pins: the imported one in its canonical form, or the seed's first. -/
def pinnedKey (d : Derivation Seed Key) : InitKey Seed Key → Option Key
  | .generate seed => some (d.derive seed 0)
  | .restore seed => some (d.derive seed 0)
  | .watchOnly encoded => d.decode encoded

variable (d heights cfg) in
theorem daemonStep_of_holds (h : w.keysFile = .holds e) (ev : Bootstrap.Event) :
    let b := Bootstrap.step (d.layer e.mnemonic) cfg (served heights e w) ev
    daemonStep d heights cfg w ev = ⟨.holds { e with ufvk := b.keys.ufvk }, b.accounts,
      fun a => w.present a || decide (a = .dataSqlite), b.actor⟩ := by
  unfold daemonStep
  rw [h]
  rfl

theorem daemonStep_of_not_holds (h : ∀ e, w.keysFile ≠ .holds e) (ev : Bootstrap.Event) :
    daemonStep d heights cfg w ev = w := by
  unfold daemonStep
  split
  next encoding _ hfile _ => exact absurd hfile (h encoding)
  next => rfl

variable (d heights cfg) in
theorem served_daemonStep (h : w.keysFile = .holds e) (ev : Bootstrap.Event) :
    let b := Bootstrap.step (d.layer e.mnemonic) cfg (served heights e w) ev
    served heights { e with ufvk := b.keys.ufvk } (daemonStep d heights cfg w ev) = b := by
  intro b
  obtain ⟨hpinned, -⟩ := Bootstrap.step_keeps (d.layer e.mnemonic) cfg (served heights e w) ev
  have hkeys : keysToml heights { e with ufvk := b.keys.ufvk } = b.keys := by
    rcases hpinned with hsame | ⟨-, k, hset⟩
    · have : b.keys = keysToml heights e := hsame
      rw [this]
      rfl
    · have : b.keys = { keysToml heights e with ufvk := some k } := hset
      rw [this]
      rfl
  rw [daemonStep_of_holds d heights cfg h, served, hkeys]

/-! ## init -/

omit [DecidableEq Key] in
theorem admitInit_ok {ufvk : Option Key} (h : admitInit d entry w o c = .ok ufvk) :
    w.actor = none ∧ w.keysFile = .missing ∧
      ufvk = (match o.key with | .watchOnly _ => pinnedKey d o.key | _ => none) ∧
      (o.key.mnemonic = none → ufvk.isSome) := by
  unfold admitInit at h
  split at h
  · cases h
  next hactor =>
    split at h
    · cases h
    · split at h
      · cases h
      next hfile =>
        have hmissing : w.keysFile = .missing := by
          cases hkeys : w.keysFile with
          | missing => rfl
          | unreadable => rw [hkeys] at hfile; exact absurd rfl hfile
          | holds e => rw [hkeys] at hfile; exact absurd rfl hfile
        refine ⟨by simpa using hactor, hmissing, ?_⟩
        cases hkey : o.key with
        | watchOnly encoded =>
          rw [hkey] at h
          dsimp only at h
          split at h
          · cases h
          next k hk =>
            obtain rfl := Except.ok.inj h
            exact ⟨hk.symm, fun _ => rfl⟩
        | generate seed | restore seed =>
          rw [hkey] at h
          refine ⟨?_, fun hnone => by simp [InitKey.mnemonic] at hnone⟩
          dsimp only at h
          split at h
          · split at h
            · exact (Except.ok.inj h).symm
            · cases h
          · exact (Except.ok.inj h).symm

omit [DecidableEq Key] in
theorem pinnedKey_of_admitted {ufvk : Option Key}
    (h : admitInit d entry w o c = .ok ufvk) : ∃ P, pinnedKey d o.key = some P := by
  obtain ⟨-, -, hufvk, hsome⟩ := admitInit_ok h
  cases hkey : o.key with
  | generate seed | restore seed => exact ⟨_, rfl⟩
  | watchOnly encoded =>
    rw [hkey] at hufvk hsome
    dsimp only at hufvk
    rw [← hufvk]
    exact Option.isSome_iff_exists.mp (hsome rfl)

omit [DecidableEq Key] in
theorem prepare_ok {accounts : List (Bootstrap.Account Key)} {ufvk : Option Key}
    (hufvk : ufvk = (match o.key with | .watchOnly _ => pinnedKey d o.key | _ => none))
    (hsome : o.key.mnemonic = none → ufvk.isSome)
    (h : prepare d heights entry accounts o c ufvk = .ok e) :
    accounts = [] ∧ e.mnemonic = o.key.mnemonic ∧ e.ufvk = pinnedKey d o.key ∧
      e.network = some entry.network := by
  unfold prepare at h
  split at h
  · cases h
  next haccounts =>
    refine ⟨List.length_eq_zero_iff.mp (not_not.mp haccounts), ?_⟩
    split at h
    · cases h
    · split at h
      · cases h
      · split at h
        · cases h
        · split at h
          · cases h
          · dsimp only at h
            split at h
            · cases h
            · cases hkey : o.key with
              | watchOnly encoded =>
                rw [hkey] at hufvk hsome
                dsimp only at hufvk
                obtain ⟨k, hk⟩ := Option.isSome_iff_exists.mp (hsome rfl)
                rw [hk] at h
                obtain rfl := Except.ok.inj h
                exact ⟨rfl, hk.symm.trans hufvk, rfl⟩
              | generate seed | restore seed =>
                rw [hkey] at hufvk
                dsimp only at hufvk
                rw [hufvk, hkey] at h
                dsimp only [InitKey.mnemonic] at h
                split at h
                · cases h
                · obtain rfl := Except.ok.inj h
                  exact ⟨rfl, rfl, rfl⟩

structure Pins (d : Derivation Seed Key) (entry : Entry) (o : InitOptions Seed Key)
    (e : StoreEncoding Seed Key) : Prop where
  mnemonic : e.mnemonic = o.key.mnemonic
  ufvk : e.ufvk = pinnedKey d o.key
  network : e.network = some entry.network

/-- How far an init gets: it leaves what it found, a `keys.toml` that is cut off, or a whole one,
over which the account is created. It gets past the first of these only over nothing. -/
theorem initWallet_cases (d : Derivation Seed Key) (heights : Activations) (entry : Entry)
    (w : World Seed Key) (o : InitOptions Seed Key) (c : InitCalls) :
    ∃ w', w'.keysFile = w.keysFile ∧ w'.accounts = w.accounts ∧ w'.actor = w.actor ∧
      (∀ a, w.present a = true → w'.present a = true) ∧
      (((initWallet d heights entry w o c).1 = w' ∧
          ∃ text, (initWallet d heights entry w o c).2 = .error text) ∨
        (w.actor = none ∧ w.keysFile = .missing ∧ w.accounts = [] ∧
          w'.present .dataSqlite = true ∧ ∃ e P, Pins d entry o e ∧ e.ufvk = some P ∧
          ((∃ cut, c.write = .torn cut ∧
              (initWallet d heights entry w o c).1 = { w' with keysFile := cut.leaves e } ∧
              ∃ text, (initWallet d heights entry w o c).2 = .error text) ∨
            (c.write = .complete ∧
              initWallet d heights entry w o c =
                createAccount d { w' with keysFile := .holds e } e c)))) := by
  unfold initWallet
  cases hadmitted : admitInit d entry w o c with
  | error text => exact ⟨w, rfl, rfl, rfl, fun _ h => h, .inl ⟨rfl, text, rfl⟩⟩
  | ok ufvk =>
    obtain ⟨hactor, hmissing, hufvk, hsome⟩ := admitInit_ok hadmitted
    dsimp only
    split
    · exact ⟨w, rfl, rfl, rfl, fun _ h => h, .inl ⟨rfl, _, rfl⟩⟩
    · refine ⟨{ w with
        present := fun a => w.present a || decide (a = .dataSqlite) || c.opened a }, rfl, rfl, rfl,
        fun a h => by simp [h], ?_⟩
      cases hprepare : prepare d heights entry w.accounts o c ufvk with
      | error text => exact .inl ⟨rfl, text, rfl⟩
      | ok e =>
        obtain ⟨hempty, hmnemonic, hpin, hnetwork⟩ := prepare_ok hufvk hsome hprepare
        obtain ⟨P, hP⟩ := pinnedKey_of_admitted hadmitted
        have hpins : Pins d entry o e := ⟨hmnemonic, hpin, hnetwork⟩
        dsimp only
        cases hwrite : c.write with
        | notCreated => exact .inl ⟨rfl, _, rfl⟩
        | torn cut =>
          exact .inr ⟨hactor, hmissing, hempty, by simp, e, P, hpins, hpin.trans hP,
            .inl ⟨cut, rfl, rfl, _, rfl⟩⟩
        | complete =>
          exact .inr ⟨hactor, hmissing, hempty, by simp, e, P, hpins, hpin.trans hP,
            .inr ⟨rfl, rfl⟩⟩

/-- The row of a new `keys.toml`, if it is created. -/
def newKey (e : StoreEncoding Seed Key) : Bootstrap.BootstrapKey Key :=
  match e.mnemonic, e.ufvk with
  | none, some ufvk => .ufvk ufvk
  | _, _ => .seed

theorem createAccount_cases (w : World Seed Key) (e : StoreEncoding Seed Key) (c : InitCalls) :
    ((createAccount d w e c).1 = w ∧ ∃ text, (createAccount d w e c).2 = .error text) ∨
    ∃ accounts, Bootstrap.createRow (d.layer e.mnemonic) w.accounts (newKey e) c.uuid =
        some accounts ∧
      (createAccount d w e c).1 = { w with accounts } := by
  unfold createAccount newKey
  dsimp only
  split
  · exact .inl ⟨rfl, _, rfl⟩
  · split
    · exact .inl ⟨rfl, _, rfl⟩
    next accounts hrow => exact .inr ⟨accounts, hrow, rfl⟩

theorem createAccount_same (w : World Seed Key) (e : StoreEncoding Seed Key) (c : InitCalls) :
    (createAccount d w e c).1.keysFile = w.keysFile ∧ (createAccount d w e c).1.actor = w.actor ∧
      (createAccount d w e c).1.present = w.present := by
  rcases createAccount_cases (d := d) w e c with ⟨h, -⟩ | ⟨accounts, -, h⟩
  · rw [h]
    exact ⟨rfl, rfl, rfl⟩
  · rw [h]
    exact ⟨rfl, rfl, rfl⟩

/-! ## rescan -/

variable {remove : Artifact → Option (String × String)} {rc : RescanCalls} {as : List Artifact}

omit [DecidableEq Key] in
theorem removeArtifacts_same (remove : Artifact → Option (String × String)) (w : World Seed Key)
    (as : List Artifact) :
    (removeArtifacts remove w as).1.keysFile = w.keysFile ∧
      (removeArtifacts remove w as).1.actor = w.actor := by
  induction as generalizing w with
  | nil => exact ⟨rfl, rfl⟩
  | cons a rest ih =>
    unfold removeArtifacts
    split
    · exact ih w
    · split
      · exact ⟨rfl, rfl⟩
      · exact ih _

omit [DecidableEq Key] in
theorem removeArtifacts_accounts (remove : Artifact → Option (String × String)) (w : World Seed Key)
    (as : List Artifact) : (removeArtifacts remove w as).1.accounts = w.accounts ∨
      (removeArtifacts remove w as).1.accounts = [] := by
  induction as generalizing w with
  | nil => exact .inl rfl
  | cons a rest ih =>
    unfold removeArtifacts
    split
    · exact ih w
    · split
      · exact .inl rfl
      · rcases ih { w with
            present := fun b => decide (b ≠ a) && w.present b
            accounts := if a = .dataSqlite then [] else w.accounts } with h | h
        · dsimp only at h ⊢
          rw [h]
          split
          · exact .inr rfl
          · exact .inl rfl
        · exact .inr h

omit [DecidableEq Key] in
theorem admitRescan_ok {st : WalletStore Seed Key} (h : admitRescan heights entry w rc = .ok st) :
    w.actor = none := by
  unfold admitRescan at h
  split at h
  · cases h
  next hactor => simpa using hactor

omit [DecidableEq Key] in
theorem rescanWallet_cases (heights : Activations) (entry : Entry) (w : World Seed Key)
    (rc : RescanCalls) :
    (rescanWallet heights entry w rc).1 = w ∨
    w.actor = none ∧
      rescanWallet heights entry w rc = removeArtifacts rc.remove w engineArtifacts := by
  unfold rescanWallet
  cases hadmitted : admitRescan heights entry w rc with
  | error text => exact .inl rfl
  | ok st => exact .inr ⟨admitRescan_ok hadmitted, rfl⟩

/-! ## A sample directory -/

/-- Seeds and keys as numbers. -/
def plainDerivation : Derivation ℕ ℕ where
  derive seed index := 1000 * seed + index
  decode := some
  decode_idem _ := rfl
  noSeed := 0
  first := Bootstrap.plainLayer.first
  first_mem := Bootstrap.plainLayer.first_mem
  first_eq_none := Bootstrap.plainLayer.first_eq_none

def plainEntry : Entry := ⟨"main", "main/keys.toml", "main/zec/data.sqlite", .main, false, false⟩

def plainHeights : Activations := ⟨fun _ => 1, fun _ => 2⟩

def plainStep : World ℕ ℕ → Event ℕ ℕ → World ℕ ℕ :=
  step plainDerivation plainHeights plainEntry ⟨true, true⟩

def newWallet : InitOptions ℕ ℕ := ⟨.generate 7, false, none⟩

/-- Every call succeeds, but the creation of the account as given. -/
def initCalls (createAccount : Bool) : InitCalls where
  migrate := true
  existingSpendingWallet := none
  createDir := true
  openDb := true
  opened _ := false
  protect := true
  latestBlock := some 500
  mnemonic := true
  accountBirthday := some
  derive := true
  write := .complete
  createAccount := createAccount
  uuid := 1
  accountUfvk := true

def startsUp : Event ℕ ℕ := .daemon (.start ⟨true, true, true, true, true, true⟩)

/-! ## The account served -/

/-- A daemon runs over a readable `keys.toml` only, and serves an account that carries its pin. -/
structure Inv (heights : Activations) (w : World Seed Key) : Prop where
  readable : w.actor.isSome → ∃ e, w.keysFile = .holds e
  served : ∀ e, w.keysFile = .holds e → Bootstrap.Served (served heights e w)

omit [DecidableEq Key] in
theorem inv_of_actor_none (h : w.actor = none) : Inv heights w where
  readable hsome := by
    rw [h] at hsome
    cases hsome
  served _ _ a ha := absurd (h.symm.trans ha) (Option.some_ne_none a).symm

omit [DecidableEq Key] in
theorem Inv.congr {w' : World Seed Key} (h : Inv heights w) (hfile : w'.keysFile = w.keysFile)
    (haccounts : w'.accounts = w.accounts) (hactor : w'.actor = w.actor) : Inv heights w' where
  readable hsome := by
    rw [hactor] at hsome
    rw [hfile]
    exact h.readable hsome
  served e he := by
    have := h.served e (hfile ▸ he)
    unfold Lifecycle.served at this ⊢
    rw [haccounts, hactor]
    exact this

theorem Inv.daemonStep (d : Derivation Seed Key) (cfg : Bootstrap.Config) (h : Inv heights w)
    (ev : Bootstrap.Event) : Inv heights (daemonStep d heights cfg w ev) := by
  by_cases hholds : ∃ e, w.keysFile = .holds e
  · obtain ⟨e, he⟩ := hholds
    have hserved := served_daemonStep d heights cfg he ev
    have hfile := congrArg World.keysFile (daemonStep_of_holds d heights cfg he ev)
    refine ⟨fun _ => ⟨_, hfile⟩, fun e' he' => ?_⟩
    rw [hfile] at he'
    obtain rfl := KeysFile.holds.inj he'
    rw [hserved]
    exact Bootstrap.step_served _ cfg (h.served e he) ev
  · rw [daemonStep_of_not_holds fun e he => hholds ⟨e, he⟩]
    exact h

theorem step_inv (h : Inv heights w) (ev : Event Seed Key) :
    Inv heights (step d heights entry cfg w ev) := by
  cases ev with
  | init o c =>
    obtain ⟨w', hfile, haccounts, hactor, -, ⟨hleft, -⟩ | ⟨hnone, -, -, -, e, -, -, -, h'⟩⟩ :=
      initWallet_cases d heights entry w o c
    · rw [step, hleft]
      exact h.congr hfile haccounts hactor
    · apply inv_of_actor_none
      rcases h' with ⟨cut, -, hleft, -⟩ | ⟨-, hleft⟩
      · rw [step, hleft]
        exact hactor.trans hnone
      · rw [step, hleft, (createAccount_same _ e c).2.1]
        exact hactor.trans hnone
  | rescan rc =>
    rcases rescanWallet_cases heights entry w rc with hsame | ⟨hnone, hleft⟩
    · rw [step, hsame]
      exact h
    · rw [step, hleft]
      exact inv_of_actor_none ((removeArtifacts_same _ _ _).2.trans hnone)
  | daemon ev => exact h.daemonStep d cfg ev
  | losesPower kept => exact inv_of_actor_none rfl
  | replaceDb accounts present =>
    simp only [step]
    split
    · exact h
    next hactor => exact inv_of_actor_none (by simpa using hactor)

theorem run_inv (es : List (Event Seed Key)) :
    Inv heights (run (step d heights entry cfg) .empty es) :=
  invariant (P := fun _ _ => True) (fun _ ev h _ => step_inv h ev) (inv_of_actor_none rfl)
    (along_of_always fun _ _ => trivial)

/-! ## The key material -/

variable {P : Key}

theorem daemonStep_of_pinned (h : w.keysFile = .holds e) (hpin : e.ufvk = some P)
    (ev : Bootstrap.Event) : (daemonStep d heights cfg w ev).keysFile = .holds e ∧
      served heights e (daemonStep d heights cfg w ev) =
        Bootstrap.step (d.layer e.mnemonic) cfg (served heights e w) ev := by
  have hserved := served_daemonStep d heights cfg h ev
  have hfile := congrArg World.keysFile (daemonStep_of_holds d heights cfg h ev)
  have hsame : ({ e with ufvk := (Bootstrap.step (d.layer e.mnemonic) cfg (served heights e w)
      ev).keys.ufvk } : StoreEncoding Seed Key) = e := by
    rcases (Bootstrap.step_keeps (d.layer e.mnemonic) cfg (served heights e w) ev).1 with
      hkeys | ⟨hnone, -⟩
    · rw [hkeys]
      rfl
    · exact absurd (hnone.symm.trans hpin) (by simp)
  dsimp only at hserved hfile
  rw [hsame] at hserved hfile
  exact ⟨hfile, hserved⟩

theorem step_of_pinned (h : w.keysFile = .holds e) (hpin : e.ufvk = some P)
    (ev : Event Seed Key) : (step d heights entry cfg w ev).keysFile = .holds e := by
  cases ev with
  | init o c =>
    obtain ⟨w', hfile, -, -, -, ⟨hleft, -⟩ | ⟨-, hmissing, -⟩⟩ :=
      initWallet_cases d heights entry w o c
    · rw [step, hleft]
      exact hfile.trans h
    · cases hmissing.symm.trans h
  | rescan rc =>
    rcases rescanWallet_cases heights entry w rc with hsame | ⟨-, hleft⟩
    · rw [step, hsame]
      exact h
    · rw [step, hleft]
      exact (removeArtifacts_same _ _ _).1.trans h
  | daemon ev => exact (daemonStep_of_pinned h hpin ev).1
  | losesPower kept => exact h
  | replaceDb accounts present =>
    simp only [step]
    split
    · exact h
    · exact h

theorem run_of_pinned (h : w.keysFile = .holds e) (hpin : e.ufvk = some P)
    (es : List (Event Seed Key)) :
    (run (step d heights entry cfg) w es).keysFile = .holds e :=
  invariant (P := fun _ _ => True) (I := fun w : World Seed Key => w.keysFile = .holds e)
    (fun _ ev hw _ => step_of_pinned hw hpin ev) h (along_of_always fun _ _ => trivial)

theorem initWallet_ok (h : (initWallet d heights entry w o c).2 = .ok out) :
    ∃ e P, Pins d entry o e ∧ e.ufvk = some P ∧
      (initWallet d heights entry w o c).1.keysFile = .holds e := by
  obtain ⟨w', -, -, -, -, ⟨-, text, herror⟩ | ⟨-, -, -, -, e, P, hpins, hP, h'⟩⟩ :=
    initWallet_cases d heights entry w o c
  · cases herror.symm.trans h
  · rcases h' with ⟨cut, -, -, text, herror⟩ | ⟨-, hleft⟩
    · cases herror.symm.trans h
    · exact ⟨e, P, hpins, hP, by rw [hleft, (createAccount_same _ e c).1]⟩

/-- After an init that finished, whatever runs, is cut off or is put in place of the database,
`keys.toml` stays as it was written, and every account served carries the viewing key of the
init. -/
theorem init_key_served (d : Derivation Seed Key) (heights : Activations) (entry : Entry)
    (cfg : Bootstrap.Config) (before after : List (Event Seed Key)) (o : InitOptions Seed Key)
    (c : InitCalls)
    (hok : (initWallet d heights entry (run (step d heights entry cfg) .empty before) o c).2 =
      .ok out) :
    ∃ e P, pinnedKey d o.key = some P ∧ e.mnemonic = o.key.mnemonic ∧ e.ufvk = some P ∧
      let w := run (step d heights entry cfg) .empty (before ++ .init o c :: after)
      w.keysFile = .holds e ∧ ∀ a ∈ w.actor, ∀ id ∈ a.accountId,
        ∃ acct ∈ w.accounts, acct.id = id ∧ acct.ufvk = P := by
  obtain ⟨e, P, hpins, hpin, hfile⟩ := initWallet_ok hok
  have hP : pinnedKey d o.key = some P := hpins.ufvk.symm.trans hpin
  have hkept : (run (step d heights entry cfg) .empty (before ++ .init o c :: after)).keysFile =
      .holds e := by
    rw [run_append, run_cons]
    exact run_of_pinned hfile hpin after
  refine ⟨e, P, hP, hpins.mnemonic, hpin, hkept, fun a ha id hid => ?_⟩
  obtain ⟨acct, hacct, hacctId, hufvk⟩ := (run_inv _).served e hkept a ha id hid
  exact ⟨acct, hacct, hacctId, Option.some.inj (hufvk.symm.trans hpin)⟩

/-- The database is exchanged for one with another account. -/
theorem init_key_served_swapped :
    ∃ e P, pinnedKey plainDerivation newWallet.key = some P ∧ e.mnemonic = newWallet.key.mnemonic ∧
      e.ufvk = some P ∧
      let w := run plainStep .empty ([] ++ .init newWallet (initCalls true) ::
        [.replaceDb [⟨9, 9, none, true⟩] fun _ => true, startsUp])
      w.keysFile = .holds e ∧ ∀ a ∈ w.actor, ∀ id ∈ a.accountId,
        ∃ acct ∈ w.accounts, acct.id = id ∧ acct.ufvk = P :=
  init_key_served plainDerivation plainHeights plainEntry ⟨true, true⟩ []
    [.replaceDb [⟨9, 9, none, true⟩] fun _ => true, startsUp] newWallet (initCalls true) rfl

/-! ## Recovery -/

/-- A directory that a daemon can still bring to one account under the pin. -/
structure Recoverable (d : Derivation Seed Key) (heights : Activations)
    (e : StoreEncoding Seed Key) (w : World Seed Key) : Prop where
  file : w.keysFile = .holds e
  inv : Bootstrap.Inv (d.layer e.mnemonic) (served heights e w)

/-- No pass of the daemon stops between a new row and its adoption, and nobody replaces the
database. -/
def Unmolested (d : Derivation Seed Key) (heights : Activations) (e : StoreEncoding Seed Key)
    (w : World Seed Key) : Event Seed Key → Prop
  | .daemon ev => Bootstrap.Finishes (d.layer e.mnemonic) (served heights e w) ev
  | .replaceDb _ _ => False
  | _ => True

omit [DecidableEq Key] in
theorem inv_of_rows {l : Bootstrap.Layer Key} {b : Bootstrap.World Key}
    (hrows : Bootstrap.Rows l b.accounts b.keys) (hactor : b.actor = none) : Bootstrap.Inv l b where
  rows := hrows
  stands a ha := absurd (hactor.symm.trans ha) (Option.some_ne_none a).symm

omit [DecidableEq Key] in
theorem rows_take {l : Bootstrap.Layer Key} {accounts : List (Bootstrap.Account Key)}
    {keys : Bootstrap.KeysToml Key} (h : Bootstrap.Rows l accounts keys) (kept : ℕ) :
    Bootstrap.Rows l (accounts.take kept) keys := by
  rcases h with rfl | ⟨acct, rfl, htarget, hindex⟩
  · exact .inl List.take_nil
  · cases kept with
    | zero => exact .inl rfl
    | succ kept => exact .inr ⟨acct, by simp, htarget, hindex⟩

variable (entry cfg) in
theorem Recoverable.step (hpin : e.ufvk = some P) (h : Recoverable d heights e w)
    (ev : Event Seed Key) (hev : Unmolested d heights e w ev) :
    Recoverable d heights e (step d heights entry cfg w ev) := by
  refine ⟨step_of_pinned h.file hpin ev, ?_⟩
  cases ev with
  | init o c =>
    obtain ⟨w', -, haccounts, hactor, -, ⟨hleft, -⟩ | ⟨-, hmissing, -⟩⟩ :=
      initWallet_cases d heights entry w o c
    · rw [Lifecycle.step, hleft, served, haccounts, hactor]
      exact h.inv
    · cases hmissing.symm.trans h.file
  | rescan rc =>
    rcases rescanWallet_cases heights entry w rc with hsame | ⟨hnone, hleft⟩
    · rw [Lifecycle.step, hsame]
      exact h.inv
    · rw [Lifecycle.step, hleft]
      apply inv_of_rows _ ((removeArtifacts_same _ _ _).2.trans hnone)
      dsimp only [served]
      rcases removeArtifacts_accounts rc.remove w engineArtifacts with hkept | hgone
      · rw [hkept]
        exact h.inv.rows
      · rw [hgone]
        exact .inl rfl
  | daemon ev =>
    rw [Lifecycle.step, (daemonStep_of_pinned h.file hpin ev).2]
    exact Bootstrap.step_inv h.inv hev
  | losesPower kept => exact inv_of_rows (rows_take h.inv.rows kept) rfl
  | replaceDb accounts present => exact hev.elim

omit [DecidableEq Key] in
/-- What an init pins is what a bootstrap arrives at. -/
theorem pinAgrees_of_pins (hpins : Pins d entry o e) :
    Bootstrap.PinAgrees (d.layer e.mnemonic) (keysToml heights e) ∧
      (∀ P, e.ufvk = some P → Bootstrap.bootstrapKey (d.layer e.mnemonic) (keysToml heights e) =
        some (newKey e)) := by
  have hmnemonic := hpins.mnemonic
  have hufvk := hpins.ufvk
  cases hkey : o.key with
  | watchOnly encoded =>
    rw [hkey] at hmnemonic hufvk
    have hdecode (P : Key) (hP : e.ufvk = some P) : d.decode P = some P :=
      d.decode_idem (hufvk.symm.trans hP)
    constructor
    · intro P hP
      have hP' : e.ufvk = some P := hP
      simp only [Bootstrap.target, keysToml, hmnemonic, InitKey.mnemonic, hP']
      exact hdecode P hP'
    · intro P hP
      simp only [Bootstrap.bootstrapKey, keysToml, newKey, hmnemonic, InitKey.mnemonic, hP]
      change Option.map _ (d.decode P) = _
      rw [hdecode P hP]
      rfl
  | generate seed | restore seed =>
    rw [hkey] at hmnemonic hufvk
    constructor
    · intro P hP
      have hP' : e.ufvk = some P := hP
      simp only [Bootstrap.target, keysToml, hmnemonic, InitKey.mnemonic]
      exact hufvk.symm.trans hP'
    · intro P hP
      simp [Bootstrap.bootstrapKey, keysToml, newKey, hmnemonic, InitKey.mnemonic]

theorem recoverable_of_written (hmissing : w.keysFile = .missing) (hcomplete : c.write = .complete)
    (hfile : (initWallet d heights entry w o c).1.keysFile = .holds e) :
    Pins d entry o e ∧ (∃ P, e.ufvk = some P) ∧
      Recoverable d heights e (initWallet d heights entry w o c).1 := by
  obtain ⟨w', hkeys, haccounts, hactor, -, ⟨hleft, -⟩ |
    ⟨hnone, -, hempty, -, e', P, hpins, hufvk, h'⟩⟩ := initWallet_cases d heights entry w o c
  · rw [hleft, hkeys, hmissing] at hfile
    cases hfile
  · rcases h' with ⟨cut, htorn, -⟩ | ⟨-, hleft⟩
    · cases htorn.symm.trans hcomplete
    · have hsame := createAccount_same (d := d) { w' with keysFile := .holds e' } e' c
      rw [hleft, hsame.1] at hfile
      obtain rfl := KeysFile.holds.inj hfile
      refine ⟨hpins, ⟨P, hufvk⟩, ?_, ?_⟩
      · rw [hleft, hsame.1]
      · rw [hleft]
        apply inv_of_rows _ (hsame.2.1.trans (hactor.trans hnone))
        dsimp only [served]
        have hnil : w'.accounts = [] := haccounts.trans hempty
        rcases createAccount_cases (d := d) { w' with keysFile := .holds e' } e' c with
          ⟨hrow, -⟩ | ⟨accounts, hrow, hafter⟩
        · rw [hrow]
          exact .inl hnil
        · rw [hafter]
          dsimp only at hrow ⊢
          rw [hnil] at hrow
          obtain ⟨acct, hacct, htarget, hindex⟩ :=
            Bootstrap.createRow_nil ((pinAgrees_of_pins hpins).2 P hufvk) c.uuid
          rw [hacct] at hrow
          obtain rfl := Option.some.inj hrow
          exact .inr ⟨acct, rfl, htarget, hindex⟩

/-- An init that got as far as a whole `keys.toml`, and then finished or was cut off, is completed
by the daemon: through further inits, rescans cut off anywhere, lost power and restarts, the
database holds at most one account, one that is served carries the pin, and where none is, a pass
whose calls succeed adopts one. -/
theorem interrupted_init_recovers (d : Derivation Seed Key) (heights : Activations) (entry : Entry)
    (cfg : Bootstrap.Config) (before after : List (Event Seed Key)) (o : InitOptions Seed Key)
    (c : InitCalls) (hmissing : (run (step d heights entry cfg) .empty before).keysFile = .missing)
    (hcomplete : c.write = .complete)
    (hfile : (run (step d heights entry cfg) .empty (before ++ [.init o c])).keysFile = .holds e)
    (hafter : Along (step d heights entry cfg) (Unmolested d heights e)
      (run (step d heights entry cfg) .empty (before ++ [.init o c])) after) :
    Bootstrap.PinAgrees (d.layer e.mnemonic) (keysToml heights e) ∧
      Bootstrap.Sound (d.layer e.mnemonic) (served heights e
        (run (step d heights entry cfg) .empty (before ++ .init o c :: after))) := by
  have hinit : run (step d heights entry cfg) .empty (before ++ [.init o c]) =
      (initWallet d heights entry (run (step d heights entry cfg) .empty before) o c).1 := by
    rw [run_append]
    rfl
  rw [hinit] at hfile hafter
  obtain ⟨hpins, ⟨P, hP⟩, hrecoverable⟩ := recoverable_of_written hmissing hcomplete hfile
  refine ⟨(pinAgrees_of_pins hpins).1, ?_⟩
  have hrun := invariant (fun w ev hw hev => hw.step entry cfg hP ev hev)
    hrecoverable hafter
  rw [run_append, run_cons]
  exact hrun.inv.sound

def newWalletKeys : StoreEncoding ℕ ℕ := ⟨some 7, some .main, some 400, none, some 7000⟩

/-- The account was not created; the daemon makes it. -/
def completes : List (Event ℕ ℕ) :=
  [startsUp, .daemon (.connection true), .daemon (.refreshTip 500),
    .daemon (.pass .syncStep (Bootstrap.allSucceed 2))]

theorem unmolested_completes (w : World ℕ ℕ) : Along plainStep
    (Unmolested plainDerivation plainHeights newWalletKeys) w completes := by
  refine ⟨trivial, trivial, trivial, ?_, trivial⟩
  intro a _ a' _ birthday key _
  exact ⟨fun _ => rfl, fun _ => ⟨rfl, rfl, rfl, fun _ => rfl⟩⟩

theorem interrupted_init_recovers_completes :
    Bootstrap.PinAgrees (plainDerivation.layer newWalletKeys.mnemonic)
        (keysToml plainHeights newWalletKeys) ∧
      Bootstrap.Sound (plainDerivation.layer newWalletKeys.mnemonic)
        (served plainHeights newWalletKeys
          (run plainStep .empty ([] ++ .init newWallet (initCalls false) :: completes))) :=
  interrupted_init_recovers plainDerivation plainHeights plainEntry ⟨true, true⟩ [] completes
    newWallet (initCalls false) rfl rfl rfl (unmolested_completes _)

end Zecd.Lifecycle
