import Zecd.Datadir.Bootstrap

/-! # Bootstraps over whole runs

In every state a run reaches, the actor either serves the rebuilt account, waits over an empty
database with its bootstrap pending, or was disowned by the pin. A pass that stops between the
row and its adoption leaves none of these.
-/

namespace Zecd.Bootstrap

open Runs

variable {Key : Type} [DecidableEq Key] {l : Layer Key} {cfg : Config}
  {accounts : List (Account Key)} {acct : Account Key} {keys : KeysToml Key} {a a' : Actor Key}
  {c : PassCalls} {birthday : ℕ} {key : BootstrapKey Key} {w : World Key}

/-! ## The invariant -/

/-- The database is empty, or holds the account that the bootstrap makes. -/
def Rows (l : Layer Key) (accounts : List (Account Key)) (keys : KeysToml Key) : Prop :=
  accounts = [] ∨ ∃ acct, accounts = [acct] ∧ target l keys = some acct.ufvk ∧
    (keys.hasSeed = true → acct.index = some 0)

/-- Where an actor stands. One that the pin disowned keeps a bootstrap pending only for a viewing
key, which the database refuses. -/
inductive Stands (l : Layer Key) : List (Account Key) → KeysToml Key → Actor Key → Prop
  | adopted {acct : Account Key} {keys : KeysToml Key} {a : Actor Key} :
      a.accountId = some acct.id → keys.ufvk = some acct.ufvk →
      target l keys = some acct.ufvk → (keys.hasSeed = true → acct.index = some 0) →
      Stands l [acct] keys a
  | waiting {keys : KeysToml Key} {a : Actor Key} {key : BootstrapKey Key} :
      a.accountId = none → bootstrapKey l keys = some key →
      a.pendingBootstrap = some (keys.birthday, key) → Stands l [] keys a
  | disowned {acct : Account Key} {keys : KeysToml Key} {a : Actor Key} :
      a.accountId = none → target l keys = some acct.ufvk →
      (keys.hasSeed = true → acct.index = some 0) → ¬ PinAgrees l keys →
      (keys.hasSeed = true → a.pendingBootstrap = none) →
      (∀ birthday key, a.pendingBootstrap = some (birthday, key) → bootstrapKey l keys = some key) →
      Stands l [acct] keys a

structure Inv (l : Layer Key) (w : World Key) : Prop where
  rows : Rows l w.accounts w.keys
  stands : ∀ a ∈ w.actor, Stands l w.accounts w.keys a

omit [DecidableEq Key] in
theorem Stands.rows (h : Stands l accounts keys a) : Rows l accounts keys := by
  cases h with
  | adopted _ _ htarget hindex => exact .inr ⟨_, rfl, htarget, hindex⟩
  | waiting => exact .inl rfl
  | disowned _ htarget hindex => exact .inr ⟨_, rfl, htarget, hindex⟩

omit [DecidableEq Key] in
theorem Stands.congr (h : Stands l accounts keys a) (hid : a'.accountId = a.accountId)
    (hpending : a.accountId = none → a'.pendingBootstrap = a.pendingBootstrap) :
    Stands l accounts keys a' := by
  cases h with
  | adopted h hufvk htarget hindex => exact .adopted (hid.trans h) hufvk htarget hindex
  | waiting h hkey hp => exact .waiting (hid.trans h) hkey ((hpending h).trans hp)
  | disowned h htarget hindex hpin hseed hkeys =>
    have hsame := hpending h
    refine .disowned (hid.trans h) htarget hindex hpin (fun hs => hsame.trans (hseed hs)) ?_
    rw [hsame]
    exact hkeys

/-! ## The wallet layer -/

omit [DecidableEq Key] in
theorem Layer.first_singleton : l.first [acct] = some acct := by
  cases h : l.first [acct] with
  | none => exact absurd (l.first_eq_none.mp h) (List.cons_ne_nil _ _)
  | some found => rw [List.mem_singleton.mp (l.first_mem h)]

omit [DecidableEq Key] in
theorem Layer.first_nil : l.first [] = none := l.first_eq_none.mpr rfl

theorem createRow_nil (h : bootstrapKey l keys = some key) (uuid : ℕ) :
    ∃ acct, createRow l [] key uuid = some [acct] ∧ target l keys = some acct.ufvk ∧
      (keys.hasSeed = true → acct.index = some 0) := by
  unfold bootstrapKey at h
  by_cases hseed : keys.hasSeed = true
  · rw [if_pos hseed] at h
    obtain rfl := Option.some.inj h
    exact ⟨_, rfl, if_pos hseed, fun _ => rfl⟩
  · rw [if_neg hseed, Option.map_eq_some_iff] at h
    obtain ⟨k, hk, rfl⟩ := h
    exact ⟨_, rfl, (if_neg hseed).trans hk, fun hs => absurd hs hseed⟩

/-- Over that account, a seed makes a second one, and a viewing key is refused. -/
theorem createRow_singleton (h : bootstrapKey l keys = some key)
    (htarget : target l keys = some acct.ufvk) (uuid : ℕ) :
    (keys.hasSeed = true ∧ ∃ acct', createRow l [acct] key uuid = some [acct, acct']) ∨
    (keys.hasSeed = false ∧ createRow l [acct] key uuid = none) := by
  unfold bootstrapKey at h
  by_cases hseed : keys.hasSeed = true
  · rw [if_pos hseed] at h
    obtain rfl := Option.some.inj h
    exact .inl ⟨hseed, _, rfl⟩
  · rw [if_neg hseed, Option.map_eq_some_iff] at h
    obtain ⟨k, hk, rfl⟩ := h
    rw [target, if_neg hseed, hk] at htarget
    obtain rfl := Option.some.inj htarget
    refine .inr ⟨by simpa using hseed, ?_⟩
    simp [createRow]

/-! ## A pass -/

theorem pass_of_creates (h : CreatesRow a c birthday key) :
    maybeBootstrapAccount l accounts keys a c =
      match createRow l accounts key c.uuid with
      | none => (accounts, keys, a)
      | some accounts => (accounts, adopt l accounts keys a c) := by
  obtain ⟨hpending, hid, hseed, htip, hclient, htree, hfrom, hcreate⟩ := h
  have hlocked : (decide (key = .seed) && !a.seedUnlocked) = false := by
    by_cases hkey : key = .seed
    · simp [hseed hkey]
    · simp [hkey]
  have htip' : a.tipHeight.isNone = false := by simpa using htip
  cases hrow : createRow l accounts key c.uuid with
  | none =>
    simp only [maybeBootstrapAccount, hpending, hid, hlocked, htip', hclient, htree, hfrom, hcreate,
      hrow, Option.isSome_none, Bool.not_true, Bool.false_eq_true, if_false]
  | some accounts' =>
    simp only [maybeBootstrapAccount, hpending, hid, hlocked, htip', hclient, htree, hfrom, hcreate,
      hrow, Option.isSome_none, Bool.not_true, Bool.false_eq_true, if_false]

variable (l accounts keys) in
/-- A pass that gets no row only clears the bootstrap of an adopted account, or disconnects. -/
theorem pass_of_not_creates (h : ∀ birthday key, ¬ CreatesRow a c birthday key) :
    ∃ a', maybeBootstrapAccount l accounts keys a c = (accounts, keys, a') ∧
      a'.accountId = a.accountId ∧
      (a.accountId = none → a'.pendingBootstrap = a.pendingBootstrap) := by
  unfold maybeBootstrapAccount
  split
  · exact ⟨a, rfl, rfl, fun _ => rfl⟩
  · next birthday key hpending =>
    split
    · next hid =>
      refine ⟨_, rfl, rfl, fun hnone => ?_⟩
      rw [hnone] at hid
      cases hid
    · next hid =>
      split
      · exact ⟨a, rfl, rfl, fun _ => rfl⟩
      · next hseed =>
        split
        · exact ⟨a, rfl, rfl, fun _ => rfl⟩
        · next htip =>
          split
          · exact ⟨a, rfl, rfl, fun _ => rfl⟩
          · next hclient =>
            split
            · exact ⟨_, rfl, rfl, fun _ => rfl⟩
            · next htree =>
              split
              · exact ⟨a, rfl, rfl, fun _ => rfl⟩
              · next hfrom =>
                split
                · exact ⟨a, rfl, rfl, fun _ => rfl⟩
                · next hcreate =>
                  refine absurd ⟨hpending, by simpa using hid, ?_,
                    Option.isSome_iff_ne_none.mpr (by simpa using htip),
                    by simpa using hclient, by simpa using htree, by simpa using hfrom,
                    by simpa using hcreate⟩ (h birthday key)
                  rintro rfl
                  simpa using hseed

variable (l acct keys a c) in
theorem adopt_singleton :
    (c.selectAccount = false ∧ adopt l [acct] keys a c = (keys, a)) ∨
    (c.selectAccount = true ∧
      (((c.accountUfvk = false ∨ c.readKeys = false ∨
            verifyOrPinAccount keys c.pinUfvk acct.ufvk = none) ∧
          adopt l [acct] keys a c = (keys, { a with pendingBootstrap := none })) ∨
        (c.accountUfvk = true ∧ c.readKeys = true ∧
          ∃ keys', verifyOrPinAccount keys c.pinUfvk acct.ufvk = some keys' ∧
            adopt l [acct] keys a c = (keys', { a with
              accountId := some acct.id
              accountIndex := acct.index
              watchOnly := acct.viewOnly
              pendingBootstrap := none })))) := by
  unfold adopt
  cases hselect : c.selectAccount with
  | false => exact .inl ⟨rfl, rfl⟩
  | true =>
    refine .inr ⟨rfl, ?_⟩
    simp only [Bool.not_true, Bool.false_eq_true, if_false, Layer.first_singleton]
    cases hufvk : c.accountUfvk with
    | false => exact .inl ⟨.inl rfl, rfl⟩
    | true =>
      cases hread : c.readKeys with
      | false => exact .inl ⟨.inr (.inl rfl), rfl⟩
      | true =>
        simp only [Bool.and_self, if_true]
        cases hverify : verifyOrPinAccount keys c.pinUfvk acct.ufvk with
        | none => exact .inl ⟨.inr (.inr rfl), rfl⟩
        | some keys' => exact .inr ⟨trivial, trivial, keys', rfl, rfl⟩

variable (keys) in
theorem verify_cases (pinUfvk : Bool) (ufvk : Key) :
    (keys.ufvk = some ufvk ∧ verifyOrPinAccount keys pinUfvk ufvk = some keys) ∨
    (∃ p, keys.ufvk = some p ∧ p ≠ ufvk ∧ verifyOrPinAccount keys pinUfvk ufvk = none) ∨
    (keys.ufvk = none ∧ pinUfvk = true ∧
      verifyOrPinAccount keys pinUfvk ufvk = some { keys with ufvk := some ufvk }) ∨
    (keys.ufvk = none ∧ pinUfvk = false ∧ verifyOrPinAccount keys pinUfvk ufvk = none) := by
  unfold verifyOrPinAccount
  cases hpin : keys.ufvk with
  | some p =>
    by_cases heq : p = ufvk
    · obtain rfl := heq
      exact .inl ⟨rfl, if_pos rfl⟩
    · exact .inr (.inl ⟨p, rfl, heq, if_neg heq⟩)
  | none =>
    cases hwrite : pinUfvk with
    | true => exact .inr (.inr (.inl ⟨rfl, rfl, rfl⟩))
    | false => exact .inr (.inr (.inr ⟨rfl, rfl, rfl⟩))

omit [DecidableEq Key] in
theorem target_pinned {ufvk : Key} (htarget : target l keys = some ufvk)
    (hnone : keys.ufvk = none) :
    target l { keys with ufvk := some ufvk } = some ufvk := by
  unfold target at htarget ⊢
  by_cases hseed : keys.hasSeed = true
  · rw [if_pos hseed] at htarget
    exact (if_pos hseed).trans htarget
  · rw [if_neg hseed, hnone] at htarget
    cases htarget

theorem stands_of_verified {keys' : KeysToml Key} {pinUfvk : Bool}
    (hverify : verifyOrPinAccount keys pinUfvk acct.ufvk = some keys')
    (htarget : target l keys = some acct.ufvk) (hindex : keys.hasSeed = true → acct.index = some 0)
    (hid : a.accountId = some acct.id) : Stands l [acct] keys' a := by
  rcases verify_cases keys pinUfvk acct.ufvk with
    ⟨hpin, h⟩ | ⟨_, -, -, h⟩ | ⟨hpin, -, h⟩ | ⟨-, -, h⟩
  · obtain rfl := Option.some.inj (hverify.symm.trans h)
    exact .adopted hid hpin htarget hindex
  · cases hverify.symm.trans h
  · obtain rfl := Option.some.inj (hverify.symm.trans h)
    exact .adopted hid rfl (target_pinned htarget hpin) hindex
  · cases hverify.symm.trans h

/-- A check that fails on a pin that agrees is a pin that could not be written. -/
theorem not_verified {pinUfvk : Bool} (hpin : PinAgrees l keys)
    (htarget : target l keys = some acct.ufvk)
    (hverify : verifyOrPinAccount keys pinUfvk acct.ufvk = none) :
    keys.ufvk = none ∧ pinUfvk = false := by
  rcases verify_cases keys pinUfvk acct.ufvk with
    ⟨-, h⟩ | ⟨p, hp, hne, -⟩ | ⟨-, -, h⟩ | ⟨hnone, hwrite, -⟩
  · cases hverify.symm.trans h
  · exact absurd (Option.some.inj ((hpin p hp).symm.trans htarget)) hne
  · cases hverify.symm.trans h
  · exact ⟨hnone, hwrite⟩

theorem adopt_stands (hid : a.accountId = none) (hkey : bootstrapKey l keys = some key)
    (hpending : a.pendingBootstrap = some (keys.birthday, key))
    (htarget : target l keys = some acct.ufvk) (hindex : keys.hasSeed = true → acct.index = some 0)
    (hselect : keys.hasSeed = true → c.selectAccount = true)
    (hfinish : PinAgrees l keys → c.selectAccount = true ∧ c.accountUfvk = true ∧
      c.readKeys = true ∧ (keys.ufvk = none → c.pinUfvk = true)) :
    Stands l [acct] (adopt l [acct] keys a c).1 (adopt l [acct] keys a c).2 := by
  rcases adopt_singleton l acct keys a c with
    ⟨hno, h⟩ | ⟨-, ⟨hfail, h⟩ | ⟨-, -, keys', hverify, h⟩⟩
  · rw [h]
    refine .disowned hid htarget hindex (fun hpin => ?_) (fun hseed => ?_) ?_
    · rw [(hfinish hpin).1] at hno
      cases hno
    · rw [hselect hseed] at hno
      cases hno
    · intro birthday key' hp
      rw [hpending] at hp
      cases hp
      exact hkey
  · rw [h]
    refine .disowned hid htarget hindex (fun hpin => ?_) (fun _ => rfl) nofun
    obtain ⟨-, hufvk, hread, hwrite⟩ := hfinish hpin
    rcases hfail with hfail | hfail | hfail
    · rw [hufvk] at hfail
      cases hfail
    · rw [hread] at hfail
      cases hfail
    · obtain ⟨hnone, hunwritten⟩ := not_verified hpin htarget hfail
      rw [hwrite hnone] at hunwritten
      cases hunwritten
  · rw [h]
    exact stands_of_verified hverify htarget hindex rfl

theorem pass_stands (h : Stands l accounts keys a) (hfinish : FinishesPass l keys a c) :
    Stands l (maybeBootstrapAccount l accounts keys a c).1
      (maybeBootstrapAccount l accounts keys a c).2.1
      (maybeBootstrapAccount l accounts keys a c).2.2 := by
  by_cases hcreates : ∃ birthday key, CreatesRow a c birthday key
  · obtain ⟨birthday, key, hc⟩ := hcreates
    rw [pass_of_creates hc]
    obtain ⟨hselect, hrest⟩ := hfinish birthday key hc
    cases h with
    | adopted hid => exact absurd (hid.symm.trans hc.unadopted) (by simp)
    | waiting hid hkey hpending =>
      have hsame := hpending.symm.trans hc.pending
      cases hsame
      obtain ⟨acct, hrow, htarget, hindex⟩ := createRow_nil hkey c.uuid
      rw [hrow]
      exact adopt_stands hid hkey hpending htarget hindex hselect hrest
    | disowned hid htarget hindex hpin hseed hkeys =>
      rcases createRow_singleton (hkeys birthday key hc.pending) htarget c.uuid with
        ⟨hs, -⟩ | ⟨-, hrow⟩
      · exact absurd ((hseed hs).symm.trans hc.pending) (by simp)
      · rw [hrow]
        exact .disowned hid htarget hindex hpin hseed hkeys
  · obtain ⟨a', hpass, hid, hpending⟩ := pass_of_not_creates l accounts keys
      fun birthday key hc => hcreates ⟨birthday, key, hc⟩
    rw [hpass]
    exact h.congr hid hpending

/-! ## Recovery -/

omit [DecidableEq Key] in
theorem restored_creates (hid : a.accountId = none)
    (hpending : a.pendingBootstrap = some (birthday, key)) (hc : c.Succeeds) (tip : ℕ) :
    CreatesRow (a.restored tip) c birthday key :=
  ⟨hpending, hid, fun _ => rfl, rfl, rfl, hc.treeState _, hc.fromTreestate, hc.createAccount⟩

theorem pass_of_pending_none (h : a.pendingBootstrap = none) :
    maybeBootstrapAccount l accounts keys a c = (accounts, keys, a) := by
  simp only [maybeBootstrapAccount, h]

theorem adopt_of_succeeds (hc : c.Succeeds) (hpin : PinAgrees l keys)
    (htarget : target l keys = some acct.ufvk) :
    (adopt l [acct] keys a c).2.accountId.isSome := by
  rcases adopt_singleton l acct keys a c with
    ⟨hno, -⟩ | ⟨-, ⟨hfail, -⟩ | ⟨-, -, keys', -, h⟩⟩
  · rw [hc.selectAccount] at hno
    cases hno
  · rcases hfail with hfail | hfail | hfail
    · rw [hc.accountUfvk] at hfail
      cases hfail
    · rw [hc.readKeys] at hfail
      cases hfail
    · obtain ⟨-, hunwritten⟩ := not_verified hpin htarget hfail
      rw [hc.pinUfvk] at hunwritten
      cases hunwritten
  · rw [h]
    rfl

theorem Stands.recovers (h : Stands l accounts keys a) (hnone : a.accountId = none) (tip : ℕ)
    (hc : c.Succeeds) :
    (maybeBootstrapAccount l accounts keys (a.restored tip) c).1.length ≤ 1 ∧
    (PinAgrees l keys →
      (maybeBootstrapAccount l accounts keys (a.restored tip) c).2.2.accountId.isSome) := by
  cases h with
  | adopted hid => exact absurd (hid.symm.trans hnone) (by simp)
  | waiting hid hkey hpending =>
    obtain ⟨acct, hrow, htarget, -⟩ := createRow_nil hkey c.uuid
    rw [pass_of_creates (restored_creates hid hpending hc tip), hrow]
    exact ⟨le_rfl, fun hpin => adopt_of_succeeds hc hpin htarget⟩
  | disowned hid htarget _ hpin hseed hkeys =>
    refine ⟨?_, fun hagrees => absurd hagrees hpin⟩
    cases hpending : a.pendingBootstrap with
    | none =>
      rw [pass_of_pending_none (a := a.restored tip) hpending]
      exact le_rfl
    | some bootstrap =>
      rw [pass_of_creates (restored_creates hid hpending hc tip)]
      rcases createRow_singleton (hkeys _ _ hpending) htarget c.uuid with ⟨hs, -⟩ | ⟨-, hrow⟩
      · exact absurd ((hseed hs).symm.trans hpending) (by simp)
      · rw [hrow]
        exact le_rfl

theorem Inv.sound (h : Inv l w) : Sound l w where
  one := by
    rcases h.rows with hnil | ⟨acct, hone, -⟩
    · rw [hnil]
      exact Nat.zero_le _
    · rw [hone]
      exact le_rfl
  adopted a ha id hid := by
    have hstands := h.stands a ha
    generalize w.accounts = accounts at hstands ⊢
    generalize w.keys = keys at hstands ⊢
    cases hstands with
    | adopted hid' hpin htarget hindex =>
      obtain rfl := Option.some.inj (hid'.symm.trans hid)
      refine ⟨_, List.mem_singleton_self _, rfl, hpin, fun hseed => ⟨hindex hseed, ?_⟩⟩
      rw [target, if_pos hseed] at htarget
      exact (Option.some.inj htarget).symm
    | waiting hnone => exact absurd (hnone.symm.trans hid) (by simp)
    | disowned hnone => exact absurd (hnone.symm.trans hid) (by simp)
  recovers a ha hnone tip c hc := (h.stands a ha).recovers hnone tip hc

def allSucceed (uuid : ℕ) : PassCalls := ⟨fun _ => true, true, true, uuid, true, true, true, true⟩

theorem allSucceed_succeeds (uuid : ℕ) : (allSucceed uuid).Succeeds :=
  ⟨fun _ => rfl, rfl, rfl, rfl, rfl, rfl, rfl⟩

/-- A pass that stops between the row and its adoption cannot be made good. -/
theorem not_sound_of_unfinished (h : Stands l accounts keys a) (hun : ¬ FinishesPass l keys a c) :
    ¬ Sound l ⟨(maybeBootstrapAccount l accounts keys a c).1,
      (maybeBootstrapAccount l accounts keys a c).2.1,
      some (maybeBootstrapAccount l accounts keys a c).2.2⟩ := by
  intro hsound
  simp only [FinishesPass, not_forall] at hun
  obtain ⟨birthday, key, hcreates, hfinish⟩ := hun
  rw [pass_of_creates hcreates] at hsound
  cases h with
  | adopted hid => exact absurd (hid.symm.trans hcreates.unadopted) (by simp)
  | disowned hid _ _ hpin hseed _ =>
    refine hfinish ⟨fun hs => ?_, fun hagrees => absurd hagrees hpin⟩
    exact absurd ((hseed hs).symm.trans hcreates.pending) (by simp)
  | waiting hid hkey hpending =>
    have hsame := hpending.symm.trans hcreates.pending
    cases hsame
    obtain ⟨acct, hrow, htarget, -⟩ := createRow_nil hkey c.uuid
    rw [hrow] at hsound
    dsimp only at hsound
    rcases adopt_singleton l acct keys a c with
      ⟨hno, h⟩ | ⟨hyes, ⟨-, h⟩ | ⟨hufvk, hread, keys', hverify, -⟩⟩
    · -- the bootstrap stays pending over its own row
      rw [h] at hsound
      obtain ⟨hone, hadopts⟩ := hsound.recovers a rfl hid 0 _ (allSucceed_succeeds 0)
      rw [pass_of_creates (restored_creates hid hpending (allSucceed_succeeds 0) 0)] at hone hadopts
      rcases createRow_singleton hkey htarget (allSucceed 0).uuid with
        ⟨-, acct', hrow'⟩ | ⟨hs, hrow'⟩
      · rw [hrow'] at hone
        exact absurd hone (by simp)
      · rw [hrow'] at hadopts
        have hagrees : PinAgrees l keys := by
          by_contra hpin
          exact hfinish ⟨fun h => absurd (hs.symm.trans h) (by simp), fun h => absurd h hpin⟩
        have hsome : a.accountId.isSome = true := hadopts hagrees
        rw [hid] at hsome
        cases hsome
    · -- the bootstrap is given up over its own row
      rw [h] at hsound
      have hagrees : PinAgrees l keys := by
        by_contra hpin
        exact hfinish ⟨fun _ => hyes, fun h => absurd h hpin⟩
      obtain ⟨-, hadopts⟩ := hsound.recovers _ rfl hid 0 _ (allSucceed_succeeds 0)
      rw [pass_of_pending_none rfl] at hadopts
      have hsome : a.accountId.isSome = true := hadopts hagrees
      rw [hid] at hsome
      cases hsome
    · refine hfinish ⟨fun _ => hyes, fun _ => ⟨hyes, hufvk, hread, fun hnone => ?_⟩⟩
      rcases verify_cases keys c.pinUfvk acct.ufvk with
        ⟨hp, -⟩ | ⟨p, hp, -⟩ | ⟨-, hwrite, -⟩ | ⟨-, -, hnone'⟩
      · exact absurd (hnone.symm.trans hp) (by simp)
      · exact absurd (hnone.symm.trans hp) (by simp)
      · exact hwrite
      · exact absurd (hnone'.symm.trans hverify) (by simp)

/-! ## Startup -/

variable (cfg) in
/-- A started actor stands; one that did not start may have written the pin. -/
theorem spawnInner_stands (sc : StartCalls) (h : Rows l accounts keys) :
    Rows l accounts (spawnInner l cfg accounts keys sc).1 ∧
      ∀ a ∈ (spawnInner l cfg accounts keys sc).2,
        Stands l accounts (spawnInner l cfg accounts keys sc).1 a := by
  have hnone : Rows l accounts keys ∧ ∀ a ∈ (none : Option (Actor Key)), Stands l accounts keys a :=
    ⟨h, fun a ha => absurd ha (by simp)⟩
  unfold spawnInner
  split
  · exact hnone
  · rcases h with rfl | ⟨acct, rfl, htarget, hindex⟩
    · simp only [Layer.first_nil]
      split
      · exact hnone
      · next key hkey =>
        split
        · exact hnone
        · refine ⟨.inl rfl, fun a ha => ?_⟩
          dsimp only at ha
          split at ha
          · obtain rfl := Option.some.inj ha
            exact .waiting rfl hkey rfl
          · cases ha
    · simp only [Layer.first_singleton]
      split
      · exact hnone
      · split
        · exact hnone
        · split
          · exact hnone
          · next keys' hverify =>
            have hstands : ∀ a : Actor Key, a.accountId = some acct.id → Stands l [acct] keys' a :=
              fun a hid => stands_of_verified hverify htarget hindex hid
            refine ⟨(hstands ⟨some acct.id, none, false, none, false, false, none, false⟩ rfl).rows,
              fun a ha => ?_⟩
            dsimp only at ha
            split at ha
            · obtain rfl := Option.some.inj ha
              exact hstands _ rfl
            · cases ha

/-! ## Runs -/

/-- A caller runs a pass over an actor that stands as the one it was called on, or leaves
everything. -/
theorem caller_cases (caller : Caller) (accounts : List (Account Key)) (keys : KeysToml Key)
    (a : Actor Key) (c : PassCalls) :
    ∃ a', a'.accountId = a.accountId ∧ a'.pendingBootstrap = a.pendingBootstrap ∧
      ((caller.meets l accounts keys a = some a' ∧
          caller.pass l accounts keys a c = maybeBootstrapAccount l accounts keys a' c) ∨
        (caller.meets l accounts keys a = none ∧
          caller.pass l accounts keys a c = (accounts, keys, a'))) := by
  cases caller with
  | syncStep => exact ⟨a, rfl, rfl, .inl ⟨rfl, rfl⟩⟩
  | walletpassphrase u =>
    simp only [Caller.meets, Caller.pass, doUnlock]
    cases hunlock : unlockSeed l accounts keys a u with
    | none => exact ⟨a, rfl, rfl, .inr ⟨rfl, rfl⟩⟩
    | some a' =>
      have hsame : a' = { a with seedUnlocked := u.timeout } := by
        unfold unlockSeed at hunlock
        split at hunlock
        · exact (Option.some.inj hunlock).symm
        · cases hunlock
      refine ⟨a', by rw [hsame], by rw [hsame], ?_⟩
      by_cases hruns : (a'.pendingBootstrap.isSome && a'.seedUnlocked) = true
      · exact .inl ⟨Option.filter_some_pos hruns, if_pos hruns⟩
      · exact .inr ⟨Option.filter_some_neg (Bool.eq_false_iff.mpr hruns), if_neg hruns⟩

theorem pass_rows (h : Stands l accounts keys a) :
    Rows l (maybeBootstrapAccount l accounts keys a c).1 keys ∧
      Rows l (maybeBootstrapAccount l accounts keys a c).1
        (maybeBootstrapAccount l accounts keys a c).2.1 := by
  by_cases hcreates : ∃ birthday key, CreatesRow a c birthday key
  · obtain ⟨birthday, key, hc⟩ := hcreates
    rw [pass_of_creates hc]
    cases h with
    | adopted hid => exact absurd (hid.symm.trans hc.unadopted) (by simp)
    | waiting hid hkey hpending =>
      have hsame := hpending.symm.trans hc.pending
      cases hsame
      obtain ⟨acct, hrow, htarget, hindex⟩ := createRow_nil hkey c.uuid
      rw [hrow]
      have hkept : Rows l [acct] keys := .inr ⟨acct, rfl, htarget, hindex⟩
      refine ⟨hkept, ?_⟩
      dsimp only
      rcases adopt_singleton l acct keys a c with
        ⟨-, h⟩ | ⟨-, ⟨-, h⟩ | ⟨-, -, keys', hverify, h⟩⟩
      · rw [h]
        exact hkept
      · rw [h]
        exact hkept
      · rw [h]
        exact (stands_of_verified (a := { a with accountId := some acct.id }) hverify htarget hindex
          rfl).rows
    | disowned hid htarget hindex hpin hseed hkeys =>
      have hkept : Rows l [_] keys := .inr ⟨_, rfl, htarget, hindex⟩
      rcases createRow_singleton (hkeys birthday key hc.pending) htarget c.uuid with
        ⟨hs, -⟩ | ⟨-, hrow⟩
      · exact absurd ((hseed hs).symm.trans hc.pending) (by simp)
      · rw [hrow]
        exact ⟨hkept, hkept⟩
  · obtain ⟨a', hpass, -, -⟩ := pass_of_not_creates l accounts keys
      fun birthday key hc => hcreates ⟨birthday, key, hc⟩
    rw [hpass]
    exact ⟨h.rows, h.rows⟩

omit [DecidableEq Key] in
theorem Inv.mapActor {f : Actor Key → Actor Key} (h : Inv l w)
    (hid : ∀ a, (f a).accountId = a.accountId)
    (hpending : ∀ a, (f a).pendingBootstrap = a.pendingBootstrap) : Inv l (w.mapActor f) where
  rows := h.rows
  stands a ha := by
    obtain ⟨a', ha', rfl⟩ := Option.map_eq_some_iff.mp ha
    exact (h.stands a' ha').congr (hid a') fun _ => hpending a'

theorem step_inv {e : Event} (h : Inv l w) (hfinish : Finishes l w e) : Inv l (step l cfg w e) := by
  cases e with
  | start sc =>
    simp only [step]
    split
    · exact h
    · have hspawn := spawnInner_stands cfg sc h.rows
      exact ⟨hspawn.1, hspawn.2⟩
  | stop => exact ⟨h.rows, nofun⟩
  | connection client => exact h.mapActor (fun _ => rfl) fun _ => rfl
  | refreshTip tip => exact h.mapActor (fun _ => rfl) fun _ => rfl
  | lock => exact h.mapActor (fun _ => rfl) fun _ => rfl
  | pass caller c =>
    simp only [step]
    split
    · exact h
    · next a ha =>
      obtain ⟨a', hid, hpending, ⟨hmeets, hpass⟩ | ⟨-, hpass⟩⟩ :=
        caller_cases (l := l) caller w.accounts w.keys a c
      · have hstands := (h.stands a ha).congr hid fun _ => hpending
        have hafter := pass_stands hstands (hfinish a ha a' hmeets)
        rw [hpass]
        refine ⟨hafter.rows, fun b hb => ?_⟩
        obtain rfl := Option.some.inj hb
        exact hafter
      · have hafter := (h.stands a ha).congr hid fun _ => hpending
        rw [hpass]
        refine ⟨hafter.rows, fun b hb => ?_⟩
        obtain rfl := Option.some.inj hb
        exact hafter
  | killedInPass pinWritten caller c =>
    simp only [step]
    split
    · exact h
    · next a ha =>
      refine ⟨?_, nofun⟩
      obtain ⟨a', hid, hpending, ⟨-, hpass⟩ | ⟨-, hpass⟩⟩ :=
        caller_cases (l := l) caller w.accounts w.keys a c
      · have hrows := pass_rows (c := c) ((h.stands a ha).congr hid fun _ => hpending)
        rw [hpass]
        cases pinWritten with
        | true => exact hrows.2
        | false => exact hrows.1
      · rw [hpass]
        cases pinWritten <;> exact h.rows

/-- One event leaves a sound state only if its pass finishes what it creates. -/
theorem finishes_of_sound {e : Event} (h : Inv l w) (hsound : Sound l (step l cfg w e)) :
    Finishes l w e := by
  cases e with
  | pass caller c =>
    intro a ha b hb
    obtain ⟨a', hid, hpending, ⟨hmeets, hpass⟩ | ⟨hmeets, -⟩⟩ :=
      caller_cases (l := l) caller w.accounts w.keys a c
    · obtain rfl := Option.some.inj (hmeets.symm.trans hb)
      by_contra hun
      refine not_sound_of_unfinished ((h.stands a ha).congr hid fun _ => hpending) hun ?_
      simp only [step, Option.mem_def.mp ha, hpass] at hsound
      exact hsound
    · exact absurd (hmeets.symm.trans hb) (by simp)
  | _ => trivial

omit [DecidableEq Key] in
theorem fresh_inv (keys : KeysToml Key) : Inv l (fresh keys) := ⟨.inl rfl, nofun⟩

/-- From a database without an account, every state of a run is sound exactly when no pass stops
between a new row and its adoption. -/
theorem bootstrap_sound_iff (l : Layer Key) (cfg : Config) (keys : KeysToml Key)
    (es : List Event) :
    (∀ es', es' <+: es → Sound l (run (step l cfg) (fresh keys) es')) ↔
      Along (step l cfg) (Finishes l) (fresh keys) es :=
  forall_reached_iff_along (fun _ _ h hfinish => step_inv h hfinish) (fun _ h => h.sound)
    (fun _ _ h hsound => finishes_of_sound h hsound) (fresh_inv keys)

/-! ## A read that fails in between -/

/-- Viewing keys that are their own encodings, the seed's being its indices. -/
def plainLayer : Layer ℕ where
  seedUfvk i := i
  decode := some
  first := List.head?
  first_mem h := List.mem_of_mem_head? h
  first_eq_none := List.head?_eq_none_iff

/-- A spending wallet unlocked at startup, with its own key pinned. -/
def spendingKeys : KeysToml ℕ := ⟨true, false, 100, some 0⟩

/-- The wallet starts and reaches its upstream, and a pass makes the given calls. -/
def firstPass (c : PassCalls) : List Event :=
  [.start ⟨true, true, true, true, true, true⟩, .connection true, .refreshTip 200,
    .pass .syncStep c]

/-- If `keys.toml` cannot be read once, no later pass adopts the account. If the row cannot be
selected, the next pass makes a second account. -/
theorem failedRead_strands :
    ¬ (∀ es', es' <+: firstPass { allSucceed 7 with readKeys := false } →
      Sound plainLayer (run (step plainLayer ⟨true, true⟩) (fresh spendingKeys) es')) ∧
    (run (step plainLayer ⟨true, true⟩) (fresh spendingKeys)
        (firstPass { allSucceed 7 with readKeys := false } ++
          [.pass .syncStep (allSucceed 8)])).actor.map Actor.accountId = some none ∧
    (run (step plainLayer ⟨true, true⟩) (fresh spendingKeys)
        (firstPass { allSucceed 7 with selectAccount := false } ++
          [.pass .syncStep (allSucceed 8)])).accounts.length = 2 := by
  refine ⟨fun h => ?_, by decide, by decide⟩
  have hsound := h _ List.prefix_rfl
  have hrecovers := (hsound.recovers ⟨none, none, false, none, false, true, some 200, true⟩
    (by decide) rfl 200 (allSucceed 8) (allSucceed_succeeds 8)).2 (fun p hp => ?_)
  · revert hrecovers
    decide
  · obtain rfl : (0 : ℕ) = p := Option.some.inj hp
    rfl

end Zecd.Bootstrap
