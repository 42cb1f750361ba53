import Zecd.Datadir.BootstrapRuns

/-! # The account a daemon serves

Over any database whatever, a daemon serves only an account whose viewing key is the one pinned in
`keys.toml`, and writes a pin only where there is none. Nothing else in `keys.toml` changes.
-/

namespace Zecd.Bootstrap

variable {Key : Type} [DecidableEq Key] {l : Layer Key} {cfg : Config}
  {accounts : List (Account Key)} {keys : KeysToml Key} {a : Actor Key} {c : PassCalls}
  {w : World Key}

/-- The keys with a pin, where there was none. -/
def Pinned (keys keys' : KeysToml Key) : Prop :=
  keys' = keys ∨ keys.ufvk = none ∧ ∃ k, keys' = { keys with ufvk := some k }

omit [DecidableEq Key] in
theorem Pinned.refl (keys : KeysToml Key) : Pinned keys keys := .inl rfl

/-- An account the actor serves carries the pin. -/
def Served (w : World Key) : Prop :=
  ∀ a ∈ w.actor, ∀ id ∈ a.accountId, ∃ acct ∈ w.accounts, acct.id = id ∧
    w.keys.ufvk = some acct.ufvk

theorem pinned_of_verified {keys' : KeysToml Key} {pinUfvk : Bool} {ufvk : Key}
    (h : verifyOrPinAccount keys pinUfvk ufvk = some keys') :
    Pinned keys keys' ∧ keys'.ufvk = some ufvk := by
  rcases verify_cases keys pinUfvk ufvk with
    ⟨hpin, hverify⟩ | ⟨_, -, -, hverify⟩ | ⟨hnone, -, hverify⟩ | ⟨-, -, hverify⟩
  · obtain rfl := Option.some.inj (hverify.symm.trans h)
    exact ⟨.refl _, hpin⟩
  · cases hverify.symm.trans h
  · obtain rfl := Option.some.inj (hverify.symm.trans h)
    exact ⟨.inr ⟨hnone, ufvk, rfl⟩, rfl⟩
  · cases hverify.symm.trans h

/-! ## A pass -/

variable (l accounts keys a c) in
theorem adopt_cases :
    (adopt l accounts keys a c).1 = keys ∧ (adopt l accounts keys a c).2.accountId = a.accountId ∨
    ∃ acct ∈ accounts, Pinned keys (adopt l accounts keys a c).1 ∧
      (adopt l accounts keys a c).1.ufvk = some acct.ufvk ∧
      (adopt l accounts keys a c).2.accountId = some acct.id := by
  unfold adopt
  split
  · exact .inl ⟨rfl, rfl⟩
  · split
    · exact .inl ⟨rfl, rfl⟩
    · next acct hfirst =>
      dsimp only
      split
      · exact .inl ⟨rfl, rfl⟩
      · next keys' hverified =>
        right
        refine ⟨acct, l.first_mem hfirst, ?_⟩
        split at hverified
        · obtain ⟨hpinned, hufvk⟩ := pinned_of_verified hverified
          exact ⟨hpinned, hufvk, rfl⟩
        · cases hverified

variable (l) in
theorem createRow_prefix {accounts' : List (Account Key)} {key : BootstrapKey Key} {uuid : ℕ}
    (h : createRow l accounts key uuid = some accounts') : accounts <+: accounts' := by
  cases key with
  | seed =>
    obtain rfl := Option.some.inj h
    exact List.prefix_append _ _
  | ufvk key =>
    simp only [createRow] at h
    split at h
    · cases h
    · obtain rfl := Option.some.inj h
      exact List.prefix_append _ _

/-- What a pass may do: rows are added, a pin is set where there is none, and the account served
stays or is one that carries the pin. -/
structure PassKeeps (accounts : List (Account Key)) (keys : KeysToml Key) (a : Actor Key)
    (out : List (Account Key) × KeysToml Key × Actor Key) : Prop where
  rows : accounts <+: out.1
  pin : Pinned keys out.2.1
  served : out.2.1 = keys ∧ out.2.2.accountId = a.accountId ∨
    ∃ acct ∈ out.1, out.2.1.ufvk = some acct.ufvk ∧ out.2.2.accountId = some acct.id

variable (l accounts keys a c) in
theorem pass_keeps : PassKeeps accounts keys a (maybeBootstrapAccount l accounts keys a c) := by
  by_cases hcreates : ∃ birthday key, CreatesRow a c birthday key
  · obtain ⟨birthday, key, hc⟩ := hcreates
    rw [pass_of_creates hc]
    cases hrow : createRow l accounts key c.uuid with
    | none => exact ⟨List.prefix_rfl, .refl _, .inl ⟨rfl, rfl⟩⟩
    | some accounts' =>
      have hrest := createRow_prefix l hrow
      rcases adopt_cases l accounts' keys a c with ⟨hkeys, hid⟩ | ⟨acct, hacct, hpinned, hufvk, hid⟩
      · exact ⟨hrest, .inl hkeys, .inl ⟨hkeys, hid⟩⟩
      · exact ⟨hrest, hpinned, .inr ⟨acct, hacct, hufvk, hid⟩⟩
  · obtain ⟨a', hpass, hid, -⟩ := pass_of_not_creates l accounts keys
      fun birthday key hc => hcreates ⟨birthday, key, hc⟩
    rw [hpass]
    exact ⟨List.prefix_rfl, .refl _, .inl ⟨rfl, hid⟩⟩

variable (l accounts keys a c) in
theorem caller_keeps (caller : Caller) :
    PassKeeps accounts keys a (caller.pass l accounts keys a c) := by
  obtain ⟨a', hid, -, ⟨-, hpass⟩ | ⟨-, hpass⟩⟩ := caller_cases (l := l) caller accounts keys a c
  · rw [hpass]
    have h := pass_keeps l accounts keys a' c
    exact ⟨h.rows, h.pin, h.served.imp_left fun hs => ⟨hs.1, hs.2.trans hid⟩⟩
  · rw [hpass]
    exact ⟨List.prefix_rfl, .refl _, .inl ⟨rfl, hid⟩⟩

omit [DecidableEq Key] in
theorem served_of_keeps {out : List (Account Key) × KeysToml Key × Actor Key}
    (h : PassKeeps accounts keys a out) (hserved : Served ⟨accounts, keys, some a⟩) :
    Served ⟨out.1, out.2.1, some out.2.2⟩ := by
  intro b hb id hid
  obtain rfl := Option.some.inj hb
  rcases h.served with ⟨hkeys, hsame⟩ | ⟨acct, hacct, hufvk, hsome⟩
  · rw [hsame] at hid
    obtain ⟨acct, hacct, hacctId, hpin⟩ := hserved a rfl id hid
    refine ⟨acct, h.rows.subset hacct, hacctId, ?_⟩
    dsimp only at hpin ⊢
    rw [hkeys, hpin]
  · rw [hsome] at hid
    exact ⟨acct, hacct, Option.some.inj hid, hufvk⟩

/-! ## Startup -/

variable (l cfg accounts keys) in
theorem spawnInner_keeps (sc : StartCalls) :
    Pinned keys (spawnInner l cfg accounts keys sc).1 ∧
      Served ⟨accounts, (spawnInner l cfg accounts keys sc).1,
        (spawnInner l cfg accounts keys sc).2⟩ := by
  have hnone : Pinned keys keys ∧ Served ⟨accounts, keys, none⟩ :=
    ⟨.refl _, fun a ha => absurd ha (Option.not_mem_none a)⟩
  unfold spawnInner
  split
  · exact hnone
  · dsimp only
    split
    · next acct hfirst =>
      split
      · exact hnone
      · split
        · exact hnone
        · split
          · exact hnone
          · next keys' hverified =>
            obtain ⟨hpinned, hufvk⟩ := pinned_of_verified hverified
            refine ⟨hpinned, fun b hb id hid => ?_⟩
            dsimp only at hb
            split at hb
            · obtain rfl := Option.some.inj hb
              exact ⟨acct, l.first_mem hfirst, Option.some.inj hid, hufvk⟩
            · cases hb
    · split
      · exact hnone
      · split
        · exact hnone
        · refine ⟨.refl _, fun b hb id hid => ?_⟩
          dsimp only at hb
          split at hb
          · obtain rfl := Option.some.inj hb
            cases hid
          · cases hb

/-! ## A step -/

omit [DecidableEq Key] in
theorem Served.mapActor {f : Actor Key → Actor Key} (h : Served w)
    (hid : ∀ a, (f a).accountId = a.accountId) : Served (w.mapActor f) := by
  intro b hb id hb'
  obtain ⟨a, ha, rfl⟩ := Option.map_eq_some_iff.mp hb
  rw [hid] at hb'
  exact h a ha id hb'

/-- Whatever a daemon does, the account it serves carries the pin. -/
theorem step_served (l : Layer Key) (cfg : Config) (h : Served w) (e : Event) :
    Served (step l cfg w e) := by
  cases e with
  | start sc =>
    simp only [step]
    split
    · exact h
    · exact (spawnInner_keeps l cfg w.accounts w.keys sc).2
  | stop => exact fun a ha => absurd ha (Option.not_mem_none a)
  | connection client => exact h.mapActor fun _ => rfl
  | refreshTip tip => exact h.mapActor fun _ => rfl
  | lock => exact h.mapActor fun _ => rfl
  | pass caller c =>
    simp only [step]
    split
    · exact h
    · next a ha =>
      apply served_of_keeps (caller_keeps l w.accounts w.keys a c caller)
      intro b hb
      exact h b (ha.trans hb)
  | killedInPass pinWritten caller c =>
    simp only [step]
    split
    · exact h
    · exact fun a ha => absurd ha (Option.not_mem_none a)

/-- Whatever a daemon does, `keys.toml` gains a pin at most, and the database rows. -/
theorem step_keeps (l : Layer Key) (cfg : Config) (w : World Key) (e : Event) :
    Pinned w.keys (step l cfg w e).keys ∧ w.accounts <+: (step l cfg w e).accounts := by
  cases e with
  | start sc =>
    simp only [step]
    split
    · exact ⟨.refl _, List.prefix_rfl⟩
    · exact ⟨(spawnInner_keeps l cfg w.accounts w.keys sc).1, List.prefix_rfl⟩
  | pass caller c =>
    simp only [step]
    split
    · exact ⟨.refl _, List.prefix_rfl⟩
    · next a ha =>
      have h := caller_keeps l w.accounts w.keys a c caller
      exact ⟨h.pin, h.rows⟩
  | killedInPass pinWritten caller c =>
    simp only [step]
    split
    · exact ⟨.refl _, List.prefix_rfl⟩
    · next a ha =>
      have h := caller_keeps l w.accounts w.keys a c caller
      cases pinWritten with
      | true => exact ⟨h.pin, h.rows⟩
      | false => exact ⟨.refl _, h.rows⟩
  | _ => exact ⟨.refl _, List.prefix_rfl⟩

end Zecd.Bootstrap
