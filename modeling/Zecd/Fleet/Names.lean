import Zecd.Foundation.Runs
import Zecd.Fleet.Manager

/-! # Whose account a fleet name serves

A handle reads the account its shard publishes under its name. Startup binds names to
accounts by viewing key. A reload at run time binds by name alone: the shard keeps listing a
name after it was unloaded and after its manifest changed. Every registered name serves the
key it was registered from as long as each reload brings the key its shard holds under the
name.
-/

namespace Zecd.Fleet

open Runs

variable {Key : Type} (cfg : FleetConfig Key)

section Statement

variable [DecidableEq Key]

/-- The handle's account does not exist yet, or it has the key of the member the handle was
registered from. -/
def AnswersForKey (w : World Key) (d : Daemon) (h : FleetHandle) : Prop :=
  (d.account h = none ∧ d.accountScope h = .noAccount) ∨
    ∃ uuid rs key, d.account h = some uuid ∧ d.accountScope h = .only uuid ∧
      d.shards[h.shard]? = some rs ∧ accountKey w.dirs rs.dir uuid = some key ∧
      keyOf cfg h.member = some key

/-- Every registered fleet name answers for its key. -/
def NamesAnswer (w : World Key) : Prop :=
  ∀ d ∈ w.daemon, ∀ h ∈ d.fleet, AnswersForKey cfg w d h

/-- The names a daemon serves and what they were registered from. -/
def registry (w : World Key) : Option (List String × List FleetHandle) :=
  w.daemon.map fun d => (d.loaded, d.fleet)

/-- A refused event leaves the registry and the manifest directory as they were. -/
def RefusesCleanly (w : World Key) (e : Event) : Prop :=
  ∀ why, (handle cfg w e).2 = .error why →
    registry (step cfg w e) = registry w ∧ (step cfg w e).manifests = w.manifests

/-- The shard has no other key than the member's under its name, as an account or queued. -/
def Serves (dirs : List (ShardDir Key)) (rs : ShardRuntime) (m : ShardMember) : Prop :=
  (∀ uuid ∈ rs.actor.account m.name, accountKey dirs rs.dir uuid = keyOf cfg m) ∧
    ∀ p ∈ rs.actor.shardPending, p.name = m.name → keyOf cfg p = keyOf cfg m

instance (dirs : List (ShardDir Key)) (rs : ShardRuntime) (m : ShardMember) :
    Decidable (Serves cfg dirs rs m) :=
  inferInstanceAs (Decidable (_ ∧ _))

def onboards (w : World Key) : Event → Option (ShardMember × Bool)
  | .createwallet p _ => (createwalletMember p).toOption.map (·, true)
  | .loadwallet (.string n) _ => (loadwalletMember cfg w n).toOption.map (·, false)
  | _ => none

/-- A member that onboarding admits, and whose name a running shard still lists with no error
at its import, brings the key that shard holds under the name. -/
def ReloadsOwnKey (w : World Key) (e : Event) : Prop :=
  ∀ d ∈ w.daemon, ∀ a ∈ onboards cfg w e, (onboardChecks cfg w d a.1 a.2).isOk = true →
    ∀ p ∈ d.shardHolding a.1.name, ∀ rs ∈ d.shards[p]?,
      rs.actor.hasImportError a.1.name = false → Serves cfg w.dirs rs a.1

instance (w : World Key) (e : Event) : Decidable (ReloadsOwnKey cfg w e) :=
  inferInstanceAs (Decidable (∀ d ∈ w.daemon, _))

/-- A data directory before its first start. -/
def fresh (manifests : ManifestDir) : World Key := ⟨manifests, [], none⟩

end Statement

section Directories

variable {cfg} {dirs : List (ShardDir Key)} {i : ℕ} {db db' : ShardDb Key}

theorem importMember_cases {m : ShardMember} {uuid : AccountUuid}
    (h : importMember cfg db m uuid = .ok db') :
    ∃ key, keyOf cfg m = some key ∧
      cfg.importAccountUfvk db ⟨uuid, m.name, key, m.birthday⟩ = some db' := by
  unfold importMember at h
  split at h
  · cases h
  · next key hkey =>
    split at h
    · next himport =>
      cases h
      exact ⟨key, keyOf_eq_some hkey, himport⟩
    · cases h

theorem grows_import {a : ShardAccount Key} (hdb : dbAt dirs i = some db)
    (h : cfg.importAccountUfvk db a = some db') : Grows dirs (setDb dirs i db') := by
  intro j uuid key hk
  by_cases hj : j = i
  · obtain rfl := hj
    obtain ⟨db₀, hdb₀, hk⟩ := Option.bind_eq_some_iff.mp hk
    obtain ⟨b, hb, rfl⟩ := Option.map_eq_some_iff.mp hk
    rw [hdb, Option.some.injEq] at hdb₀
    have hmem : b ∈ db'.accounts := by
      rw [cfg.appends h, hdb₀]
      exact List.mem_append_left _ (List.mem_of_find?_eq_some hb)
    have huuid : b.uuid = uuid := by simpa using List.find?_some hb
    rw [← huuid]
    exact accountKey_of_mem (dbAt_setDb_self (dirExists_of_dbAt hdb)) hmem
  · unfold accountKey at hk ⊢
    rwa [dbAt_setDb_of_ne hj]

end Directories

section Shards

variable {cfg} {dirs dirs' : List (ShardDir Key)} {i : ℕ} {db : ShardDb Key}
  {rs rs' : ShardRuntime} {m : ShardMember}

theorem ShardActor.mem_of_account {a : ShardActor} {name : String} {uuid : AccountUuid}
    (h : a.account name = some uuid) : (name, uuid) ∈ a.shardAccounts := by
  obtain ⟨e, he, rfl⟩ := Option.map_eq_some_iff.mp h
  have hname : e.1 = name := by simpa using List.find?_some he
  rw [← hname]
  exact List.mem_of_find?_eq_some he

theorem ShardActor.account_insert_of_ne {a : ShardActor} {name name' : String}
    {uuid : AccountUuid} {pending : List ShardMember} (h : name ≠ name') :
    ShardActor.account { a with
      shardAccounts := (name, uuid) :: a.shardAccounts.filter fun e => e.1 != name
      shardPending := pending } name' = a.account name' := by
  unfold ShardActor.account
  rw [List.find?_cons_of_neg (by simpa using h), List.find?_filter]
  congr 2
  ext e
  by_cases he : e.1 = name'
  · simp [he, h.symm]
  · simp [he]

theorem Serves.mono (h : Serves cfg dirs rs m) (hkey : (keyOf cfg m).isSome)
    (hg : Grows dirs dirs') : Serves cfg dirs' rs m := by
  constructor
  · intro uuid huuid
    obtain ⟨key, hk⟩ := Option.isSome_iff_exists.mp hkey
    rw [hk]
    exact hg _ _ _ ((h.1 uuid huuid).trans hk)
  · exact h.2

theorem queueMember_cases {answer : ActorAnswer} (h : queueMember rs m answer = .ok rs') :
    (∀ e ∈ rs.actor.shardAccounts, e.1 ≠ m.name) ∧
      (∀ q ∈ rs.actor.shardPending, q.name ≠ m.name) ∧
      rs' = { rs with actor := { rs.actor with
        shardPending := rs.actor.shardPending ++ [m]
        shardImportErrors := rs.actor.shardImportErrors.filter fun e => e.1 != m.name } } := by
  unfold queueMember at h
  split at h
  · split at h
    · next actor ha =>
      cases h
      unfold ShardActor.addShardMember at ha
      split at ha
      · cases ha
      · next hfree =>
        cases ha
        simp only [Bool.or_eq_true, List.any_eq_true, beq_iff_eq, not_or, not_exists,
          not_and] at hfree
        exact ⟨hfree.1, hfree.2, rfl⟩
    · cases h
  · cases h
  · cases h

theorem queueMember_serves_of_ne {q : ShardMember} {answer : ActorAnswer}
    (h : queueMember rs q answer = .ok rs') (hne : q.name ≠ m.name)
    (hs : Serves cfg dirs rs m) : Serves cfg dirs rs' m := by
  obtain ⟨-, -, rfl⟩ := queueMember_cases h
  constructor
  · exact hs.1
  · intro p hp hn
    rcases List.mem_append.mp hp with hp | hp
    · exact hs.2 p hp hn
    · rw [List.mem_singleton] at hp
      exact absurd (hp ▸ hn) hne

theorem queueMember_serves_self {answer : ActorAnswer}
    (h : queueMember rs m answer = .ok rs') : Serves cfg dirs rs' m := by
  obtain ⟨haccounts, hpending, rfl⟩ := queueMember_cases h
  constructor
  · intro uuid huuid
    exact absurd rfl (haccounts _ (ShardActor.mem_of_account huuid))
  · intro p hp hn
    rcases List.mem_append.mp hp with hp | hp
    · exact absurd hn (hpending p hp)
    · rw [List.mem_singleton.mp hp]

variable [DecidableEq Key]

/-- Reconciliation adopts an account only for a member that has its key. -/
theorem reconcileAccounts_spec {ms : List ShardMember} {r : Reconciled}
    (h : reconcileAccounts cfg db ms = .ok r) :
    (∀ e ∈ r.adopted, ∃ m ∈ ms, ∃ a ∈ db.accounts,
      e = (m.name, a.uuid) ∧ keyOf cfg m = some a.ufvk) ∧
    (∀ p ∈ r.pending, p ∈ ms) ∧ ∀ m ∈ ms, (keyOf cfg m).isSome := by
  induction ms generalizing r with
  | nil =>
    cases h
    simp
  | cons m ms ih =>
    unfold reconcileAccounts at h
    split at h
    · cases h
    · next key hkey =>
      have hm := keyOf_eq_some hkey
      split at h
      · next a ha =>
        split at h
        · cases h
        · next r' hr' =>
          obtain ⟨hadopted, hpending, hkeys⟩ := ih hr'
          cases h
          constructor
          · rintro e (_ | ⟨_, he⟩)
            · have hak : a.ufvk = key := by simpa using List.find?_some ha
              exact ⟨m, List.mem_cons_self, a, List.mem_of_find?_eq_some ha, rfl, hak ▸ hm⟩
            · obtain ⟨m', hm', ha'⟩ := hadopted e he
              exact ⟨m', List.mem_cons_of_mem _ hm', ha'⟩
          · constructor
            · exact fun p hp => List.mem_cons_of_mem _ (hpending p hp)
            · rintro m' (_ | ⟨_, hm'⟩)
              · simp [hm]
              · exact hkeys m' hm'
      · split at h
        · cases h
        · split at h
          · cases h
          · next r' hr' =>
            obtain ⟨hadopted, hpending, hkeys⟩ := ih hr'
            cases h
            constructor
            · intro e he
              obtain ⟨m', hm', ha'⟩ := hadopted e he
              exact ⟨m', List.mem_cons_of_mem _ hm', ha'⟩
            · constructor
              · rintro p (_ | ⟨_, hp⟩)
                · exact List.mem_cons_self
                · exact List.mem_cons_of_mem _ (hpending p hp)
              · rintro m' (_ | ⟨_, hm'⟩)
                · simp [hm]
                · exact hkeys m' hm'

theorem spawnShard_serves {ms : List ShardMember} (h : spawnShard cfg dirs i ms = .ok rs)
    (hnames : (ms.map ShardMember.name).Nodup) (hm : m ∈ ms) :
    Serves cfg dirs rs m ∧ (keyOf cfg m).isSome := by
  unfold spawnShard at h
  split at h
  · cases h
  · next db hdb =>
    split at h
    · cases h
    · next r hr =>
      cases h
      obtain ⟨hadopted, hpending, hkeys⟩ := reconcileAccounts_spec hr
      have hself : ∀ m' ∈ ms, m'.name = m.name → m' = m := fun m' hm' hn =>
        List.inj_on_of_nodup_map hnames hm' hm hn
      constructor
      · constructor
        · intro uuid huuid
          obtain ⟨m', hm', a, ha, he, hkey⟩ := hadopted _ (ShardActor.mem_of_account huuid)
          obtain ⟨hn, rfl⟩ := Prod.mk.inj he
          rw [← hself m' hm' hn.symm, hkey]
          exact accountKey_of_mem hdb ha
        · intro p hp hn
          rw [hself p (hpending p hp) hn]
      · exact hkeys m hm

end Shards

section Handles

def HandleServed (dirs : List (ShardDir Key)) (shards : List ShardRuntime) (h : FleetHandle) :
    Prop :=
  ∃ rs, shards[h.shard]? = some rs ∧ Serves cfg dirs rs h.member ∧ (keyOf cfg h.member).isSome

/-- Every registered handle is served. -/
def Bound (w : World Key) : Prop :=
  ∀ d ∈ w.daemon, ∀ h ∈ d.fleet, HandleServed cfg w.dirs d.shards h

variable {cfg} {dirs dirs' : List (ShardDir Key)} {d d' : Daemon} {shards : List ShardRuntime}
  {rs rs' : ShardRuntime} {h : FleetHandle} {m : ShardMember} {p : ℕ}

theorem HandleServed.mono (hs : HandleServed cfg dirs shards h) (hg : Grows dirs dirs') :
    HandleServed cfg dirs' shards h := by
  obtain ⟨rs, hrs, hserves, hkey⟩ := hs
  exact ⟨rs, hrs, hserves.mono hkey hg, hkey⟩

theorem HandleServed.append (hs : HandleServed cfg dirs shards h) (more : List ShardRuntime) :
    HandleServed cfg dirs (shards ++ more) h := by
  obtain ⟨rs, hrs, hserves, hkey⟩ := hs
  exact ⟨rs, List.getElem?_append_left (List.getElem?_eq_some_iff.mp hrs).1 ▸ hrs, hserves, hkey⟩

theorem HandleServed.set (hs : HandleServed cfg dirs shards h) (hg : Grows dirs dirs')
    (hrs : shards[p]? = some rs)
    (hserves : (keyOf cfg h.member).isSome → Serves cfg dirs rs h.member →
      Serves cfg dirs' rs' h.member) : HandleServed cfg dirs' (shards.set p rs') h := by
  obtain ⟨rs₀, hrs₀, hserves₀, hkey⟩ := hs
  have hlt := (List.getElem?_eq_some_iff.mp hrs₀).1
  by_cases hp : h.shard = p
  · have heq : rs₀ = rs := by
      rw [← hp, hrs₀] at hrs
      exact Option.some.inj hrs
    rw [← hp]
    exact ⟨rs', List.getElem?_set_self hlt, hserves hkey (heq ▸ hserves₀), hkey⟩
  · have hrs₀' : (shards.set p rs')[h.shard]? = some rs₀ := by
      rw [List.getElem?_set_ne (Ne.symm hp), hrs₀]
    exact ⟨rs₀, hrs₀', hserves₀.mono hkey hg, hkey⟩

theorem answersForKey_of_handleServed {w : World Key}
    (hs : HandleServed cfg w.dirs d.shards h) : AnswersForKey cfg w d h := by
  obtain ⟨rs, hrs, hserves, hkey⟩ := hs
  have haccount : d.account h = rs.actor.account h.member.name := by
    rw [Daemon.account, hrs, Option.bind_some]
  unfold AnswersForKey Daemon.accountScope
  rw [haccount]
  cases huuid : rs.actor.account h.member.name with
  | none => exact Or.inl ⟨rfl, rfl⟩
  | some uuid =>
    obtain ⟨key, hk⟩ := Option.isSome_iff_exists.mp hkey
    exact Or.inr ⟨uuid, rs, key, rfl, rfl, hrs, (hserves.1 uuid huuid).trans hk, hk⟩

theorem Bound.namesAnswer {w : World Key} (hw : Bound cfg w) : NamesAnswer cfg w :=
  fun d hd h hh => answersForKey_of_handleServed (hw d hd h hh)

theorem unloadwallet_cases {w w' : World Key} {named loadOnStartup : Arg} {routed : Option String}
    {r : Except RpcError WalletResponse}
    (h : unloadwallet cfg w d named loadOnStartup routed = (w', r)) :
    (∃ e, w' = w ∧ r = .error e) ∨
    ∃ name response, r = .ok response ∧ w' = { w with daemon := some { d with
      loaded := d.loaded.filter fun n => n != name
      fleet := d.fleet.filter fun g => g.member.name != name } } := by
  unfold unloadwallet at h
  split at h
  · cases h
    exact Or.inl ⟨_, rfl, rfl⟩
  · next name _ =>
    split at h
    · cases h
      exact Or.inl ⟨_, rfl, rfl⟩
    · split at h
      · cases h
        exact Or.inl ⟨_, rfl, rfl⟩
      · split at h
        · cases h
          exact Or.inr ⟨name, _, rfl, rfl⟩
        · cases h
          exact Or.inl ⟨_, rfl, rfl⟩

theorem onboardChecks_cases {w : World Key} {persist : Bool} {manifests : ManifestDir}
    (hchecks : onboardChecks cfg w d m persist = .ok manifests) :
    (∀ h ∈ d.fleet, h.member.name ≠ m.name) ∧ (keyOf cfg m).isSome ∧
      (if persist then manifests.remove m.name else manifests) = w.manifests := by
  unfold onboardChecks at hchecks
  split at hchecks
  · cases hchecks
  · next hfree =>
    have hother : ∀ h ∈ d.fleet, h.member.name ≠ m.name := by
      simp only [Daemon.contains, Bool.or_eq_true, List.any_eq_true, beq_iff_eq, not_or,
        not_exists, not_and] at hfree
      exact hfree.2
    split at hchecks
    · cases hchecks
    · split at hchecks
      · cases hchecks
      · next key hkey =>
        have hk : (keyOf cfg m).isSome := by rw [keyOf_eq_some hkey, Option.isSome_some]
        split at hchecks
        · next hpersist =>
          split at hchecks
          · cases hchecks
          · next hwrite =>
            cases hchecks
            rw [if_pos hpersist]
            exact ⟨hother, hk, remove_of_writeManifest hwrite⟩
        · next hload =>
          cases hchecks
          rw [if_neg hload]
          exact ⟨hother, hk, rfl⟩

variable [DecidableEq Key]

/-- What placing a member can do: serve it as a reload, queue it in a running shard, open a
new shard for it, or fail with the daemon as it was. -/
theorem place_cases {answer : ActorAnswer} {r : Except String FleetHandle}
    (hplace : place cfg dirs d m answer = (dirs', d', r)) :
    (∃ p rs, d.shardHolding m.name = some p ∧ d.shards[p]? = some rs ∧
      rs.actor.hasImportError m.name = false ∧ dirs' = dirs ∧ d' = d ∧ r = .ok ⟨m, p⟩) ∨
    (∃ p rs rs₁ rs', d.shards[p]? = some rs ∧ queueMember rs m answer = .ok rs₁ ∧
      (rs' = rs₁ ∨ rs' = rs₁.count m) ∧ dirs' = dirs ∧ d' = d.setShard p rs' ∧
      r = .ok ⟨m, p⟩) ∨
    (∃ i rs, dirs' = initDb (createDir dirs i) i ∧ spawnShard cfg dirs' i [m] = .ok rs ∧
      d' = { d with shards := d.shards ++ [rs] } ∧ r = .ok ⟨m, d.shards.length⟩) ∨
    (∃ why, Grows dirs dirs' ∧ d' = d ∧ r = .error why) := by
  unfold place at hplace
  split at hplace
  · next p hp =>
    split at hplace
    · next hnone =>
      obtain ⟨hlt, -⟩ := List.findIdx?_eq_some_iff_getElem.mp hp
      rw [List.getElem?_eq_getElem hlt] at hnone
      cases hnone
    · next rs hrs =>
      split at hplace
      · split at hplace
        · next rs' hq =>
          cases hplace
          exact Or.inr (Or.inl ⟨p, rs, rs', rs', hrs, hq, Or.inl rfl, rfl, rfl, rfl⟩)
        · cases hplace
          exact Or.inr (Or.inr (Or.inr ⟨_, Grows.refl, rfl, rfl⟩))
      · next herror =>
        cases hplace
        exact Or.inl ⟨p, rs, hp, hrs, Bool.eq_false_iff.mpr herror, rfl, rfl, rfl⟩
  · dsimp only at hplace
    split at hplace
    · next rs hrs =>
      split at hplace
      · next rs' hq =>
        cases hplace
        exact Or.inr (Or.inl ⟨_, rs, rs', _, hrs, hq, Or.inr rfl, rfl, rfl, rfl⟩)
      · cases hplace
        exact Or.inr (Or.inr (Or.inr ⟨_, Grows.refl, rfl, rfl⟩))
    · split at hplace
      · cases hplace
        exact Or.inr (Or.inr (Or.inr ⟨_, grows_createDir, rfl, rfl⟩))
      · cases hplace
        exact Or.inr (Or.inr (Or.inr ⟨_, grows_prepare _, rfl, rfl⟩))
      · split at hplace
        · cases hplace
          exact Or.inr (Or.inr (Or.inr ⟨_, grows_prepare _, rfl, rfl⟩))
        · next rs hspawn =>
          cases hplace
          exact Or.inr (Or.inr (Or.inl ⟨_, rs, rfl, hspawn, rfl, rfl⟩))

theorem place_registry {answer : ActorAnswer} {r : Except String FleetHandle}
    (hplace : place cfg dirs d m answer = (dirs', d', r)) :
    d'.fleet = d.fleet ∧ d'.loaded = d.loaded := by
  rcases place_cases hplace with ⟨p, rs, -, -, -, -, rfl, -⟩ |
    ⟨p, rs, rs₁, rs', -, -, -, -, rfl, -⟩ | ⟨i, rs, -, -, rfl, -⟩ | ⟨why, -, rfl, -⟩
  all_goals exact ⟨rfl, rfl⟩

theorem place_others_served {answer : ActorAnswer} {r : Except String FleetHandle}
    (hplace : place cfg dirs d m answer = (dirs', d', r)) (hne : h.member.name ≠ m.name)
    (hs : HandleServed cfg dirs d.shards h) : HandleServed cfg dirs' d'.shards h := by
  rcases place_cases hplace with ⟨p, rs, -, -, -, rfl, rfl, -⟩ |
    ⟨p, rs, rs₁, rs', hrs, hq, hrs', rfl, rfl, -⟩ | ⟨i, rs, rfl, -, rfl, -⟩ | ⟨why, hg, rfl, -⟩
  · exact hs
  · apply hs.set Grows.refl hrs
    intro _ hserves
    have hserves' := queueMember_serves_of_ne hq hne.symm hserves
    rcases hrs' with rfl | rfl
    · exact hserves'
    · exact hserves'
  · exact (hs.mono (grows_prepare i)).append [rs]
  · exact hs.mono hg

/-- The handle a placement returns is served, if a reload brings the key its shard holds. -/
theorem place_served {answer : ActorAnswer}
    (hplace : place cfg dirs d m answer = (dirs', d', .ok h)) (hkey : (keyOf cfg m).isSome)
    (hreload : ∀ p ∈ d.shardHolding m.name, ∀ rs ∈ d.shards[p]?,
      rs.actor.hasImportError m.name = false → Serves cfg dirs rs m) :
    HandleServed cfg dirs' d'.shards h := by
  rcases place_cases hplace with ⟨p, rs, hp, hrs, herror, rfl, rfl, hr⟩ |
    ⟨p, rs, rs₁, rs', hrs, hq, hrs', rfl, rfl, hr⟩ | ⟨i, rs, rfl, hspawn, rfl, hr⟩ |
    ⟨why, -, -, hr⟩
  · cases hr
    exact ⟨rs, hrs, hreload p hp rs hrs herror, hkey⟩
  · cases hr
    have hserves : Serves cfg dirs' rs₁ m := queueMember_serves_self hq
    have hlt := (List.getElem?_eq_some_iff.mp hrs).1
    rcases hrs' with rfl | rfl
    · exact ⟨rs', List.getElem?_set_self hlt, hserves, hkey⟩
    · exact ⟨rs₁.count m, List.getElem?_set_self hlt, hserves, hkey⟩
  · cases hr
    obtain ⟨hserves, -⟩ := spawnShard_serves hspawn (by simp) List.mem_cons_self
    exact ⟨rs, List.getElem?_concat_length, hserves, hkey⟩
  · cases hr

end Handles

section Steps

variable [DecidableEq Key] {cfg} {dirs dirs' : List (ShardDir Key)} {d d' : Daemon}
  {w w' : World Key} {h : FleetHandle} {m : ShardMember}

theorem spawnShards_served {layout : List (ℕ × List ShardMember)}
    (hspawn : spawnShards cfg dirs d layout = (dirs', .ok d'))
    (hnames : ∀ s ∈ layout, (s.2.map ShardMember.name).Nodup)
    (hd : ∀ h ∈ d.fleet, HandleServed cfg dirs d.shards h) :
    ∀ h ∈ d'.fleet, HandleServed cfg dirs' d'.shards h := by
  induction layout generalizing dirs d with
  | nil =>
    cases hspawn
    exact hd
  | cons s layout ih =>
    obtain ⟨index, members⟩ := s
    unfold spawnShards at hspawn
    dsimp only at hspawn
    split at hspawn
    · cases hspawn
    · next rs hrs =>
      apply ih hspawn fun s hs => hnames s (List.mem_cons_of_mem _ hs)
      intro h hh
      rcases List.mem_append.mp hh with hh | hh
      · exact ((hd h hh).mono (grows_prepare index)).append [rs]
      · obtain ⟨m, hm, rfl⟩ := List.mem_map.mp hh
        obtain ⟨hserves, hkey⟩ := spawnShard_serves hrs (hnames _ List.mem_cons_self) hm
        exact ⟨rs, List.getElem?_concat_length, hserves, hkey⟩

theorem spawnFleet_served {loaded : List String}
    (hspawn : spawnFleet cfg w loaded = (dirs', .ok d')) :
    ∀ h ∈ d'.fleet, HandleServed cfg dirs' d'.shards h := by
  unfold spawnFleet at hspawn
  split at hspawn
  · cases hspawn
  · next members _ hload =>
    split at hspawn
    · cases hspawn
    · split at hspawn
      · cases hspawn
      · next placed existing _ =>
        apply spawnShards_served hspawn
        · intro s hs
          exact plan_names_nodup (loadManifests_names_nodup hload) hs
        · intro h hh
          cases hh

omit [DecidableEq Key] in
theorem importPass_serves {rs rs' : ShardRuntime} {pass : ImportPass}
    (hpass : importPendingShardMember cfg dirs rs pass = (dirs', rs')) :
    Grows dirs dirs' ∧ ∀ m, (keyOf cfg m).isSome → Serves cfg dirs rs m →
      Serves cfg dirs' rs' m := by
  unfold importPendingShardMember at hpass
  split at hpass
  · cases hpass
    exact ⟨Grows.refl, fun _ _ hs => hs⟩
  · next q qs hq =>
    have hsub : ∀ p ∈ qs, p ∈ rs.actor.shardPending := fun p hp =>
      hq ▸ List.mem_cons_of_mem q hp
    split at hpass
    · cases hpass
      exact ⟨Grows.refl, fun _ _ hs => hs⟩
    · cases hpass
      exact ⟨Grows.refl, fun m _ hs => ⟨hs.1, fun p hp => hs.2 p (hsub p hp)⟩⟩
    · next uuid =>
      split at hpass
      · cases hpass
        exact ⟨Grows.refl, fun _ _ hs => hs⟩
      · next db hdb =>
        split at hpass
        · cases hpass
          exact ⟨Grows.refl, fun m _ hs => ⟨hs.1, fun p hp => hs.2 p (hsub p hp)⟩⟩
        · next db' himport =>
          cases hpass
          obtain ⟨key, hkey, himport⟩ := importMember_cases himport
          have hg : Grows dirs (setDb dirs rs.dir db') := grows_import hdb himport
          constructor
          · exact hg
          · intro m hm hs
            constructor
            · intro u hu
              by_cases hname : q.name = m.name
              · -- The imported member was queued under the handle's name, so with its key.
                have hnew : u = uuid := by
                  simpa [ShardActor.account, hname, eq_comm] using hu
                have hmem :
                    (⟨uuid, q.name, key, q.birthday⟩ : ShardAccount Key) ∈ db'.accounts := by
                  rw [cfg.appends himport]
                  exact List.mem_append_right _ List.mem_cons_self
                have hadded := accountKey_of_mem
                  (dbAt_setDb_self (dirExists_of_dbAt hdb)) hmem
                rw [hnew, ← hs.2 q (hq ▸ List.mem_cons_self) hname, hkey]
                exact hadded
              · have hold : rs.actor.account m.name = some u := by
                  rw [← ShardActor.account_insert_of_ne hname]
                  exact hu
                exact (hs.mono hm hg).1 u hold
            · exact fun p hp => hs.2 p (hsub p hp)

/-- Onboarding is refused with the names and manifests as they were, or it registers the
handle that placement returned. -/
theorem onboard_cases {persist : Bool} {answer : ActorAnswer} {r : Except OnboardError Unit}
    (h : onboard cfg w d m persist answer = (w', r)) :
    (∃ e, w' = w ∧ r = .error e) ∨
    (∃ manifests dirs' d' handle, onboardChecks cfg w d m persist = .ok manifests ∧
      place cfg w.dirs d m answer = (dirs', d', .ok handle) ∧
      w' = ⟨manifests, dirs', some (d'.register handle)⟩ ∧ r = .ok ()) ∨
    (∃ manifests dirs' d' why, onboardChecks cfg w d m persist = .ok manifests ∧
      place cfg w.dirs d m answer = (dirs', d', .error why) ∧
      w' = ⟨w.manifests, dirs', some d'⟩ ∧ r = .error (.failed why)) := by
  unfold onboard at h
  split at h
  · cases h
    exact Or.inl ⟨_, rfl, rfl⟩
  · next manifests hchecks =>
    split at h
    · next dirs' d' handle hplace =>
      cases h
      exact Or.inr (Or.inl ⟨manifests, dirs', d', handle, hchecks, hplace, rfl, rfl⟩)
    · next dirs' d' why hplace =>
      cases h
      rw [(onboardChecks_cases hchecks).2.2]
      exact Or.inr (Or.inr ⟨manifests, dirs', d', why, hchecks, hplace, rfl, rfl⟩)

theorem onboard_bound {persist : Bool} {answer : ActorAnswer} {r : Except OnboardError Unit}
    (h : onboard cfg w d m persist answer = (w', r)) (hd : w.daemon = some d) (hw : Bound cfg w)
    (hreload : (onboardChecks cfg w d m persist).isOk = true →
      ∀ p ∈ d.shardHolding m.name, ∀ rs ∈ d.shards[p]?,
        rs.actor.hasImportError m.name = false → Serves cfg w.dirs rs m) :
    Bound cfg w' := by
  rcases onboard_cases h with ⟨e, rfl, -⟩ |
    ⟨manifests, dirs', d', handle, hchecks, hplace, rfl, -⟩ |
    ⟨manifests, dirs', d', why, hchecks, hplace, rfl, -⟩
  · exact hw
  · obtain ⟨hother, hkey, -⟩ := onboardChecks_cases hchecks
    rintro _ ⟨⟩ h hh
    change HandleServed cfg dirs' d'.shards h
    rcases List.mem_append.mp hh with hh | hh
    · rw [(place_registry hplace).1] at hh
      exact place_others_served hplace (hother h hh) (hw d hd h hh)
    · rw [List.mem_singleton.mp hh]
      exact place_served hplace hkey (hreload (by rw [hchecks]; rfl))
  · obtain ⟨hother, -, -⟩ := onboardChecks_cases hchecks
    rintro _ ⟨⟩ h hh
    rw [(place_registry hplace).1] at hh
    exact place_others_served hplace (hother h hh) (hw d hd h hh)

theorem onboard_refused {persist : Bool} {answer : ActorAnswer} {e : OnboardError}
    (hd : w.daemon = some d) (h : onboard cfg w d m persist answer = (w', .error e)) :
    registry w' = registry w ∧ w'.manifests = w.manifests := by
  rcases onboard_cases h with ⟨e, rfl, -⟩ | ⟨manifests, dirs', d', handle, -, -, -, hr⟩ |
    ⟨manifests, dirs', d', why, -, hplace, rfl, -⟩
  · exact ⟨rfl, rfl⟩
  · cases hr
  · obtain ⟨hfleet, hloaded⟩ := place_registry hplace
    simp [registry, hd, hfleet, hloaded]

theorem createwallet_cases {p : CreateParams} {answer : ActorAnswer}
    {r : Except RpcError WalletResponse} (h : createwallet cfg w d p answer = (w', r)) :
    (∃ e, w' = w ∧ r = .error e) ∨
    ∃ m r', onboards cfg w (.createwallet p answer) = some (m, true) ∧
      onboard cfg w d m true answer = (w', r') ∧ (∀ e, r = .error e → ∃ e', r' = .error e') := by
  unfold createwallet at h
  split at h
  · cases h
    exact Or.inl ⟨_, rfl, rfl⟩
  · next m hm =>
    have hon : onboards cfg w (.createwallet p answer) = some (m, true) := by
      rw [onboards, hm]
      rfl
    split at h
    · next e honboard =>
      cases h
      exact Or.inr ⟨m, _, hon, honboard, fun _ _ => ⟨e, rfl⟩⟩
    · next honboard =>
      cases h
      exact Or.inr ⟨m, _, hon, honboard, fun _ he => by cases he⟩

theorem loadwallet_cases {name : Arg} {answer : ActorAnswer}
    {r : Except RpcError WalletResponse} (h : loadwallet cfg w d name answer = (w', r)) :
    (∃ e, w' = w ∧ r = .error e) ∨
    ∃ m r', onboards cfg w (.loadwallet name answer) = some (m, false) ∧
      onboard cfg w d m false answer = (w', r') ∧ (∀ e, r = .error e → ∃ e', r' = .error e') := by
  unfold loadwallet at h
  split at h
  · next n =>
    split at h
    · cases h
      exact Or.inl ⟨_, rfl, rfl⟩
    · next m hm =>
      have hon : onboards cfg w (.loadwallet (.string n) answer) = some (m, false) := by
        rw [onboards, hm]
        rfl
      split at h
      · next e honboard =>
        cases h
        exact Or.inr ⟨m, _, hon, honboard, fun _ _ => ⟨e, rfl⟩⟩
      · next honboard =>
        cases h
        exact Or.inr ⟨m, _, hon, honboard, fun _ he => by cases he⟩
  · cases h
    exact Or.inl ⟨_, rfl, rfl⟩

theorem start_cases {s : Startup} {r : Except String Unit} (h : start cfg w s = (w', r)) :
    (∃ dirs' why, w' = { w with dirs := dirs' } ∧ r = .error why) ∨
    ∃ loaded dirs' d', spawnConfigured cfg s = .ok loaded ∧
      spawnFleet cfg w (loaded.map (·.1)) = (dirs', .ok d') ∧
      ensureSingleSpendingWallet loaded cfg.allowMultipleSpendingWallets = .ok () ∧
      w' = { w with dirs := dirs', daemon := some d' } ∧ r = .ok () := by
  unfold start at h
  split at h
  · cases h
    exact Or.inl ⟨_, _, rfl, rfl⟩
  · next loaded hconfigured =>
    split at h
    · cases h
      exact Or.inl ⟨_, _, rfl, rfl⟩
    · next dirs' d' hspawn =>
      split at h
      · cases h
        exact Or.inl ⟨_, _, rfl, rfl⟩
      · split at h
        · cases h
          exact Or.inl ⟨_, _, rfl, rfl⟩
        · next hspender =>
          cases h
          exact Or.inr ⟨loaded, dirs', d', hconfigured, hspawn, hspender, rfl, rfl⟩

variable (cfg) in
/-- What one event can do to the directories, the manifests and the registry. -/
inductive Effect (w : World Key) (e : Event) :
    World Key → Except Refusal (Option WalletResponse) → Prop
  | refused {why : Refusal} : Effect w e w (.error why)
  | startFailed {dirs' : List (ShardDir Key)} {why : Refusal} (hd : w.daemon = none) :
      Effect w e { w with dirs := dirs' } (.error why)
  | started {dirs' : List (ShardDir Key)} {d' : Daemon} (hd : w.daemon = none)
      (hserved : ∀ h ∈ d'.fleet, HandleServed cfg dirs' d'.shards h) :
      Effect w e { w with dirs := dirs', daemon := some d' } (.ok none)
  | stopped : Effect w e { w with daemon := none } (.ok none)
  | onboarded {d : Daemon} {m : ShardMember} {persist : Bool} {answer : ActorAnswer}
      {w' : World Key} {r : Except Refusal (Option WalletResponse)}
      {r' : Except OnboardError Unit} (hd : w.daemon = some d)
      (honboards : onboards cfg w e = some (m, persist))
      (honboard : onboard cfg w d m persist answer = (w', r'))
      (hr : ∀ why, r = .error why → ∃ e', r' = .error e') : Effect w e w' r
  | unloaded {d : Daemon} {name : String} {response : WalletResponse} (hd : w.daemon = some d) :
      Effect w e { w with daemon := some { d with
        loaded := d.loaded.filter fun n => n != name
        fleet := d.fleet.filter fun g => g.member.name != name } } (.ok (some response))
  | imported {d : Daemon} {p : ℕ} {rs rs' : ShardRuntime} {dirs' : List (ShardDir Key)}
      {pass : ImportPass} (hd : w.daemon = some d) (hrs : d.shards[p]? = some rs)
      (hpass : importPendingShardMember cfg w.dirs rs pass = (dirs', rs')) :
      Effect w e { w with dirs := dirs', daemon := some (d.setShard p rs') } (.ok none)
  | manifests {manifests' : ManifestDir} :
      Effect w e { w with manifests := manifests' } (.ok none)
  | idle : Effect w e w (.ok none)

variable {e : Event}

theorem handle_effect : Effect cfg w e (handle cfg w e).1 (handle cfg w e).2 := by
  cases hd : w.daemon with
  | none =>
    cases e with
    | start s =>
      simp only [handle, hd]
      cases hstart : start cfg w s with
      | mk w' r =>
        rcases start_cases hstart with ⟨dirs', why, rfl, rfl⟩ |
          ⟨loaded, dirs', d', -, hspawn, -, rfl, rfl⟩
        · exact .startFailed hd
        · exact .started hd (spawnFleet_served hspawn)
    | stop => exact .stopped
    | putManifest file => exact .manifests
    | removeManifest name => exact .manifests
    | createwallet | loadwallet | unloadwallet | importPass =>
      simp only [handle, hd]
      exact .refused
  | some d =>
    cases e with
    | start s =>
      simp only [handle, hd]
      exact .refused
    | stop => exact .stopped
    | putManifest file => exact .manifests
    | removeManifest name => exact .manifests
    | createwallet p answer =>
      simp only [handle, hd]
      cases hcall : createwallet cfg w d p answer with
      | mk w' r =>
        rcases createwallet_cases hcall with ⟨e, rfl, rfl⟩ | ⟨m, r', honboards, honboard, hr⟩
        · exact .refused
        · cases r with
          | ok response => exact .onboarded hd honboards honboard fun _ he => by cases he
          | error e => exact .onboarded hd honboards honboard fun _ _ => hr e rfl
    | loadwallet name answer =>
      simp only [handle, hd]
      cases hcall : loadwallet cfg w d name answer with
      | mk w' r =>
        rcases loadwallet_cases hcall with ⟨e, rfl, rfl⟩ | ⟨m, r', honboards, honboard, hr⟩
        · exact .refused
        · cases r with
          | ok response => exact .onboarded hd honboards honboard fun _ he => by cases he
          | error e => exact .onboarded hd honboards honboard fun _ _ => hr e rfl
    | unloadwallet name loadOnStartup routed =>
      simp only [handle, hd]
      cases hcall : unloadwallet cfg w d name loadOnStartup routed with
      | mk w' r =>
        rcases unloadwallet_cases hcall with ⟨e, rfl, rfl⟩ | ⟨name, response, rfl, rfl⟩
        · exact .refused
        · exact .unloaded hd
    | importPass p pass =>
      simp only [handle, hd]
      split
      · exact .idle
      · next rs hrs => exact .imported hd hrs rfl

/-- Every event keeps the handles served, if it reloads no name under a new key. -/
theorem step_bound (hw : Bound cfg w) (hkeep : ReloadsOwnKey cfg w e) :
    Bound cfg (step cfg w e) := by
  unfold step
  generalize hw' : (handle cfg w e).1 = w', hr : (handle cfg w e).2 = r
  have heffect : Effect cfg w e w' r := hw' ▸ hr ▸ handle_effect
  clear hw' hr
  cases heffect with
  | refused => exact hw
  | idle => exact hw
  | manifests => exact hw
  | startFailed hd =>
    intro d hd'
    rw [hd] at hd'
    cases hd'
  | started hd hserved =>
    rintro _ ⟨⟩
    exact hserved
  | stopped => rintro _ ⟨⟩
  | onboarded hd honboards honboard _ =>
    exact onboard_bound honboard hd hw (hkeep _ hd _ honboards)
  | unloaded hd =>
    rintro _ ⟨⟩ h hh
    exact hw _ hd h (List.mem_filter.mp hh).1
  | imported hd hrs hpass =>
    obtain ⟨hg, hserves⟩ := importPass_serves hpass
    rintro _ ⟨⟩ h hh
    exact (hw _ hd h hh).set hg hrs (hserves h.member)

/-- A refused event changes neither the registry nor the manifests. -/
theorem handle_refusesCleanly : RefusesCleanly cfg w e := by
  intro why hwhy
  unfold step
  have heffect : Effect cfg w e (handle cfg w e).1 (.error why) := hwhy ▸ handle_effect
  generalize (handle cfg w e).1 = w' at heffect
  cases heffect with
  | refused => exact ⟨rfl, rfl⟩
  | startFailed hd => exact ⟨rfl, rfl⟩
  | onboarded hd _ honboard hr =>
    obtain ⟨e', rfl⟩ := hr why rfl
    exact onboard_refused hd honboard

end Steps

section Runs

variable [DecidableEq Key]

/-- In every run whose reloads bring the key their shard holds, every fleet name answers for
the key it was registered from, in every state reached; and a refused event never changes the
registry or the manifests. -/
theorem names_answer_of_reloads (manifests : ManifestDir) (es : List Event)
    (hkeep : Along (step cfg) (ReloadsOwnKey cfg) (fresh manifests) es) :
    (∀ es', es' <+: es → NamesAnswer cfg (run (step cfg) (fresh manifests) es')) ∧
      Along (step cfg) (RefusesCleanly cfg) (fresh manifests) es := by
  constructor
  · intro es' hes
    have hstart : Bound cfg (fresh manifests) := by
      rintro _ ⟨⟩
    have hbound : Bound cfg (run (step cfg) (fresh manifests) es') :=
      invariant (fun w e hw he => step_bound hw he) hstart (along_of_isPrefix hkeep hes)
    exact hbound.namesAnswer
  · exact along_of_always fun w e => handle_refusesCleanly

/-- A network on which every string of the `uview` form is a viewing key. -/
def uviewFleet : FleetConfig String where
  toAccountImport := .bySchema
  network := "main"
  datadir := "datadir"
  decode s := if s.toList.take 5 = "uview".toList then .ok s else .error "unknown prefix"
  manifestDir := "fleet/zec/wallets.d"
  shardSize := 100
  cohortDepth := 10000
  wallets := []
  allowMultipleSpendingWallets := false

def cleanStart : Startup := ⟨.ok (), .ok (), fun _ => .loaded true, .ok ()⟩

/-- A wallet is started from its manifest, imported, unloaded and loaded again. -/
def reloadRun : List Event :=
  [.putManifest ⟨"acct", .ok ⟨"uviewA", 100⟩⟩, .start cleanStart, .importPass 0 (.imports 7),
    .unloadwallet (.string "acct") .absent none, .loadwallet (.string "acct") .up]

theorem reloadRun_names_answer :
    (∀ es', es' <+: reloadRun →
      NamesAnswer uviewFleet (run (step uviewFleet) (fresh ⟨[], by simp⟩) es')) ∧
    Along (step uviewFleet) (RefusesCleanly uviewFleet) (fresh ⟨[], by simp⟩) reloadRun :=
  names_answer_of_reloads uviewFleet ⟨[], by simp⟩ reloadRun (by decide)

/-- The same, with the manifest edited to another key while the wallet was unloaded. -/
def editedRun : List Event :=
  [.putManifest ⟨"acct", .ok ⟨"uviewA", 100⟩⟩, .start cleanStart, .importPass 0 (.imports 7),
    .unloadwallet (.string "acct") .absent none,
    .putManifest ⟨"acct", .ok ⟨"uviewB", 100⟩⟩, .loadwallet (.string "acct") .up]

/-- The name then serves the account of its old key. -/
theorem editedRun_serves_old_key :
    ¬ NamesAnswer uviewFleet (run (step uviewFleet) (fresh ⟨[], by simp⟩) editedRun) := by
  intro hall
  have hdaemon : (run (step uviewFleet) (fresh ⟨[], by simp⟩) editedRun).daemon =
      some ⟨[], [⟨0, ["acct"], 1, some 100, ⟨[("acct", 7)], [], []⟩⟩],
        [⟨⟨"acct", "uviewB", 100⟩, 0⟩]⟩ := by decide
  have hkey : accountKey (run (step uviewFleet) (fresh ⟨[], by simp⟩) editedRun).dirs 0 7 =
      some "uviewA" := by decide
  rcases hall _ hdaemon _ List.mem_cons_self with ⟨hnone, -⟩ |
    ⟨uuid, rs, key, huuid, -, hrs, hold, hnew⟩
  · cases hnone
  · cases huuid
    cases hrs
    rw [hkey] at hold
    cases hold
    exact absurd hnew (by decide)

end Runs

end Zecd.Fleet
