import Zecd.Foundation.Keyed
import Zecd.Foundation.Runs
import Zecd.Fleet.Manager
import Zecd.Fleet.Names

/-! # Onboarding into a running shard

A shard's actor imports its pending members one per sync pass, from the head of the queue. Each
needs the tree state below its birthday. An upstream has none above its tip, and the error it
answers costs the pass its connection: the scan that follows does not run.
-/

namespace Zecd.Fleet

open Runs

variable {Key Ts : Type}

/-- A shard actor with its connection, and the databases its scan batches ran over. -/
structure ShardSync (Key : Type) where
  actor : ShardActor
  db : ShardDb Key
  client : Bool
  scanned : List (ShardDb Key)

/-- What a sync pass meets: the tip the actor knows, the upstream and its tip, the identifier
an import would draw, and how the scan batch ends. -/
structure PassInput (Ts : Type) where
  connects : Bool
  tipHeight : Option ℕ
  upstreamTip : ℕ
  treeState : ℕ → Except String Ts
  uuid : AccountUuid
  batch : Except String Bool

/-- The height whose tree state an import needs. Height 0 has none. -/
def ShardMember.prior (m : ShardMember) : ℕ := max (m.birthday - 1) 1

section Pass

/- `fromTreestate` derives an account birthday from a tree state, up to a recovery height. -/
variable (cfg : FleetConfig Key) (fromTreestate : Ts → ℕ → Except String Unit)

def importPendingShardMembers (s : ShardSync Key) (i : PassInput Ts) : ShardSync Key :=
  match s.actor.shardPending, i.tipHeight with
  | m :: ms, some tip =>
    if !s.client then s
    else
      match i.treeState m.prior with
      | .error _ => { s with client := false }
      | .ok ts =>
        match fromTreestate ts tip with
        | .error e =>
          let why := "could not derive an account birthday from the tree state at " ++
            toString m.prior ++ ": " ++ e
          { s with actor := s.actor.dropPending m ms why }
        | .ok _ =>
          match importMember cfg s.db m i.uuid with
          | .ok db =>
            { s with
              db
              actor := { s.actor with
                shardAccounts := (m.name, i.uuid) ::
                  s.actor.shardAccounts.filter fun e => e.1 != m.name
                shardPending := ms } }
          | .error why => { s with actor := s.actor.dropPending m ms why }
  | _, _ => s

/-- The sync pass of a shard: connect, import the head of the queue, then scan. -/
def syncStep (s : ShardSync Key) (i : PassInput Ts) : ShardSync Key × Except String Bool :=
  if !s.client && !i.connects then (s, .error "connecting to the upstream failed")
  else
    let s := importPendingShardMembers cfg fromTreestate { s with client := true } i
    if s.actor.shardAccounts.isEmpty then (s, .ok false)
    else if !s.client then (s, .error "not connected")
    else ({ s with scanned := s.scanned ++ [s.db] }, i.batch)

/-- A pass of the main loop: a failed one disconnects. -/
def shardPass (s : ShardSync Key) (i : PassInput Ts) : ShardSync Key :=
  match syncStep cfg fromTreestate s i with
  | (s', .ok _) => s'
  | (s', .error _) => { s' with client := false }

/-! ### What is asked of a pass -/

/-- The pass keeps its connection and scans for the members imported so far. -/
def KeepsScanning (s : ShardSync Key) (i : PassInput Ts) : Prop :=
  (syncStep cfg fromTreestate s i).1.client = true ∧
  (s.actor.shardAccounts ≠ [] →
    (∀ a ∈ s.db.accounts, a ∈ (syncStep cfg fromTreestate s i).1.db.accounts) ∧
    (syncStep cfg fromTreestate s i).1.scanned =
      s.scanned ++ [(syncStep cfg fromTreestate s i).1.db] ∧
    (syncStep cfg fromTreestate s i).2 = i.batch)

/-- The upstream serves every height up to its tip and answers an error above it, the actor
knows a tip, and an import draws an identifier of its own. -/
structure Answering (s : ShardSync Key) (i : PassInput Ts) : Prop where
  connects : i.connects = true
  tipHeight : i.tipHeight.isSome
  serves : ∀ h ≤ i.upstreamTip, ∃ ts, i.treeState h = .ok ts ∧ ∀ tip, fromTreestate ts tip = .ok ()
  refuses : ∀ h, i.upstreamTip < h → ∃ e, i.treeState h = .error e
  uuid : ∀ a ∈ s.db.accounts, a.uuid ≠ i.uuid

/-- The database takes the `k`-th pending member's key: nothing it holds and no member ahead has
that key. -/
structure Accepted (s : ShardSync Key) (k : ℕ) (m : ShardMember) (key : Key) : Prop where
  pending : s.actor.shardPending[k]? = some m
  decodes : keyOf cfg m = some key
  free : ∀ a ∈ s.db.accounts, a.ufvk ≠ key
  ahead : ∀ m' ∈ s.actor.shardPending.take k, keyOf cfg m' ≠ some key

/-- Every pending member whose birthday is at most a block above the tip of each pass, and whose
key the database takes, ends as one account under its name. -/
def ImportsAll [DecidableEq Key] (s : ShardSync Key) (ins : List (PassInput Ts)) : Prop :=
  ∀ k m key, Accepted cfg s k m key → (∀ i ∈ ins, m.birthday ≤ i.upstreamTip + 1) →
    ((run (shardPass cfg fromTreestate) s ins).db.accounts.filter fun a => a.ufvk = key).map
      ShardAccount.name = [m.name]

end Pass

variable {cfg : FleetConfig Key} {fromTreestate : Ts → ℕ → Except String Unit}
  {s : ShardSync Key} {i : PassInput Ts} {ins : List (PassInput Ts)} {m : ShardMember}
  {ms : List ShardMember}

/-! ### One pass -/

variable (cfg) in
/-- What the import step makes of the head of the queue: above the tip it costs the connection,
otherwise the member leaves the queue, as an account or with the reason it was refused. -/
theorem importPending_cases (hs : s.actor.shardPending = m :: ms) (hclient : s.client = true)
    (hi : Answering fromTreestate s i) :
    (i.upstreamTip < m.prior ∧
      importPendingShardMembers cfg fromTreestate s i = { s with client := false }) ∨
    (m.prior ≤ i.upstreamTip ∧
      ((∃ why, importMember cfg s.db m i.uuid = .error why ∧
          importPendingShardMembers cfg fromTreestate s i =
            { s with actor := s.actor.dropPending m ms why }) ∨
        ∃ db, importMember cfg s.db m i.uuid = .ok db ∧
          importPendingShardMembers cfg fromTreestate s i =
            { s with
              db
              actor := { s.actor with
                shardAccounts := (m.name, i.uuid) ::
                  s.actor.shardAccounts.filter fun e => e.1 != m.name
                shardPending := ms } })) := by
  obtain ⟨tip, htip⟩ := Option.isSome_iff_exists.mp hi.tipHeight
  simp only [importPendingShardMembers, hs, htip, hclient, Bool.not_true, Bool.false_eq_true,
    if_false]
  rcases Nat.lt_or_ge i.upstreamTip m.prior with habove | hbelow
  · obtain ⟨e, he⟩ := hi.refuses m.prior habove
    rw [he]
    exact .inl ⟨habove, rfl⟩
  · obtain ⟨ts, hts, hbirthday⟩ := hi.serves m.prior hbelow
    rw [hts]
    simp only [hbirthday tip]
    refine .inr ⟨hbelow, ?_⟩
    cases himport : importMember cfg s.db m i.uuid with
    | error why => exact .inl ⟨why, rfl, rfl⟩
    | ok db => exact .inr ⟨db, rfl, rfl⟩

/-- The database once a member's turn has come. -/
def importedDb (cfg : FleetConfig Key) (db : ShardDb Key) (m : ShardMember) (uuid : AccountUuid) :
    ShardDb Key :=
  match importMember cfg db m uuid with
  | .ok db' => db'
  | .error _ => db

theorem Answering.connected (hi : Answering fromTreestate s i) :
    Answering fromTreestate { s with client := true } i :=
  ⟨hi.connects, hi.tipHeight, hi.serves, hi.refuses, hi.uuid⟩

theorem syncStep_connects (hi : Answering fromTreestate s i) :
    syncStep cfg fromTreestate s i =
      (let s := importPendingShardMembers cfg fromTreestate { s with client := true } i
       if s.actor.shardAccounts.isEmpty then (s, .ok false)
       else if !s.client then (s, .error "not connected")
       else ({ s with scanned := s.scanned ++ [s.db] }, i.batch)) := by
  rw [syncStep, if_neg (by rw [hi.connects]; simp)]

variable (cfg fromTreestate) in
theorem shardPass_kept (s : ShardSync Key) (i : PassInput Ts) :
    (shardPass cfg fromTreestate s i).actor = (syncStep cfg fromTreestate s i).1.actor ∧
      (shardPass cfg fromTreestate s i).db = (syncStep cfg fromTreestate s i).1.db := by
  unfold shardPass
  split
  · next h => rw [h]; exact ⟨rfl, rfl⟩
  · next h => rw [h]; exact ⟨rfl, rfl⟩

theorem importedDb_subset {db : ShardDb Key} {uuid : AccountUuid} :
    ∀ a ∈ db.accounts, a ∈ (importedDb cfg db m uuid).accounts := by
  intro a ha
  unfold importedDb
  split
  · next db' h =>
    obtain ⟨key, -, h⟩ := importMember_cases h
    rw [cfg.appends h]
    exact List.mem_append_left _ ha
  · exact ha

theorem syncStep_of_imported {s' : ShardSync Key} (hi : Answering fromTreestate s i)
    (himport : importPendingShardMembers cfg fromTreestate { s with client := true } i = s')
    (hclient : s'.client = true) (hscanned : s'.scanned = s.scanned)
    (haccounts : s.actor.shardAccounts ≠ [] → s'.actor.shardAccounts ≠ [])
    (hdb : ∀ a ∈ s.db.accounts, a ∈ s'.db.accounts) :
    KeepsScanning cfg fromTreestate s i ∧
      (syncStep cfg fromTreestate s i).1.actor = s'.actor ∧
      (syncStep cfg fromTreestate s i).1.db = s'.db := by
  simp only [KeepsScanning, syncStep_connects hi, himport, hclient, Bool.not_true,
    Bool.false_eq_true, if_false]
  by_cases hempty : s'.actor.shardAccounts.isEmpty = true
  · have hnone : s.actor.shardAccounts = [] := by
      by_contra hsome
      exact haccounts hsome (List.isEmpty_iff.mp hempty)
    rw [if_pos hempty]
    exact ⟨⟨hclient, fun hsome => absurd hnone hsome⟩, rfl, rfl⟩
  · rw [if_neg hempty]
    exact ⟨⟨rfl, fun _ => ⟨hdb, by rw [hscanned], rfl⟩⟩, rfl, rfl⟩

variable (cfg) in
/-- A pass serves the shard exactly when the head's tree state is at or below the tip; then the
head has left the queue. -/
theorem shardPass_cases (hs : s.actor.shardPending = m :: ms) (hi : Answering fromTreestate s i) :
    (i.upstreamTip < m.prior ∧ ¬ KeepsScanning cfg fromTreestate s i) ∨
    (m.prior ≤ i.upstreamTip ∧ KeepsScanning cfg fromTreestate s i ∧
      (shardPass cfg fromTreestate s i).actor.shardPending = ms ∧
      (shardPass cfg fromTreestate s i).db = importedDb cfg s.db m i.uuid) := by
  obtain ⟨hactor, hdb⟩ := shardPass_kept cfg fromTreestate s i
  rcases importPending_cases cfg (s := { s with client := true }) hs rfl hi.connected with
    ⟨habove, h⟩ | ⟨hbelow, ⟨why, himport, h⟩ | ⟨db, himport, h⟩⟩
  · refine .inl ⟨habove, fun hkeeps => ?_⟩
    have hclient := hkeeps.1
    rw [syncStep_connects hi, h] at hclient
    simp only [Bool.not_false, if_true] at hclient
    split at hclient <;> cases hclient
  · obtain ⟨hkeeps, hactor', hdb'⟩ :=
      syncStep_of_imported hi h rfl rfl (fun hsome => hsome) fun a ha => ha
    refine .inr ⟨hbelow, hkeeps, ?_, ?_⟩
    · rw [hactor, hactor']
      rfl
    · rw [hdb, hdb', importedDb, himport]
  · have hsub : ∀ a ∈ s.db.accounts, a ∈ db.accounts := by
      have heq : importedDb cfg s.db m i.uuid = db := by rw [importedDb, himport]
      rw [← heq]
      exact importedDb_subset
    obtain ⟨hkeeps, hactor', hdb'⟩ :=
      syncStep_of_imported hi h rfl rfl (fun _ => List.cons_ne_nil _ _) hsub
    refine .inr ⟨hbelow, hkeeps, ?_, ?_⟩
    · rw [hactor, hactor']
    · rw [hdb, hdb', importedDb, himport]

variable (cfg) in
theorem shardPass_of_nil (hs : s.actor.shardPending = []) (hi : Answering fromTreestate s i) :
    KeepsScanning cfg fromTreestate s i ∧
      (shardPass cfg fromTreestate s i).actor.shardPending = [] := by
  have himport : importPendingShardMembers cfg fromTreestate { s with client := true } i =
      { s with client := true } := by
    simp only [importPendingShardMembers, hs]
  obtain ⟨hkeeps, hactor, -⟩ :=
    syncStep_of_imported hi himport rfl rfl (fun hsome => hsome) fun a ha => ha
  refine ⟨hkeeps, ?_⟩
  rw [(shardPass_kept cfg fromTreestate s i).1, hactor]
  exact hs

/-- What the import step does to the queue, the accounts and the database is one import pass of
the shard's actor as the manager sees it. -/
theorem importPending_refines (s : ShardSync Key) (i : PassInput Ts)
    {dirs : List (ShardDir Key)} {rs : ShardRuntime} (hactor : rs.actor = s.actor)
    (hdb : dbAt dirs rs.dir = some s.db) :
    ∃ pass, (importPendingShardMember cfg dirs rs pass).2.actor =
        (importPendingShardMembers cfg fromTreestate s i).actor ∧
      dbAt (importPendingShardMember cfg dirs rs pass).1 rs.dir =
        some (importPendingShardMembers cfg fromTreestate s i).db := by
  have hwaits : (importPendingShardMember cfg dirs rs .waits) = (dirs, rs) := by
    unfold importPendingShardMember
    split <;> rfl
  unfold importPendingShardMembers
  split
  · next m ms tip hs htip =>
    split
    · exact ⟨.waits, by rw [hwaits]; exact ⟨hactor, hdb⟩⟩
    · split
      · exact ⟨.waits, by rw [hwaits]; exact ⟨hactor, hdb⟩⟩
      · split
        · next e _ =>
          refine ⟨.refused ("could not derive an account birthday from the tree state at " ++
            toString m.prior ++ ": " ++ e), ?_⟩
          simp only [importPendingShardMember, hactor, hs]
          exact ⟨trivial, hdb⟩
        · refine ⟨.imports i.uuid, ?_⟩
          simp only [importPendingShardMember, hactor, hs, hdb]
          split
          · next why himport => simp only [himport, hdb, and_self]
          · next db himport =>
            simp only [himport, true_and]
            exact dbAt_setDb_self (dirExists_of_dbAt hdb)
  · exact ⟨.waits, by rw [hwaits]; exact ⟨hactor, hdb⟩⟩

/-! ### Every run of passes -/

/-- The tree state that the `k`-th member needs is at or below the tip that the `k`-th pass
meets. -/
def WithinTips (ms : List ShardMember) (ins : List (PassInput Ts)) : Prop :=
  ∀ p ∈ ms.zip ins, p.1.prior ≤ p.2.upstreamTip

theorem along_keepsScanning_iff (hs : s.actor.shardPending = ms)
    (hans : Along (shardPass cfg fromTreestate) (Answering fromTreestate) s ins) :
    Along (shardPass cfg fromTreestate) (KeepsScanning cfg fromTreestate) s ins ↔
      WithinTips ms ins := by
  induction ins generalizing s ms with
  | nil => simp [WithinTips]
  | cons i ins ih =>
    rw [along_cons]
    cases ms with
    | nil =>
      obtain ⟨hkeeps, hrest⟩ := shardPass_of_nil cfg hs hans.1
      have hnil : WithinTips [] ins := fun p hp => absurd hp (by simp)
      exact iff_of_true ⟨hkeeps, (ih hrest hans.2).mpr hnil⟩ fun p hp => absurd hp (by simp)
    | cons m ms =>
      rw [WithinTips, List.zip_cons_cons, List.forall_mem_cons]
      rcases shardPass_cases cfg hs hans.1 with ⟨habove, hno⟩ | ⟨hbelow, hkeeps, hrest, -⟩
      · exact iff_of_false (fun h => hno h.1) fun h => absurd h.1 (not_le.mpr habove)
      · exact and_congr (iff_of_true hkeeps hbelow) (ih hrest hans.2)

variable (cfg fromTreestate) in
theorem importPending_db (s : ShardSync Key) (i : PassInput Ts) :
    (importPendingShardMembers cfg fromTreestate s i).db = s.db ∨
      ∃ m, (importPendingShardMembers cfg fromTreestate s i).db =
        importedDb cfg s.db m i.uuid := by
  unfold importPendingShardMembers
  split
  · next m ms tip hs htip =>
    split
    · exact .inl rfl
    · split
      · exact .inl rfl
      · split
        · exact .inl rfl
        · split
          · next db himport => exact .inr ⟨m, by rw [importedDb, himport]⟩
          · exact .inl rfl
  · exact .inl rfl

theorem shardPass_db_subset (s : ShardSync Key) (i : PassInput Ts) :
    ∀ a ∈ s.db.accounts, a ∈ (shardPass cfg fromTreestate s i).db.accounts := by
  rw [(shardPass_kept cfg fromTreestate s i).2]
  have hstep : (syncStep cfg fromTreestate s i).1.db = s.db ∨
      (syncStep cfg fromTreestate s i).1.db =
        (importPendingShardMembers cfg fromTreestate { s with client := true } i).db := by
    simp only [syncStep]
    split
    · exact .inl rfl
    · split
      · exact .inr rfl
      · split <;> exact .inr rfl
  intro a ha
  rcases hstep with h | h
  · rwa [h]
  · rw [h]
    rcases importPending_db cfg fromTreestate
      { s with client := true } i with h | ⟨m, h⟩
    · rwa [h]
    · rw [h]
      exact importedDb_subset a ha

theorem run_db_subset (s : ShardSync Key) (ins : List (PassInput Ts)) :
    ∀ a ∈ s.db.accounts, a ∈ (run (shardPass cfg fromTreestate) s ins).db.accounts :=
  invariant (P := fun _ _ => True)
    (I := fun s' : ShardSync Key => ∀ a ∈ s.db.accounts, a ∈ s'.db.accounts)
    (fun s' i h _ a ha => shardPass_db_subset s' i a (h a ha)) (fun _ ha => ha)
    (along_of_always fun _ _ => trivial)

theorem key_of_mem_importedDb {db : ShardDb Key} {uuid : AccountUuid} {a : ShardAccount Key}
    (ha : a ∈ (importedDb cfg db m uuid).accounts) :
    a ∈ db.accounts ∨ keyOf cfg m = some a.ufvk := by
  unfold importedDb at ha
  split at ha
  · next db' h =>
    obtain ⟨key, hkey, h⟩ := importMember_cases h
    rw [cfg.appends h] at ha
    rcases List.mem_append.mp ha with ha | ha
    · exact .inl ha
    · rw [List.mem_singleton.mp ha]
      exact .inr hkey
  · exact .inl ha

theorem mem_importedDb {db : ShardDb Key} {uuid : AccountUuid} {key : Key}
    (hkey : keyOf cfg m = some key) (hfree : ∀ a ∈ db.accounts, a.ufvk ≠ key)
    (huuid : ∀ a ∈ db.accounts, a.uuid ≠ uuid) :
    ⟨uuid, m.name, key, m.birthday⟩ ∈ (importedDb cfg db m uuid).accounts := by
  have hsome : (keyOf cfg m).isSome := by rw [hkey]; rfl
  obtain ⟨key', hdecode⟩ := decodeUfvk_isOk hsome
  obtain rfl : key' = key := Option.some.inj ((keyOf_eq_some hdecode).symm.trans hkey)
  have himport : (cfg.importAccountUfvk db ⟨uuid, m.name, key', m.birthday⟩).isSome :=
    cfg.takes huuid hfree
  obtain ⟨db', hdb'⟩ := Option.isSome_iff_exists.mp himport
  have hmember : importMember cfg db m uuid = .ok db' := by
    simp only [importMember, hdecode, hdb']
  rw [importedDb, hmember]
  simp only [cfg.appends hdb', List.mem_append, List.mem_singleton, or_true]

theorem imported_of_withinTips {k : ℕ} {key : Key} (hlen : s.actor.shardPending.length ≤ ins.length)
    (hans : Along (shardPass cfg fromTreestate) (Answering fromTreestate) s ins)
    (hw : WithinTips s.actor.shardPending ins) (hacc : Accepted cfg s k m key) :
    ∃ a ∈ (run (shardPass cfg fromTreestate) s ins).db.accounts,
      a.ufvk = key ∧ a.name = m.name := by
  have hpending := hacc.pending
  induction ins generalizing s k with
  | nil =>
    rw [List.length_eq_zero_iff.mp (Nat.le_zero.mp hlen)] at hpending
    cases hpending
  | cons i ins ih =>
    cases hs : s.actor.shardPending with
    | nil => rw [hs] at hpending; cases hpending
    | cons m₀ ms =>
      rw [hs] at hlen hw hpending
      rw [WithinTips, List.zip_cons_cons, List.forall_mem_cons] at hw
      rcases shardPass_cases cfg hs hans.1 with ⟨habove, -⟩ | ⟨-, -, hrest, hdb⟩
      · exact absurd hw.1 (not_le.mpr habove)
      cases k with
      | zero =>
        obtain rfl : m₀ = m := Option.some.inj hpending
        refine ⟨⟨i.uuid, m₀.name, key, m₀.birthday⟩, ?_, rfl, rfl⟩
        rw [run_cons]
        refine run_db_subset (shardPass cfg fromTreestate s i) ins _ ?_
        rw [hdb]
        exact mem_importedDb hacc.decodes hacc.free hans.1.uuid
      | succ k =>
        have hahead := hacc.ahead
        rw [hs, List.take_succ_cons, List.forall_mem_cons] at hahead
        have hacc' : Accepted cfg (shardPass cfg fromTreestate s i) k m key := by
          refine ⟨by rw [hrest]; exact hpending, hacc.decodes, ?_, by rw [hrest]; exact hahead.2⟩
          intro a ha
          rw [hdb] at ha
          rcases key_of_mem_importedDb ha with ha | hkey
          · exact hacc.free a ha
          · rintro rfl
            exact hahead.1 hkey
        refine ih ?_ hans.2 ?_ hacc' hacc'.pending
        · rw [hrest]
          exact Nat.le_of_succ_le_succ hlen
        · rw [hrest]
          exact hw.2

/-- However many passes run, the shard keeps scanning in each, and every member whose birthday
and key allow it is imported once after as many passes as there are members, exactly when each
member's tree state is at or below the tip that its own pass meets. -/
theorem onboarding_iff [DecidableEq Key] (cfg : FleetConfig Key)
    (fromTreestate : Ts → ℕ → Except String Unit) (s : ShardSync Key) (ins : List (PassInput Ts))
    (hans : Along (shardPass cfg fromTreestate) (Answering fromTreestate) s ins) :
    Along (shardPass cfg fromTreestate) (KeepsScanning cfg fromTreestate) s ins ∧
      (s.actor.shardPending.length ≤ ins.length → ImportsAll cfg fromTreestate s ins) ↔
        WithinTips s.actor.shardPending ins := by
  rw [along_keepsScanning_iff rfl hans]
  refine and_iff_left_of_imp fun hw hlen k m key hacc _ => ?_
  obtain ⟨a, ha, rfl, hname⟩ := imported_of_withinTips hlen hans hw hacc
  have hp : ∀ x : ShardAccount Key, decide (x.ufvk = a.ufvk) = true ↔ x.ufvk = a.ufvk :=
    fun _ => decide_eq_true_iff
  have hnodup := (run (shardPass cfg fromTreestate) s ins).db.ufvks_nodup
  rw [Keyed.filter_eq_find? hnodup hp, Keyed.find?_eq_some hnodup hp ha rfl, ← hname]
  rfl

/-- A shard that scans for one wallet, with two more queued: the first is born far above the
chain. -/
def stalledShard : ShardSync String where
  actor := ⟨[("acct-a", 7)], [⟨"acct-b", "uviewB", 1000⟩, ⟨"acct-c", "uviewC", 50⟩], []⟩
  db := ⟨[⟨7, "acct-a", "uviewA", 10⟩], List.nodup_singleton _, List.nodup_singleton _⟩
  client := true
  scanned := []

/-- A pass over an upstream that has tree states up to the given tip. -/
def passAt (upstreamTip uuid : ℕ) : PassInput ℕ where
  connects := true
  tipHeight := some upstreamTip
  upstreamTip
  treeState h := if h ≤ upstreamTip then .ok h else .error "no tree state at this height"
  uuid
  batch := .ok true

/-- A tree state always yields a birthday. -/
def anyBirthday (_ _ : ℕ) : Except String Unit := .ok ()

theorem passAt_answers {s : ShardSync String} {upstreamTip uuid : ℕ}
    (huuid : ∀ a ∈ s.db.accounts, a.uuid ≠ uuid) :
    Answering anyBirthday s (passAt upstreamTip uuid) where
  connects := rfl
  tipHeight := rfl
  serves h hh := ⟨h, if_pos hh, fun _ => rfl⟩
  refuses _ hh := ⟨_, if_neg (not_le.mpr hh)⟩
  uuid := huuid

/-- The wallet already in the shard is scanned in no pass, and the wallet behind the head waits
for ever. -/
theorem stalledShard_stalls :
    Along (shardPass uviewFleet anyBirthday) (Answering anyBirthday) stalledShard
        [passAt 100 8, passAt 100 9] ∧
      ¬ Along (shardPass uviewFleet anyBirthday) (KeepsScanning uviewFleet anyBirthday) stalledShard
        [passAt 100 8, passAt 100 9] ∧
      ¬ ImportsAll uviewFleet anyBirthday stalledShard [passAt 100 8, passAt 100 9] ∧
      (run (shardPass uviewFleet anyBirthday) stalledShard
        [passAt 100 8, passAt 100 9]).scanned = [] := by
  refine ⟨⟨passAt_answers (by decide), passAt_answers (by decide), trivial⟩, ?_, ?_, rfl⟩
  · intro h
    cases h.1.1
  · intro h
    have himported := h 1 ⟨"acct-c", "uviewC", 50⟩ "uviewC"
      ⟨rfl, rfl, by decide, by decide⟩ (by decide)
    revert himported
    decide

theorem stalledShard_onboards :
    Along (shardPass uviewFleet anyBirthday) (KeepsScanning uviewFleet anyBirthday) stalledShard
        [passAt 2000 8, passAt 2000 9] ∧
      ([passAt 2000 8, passAt 2000 9].length ≥ 2 →
        ImportsAll uviewFleet anyBirthday stalledShard [passAt 2000 8, passAt 2000 9]) :=
  (onboarding_iff uviewFleet anyBirthday stalledShard [passAt 2000 8, passAt 2000 9]
    ⟨passAt_answers (by decide), passAt_answers (by decide), trivial⟩).mpr
      (by unfold WithinTips; decide)

end Zecd.Fleet
