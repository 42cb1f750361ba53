import Zecd.Fleet.Queues
import Zecd.Foundation.Checked

/-! # What placement owes an arrival

A member belongs in the newest shard that has room and whose cohort reaches down to its
birthday, and in a fresh shard if there is none. The code forms the height that a cohort reaches
to in 32 bits. Placement is exact for as long as no such sum leaves them.
-/

namespace Zecd.Fleet

variable {Key : Type} (cfg : FleetConfig Key)

/-! ## The rule -/

/-- The shard at this index has the property, and no later shard has it. -/
structure NewestWith (p : ShardState → Prop) (shards : List ShardState) (i : ℕ)
    (s : ShardState) : Prop where
  at_index : shards[i]? = some s
  holds : p s
  newest : ∀ j s', i < j → shards[j]? = some s' → ¬ p s'

/-- The newest shard that takes the birthday, or one past the last if none does. -/
def Assigned (shards : List ShardState) (height i : ℕ) : Prop :=
  (∃ s, NewestWith (·.Takes cfg height) shards i s) ∨
    i = shards.length ∧ ∀ s ∈ shards, ¬ s.Takes cfg height

/-- What the shards hold once a birthday is imported. An index past the last is a fresh shard. -/
def importInto (shards : List ShardState) (i height : ℕ) : List ShardState :=
  if i < shards.length then shards.modify i (·.add height)
  else shards ++ [emptyShard.add height]

/-- Each member in order is assigned by the rule, counting the members before it. -/
def PlacedExactly : List ShardState → List ShardMember → List ℕ → Prop
  | _, [], is => is = []
  | _, _ :: _, [] => False
  | shards, m :: ms, i :: is =>
    Assigned cfg shards m.birthday i ∧ PlacedExactly (importInto shards i m.birthday) ms is

def accountsOf (shards : List ShardState) (i : ℕ) : ℕ :=
  (shards[i]?.map ShardState.accounts).getD 0

/-! ## Checked placement -/

/-- The cohort test, with a checked sum. A full or an empty shard is told without one. -/
def ShardState.acceptsChecked (s : ShardState) (height : ℕ) : Option Bool :=
  if s.accounts < cfg.shardSize then
    match s.lowestBirthday with
    | none => some true
    | some lowest =>
      (Checked.fit (· < 2 ^ 32) (height + cfg.cohortDepth)).map fun reach => decide (lowest ≤ reach)
  else some false

def placementTargetChecked (shards : List ShardState) (height : ℕ) : Option (Option ℕ) :=
  (List.range shards.length).reverse.findM? fun i =>
    (shards[i]?.map (·.acceptsChecked cfg height)).getD (some false)

/-- The placement loop, `none` where one of its steps overflows. -/
def placeMembersChecked : List ShardState → List ShardMember → Option (List ℕ)
  | _, [] => some []
  | shards, m :: ms => do
    let i := (← placementTargetChecked cfg shards m.birthday).getD shards.length
    let _ ← Checked.fit (· < 2 ^ 64) (accountsOf shards i + 1)
    return i :: (← placeMembersChecked (importInto shards i m.birthday) ms)

/-- Placement overflows nowhere and follows the rule. So a shard is filled up to `shard_size`
at most, and new shards are opened one after the other. -/
structure PlacedRight (existing : List ShardState) (members : List ShardMember) : Prop where
  no_overflow : placeMembersChecked cfg existing members =
    some (placeMembers cfg existing members)
  exact : PlacedExactly cfg existing members (placeMembers cfg existing members)
  sealed : ∀ i, accountsOf existing i + (placeMembers cfg existing members).count i ≤
    max (accountsOf existing i) cfg.shardSize
  consecutive : ∀ i ∈ placeMembers cfg existing members, ∀ j, existing.length ≤ j → j ≤ i →
    j ∈ placeMembers cfg existing members

/-! ## When the sums fit -/

/-- The cohort of this birthday reaches to a 32-bit height, or no cohort is asked: no shard has
room, or the newest that has is empty. -/
def SumFits (shards : List ShardState) (height : ℕ) : Prop :=
  height + cfg.cohortDepth < 2 ^ 32 ∨
    ∀ i s, NewestWith (·.accounts < cfg.shardSize) shards i s → s.lowestBirthday = none

def assignedTo (shards : List ShardState) (height : ℕ) : ℕ :=
  ((List.range shards.length).reverse.find? fun i =>
    shards[i]?.any fun s => decide (s.Takes cfg height)).getD shards.length

/-- The sum fits at each member's turn, with the members before it where the rule puts them. -/
def SumsFit : List ShardState → List ShardMember → Prop
  | _, [] => True
  | shards, m :: ms => SumFits cfg shards m.birthday ∧
      SumsFit (importInto shards (assignedTo cfg shards m.birthday) m.birthday) ms

variable {cfg} {shards existing : List ShardState} {height i j : ℕ} {s : ShardState}
  {members : List ShardMember} {is : List ℕ}

/-! ## Searching from the newest -/

theorem find?_range_reverse {n : ℕ} {q : ℕ → Bool} :
    (List.range n).reverse.find? q = some i ↔
      i < n ∧ q i = true ∧ ∀ j, i < j → j < n → q j = false := by
  induction n with
  | zero => simp
  | succ n ih =>
    rw [List.range_succ, List.reverse_append, List.reverse_singleton, List.singleton_append]
    cases hn : q n with
    | true =>
      rw [List.find?_cons_of_pos hn, Option.some_inj]
      constructor
      · rintro rfl
        exact ⟨Nat.lt_succ_self n, hn, by omega⟩
      · rintro ⟨hi, -, hlast⟩
        by_contra hne
        have hfalse := hlast n (by omega) (Nat.lt_succ_self n)
        rw [hn] at hfalse
        cases hfalse
    | false =>
      rw [List.find?_cons_of_neg (by simp [hn]), ih]
      constructor
      · rintro ⟨hi, hq, hlast⟩
        refine ⟨by omega, hq, fun j hij hj => ?_⟩
        rcases Nat.lt_succ_iff_lt_or_eq.mp hj with hlt | rfl
        · exact hlast j hij hlt
        · exact hn
      · rintro ⟨hi, hq, hlast⟩
        have hne : i ≠ n := by
          rintro rfl
          rw [hn] at hq
          cases hq
        exact ⟨by omega, hq, fun j hij hj => hlast j hij (by omega)⟩

section Search

variable {l : List ℕ} {p : ℕ → Option Bool} {q : ℕ → Bool} {a : ℕ}

theorem findM?_eq_find? (h : ∀ b, p b = some (q b)) : l.findM? p = some (l.find? q) := by
  rw [show p = fun b => pure (q b) from funext h]
  exact List.findM?_pure q l

theorem findM?_of_find? (hpass : ∀ b, q b = false → p b = some false)
    (hfind : l.find? q = some a) (hstop : p a ≠ some false) :
    l.findM? p = (p a).map fun _ => some a := by
  induction l with
  | nil => cases hfind
  | cons b l ih =>
    rw [List.findM?]
    cases hq : q b with
    | true =>
      rw [List.find?_cons_of_pos hq, Option.some_inj] at hfind
      subst hfind
      cases hp : p b with
      | none => rfl
      | some found =>
        cases found with
        | true => rfl
        | false => exact (hstop hp).elim
    | false =>
      rw [List.find?_cons_of_neg (by simp [hq])] at hfind
      rw [hpass b hq]
      exact ih hfind

theorem findM?_of_find?_eq_none (hpass : ∀ b, q b = false → p b = some false)
    (hfind : l.find? q = none) : l.findM? p = some none := by
  induction l with
  | nil => rfl
  | cons b l ih =>
    have hq : q b = false := by simpa using List.find?_eq_none.mp hfind b List.mem_cons_self
    rw [List.find?_cons_of_neg (by simp [hq])] at hfind
    rw [List.findM?, hpass b hq]
    exact ih hfind

end Search

theorem find?_newest {q : ShardState → Bool} :
    (List.range shards.length).reverse.find? (fun i => shards[i]?.any q) = some i ↔
      ∃ s, NewestWith (q · = true) shards i s := by
  rw [find?_range_reverse]
  constructor
  · rintro ⟨hi, hq, hlast⟩
    rw [List.getElem?_eq_getElem hi, Option.any_some] at hq
    refine ⟨shards[i], List.getElem?_eq_getElem hi, hq, fun j s' hij hs' => ?_⟩
    have hj := hlast j hij (List.getElem?_eq_some_iff.mp hs').1
    rw [hs', Option.any_some] at hj
    simp [hj]
  · rintro ⟨s, hs, hq, hnewest⟩
    refine ⟨(List.getElem?_eq_some_iff.mp hs).1, by rw [hs, Option.any_some, hq], ?_⟩
    intro j hij hj
    rw [List.getElem?_eq_getElem hj, Option.any_some]
    simpa using hnewest j shards[j] hij (List.getElem?_eq_getElem hj)

theorem find?_newest_decide {p : ShardState → Prop} [DecidablePred p] :
    (List.range shards.length).reverse.find? (fun i => shards[i]?.any fun s => decide (p s)) =
      some i ↔ ∃ s, NewestWith p shards i s := by
  rw [find?_newest]
  simp only [decide_eq_true_eq]

theorem find?_newest_eq_none {q : ShardState → Bool} :
    (List.range shards.length).reverse.find? (fun i => shards[i]?.any q) = none ↔
      ∀ s ∈ shards, q s = false := by
  rw [List.find?_eq_none]
  constructor
  · intro h s hs
    obtain ⟨i, hi, rfl⟩ := List.getElem_of_mem hs
    simpa [hi] using h i (by simpa using hi)
  · intro h i hi
    have hi' : i < shards.length := by simpa using hi
    simp [hi', h shards[i] (List.getElem_mem hi')]

namespace NewestWith

variable {p : ShardState → Prop} {s' : ShardState}

theorem lt_length (h : NewestWith p shards i s) : i < shards.length :=
  (List.getElem?_eq_some_iff.mp h.at_index).1

theorem index_unique (h : NewestWith p shards i s) (h' : NewestWith p shards j s') : i = j := by
  rcases Nat.lt_trichotomy i j with hlt | heq | hgt
  · exact (h.newest j s' hlt h'.at_index h'.holds).elim
  · exact heq
  · exact (h'.newest i s hgt h.at_index h.holds).elim

end NewestWith

theorem Assigned.unique (h : Assigned cfg shards height i) (h' : Assigned cfg shards height j) :
    i = j := by
  rcases h with ⟨s, hs⟩ | ⟨rfl, hnone⟩
  · rcases h' with ⟨s', hs'⟩ | ⟨rfl, hnone'⟩
    · exact hs.index_unique hs'
    · exact (hnone' s (List.mem_of_getElem? hs.at_index) hs.holds).elim
  · rcases h' with ⟨s', hs'⟩ | ⟨rfl, -⟩
    · exact (hnone s' (List.mem_of_getElem? hs'.at_index) hs'.holds).elim
    · rfl

variable (cfg shards height) in
theorem assigned_assignedTo : Assigned cfg shards height (assignedTo cfg shards height) := by
  unfold assignedTo
  cases hfind : (List.range shards.length).reverse.find? fun i =>
      shards[i]?.any fun s => decide (s.Takes cfg height) with
  | some i =>
    exact Or.inl (find?_newest_decide.mp hfind)
  | none =>
    have hnone := find?_newest_eq_none.mp hfind
    exact Or.inr ⟨rfl, fun s hs ht => by simpa [ht] using hnone s hs⟩

/-! ## One member -/

theorem accepts_eq_takes (hfits : height + cfg.cohortDepth < 2 ^ 32) (s : ShardState) :
    s.accepts cfg height = decide (s.Takes cfg height) := by
  rw [Bool.eq_iff_iff, decide_eq_true_iff]
  refine ⟨takes_of_accepts, fun h => ?_⟩
  rw [ShardState.accepts, Nat.mod_eq_of_lt hfits, Bool.and_eq_true, decide_eq_true_eq]
  refine ⟨h.size, ?_⟩
  cases hl : s.lowestBirthday with
  | none => rfl
  | some lowest => exact decide_eq_true (h.cohort lowest hl)

theorem acceptsChecked_of_fits (hfits : height + cfg.cohortDepth < 2 ^ 32) (s : ShardState) :
    s.acceptsChecked cfg height = some (s.accepts cfg height) := by
  have hsum : Checked.fit (· < 2 ^ 32) (height + cfg.cohortDepth) =
      some (height + cfg.cohortDepth) := if_pos hfits
  rw [ShardState.acceptsChecked, ShardState.accepts, hsum, Nat.mod_eq_of_lt hfits]
  by_cases hroom : s.accounts < cfg.shardSize
  · cases s.lowestBirthday with
    | none => simp [hroom]
    | some lowest => simp [hroom]
  · simp [hroom]

theorem acceptsChecked_of_full (hfull : ¬ s.accounts < cfg.shardSize) (height : ℕ) :
    s.acceptsChecked cfg height = some false := if_neg hfull

theorem accepts_of_full (hfull : ¬ s.accounts < cfg.shardSize) (height : ℕ) :
    s.accepts cfg height = false := by simp [ShardState.accepts, hfull]

theorem acceptsChecked_of_empty (hroom : s.accounts < cfg.shardSize)
    (hempty : s.lowestBirthday = none) (height : ℕ) :
    s.acceptsChecked cfg height = some true := by
  rw [ShardState.acceptsChecked, if_pos hroom, hempty]

theorem accepts_of_empty (hroom : s.accounts < cfg.shardSize)
    (hempty : s.lowestBirthday = none) (height : ℕ) : s.accepts cfg height = true := by
  simp [ShardState.accepts, hroom, hempty]

/-- Where a sum does not fit, a shard with room and accounts stops the search. -/
theorem acceptsChecked_of_overflow (hover : ¬ height + cfg.cohortDepth < 2 ^ 32)
    (hroom : s.accounts < cfg.shardSize) (hsome : s.lowestBirthday ≠ none) :
    s.acceptsChecked cfg height = none := by
  obtain ⟨lowest, hl⟩ := Option.ne_none_iff_exists'.mp hsome
  have hsum : Checked.fit (· < 2 ^ 32) (height + cfg.cohortDepth) = none := if_neg hover
  rw [ShardState.acceptsChecked, if_pos hroom, hl, hsum]
  rfl

theorem placementTarget_eq_some : placementTarget cfg shards height = some i ↔
    ∃ s, NewestWith (fun s => s.accepts cfg height = true) shards i s := find?_newest

theorem placementTarget_of_fits (hfits : height + cfg.cohortDepth < 2 ^ 32) :
    placementTargetChecked cfg shards height = some (placementTarget cfg shards height) ∧
      (placementTarget cfg shards height).getD shards.length = assignedTo cfg shards height := by
  constructor
  · refine findM?_eq_find? fun i => ?_
    cases shards[i]? with
    | none => rfl
    | some s => exact acceptsChecked_of_fits hfits s
  · rw [placementTarget, funext fun i => congrArg (shards[i]?.any ·)
      (funext (accepts_eq_takes hfits))]
    rfl

theorem checked_of_full (i : ℕ)
    (h : (shards[i]?.any fun s => decide (s.accounts < cfg.shardSize)) = false) :
    (shards[i]?.map (·.acceptsChecked cfg height)).getD (some false) = some false := by
  cases hs : shards[i]? with
  | none => rfl
  | some s =>
    rw [hs, Option.any_some, decide_eq_false_iff_not] at h
    exact acceptsChecked_of_full h height

/-- An empty shard takes any birthday, before a sum is formed. -/
theorem placementTarget_of_empty
    (h : NewestWith (·.accounts < cfg.shardSize) shards i s) (hempty : s.lowestBirthday = none) :
    placementTargetChecked cfg shards height = some (placementTarget cfg shards height) ∧
      Assigned cfg shards height ((placementTarget cfg shards height).getD shards.length) := by
  have htarget : placementTarget cfg shards height = some i :=
    placementTarget_eq_some.mpr ⟨s, h.at_index, accepts_of_empty h.holds hempty height,
      fun j s' hij hs' haccepts => h.newest j s' hij hs' (takes_of_accepts haccepts).size⟩
  have hfind : (List.range shards.length).reverse.find?
      (fun i => shards[i]?.any fun s => decide (s.accounts < cfg.shardSize)) = some i :=
    find?_newest_decide.mpr ⟨s, h⟩
  have hstop : (shards[i]?.map (·.acceptsChecked cfg height)).getD (some false) = some true := by
    rw [h.at_index]
    exact acceptsChecked_of_empty h.holds hempty height
  constructor
  · rw [placementTargetChecked, findM?_of_find? checked_of_full hfind (by rw [hstop]; simp), hstop,
      htarget]
    rfl
  · rw [htarget, Option.getD_some]
    refine Or.inl ⟨s, h.at_index, ⟨h.holds, fun lowest hl => ?_⟩, fun j s' hij hs' ht => ?_⟩
    · rw [hempty] at hl
      cases hl
    · exact h.newest j s' hij hs' ht.size

variable (height) in
theorem placementTarget_of_all_full (h : ∀ s ∈ shards, ¬ s.accounts < cfg.shardSize) :
    placementTargetChecked cfg shards height = some (placementTarget cfg shards height) ∧
      Assigned cfg shards height ((placementTarget cfg shards height).getD shards.length) := by
  have htarget : placementTarget cfg shards height = none :=
    find?_newest_eq_none.mpr fun s hs => accepts_of_full (h s hs) height
  have hfind : (List.range shards.length).reverse.find?
      (fun i => shards[i]?.any fun s => decide (s.accounts < cfg.shardSize)) = none :=
    find?_newest_eq_none.mpr fun s hs => decide_eq_false (h s hs)
  rw [htarget]
  exact ⟨findM?_of_find?_eq_none checked_of_full hfind,
    Or.inr ⟨rfl, fun s hs ht => h s hs ht.size⟩⟩

/-- While the sum fits, a member goes where the rule says, and nothing overflows. -/
theorem placementTarget_of_sumFits (h : SumFits cfg shards height) :
    placementTargetChecked cfg shards height = some (placementTarget cfg shards height) ∧
      (placementTarget cfg shards height).getD shards.length = assignedTo cfg shards height := by
  rcases h with hfits | hempty
  · exact placementTarget_of_fits hfits
  · cases hroom : (List.range shards.length).reverse.find?
        fun i => shards[i]?.any fun s => decide (s.accounts < cfg.shardSize) with
    | some i =>
      obtain ⟨s, hnew⟩ := find?_newest_decide.mp hroom
      obtain ⟨hchecked, hassigned⟩ := placementTarget_of_empty hnew (hempty i s hnew)
      exact ⟨hchecked, hassigned.unique (assigned_assignedTo cfg shards height)⟩
    | none =>
      have hfull : ∀ s ∈ shards, ¬ s.accounts < cfg.shardSize := fun s hs =>
        of_decide_eq_false (find?_newest_eq_none.mp hroom s hs)
      obtain ⟨hchecked, hassigned⟩ := placementTarget_of_all_full height hfull
      exact ⟨hchecked, hassigned.unique (assigned_assignedTo cfg shards height)⟩

theorem placementTargetChecked_eq_none (h : ¬ SumFits cfg shards height) :
    placementTargetChecked cfg shards height = none := by
  obtain ⟨hover, hsome⟩ := not_or.mp h
  push Not at hsome
  obtain ⟨i, s, hnew, hl⟩ := hsome
  have hfind : (List.range shards.length).reverse.find?
      (fun i => shards[i]?.any fun s => decide (s.accounts < cfg.shardSize)) = some i :=
    find?_newest_decide.mpr ⟨s, hnew⟩
  have hstop : (shards[i]?.map (·.acceptsChecked cfg height)).getD (some false) = none := by
    rw [hnew.at_index]
    exact acceptsChecked_of_overflow hover hnew.holds hl
  rw [placementTargetChecked, findM?_of_find? checked_of_full hfind (by rw [hstop]; simp), hstop]
  rfl

/-! ## Every member -/

theorem placeMembers_cons (m : ShardMember) (ms : List ShardMember) :
    placeMembers cfg shards (m :: ms) =
      let i := (placementTarget cfg shards m.birthday).getD shards.length
      i :: placeMembers cfg (importInto shards i m.birthday) ms := by
  rw [placeMembers]
  cases htarget : placementTarget cfg shards m.birthday with
  | some i =>
    obtain ⟨s, hs, -⟩ := accepts_of_placementTarget htarget
    have hi : i < shards.length := (List.getElem?_eq_some_iff.mp hs).1
    simp [importInto, hi]
  | none => simp [importInto, emptyShard]

theorem Assigned.accounts_lt (h : Assigned cfg shards height i) (hsize : 0 < cfg.shardSize) :
    accountsOf shards i < cfg.shardSize := by
  rcases h with ⟨s, hs⟩ | ⟨rfl, -⟩
  · rw [accountsOf, hs.at_index]
    exact hs.holds.size
  · rw [accountsOf, List.getElem?_eq_none le_rfl]
    exact hsize

/-- Placement overflows nowhere exactly if the sum fits at each member's turn. -/
theorem placeMembersChecked_iff (hsize : 0 < cfg.shardSize) (hmax : cfg.shardSize < 2 ^ 64) :
    placeMembersChecked cfg existing members = some (placeMembers cfg existing members) ↔
      SumsFit cfg existing members := by
  induction members generalizing existing with
  | nil => exact iff_of_true rfl trivial
  | cons m ms ih =>
    by_cases hfits : SumFits cfg existing m.birthday
    · obtain ⟨hchecked, hassigned⟩ := placementTarget_of_sumFits hfits
      have hcount := (assigned_assignedTo cfg existing m.birthday).accounts_lt hsize
      have hfit : Checked.fit (· < 2 ^ 64)
          (accountsOf existing (assignedTo cfg existing m.birthday) + 1) = some _ :=
        if_pos (by omega)
      rw [placeMembersChecked, hchecked, placeMembers_cons, SumsFit, and_iff_right hfits, ← ih]
      simp only [Option.bind_eq_bind, Option.bind_some, hassigned, hfit]
      cases placeMembersChecked cfg _ ms with
      | none => simp
      | some is => simp
    · rw [placeMembersChecked, placementTargetChecked_eq_none hfits, SumsFit]
      exact iff_of_false nofun fun h => hfits h.1

theorem placedExactly_of_sumsFit (h : SumsFit cfg existing members) :
    PlacedExactly cfg existing members (placeMembers cfg existing members) := by
  induction members generalizing existing with
  | nil => rfl
  | cons m ms ih =>
    obtain ⟨hfits, hrest⟩ := h
    rw [placeMembers_cons, (placementTarget_of_sumFits hfits).2]
    exact ⟨assigned_assignedTo cfg existing m.birthday, ih hrest⟩

/-! ## What follows from the rule -/

theorem length_importInto (hi : i ≤ shards.length) :
    (importInto shards i height).length = max shards.length (i + 1) := by
  unfold importInto
  split
  · rw [List.length_modify]
    omega
  · rw [List.length_append, List.length_singleton]
    omega

theorem accountsOf_importInto (hi : i ≤ shards.length) :
    accountsOf (importInto shards i height) j =
      accountsOf shards j + if j = i then 1 else 0 := by
  unfold importInto accountsOf
  split
  · next hlt =>
    by_cases hj : j = i
    · subst hj
      simp [List.getElem?_eq_getElem hlt, ShardState.add]
    · rw [List.getElem?_modify_ne _ _ (Ne.symm hj), if_neg hj, Nat.add_zero]
  · next hge =>
    have hlen : i = shards.length := by omega
    by_cases hj : j = i
    · subst hj
      simp [hlen, emptyShard, ShardState.add]
    · rw [if_neg hj, Nat.add_zero]
      rcases Nat.lt_or_ge j shards.length with hlt | hge'
      · rw [List.getElem?_append_left hlt]
      · rw [List.getElem?_eq_none hge', List.getElem?_eq_none (by
          rw [List.length_append, List.length_singleton]
          omega)]

theorem Assigned.le_length (h : Assigned cfg shards height i) : i ≤ shards.length := by
  rcases h with ⟨s, hs⟩ | ⟨rfl, -⟩
  · exact hs.lt_length.le
  · exact le_rfl

/-- No shard is filled past `shard_size`. -/
theorem PlacedExactly.sealed (h : PlacedExactly cfg existing members is)
    (hsize : 0 < cfg.shardSize) (j : ℕ) :
    accountsOf existing j + is.count j ≤ max (accountsOf existing j) cfg.shardSize := by
  induction members generalizing existing is with
  | nil =>
    subst h
    exact le_max_left _ _
  | cons m ms ih =>
    cases is with
    | nil => exact h.elim
    | cons i is =>
      obtain ⟨hassigned, hrest⟩ := h
      have hroom := hassigned.accounts_lt hsize
      have hle := ih hrest
      rw [accountsOf_importInto hassigned.le_length] at hle
      by_cases hj : j = i
      · subst hj
        rw [if_pos rfl] at hle
        rw [List.count_cons_self]
        omega
      · rw [if_neg hj, Nat.add_zero] at hle
        rwa [List.count_cons_of_ne (Ne.symm hj)]

/-- A new shard is opened one past the last. -/
theorem PlacedExactly.consecutive (h : PlacedExactly cfg existing members is) (hi : i ∈ is)
    (hj : existing.length ≤ j) (hji : j ≤ i) : j ∈ is := by
  induction members generalizing existing is with
  | nil =>
    subst h
    cases hi
  | cons m ms ih =>
    cases is with
    | nil => exact h.elim
    | cons k is =>
      obtain ⟨hassigned, hrest⟩ := h
      have hk := hassigned.le_length
      by_cases hjk : j = k
      · exact hjk ▸ List.mem_cons_self
      · rcases List.mem_cons.mp hi with rfl | hmem
        · omega
        · refine List.mem_cons_of_mem _ (ih hrest hmem ?_)
          rw [length_importInto hk]
          omega

/-- Placement is right exactly for as long as the sums fit. -/
theorem placedRight_iff (hsize : 0 < cfg.shardSize) (hmax : cfg.shardSize < 2 ^ 64) :
    PlacedRight cfg existing members ↔ SumsFit cfg existing members := by
  constructor
  · exact fun h => (placeMembersChecked_iff hsize hmax).mp h.no_overflow
  · intro h
    have hexact := placedExactly_of_sumsFit h
    exact ⟨(placeMembersChecked_iff hsize hmax).mpr h, hexact, hexact.sealed hsize,
      fun i hi j hj hji => hexact.consecutive hi hj hji⟩

/-- A cohort depth that asks never to split by birthday. -/
def neverSplit : FleetConfig String :=
  { uviewFleet with shardSize := 128, cohortDepth := 4294967295 }

def sameCohort : ShardMember := ⟨"alice", "uview1", 2000000⟩

/-- A wallet with the very birthday of the newest shard, which has room, gets a shard of its
own: the reach of its cohort wraps to a height below the birthday. -/
theorem neverSplit_splits :
    placeMembers neverSplit [⟨1, some 2000000⟩] [sameCohort] = [1] ∧
      placeMembersChecked neverSplit [⟨1, some 2000000⟩] [sameCohort] = none ∧
      Assigned neverSplit [⟨1, some 2000000⟩] sameCohort.birthday 0 ∧
      ¬ PlacedRight neverSplit [⟨1, some 2000000⟩] [sameCohort] := by
  have hplaced : placeMembers neverSplit [⟨1, some 2000000⟩] [sameCohort] = [1] := by decide
  have hrule : assignedTo neverSplit [⟨1, some 2000000⟩] sameCohort.birthday = 0 := by decide
  have hassigned : Assigned neverSplit [⟨1, some 2000000⟩] sameCohort.birthday 0 :=
    hrule ▸ assigned_assignedTo _ _ _
  refine ⟨hplaced, by decide, hassigned, fun h => ?_⟩
  have hexact := h.exact
  rw [hplaced] at hexact
  cases hassigned.unique hexact.1

/-- With the default depth, a batch is placed by the rule. -/
theorem batch_placedRight :
    (0 < neverSplit.shardSize ∧ neverSplit.shardSize < 2 ^ 64) ∧
      PlacedRight { neverSplit with cohortDepth := 10000 } [⟨1, some 2000000⟩]
        [sameCohort, sameCohort] := by
  refine ⟨by decide, (placedRight_iff (by decide) (by decide)).mpr ?_⟩
  exact ⟨Or.inl (by decide), Or.inl (by decide), trivial⟩

end Zecd.Fleet
