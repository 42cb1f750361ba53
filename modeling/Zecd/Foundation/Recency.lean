import Zecd.Foundation.Lru
import Zecd.Foundation.Runs
import Mathlib.Data.List.DropRight

/-! # What a bounded map still remembers

A history lists the calls on a map with what they answered. The keys inserted or read with
success since the last clear stand in the order of their last use, and a map that keeps the
`cap` most recently used entries holds the last `cap` of them: a key is held exactly while fewer
than `cap` other keys have been used since it was.
-/

namespace Zecd.Recency

open Runs

inductive Op (κ ν : Type*) where
  | get (k : κ)
  | insert (k : κ) (v : ν)
  | clear
  deriving DecidableEq, Repr

structure Call (κ ν : Type*) where
  op : Op κ ν
  answer : Option ν
  deriving DecidableEq, Repr

variable {κ ν : Type*}

def Call.touched (c : Call κ ν) : Option κ :=
  match c.op, c.answer with
  | .get k, some _ => some k
  | .insert k _, _ => some k
  | _, _ => none

variable [DecidableEq κ]

def Call.inserted (k : κ) (c : Call κ ν) : Option ν :=
  match c.op with
  | .insert k' v => if k' = k then some v else none
  | _ => none

def lastInsert (k : κ) (h : List (Call κ ν)) : Option ν := (h.filterMap (Call.inserted k)).getLast?

/-- `after` is what follows the last use of a key, which no clear follows. -/
def LastTouch (k : κ) (h after : List (Call κ ν)) : Prop :=
  ∃ before c, h = before ++ c :: after ∧ c.touched = some k ∧
    ∀ c' ∈ after, c'.touched ≠ some k ∧ c'.op ≠ .clear

/-- Fewer than `cap` distinct other keys have been used since the last use of a key, which no
clear follows. -/
def Recent (cap : ℕ) (k : κ) (h : List (Call κ ν)) : Prop :=
  ∃ after, LastTouch k h after ∧ (after.filterMap Call.touched).toFinset.card < cap

/-! ## The keys by their last use -/

def touch (keys : List κ) (k : κ) : List κ := keys.erase k ++ [k]

def recencyStep (keys : List κ) (c : Call κ ν) : List κ :=
  match c.op with
  | .clear => []
  | _ => (c.touched.map (touch keys)).getD keys

/-- The keys used since the last clear, in the order of their last use. -/
def recency (h : List (Call κ ν)) : List κ := h.foldl recencyStep []

variable {k x : κ} {v : ν} {c : Call κ ν} {h after : List (Call κ ν)} {keys : List κ}

@[simp] theorem recency_nil : recency ([] : List (Call κ ν)) = [] := rfl

@[simp] theorem recency_concat : recency (h ++ [c]) = recencyStep (recency h) c := by
  rw [recency, List.foldl_append]
  rfl

theorem nodup_touch (hkeys : keys.Nodup) : (touch keys k).Nodup := by
  refine List.nodup_append.mpr ⟨hkeys.erase k, List.nodup_singleton k, ?_⟩
  rintro x hx y hy rfl
  obtain rfl := List.mem_singleton.mp hy
  exact hkeys.not_mem_erase hx

theorem mem_touch : x ∈ touch keys k ↔ x = k ∨ x ∈ keys := by
  rw [touch, List.mem_append, List.mem_singleton]
  by_cases hx : x = k
  · exact iff_of_true (Or.inr hx) (Or.inl hx)
  · rw [List.mem_erase_of_ne hx, or_comm]

theorem nodup_recencyStep (hkeys : keys.Nodup) : (recencyStep keys c).Nodup := by
  unfold recencyStep
  split
  · exact List.nodup_nil
  · cases c.touched with
    | none => exact hkeys
    | some k => exact nodup_touch hkeys

theorem nodup_recency (h : List (Call κ ν)) : (recency h).Nodup := by
  induction h using List.reverseRecOn with
  | nil => exact List.nodup_nil
  | append_singleton h c ih =>
    rw [recency_concat]
    exact nodup_recencyStep ih

/-! ## The last use of a key -/

theorem recencyStep_of_touched (hc : c.touched = some k) :
    recencyStep keys c = touch keys k := by
  unfold recencyStep
  split
  · next hop =>
    rw [Call.touched, hop] at hc
    cases hc
  · rw [hc]
    rfl

theorem recencyStep_of_untouched (hc : c.touched = none) (hop : c.op ≠ .clear) :
    recencyStep keys c = keys := by
  unfold recencyStep
  split
  · next h => exact absurd h hop
  · rw [hc]
    rfl

omit [DecidableEq κ] in
theorem lastTouch_concat : LastTouch k (h ++ [c]) after ↔
    (c.touched = some k ∧ after = []) ∨ (c.touched ≠ some k ∧ c.op ≠ .clear) ∧
      ∃ after', after = after' ++ [c] ∧ LastTouch k h after' := by
  constructor
  · rintro ⟨before, c', heq, htouched, hafter⟩
    rcases List.eq_nil_or_concat after with rfl | ⟨after', last, rfl⟩
    · obtain ⟨-, rfl⟩ := List.append_singleton_inj.mp heq
      exact Or.inl ⟨htouched, rfl⟩
    · rw [List.concat_eq_append, ← List.cons_append, ← List.append_assoc] at heq
      obtain ⟨rfl, rfl⟩ := List.append_singleton_inj.mp heq
      refine Or.inr ⟨hafter c (by simp), after', by simp, before, c', rfl, htouched, ?_⟩
      exact fun x hx => hafter x (by simp [hx])
  · rintro (⟨htouched, rfl⟩ | ⟨hc, after', rfl, before, c', rfl, htouched, hafter⟩)
    · exact ⟨h, c, rfl, htouched, fun x hx => absurd hx List.not_mem_nil⟩
    · refine ⟨before, c', by simp, htouched, fun x hx => ?_⟩
      rcases List.mem_append.mp hx with hx | hx
      · exact hafter x hx
      · rw [List.mem_singleton.mp hx]
        exact hc

omit [DecidableEq κ] in
theorem not_lastTouch_nil : ¬ LastTouch k ([] : List (Call κ ν)) after := by
  rintro ⟨before, c, heq, -⟩
  exact List.append_ne_nil_of_right_ne_nil before (List.cons_ne_nil c after) heq.symm

theorem touch_split {pre post : List κ} (hnodup : (pre ++ k :: post).Nodup) (hx : x ≠ k) :
    touch (pre ++ k :: post) x = pre.erase x ++ k :: touch post x := by
  have hdisjoint := (List.nodup_append'.mp hnodup).2.2
  rw [touch, touch, List.erase_append]
  split
  · next hmem =>
    have hpost : x ∉ post := fun h => hdisjoint hmem (List.mem_cons_of_mem k h)
    rw [List.erase_of_not_mem hpost, List.append_assoc, List.cons_append]
  · next hmem =>
    rw [List.erase_of_not_mem hmem, List.erase_cons_tail (by simpa using hx.symm),
      List.append_assoc, List.cons_append]

theorem LastTouch.split (hk : LastTouch k h after) : ∃ pre post, recency h = pre ++ k :: post ∧
    ∀ x, x ∈ post ↔ x ∈ after.filterMap Call.touched := by
  induction h using List.reverseRecOn generalizing after with
  | nil => exact absurd hk not_lastTouch_nil
  | append_singleton h c ih =>
    rw [recency_concat]
    rcases lastTouch_concat.mp hk with ⟨htouched, rfl⟩ | ⟨⟨htouched, hop⟩, after', rfl, hprev⟩
    · exact ⟨_, [], recencyStep_of_touched htouched, fun x => by simp⟩
    · obtain ⟨pre, post, heq, hpost⟩ := ih hprev
      cases hc : c.touched with
      | none =>
        refine ⟨pre, post, (recencyStep_of_untouched hc hop).trans heq, fun x => ?_⟩
        rw [hpost, List.filterMap_append, List.filterMap_cons_none hc, List.filterMap_nil,
          List.append_nil]
      | some y =>
        have hy : y ≠ k := fun h => htouched (h ▸ hc)
        have hnodup := nodup_recency h
        rw [heq] at hnodup
        refine ⟨pre.erase y, touch post y, ?_, fun x => ?_⟩
        · rw [recencyStep_of_touched hc, heq, touch_split hnodup hy]
        · rw [mem_touch, hpost, List.filterMap_append, List.filterMap_cons_some hc,
            List.filterMap_nil, List.mem_append, List.mem_singleton, or_comm]

theorem exists_lastTouch (hk : k ∈ recency h) : ∃ after, LastTouch k h after := by
  induction h using List.reverseRecOn with
  | nil => cases hk
  | append_singleton h c ih =>
    rw [recency_concat] at hk
    by_cases hc : c.touched = some k
    · exact ⟨[], lastTouch_concat.mpr (Or.inl ⟨hc, rfl⟩)⟩
    · have hop : c.op ≠ .clear := by
        intro hop
        rw [recencyStep, hop] at hk
        cases hk
      have hmem : k ∈ recency h := by
        cases hx : c.touched with
        | none => rwa [recencyStep_of_untouched hx hop] at hk
        | some x =>
          rw [recencyStep_of_touched hx, mem_touch] at hk
          exact hk.resolve_left fun h => hc (h ▸ hx)
      obtain ⟨after, hafter⟩ := ih hmem
      exact ⟨after ++ [c], lastTouch_concat.mpr (Or.inr ⟨⟨hc, hop⟩, after, rfl, hafter⟩)⟩

/-! ## The last keys used -/

omit [DecidableEq κ] in
theorem mem_rtake_iff {cap : ℕ} {pre post : List κ} (hnodup : (pre ++ k :: post).Nodup) :
    k ∈ (pre ++ k :: post).rtake cap ↔ post.length < cap := by
  have hpost : k ∉ post := (List.nodup_cons.mp hnodup.of_append_right).1
  rw [List.rtake, List.length_append, List.length_cons]
  constructor
  · intro hmem
    by_contra hle
    have hdrop : pre.length + (post.length + 1) - cap =
        pre.length + ((post.length - cap) + 1) := by omega
    rw [hdrop, List.drop_length_add_append, List.drop_succ_cons] at hmem
    exact hpost (List.mem_of_mem_drop hmem)
  · intro hlt
    rw [List.drop_append_of_le_length (by omega)]
    exact List.mem_append_right _ List.mem_cons_self

theorem recent_iff {cap : ℕ} : Recent cap k h ↔ k ∈ (recency h).rtake cap := by
  have hcard {after : List (Call κ ν)} (hk : LastTouch k h after) :
      (after.filterMap Call.touched).toFinset.card < cap ↔ k ∈ (recency h).rtake cap := by
    obtain ⟨pre, post, heq, hpost⟩ := hk.split
    have hnodup := nodup_recency h
    rw [heq] at hnodup ⊢
    have hset : (after.filterMap Call.touched).toFinset = post.toFinset := by
      ext x
      rw [List.mem_toFinset, List.mem_toFinset, hpost]
    have hpostNodup : post.Nodup := (List.nodup_cons.mp hnodup.of_append_right).2
    rw [mem_rtake_iff hnodup, hset, List.toFinset_card_of_nodup hpostNodup]
  constructor
  · rintro ⟨after, hk, hlt⟩
    exact (hcard hk).mp hlt
  · intro hmem
    obtain ⟨after, hk⟩ := exists_lastTouch (List.mem_of_mem_drop hmem)
    exact ⟨after, hk, (hcard hk).mpr hmem⟩

instance {cap : ℕ} : Decidable (Recent cap k h) := decidable_of_iff _ recent_iff.symm

omit [DecidableEq κ] in
theorem rtake_append {cap : ℕ} {pre post : List κ} (hle : cap ≤ post.length) :
    (pre ++ post).rtake cap = post.rtake cap := by
  have hdrop : pre.length + post.length - cap = pre.length + (post.length - cap) := by omega
  rw [List.rtake, List.length_append, hdrop, List.drop_length_add_append, List.rtake]

omit [DecidableEq κ] in
theorem rtake_eq_self {cap : ℕ} (hle : keys.length ≤ cap) : keys.rtake cap = keys := by
  rw [List.rtake, Nat.sub_eq_zero_of_le hle, List.drop_zero]

theorem rtake_touch_append {cap : ℕ} {pre post : List κ} (hnodup : (pre ++ post).Nodup)
    (hlength : post.length = cap) (k : κ) :
    (touch post k).rtake cap = (touch (pre ++ post) k).rtake cap := by
  have hkept : cap ≤ (touch post k).length := by
    rw [touch, List.length_append, List.length_erase, List.length_singleton]
    split <;> omega
  -- the key is in one of the two parts at most
  by_cases hk : k ∈ pre
  · have hpost : k ∉ post := (List.nodup_append'.mp hnodup).2.2 hk
    rw [touch, List.erase_of_not_mem hpost] at hkept ⊢
    rw [touch, List.erase_append_left _ hk, List.append_assoc, rtake_append hkept]
  · rw [touch] at hkept ⊢
    rw [touch, List.erase_append_right _ hk, List.append_assoc, rtake_append hkept]

theorem rtake_touch {cap : ℕ} (hkeys : keys.Nodup) (k : κ) :
    (touch (keys.rtake cap) k).rtake cap = (touch keys k).rtake cap := by
  rcases Nat.le_total keys.length cap with hle | hle
  · rw [rtake_eq_self hle]
  · have hsplit : keys.take (keys.length - cap) ++ keys.rtake cap = keys :=
      List.take_append_drop _ _
    have hlength : (keys.rtake cap).length = cap := by
      rw [List.rtake, List.length_drop]
      omega
    rw [← hsplit] at hkeys
    rw [rtake_touch_append hkeys hlength, hsplit]

/-! ## A map that keeps the last keys used -/

/-- The calls of a run, with what they answer. -/
def history {σ : Type*} (perform : σ → Op κ ν → Option ν × σ) (s : σ) (ops : List (Op κ ν)) :
    List (Call κ ν) :=
  trace (fun s op => (perform s op).2) (fun s op => some ⟨op, (perform s op).1⟩) s ops

def perform (m : Lru κ ν) : Op κ ν → Option ν × Lru κ ν
  | .get k => m.get k
  | .insert k v => (none, m.insert k v)
  | .clear => (none, m.clear)

/-- The map holds the last keys used, each with the value last inserted. -/
structure Holds (m : Lru κ ν) (h : List (Call κ ν)) : Prop where
  keys : m.entries.map Prod.fst = (recency h).rtake m.cap
  values : ∀ e ∈ m.entries, lastInsert e.1 h = some e.2

variable {m : Lru κ ν}

theorem lastInsert_concat_of_none (hc : c.inserted k = none) :
    lastInsert k (h ++ [c]) = lastInsert k h := by
  rw [lastInsert, List.filterMap_append, List.filterMap_cons_none hc, List.filterMap_nil,
    List.append_nil, lastInsert]

theorem lastInsert_concat_of_some (hc : c.inserted k = some v) :
    lastInsert k (h ++ [c]) = some v := by
  rw [lastInsert, List.filterMap_append, List.filterMap_cons_some hc, List.filterMap_nil,
    List.getLast?_concat]

theorem Holds.nodup (hm : Holds m h) : (m.entries.map Prod.fst).Nodup := by
  rw [hm.keys]
  exact (List.drop_sublist _ _).nodup (nodup_recency h)

theorem Holds.length_le (hm : Holds m h) : m.entries.length ≤ m.cap := by
  rw [← List.length_map Prod.fst, hm.keys, List.rtake, List.length_drop]
  omega

theorem map_fst_filter {entries : List (κ × ν)} (hnodup : (entries.map Prod.fst).Nodup) (k : κ) :
    (entries.filter fun e => decide (e.1 ≠ k)).map Prod.fst = (entries.map Prod.fst).erase k := by
  rw [hnodup.erase_eq_filter, List.filter_map]
  refine congrArg _ (List.filter_congr fun e _ => ?_)
  rw [Function.comp_apply, bne, beq_eq_decide, decide_not]

theorem Holds.get (hm : Holds m h) (k : κ) :
    Holds (m.get k).2 (h ++ [⟨.get k, (m.get k).1⟩]) := by
  have hinserted (k' : κ) : Call.inserted k' ⟨.get k, (m.get k).1⟩ = (none : Option ν) := rfl
  have hentries : ∀ e ∈ (m.get k).2.entries,
      lastInsert e.1 (h ++ [⟨.get k, (m.get k).1⟩]) = some e.2 := by
    intro e he
    rw [lastInsert_concat_of_none (hinserted e.1)]
    exact hm.values e (Lru.mem_of_mem_get he)
  refine ⟨?_, hentries⟩
  rw [recency_concat]
  rcases m.get_cases k with ⟨-, hget⟩ | ⟨v, hmem, hget⟩
  · have hop : (Op.get k : Op κ ν) ≠ .clear := fun h => by cases h
    rw [hget, recencyStep_of_untouched rfl hop]
    exact hm.keys
  · have hk : k ∈ m.entries.map Prod.fst := List.mem_map_of_mem hmem
    have hlength : (touch (m.entries.map Prod.fst) k).length ≤ m.cap := by
      rw [touch, List.length_append, List.length_erase_of_mem hk, List.length_singleton,
        Nat.sub_add_cancel (List.length_pos_of_mem hk), List.length_map]
      exact hm.length_le
    rw [hget, recencyStep_of_touched rfl, ← rtake_touch (nodup_recency h), ← hm.keys,
      rtake_eq_self hlength, List.map_append, map_fst_filter hm.nodup, List.map_singleton, touch]

theorem Holds.insert (hm : Holds m h) (k : κ) (v : ν) :
    Holds (m.insert k v) (h ++ [⟨.insert k v, none⟩]) := by
  have hkeys : ((m.entries.filter fun e => e.1 ≠ k) ++ [(k, v)]).map Prod.fst =
      touch (m.entries.map Prod.fst) k := by
    rw [List.map_append, map_fst_filter hm.nodup, List.map_singleton, touch]
  constructor
  · rw [recency_concat, recencyStep_of_touched rfl]
    change _ = (touch (recency h) k).rtake m.cap
    rw [← rtake_touch (nodup_recency h), ← hm.keys, ← hkeys, List.rtake, List.length_map,
      ← List.map_drop]
    rfl
  · intro e he
    rcases List.mem_append.mp (List.mem_of_mem_drop he) with he | he
    · obtain ⟨hmem, hne⟩ := List.mem_filter.mp he
      rw [lastInsert_concat_of_none]
      · exact hm.values e hmem
      · exact if_neg fun h => of_decide_eq_true hne h.symm
    · rw [List.mem_singleton.mp he]
      exact lastInsert_concat_of_some (if_pos rfl)

theorem Holds.clear (_ : Holds m h) : Holds m.clear (h ++ [⟨.clear, none⟩]) where
  keys := by
    rw [recency_concat]
    exact (List.rtake_nil _).symm
  values _ he := absurd he List.not_mem_nil

theorem Holds.perform (hm : Holds m h) (op : Op κ ν) :
    Holds (perform m op).2 (h ++ [⟨op, (perform m op).1⟩]) := by
  cases op with
  | get k => exact hm.get k
  | insert k v => exact hm.insert k v
  | clear => exact hm.clear

theorem holds_empty (cap : ℕ) : Holds (.empty cap : Lru κ ν) [] where
  keys := (List.rtake_nil cap).symm
  values _ he := absurd he List.not_mem_nil

theorem cap_perform (op : Op κ ν) : (perform m op).2.cap = m.cap := by
  cases op with
  | get k =>
    rcases m.get_cases k with ⟨-, hget⟩ | ⟨v, -, hget⟩ <;> rw [perform, hget]
  | insert k v => rfl
  | clear => rfl

theorem cap_run (ops : List (Op κ ν)) :
    (run (fun m op => (perform m op).2) m ops).cap = m.cap := by
  induction ops generalizing m with
  | nil => rfl
  | cons op ops ih => rw [run_cons, ih, cap_perform]

theorem holds_run (hm : Holds m h) (ops : List (Op κ ν)) :
    Holds (run (fun m op => (perform m op).2) m ops) (h ++ history perform m ops) := by
  induction ops generalizing m h with
  | nil =>
    rw [run_nil, history, trace, List.append_nil]
    exact hm
  | cons op ops ih =>
    have hrest := ih (hm.perform op)
    rwa [List.append_assoc, List.singleton_append] at hrest

/-- A key is answered exactly while it is recent, with the value last inserted. -/
theorem Holds.get_spec (hm : Holds m h) (k : κ) :
    ((m.get k).1.isSome ↔ Recent m.cap k h) ∧
      ∀ v, (m.get k).1 = some v → lastInsert k h = some v := by
  refine ⟨?_, fun v hget => hm.values _ (Lru.mem_of_get hget)⟩
  rw [recent_iff, ← hm.keys]
  rcases m.get_cases k with ⟨hk, hget⟩ | ⟨v, hmem, hget⟩
  · rw [hget]
    exact iff_of_false Bool.false_ne_true hk
  · rw [hget]
    exact iff_of_true rfl (List.mem_map_of_mem hmem)

end Zecd.Recency
