import Zecd.Foundation.Recency
import Mathlib.Data.Finmap

/-! # The least-recently-used map of the hub

The hub's transaction cache keeps the values in a hash map and the keys in a queue, the least
recently used one first. The two hold the same keys after any calls, and together they stand for
the one list of entries.
-/

namespace Zecd

open Runs Recency

variable {κ ν : Type*} [DecidableEq κ]

structure LruMap (κ ν : Type*) where
  cap : ℕ
  map : Finmap fun _ : κ => ν
  /-- The keys, from least to most recently used. -/
  order : List κ

namespace LruMap

def new (cap : ℕ) : LruMap κ ν := ⟨cap, ∅, []⟩

def get (m : LruMap κ ν) (key : κ) : Option ν × LruMap κ ν :=
  if key ∈ m.map then
    match m.order.idxOf? key with
    | some pos => (m.map.lookup key, { m with order := m.order.eraseIdx pos ++ [key] })
    | none => (m.map.lookup key, m)
  else (none, m)

/-- The loop of `insert`: the front of the queue leaves both while the queue is too long. -/
def evict (cap : ℕ) : List κ → (Finmap fun _ : κ => ν) → List κ × Finmap fun _ : κ => ν
  | [], map => ([], map)
  | key :: order, map =>
    if cap < (key :: order).length then evict cap order (map.erase key) else (key :: order, map)

def insert (m : LruMap κ ν) (key : κ) (value : ν) : LruMap κ ν :=
  let order :=
    if key ∈ m.map then
      match m.order.idxOf? key with
      | some pos => m.order.eraseIdx pos
      | none => m.order
    else m.order
  let (order, map) := evict m.cap (order ++ [key]) (m.map.insert key value)
  { m with map, order }

def clear (m : LruMap κ ν) : LruMap κ ν := { m with map := ∅, order := [] }

def perform (m : LruMap κ ν) : Op κ ν → Option ν × LruMap κ ν
  | .get key => m.get key
  | .insert key value => (none, m.insert key value)
  | .clear => (none, m.clear)

/-! ## The two containers as one -/

/-- The queue lists the keys of the entries, and the map holds the entries. -/
structure Represents (m : LruMap κ ν) (l : Lru κ ν) : Prop where
  cap : m.cap = l.cap
  order : m.order = l.entries.map Prod.fst
  nodup : m.order.Nodup
  lookup : ∀ k v, m.map.lookup k = some v ↔ (k, v) ∈ l.entries

variable {m : LruMap κ ν} {l : Lru κ ν} {k : κ} {v : ν}

theorem Represents.mem_map (h : Represents m l) (k : κ) : k ∈ m.map ↔ k ∈ m.order := by
  rw [Finmap.mem_iff, h.order]
  constructor
  · rintro ⟨v, hv⟩
    exact List.mem_map_of_mem ((h.lookup k v).mp hv)
  · intro hk
    obtain ⟨⟨k', v⟩, he, rfl⟩ := List.mem_map.mp hk
    exact ⟨v, (h.lookup _ v).mpr he⟩

theorem eraseIdx_of_idxOf? {order : List κ} {pos : ℕ} (hpos : order.idxOf? k = some pos) :
    order.eraseIdx pos = order.erase k := by
  induction order generalizing pos with
  | nil => cases hpos
  | cons k' order ih =>
    rw [List.idxOf?_cons] at hpos
    by_cases hk : k' = k
    · rw [if_pos (beq_iff_eq.mpr hk)] at hpos
      obtain rfl := Option.some.inj hpos
      rw [hk, List.eraseIdx_cons_zero, List.erase_cons_head]
    · rw [if_neg fun h => hk (beq_iff_eq.mp h)] at hpos
      obtain ⟨pos', hpos', rfl⟩ := Option.map_eq_some_iff.mp hpos
      rw [List.eraseIdx_cons_succ, ih hpos', List.erase_cons_tail fun h => hk (beq_iff_eq.mp h)]

theorem remove_eq {order : List κ} (hk : k ∈ order) :
    ∃ pos, order.idxOf? k = some pos ∧ order.eraseIdx pos = order.erase k := by
  cases hpos : order.idxOf? k with
  | none => exact absurd hk (List.idxOf?_eq_none_iff.mp hpos)
  | some pos => exact ⟨pos, rfl, eraseIdx_of_idxOf? hpos⟩

theorem Represents.new (cap : ℕ) : Represents (new cap : LruMap κ ν) (.empty cap) where
  cap := rfl
  order := rfl
  nodup := List.nodup_nil
  lookup k v := by
    rw [LruMap.new, Finmap.lookup_empty]
    exact iff_of_false (Option.some_ne_none v).symm List.not_mem_nil

theorem Represents.clear (h : Represents m l) : Represents m.clear l.clear where
  cap := h.cap
  order := rfl
  nodup := List.nodup_nil
  lookup := (Represents.new 0).lookup

theorem mem_used {entries : List (κ × ν)} {k' : κ} {v' : ν} :
    (k', v') ∈ (entries.filter fun e => decide (e.1 ≠ k)) ++ [(k, v)] ↔
      if k' = k then v' = v else (k', v') ∈ entries := by
  rw [List.mem_append, List.mem_filter, List.mem_singleton, Prod.mk.injEq, decide_eq_true_eq]
  split
  · next hk => simp [hk]
  · next hk => simp [hk]

theorem Represents.used (h : Represents m l) {map : Finmap fun _ : κ => ν}
    (hlookup : ∀ k' v', map.lookup k' = some v' ↔
      if k' = k then v' = v else m.map.lookup k' = some v') :
    Represents { m with map, order := touch m.order k }
      { l with entries := (l.entries.filter fun e => e.1 ≠ k) ++ [(k, v)] } where
  cap := h.cap
  order := by
    rw [List.map_append, map_fst_filter (h.order ▸ h.nodup), ← h.order]
    rfl
  nodup := nodup_touch h.nodup
  lookup k' v' := by
    rw [mem_used, hlookup]
    split
    · exact Iff.rfl
    · exact h.lookup k' v'

theorem Represents.get (h : Represents m l) (k : κ) :
    (m.get k).1 = (l.get k).1 ∧ Represents (m.get k).2 (l.get k).2 := by
  unfold LruMap.get
  rcases l.get_cases k with ⟨hk, hget⟩ | ⟨v, hmem, hget⟩
  · have hmap : k ∉ m.map := by rwa [h.mem_map, h.order]
    rw [if_neg hmap, hget]
    exact ⟨rfl, h⟩
  · have hk : k ∈ m.order := h.order ▸ List.mem_map_of_mem hmem
    obtain ⟨pos, hpos, hremove⟩ := remove_eq hk
    have hlookup := (h.lookup k v).mpr hmem
    rw [if_pos ((h.mem_map k).mpr hk), hpos, hget]
    dsimp only
    rw [hremove, hlookup]
    refine ⟨rfl, h.used fun k' v' => ?_⟩
    split
    · next hk' => rw [hk', hlookup, Option.some.injEq, eq_comm]
    · exact Iff.rfl

theorem Represents.evict {cap n : ℕ} {map : Finmap fun _ : κ => ν} {entries : List (κ × ν)}
    (h : Represents ⟨cap, map, entries.map Prod.fst⟩ ⟨cap, entries⟩) :
    Represents ⟨cap, (evict n (entries.map Prod.fst) map).2, (evict n (entries.map Prod.fst) map).1⟩
      ⟨cap, entries.drop (entries.length - n)⟩ := by
  induction entries generalizing map with
  | nil =>
    rw [List.drop_nil]
    exact h
  | cons e entries ih =>
    rw [List.map_cons, LruMap.evict, List.length_cons, List.length_map, List.length_cons]
    split
    · next hlt =>
      have hdrop : entries.length + 1 - n = entries.length - n + 1 := by omega
      rw [hdrop, List.drop_succ_cons]
      obtain ⟨hnew, hnodup⟩ := List.nodup_cons.mp h.nodup
      refine ih ⟨rfl, rfl, hnodup, fun k v => ?_⟩
      by_cases hk : k = e.1
      · rw [hk, Finmap.lookup_erase]
        exact iff_of_false (Option.some_ne_none v).symm fun hmem =>
          hnew (List.mem_map.mpr ⟨(e.1, v), hmem, rfl⟩)
      · rw [Finmap.lookup_erase_ne hk, h.lookup, List.mem_cons]
        exact or_iff_right fun he => hk (congrArg Prod.fst he)
    · next hle =>
      rw [Nat.sub_eq_zero_of_le (by omega), List.drop_zero]
      exact h

theorem Represents.insert_eq (h : Represents m l) (k : κ) (v : ν) :
    m.insert k v =
      ⟨m.cap, (LruMap.evict m.cap (touch m.order k) (m.map.insert k v)).2,
        (LruMap.evict m.cap (touch m.order k) (m.map.insert k v)).1⟩ := by
  unfold LruMap.insert
  by_cases hmap : k ∈ m.map
  · obtain ⟨pos, hpos, hremove⟩ := remove_eq ((h.mem_map k).mp hmap)
    rw [if_pos hmap, hpos]
    dsimp only
    rw [hremove, touch]
  · have hk : k ∉ m.order := fun hk => hmap ((h.mem_map k).mpr hk)
    rw [if_neg hmap, touch, List.erase_of_not_mem hk]

theorem Represents.insert (h : Represents m l) (k : κ) (v : ν) :
    Represents (m.insert k v) (l.insert k v) := by
  have hused : Represents { m with map := m.map.insert k v, order := touch m.order k }
      { l with entries := (l.entries.filter fun e => e.1 ≠ k) ++ [(k, v)] } := by
    refine h.used fun k' v' => ?_
    split
    · next hk' => rw [hk', Finmap.lookup_insert, Option.some.injEq, eq_comm]
    · next hk' => rw [Finmap.lookup_insert_of_ne _ hk']
  have horder := hused.order
  dsimp only at horder
  rw [h.insert_eq, Lru.insert]
  rw [horder, h.cap] at hused ⊢
  exact hused.evict

theorem Represents.perform (h : Represents m l) (op : Op κ ν) :
    (m.perform op).1 = (Recency.perform l op).1 ∧
      Represents (m.perform op).2 (Recency.perform l op).2 := by
  cases op with
  | get k => exact h.get k
  | insert k v => exact ⟨rfl, h.insert k v⟩
  | clear => exact ⟨rfl, h.clear⟩

/-- The two containers answer every call of a run as the one list does. -/
theorem Represents.run (h : Represents m l) (ops : List (Op κ ν)) :
    history LruMap.perform m ops = history Recency.perform l ops ∧
      Represents (Runs.run (fun m op => (m.perform op).2) m ops)
        (Runs.run (fun l op => (Recency.perform l op).2) l ops) := by
  induction ops generalizing m l with
  | nil => exact ⟨rfl, h⟩
  | cons op ops ih =>
    obtain ⟨hanswer, hstep⟩ := h.perform op
    obtain ⟨hhistory, hrun⟩ := ih hstep
    refine ⟨?_, hrun⟩
    rw [history, trace, hanswer]
    exact congrArg _ hhistory

/-! ## What the map still answers -/

/-- The queue and the map hold the same keys, each once, and no more than the capacity. -/
structure WellFormed (m : LruMap κ ν) : Prop where
  nodup : m.order.Nodup
  keys : m.order.toFinset = m.map.keys
  length_le : m.order.length ≤ m.cap

theorem Represents.wellFormed {h : List (Call κ ν)} (hm : Represents m l) (hl : Holds l h) :
    m.WellFormed where
  nodup := hm.nodup
  keys := by
    ext k
    rw [List.mem_toFinset, Finmap.mem_keys, hm.mem_map]
  length_le := by
    rw [hm.cap, hm.order, List.length_map]
    exact hl.length_le

/-- After any calls the queue and the map are in step, and a key is answered with the value last
inserted exactly while fewer than `cap` other keys have been used since it was. -/
theorem calls_spec (cap : ℕ) (ops : List (Op κ ν)) (k : κ) :
    let m := Runs.run (fun m op => (perform m op).2) (new cap) ops
    let h := history perform (new cap) ops
    m.cap = cap ∧ m.WellFormed ∧
      ((∃ v, lastInsert k h = some v ∧ (m.get k).1 = some v) ↔ Recent cap k h) ∧
      ((m.get k).1 = none ↔ ¬ Recent cap k h) := by
  intro m h
  obtain ⟨hhistory, hm⟩ := (Represents.new cap : Represents (new cap : LruMap κ ν) _).run ops
  have hl := holds_run (holds_empty cap) ops
  have hcap : (Runs.run (fun l op => (Recency.perform l op).2) (.empty cap : Lru κ ν) ops).cap =
      cap := cap_run ops
  rw [List.nil_append, ← hhistory] at hl
  obtain ⟨hrecent, hvalue⟩ := hl.get_spec k
  rw [hcap, ← (hm.get k).1] at hrecent
  rw [← (hm.get k).1] at hvalue
  refine ⟨hm.cap.trans hcap, hm.wellFormed hl, ?_, ?_⟩
  · rw [← hrecent, Option.isSome_iff_exists]
    exact exists_congr fun v => ⟨And.right, fun hv => ⟨hvalue v hv, hv⟩⟩
  · rw [← hrecent, Option.not_isSome_iff_eq_none]

-- reading 1 makes 2 the least recently used
example : (history perform (new 2 : LruMap ℕ ℕ)
    [.insert 1 10, .insert 2 20, .get 1, .insert 3 30, .get 2, .get 1]).map Call.answer =
      [none, none, some 10, none, none, some 10] := by
  decide

end LruMap

end Zecd
