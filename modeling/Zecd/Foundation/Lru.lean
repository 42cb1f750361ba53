import Mathlib

/-! # A bounded least-recently-used map

The entries stand in least to most recently used order. Whatever the map answers or keeps was
inserted into it.
-/

namespace Zecd

/-- A map that keeps its `cap` most recently used entries. -/
structure Lru (κ ν : Type*) where
  cap : ℕ
  entries : List (κ × ν)

namespace Lru

variable {κ ν : Type*} [DecidableEq κ] (m : Lru κ ν) {k : κ} {v : ν} {e : κ × ν}

def empty (cap : ℕ) : Lru κ ν := ⟨cap, []⟩

/-- Look a key up; a hit becomes the most recently used entry. -/
def get (k : κ) : Option ν × Lru κ ν :=
  match m.entries.find? fun e => e.1 = k with
  | none => (none, m)
  | some e => (some e.2, { m with entries := (m.entries.filter fun e => e.1 ≠ k) ++ [e] })

/-- Store a value under a key, over an older one, and evict from the least recently used end. -/
def insert (k : κ) (v : ν) : Lru κ ν :=
  let entries := (m.entries.filter fun e => e.1 ≠ k) ++ [(k, v)]
  { m with entries := entries.drop (entries.length - m.cap) }

def clear : Lru κ ν := { m with entries := [] }

variable {m}

theorem get_cases (m : Lru κ ν) (k : κ) :
    (k ∉ m.entries.map Prod.fst ∧ m.get k = (none, m)) ∨
    ∃ v, (k, v) ∈ m.entries ∧ m.get k =
      (some v, { m with entries := (m.entries.filter fun e => e.1 ≠ k) ++ [(k, v)] }) := by
  unfold get
  split
  · next hfind =>
    refine Or.inl ⟨fun hmem => ?_, rfl⟩
    obtain ⟨e, he, hk⟩ := List.mem_map.mp hmem
    exact List.find?_eq_none.mp hfind e he (decide_eq_true hk)
  · next e hfind =>
    have hk : e.1 = k := by simpa using List.find?_some hfind
    subst hk
    exact Or.inr ⟨e.2, List.mem_of_find?_eq_some hfind, rfl⟩

theorem mem_of_get (h : (m.get k).1 = some v) : (k, v) ∈ m.entries := by
  unfold get at h
  split at h
  · cases h
  · next e he =>
    obtain rfl := Option.some.inj h
    have hk : e.1 = k := by simpa using List.find?_some he
    rw [← hk]
    exact List.mem_of_find?_eq_some he

theorem mem_of_mem_get (h : e ∈ (m.get k).2.entries) : e ∈ m.entries := by
  unfold get at h
  split at h
  · exact h
  · next e' he' =>
    rcases List.mem_append.mp h with h | h
    · exact (List.mem_filter.mp h).1
    · rw [List.mem_singleton.mp h]
      exact List.mem_of_find?_eq_some he'

theorem mem_of_mem_insert (h : e ∈ (m.insert k v).entries) : e = (k, v) ∨ e ∈ m.entries := by
  rcases List.mem_append.mp (List.mem_of_mem_drop h) with h | h
  · exact Or.inr (List.mem_filter.mp h).1
  · exact Or.inl (List.mem_singleton.mp h)

end Lru

end Zecd
