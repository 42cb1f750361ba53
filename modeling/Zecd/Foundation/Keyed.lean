import Mathlib

/-! # Lists with a unique key

A table read by a column its schema makes unique: a predicate that fixes the key selects at
most one row.
-/

namespace Zecd.Keyed

variable {α κ : Type*} {l : List α} {key : α → κ} {p : α → Bool} {k : κ} {x : α}

theorem filter_eq_nil (hk : k ∉ l.map key) (hp : ∀ x, p x = true ↔ key x = k) :
    l.filter p = [] := by
  apply List.filter_eq_nil_iff.mpr
  intro x hx hpx
  exact hk (List.mem_map.mpr ⟨x, hx, (hp x).mp hpx⟩)

theorem filter_eq_find? (hl : (l.map key).Nodup) (hp : ∀ x, p x = true ↔ key x = k) :
    l.filter p = (l.find? p).toList := by
  induction l with
  | nil => rfl
  | cons x l ih =>
    obtain ⟨hx, hl⟩ := List.nodup_cons.mp hl
    by_cases hpx : p x = true
    · have hk : k ∉ l.map key := (hp x).mp hpx ▸ hx
      rw [List.filter_cons_of_pos hpx, filter_eq_nil hk hp, List.find?_cons_of_pos hpx]
      rfl
    · rw [List.filter_cons_of_neg hpx, List.find?_cons_of_neg hpx, ih hl]

theorem find?_eq_some (hl : (l.map key).Nodup) (hp : ∀ x, p x = true ↔ key x = k) (hx : x ∈ l)
    (hk : key x = k) : l.find? p = some x := by
  have hmem : x ∈ l.filter p := List.mem_filter.mpr ⟨hx, (hp x).mpr hk⟩
  rw [filter_eq_find? hl hp] at hmem
  exact Option.mem_toList.mp hmem

theorem find?_eq_some_iff (hp : ∀ x ∈ l, ∀ y ∈ l, p x = true → p y = true → x = y) :
    l.find? p = some x ↔ x ∈ l ∧ p x = true := by
  constructor
  · intro h
    exact ⟨List.mem_of_find?_eq_some h, List.find?_some h⟩
  · rintro ⟨hx, hpx⟩
    cases hfind : l.find? p with
    | none => exact absurd hpx (List.find?_eq_none.mp hfind x hx)
    | some y =>
      rw [hp y (List.mem_of_find?_eq_some hfind) x hx (List.find?_some hfind) hpx]

theorem flatMap_eq {β : Type*} {f : α → List β} (hl : (l.map key).Nodup) (hx : x ∈ l)
    (hf : ∀ y ∈ l, key y ≠ key x → f y = []) : l.flatMap f = f x := by
  induction l with
  | nil => cases hx
  | cons y l ih =>
    obtain ⟨hy, hl⟩ := List.nodup_cons.mp hl
    rw [List.flatMap_cons]
    rcases List.mem_cons.mp hx with rfl | hx
    · have hrest : l.flatMap f = [] := by
        apply List.flatMap_eq_nil_iff.mpr
        intro z hz
        apply hf z (List.mem_cons_of_mem _ hz)
        intro hkey
        exact hy (hkey ▸ List.mem_map_of_mem hz)
      rw [hrest, List.append_nil]
    · have hne : key y ≠ key x := fun hkey => hy (hkey ▸ List.mem_map_of_mem hx)
      rw [hf y List.mem_cons_self hne, List.nil_append]
      exact ih hl hx fun z hz => hf z (List.mem_cons_of_mem _ hz)

end Zecd.Keyed
