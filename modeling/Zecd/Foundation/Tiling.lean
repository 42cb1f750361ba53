import Mathlib.Order.Interval.Set.Basic

/-! # Intervals cut into consecutive pieces

A list of bounds tiles an interval if the first piece starts where the interval does, each next
one where the piece before it stops, and the last one stops where the interval does. Every value
of the interval is then in exactly one piece.
-/

namespace Zecd

variable {α : Type*} [LinearOrder α]

/-- The pieces follow one another from `a` to `b`. -/
def Tiles : α → α → List (α × α) → Prop
  | a, b, [] => a = b
  | a, b, x :: xs => x.1 = a ∧ x.1 ≤ x.2 ∧ Tiles x.2 b xs

variable {a b c y : α} {x : α × α} {xs ys : List (α × α)}

@[simp] theorem tiles_nil : Tiles a b [] ↔ a = b := Iff.rfl

@[simp] theorem tiles_cons : Tiles a b (x :: xs) ↔ x.1 = a ∧ x.1 ≤ x.2 ∧ Tiles x.2 b xs := Iff.rfl

theorem tiles_singleton : Tiles a b [x] ↔ x = (a, b) ∧ a ≤ b := by
  rw [tiles_cons, tiles_nil, Prod.ext_iff]
  constructor
  · rintro ⟨rfl, hle, rfl⟩
    exact ⟨⟨rfl, rfl⟩, hle⟩
  · rintro ⟨⟨rfl, rfl⟩, hle⟩
    exact ⟨rfl, hle, rfl⟩

namespace Tiles

theorem le (h : Tiles a b xs) : a ≤ b := by
  induction xs generalizing a with
  | nil => exact le_of_eq h
  | cons x xs ih =>
    obtain ⟨rfl, hle, hrest⟩ := h
    exact hle.trans (ih hrest)

theorem within (h : Tiles a b xs) (hx : x ∈ xs) : a ≤ x.1 ∧ x.1 ≤ x.2 ∧ x.2 ≤ b := by
  induction xs generalizing a with
  | nil => cases hx
  | cons x' xs ih =>
    obtain ⟨rfl, hle, hrest⟩ := h
    rcases List.mem_cons.mp hx with rfl | hx
    · exact ⟨le_rfl, hle, hrest.le⟩
    · obtain ⟨hstart, hstop⟩ := ih hrest hx
      exact ⟨hle.trans hstart, hstop⟩

theorem append (h : Tiles a c xs) (h' : Tiles c b ys) : Tiles a b (xs ++ ys) := by
  induction xs generalizing a with
  | nil =>
    obtain rfl : a = c := h
    exact h'
  | cons x xs ih =>
    obtain ⟨rfl, hle, hrest⟩ := h
    exact ⟨rfl, hle, ih hrest⟩

theorem countP_eq (h : Tiles a b xs) :
    xs.countP (fun x => decide (x.1 ≤ y ∧ y < x.2)) = if a ≤ y ∧ y < b then 1 else 0 := by
  induction xs generalizing a with
  | nil =>
    obtain rfl : a = b := h
    rw [List.countP_nil, if_neg fun h => absurd h.2 (not_lt.mpr h.1)]
  | cons x xs ih =>
    obtain ⟨rfl, hle, hrest⟩ := h
    simp only [List.countP_cons, ih hrest, decide_eq_true_eq]
    have hstop := hrest.le
    by_cases hy : x.2 ≤ y
    · -- past the first piece, where the others are
      have hfirst : ¬ (x.1 ≤ y ∧ y < x.2) := fun h => absurd h.2 (not_lt.mpr hy)
      rw [if_neg hfirst, Nat.add_zero]
      exact if_congr (and_congr_left fun _ => iff_of_true hy (hle.trans hy)) rfl rfl
    · have hlt := not_le.mp hy
      rw [if_neg fun h => hy h.1, Nat.zero_add]
      exact if_congr (and_congr_right fun _ => iff_of_true hlt (hlt.trans_le hstop)) rfl rfl

end Tiles

end Zecd
