import Mathlib

/-! # Grouped rows and their sums

Rows collected group by group, for distinct group keys that cover them, are the rows again. Two
sums of which one is below the other term by term agree exactly when the terms do.
-/

namespace Zecd.Grouping

variable {α κ : Type*} [DecidableEq κ] {key : α → κ}

theorem filter_ne_filter {k k' : κ} (hne : k' ≠ k) (rows : List α) :
    (rows.filter fun r => key r != k).filter (fun r => key r == k') =
      rows.filter fun r => key r == k' := by
  rw [List.filter_filter]
  refine List.filter_congr fun r _ => ?_
  by_cases h : key r = k'
  · simp [h, hne]
  · simp [h]

theorem groups_perm {keys : List κ} (hkeys : keys.Nodup) {rows : List α}
    (hrows : ∀ r ∈ rows, key r ∈ keys) :
    (keys.flatMap fun k => rows.filter fun r => key r == k).Perm rows := by
  induction keys generalizing rows with
  | nil =>
    cases rows with
    | nil => exact List.Perm.nil
    | cons r rows => exact absurd (hrows r List.mem_cons_self) (by simp)
  | cons k keys ih =>
    obtain ⟨hk, hkeys⟩ := List.nodup_cons.mp hkeys
    have hrest : ∀ r ∈ rows.filter (fun r => key r != k), key r ∈ keys := by
      intro r hr
      obtain ⟨hr, hne⟩ := List.mem_filter.mp hr
      exact (List.mem_cons.mp (hrows r hr)).resolve_left (by simpa using hne)
    have hlater : (keys.flatMap fun k' => rows.filter fun r => key r == k') =
        keys.flatMap fun k' => (rows.filter fun r => key r != k).filter fun r => key r == k' := by
      refine List.flatMap_congr fun k' hk' => ?_
      rw [filter_ne_filter]
      rintro rfl
      exact hk hk'
    rw [List.flatMap_cons, hlater]
    refine ((ih hkeys hrest).append_left _).trans ?_
    exact List.filter_append_perm (fun r => key r == k) rows

theorem sum_map_filter {l : List α} {p : α → Bool} {f : α → ℤ} :
    ((l.filter p).map f).sum = (l.map fun x => if p x then f x else 0).sum := by
  induction l with
  | nil => rfl
  | cons x l ih => cases h : p x <;> simp [h, ih]

theorem sum_map_le {l : List α} {f g : α → ℤ} (h : ∀ x ∈ l, f x ≤ g x) :
    (l.map f).sum ≤ (l.map g).sum := List.sum_le_sum h

theorem sum_map_eq_iff {l : List α} {f g : α → ℤ} (h : ∀ x ∈ l, f x ≤ g x) :
    (l.map f).sum = (l.map g).sum ↔ ∀ x ∈ l, f x = g x := by
  induction l with
  | nil => simp
  | cons x l ih =>
    obtain ⟨hx, hl⟩ := List.forall_mem_cons.mp h
    have hle := sum_map_le hl
    rw [List.map_cons, List.map_cons, List.sum_cons, List.sum_cons, List.forall_mem_cons, ← ih hl]
    constructor
    · intro heq
      constructor <;> omega
    · rintro ⟨hhead, htail⟩
      rw [hhead, htail]

end Zecd.Grouping
