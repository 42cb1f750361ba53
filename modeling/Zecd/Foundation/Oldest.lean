import Mathlib

/-! # The oldest entries of a list

Entries carry a time. `oldest` selects the earliest ones, in the list's own order among
entries of one time.
-/

namespace Zecd

variable {α τ : Type*} [LinearOrder τ] (time : α → τ)

/-- The list sorted by time, stably. -/
def sortByTime (l : List α) : List α := l.mergeSort fun a b => time a ≤ time b

def oldest (n : ℕ) (l : List α) : List α := (sortByTime time l).take n

variable {time} {n : ℕ} {l : List α} {x y : α}

@[simp] theorem mem_sortByTime : x ∈ sortByTime time l ↔ x ∈ l := List.mem_mergeSort

theorem sortByTime_perm : (sortByTime time l).Perm l := List.mergeSort_perm l _

@[simp] theorem length_sortByTime : (sortByTime time l).length = l.length :=
  List.length_mergeSort l

@[simp] theorem sortByTime_nil : sortByTime time ([] : List α) = [] := List.mergeSort_nil

theorem pairwise_sortByTime : (sortByTime time l).Pairwise fun a b => time a ≤ time b := by
  have hpw : (sortByTime time l).Pairwise fun a b => decide (time a ≤ time b) = true := by
    apply List.pairwise_mergeSort
    · intro a b c hab hbc
      exact decide_eq_true ((of_decide_eq_true hab).trans (of_decide_eq_true hbc))
    · intro a b
      simpa using le_total (time a) (time b)
  exact hpw.imp of_decide_eq_true

theorem mem_of_mem_oldest (hx : x ∈ oldest time n l) : x ∈ l :=
  mem_sortByTime.mp (List.mem_of_mem_take hx)

@[simp] theorem oldest_nil : oldest time n ([] : List α) = [] := by
  rw [oldest, sortByTime_nil, List.take_nil]

theorem time_le_of_mem_oldest (hx : x ∈ oldest time n l) (hy : y ∈ l)
    (hny : y ∉ oldest time n l) : time x ≤ time y := by
  have hsplit : sortByTime time l = oldest time n l ++ (sortByTime time l).drop n :=
    (List.take_append_drop n _).symm
  have hyd : y ∈ (sortByTime time l).drop n := by
    have hy' : y ∈ sortByTime time l := mem_sortByTime.mpr hy
    rw [hsplit] at hy'
    exact (List.mem_append.mp hy').resolve_left hny
  have hpw : (sortByTime time l).Pairwise fun a b => time a ≤ time b := pairwise_sortByTime
  rw [hsplit] at hpw
  exact (List.pairwise_append.mp hpw).2.2 x hx y hyd

theorem mem_oldest_of_length_le (hn : l.length ≤ n) : x ∈ oldest time n l ↔ x ∈ l := by
  rw [oldest, List.take_of_length_le (by rwa [length_sortByTime]), mem_sortByTime]

theorem length_oldest : (oldest time n l).length = min n l.length := by
  rw [oldest, List.length_take, length_sortByTime]

theorem nodup_oldest (hl : l.Nodup) : (oldest time n l).Nodup :=
  (sortByTime_perm.nodup_iff.mpr hl).sublist (List.take_sublist n _)

end Zecd
