import Mathlib.Data.List.Basic

/-! # Lists read from the end

A page of a list is counted from its last element: it skips some and takes the ones before.
Reading it off the reversed list is a prefix, so a prefix of the reversed list that is long
enough gives the same page, and adjacent pages join.
-/

namespace Zecd

variable {α β : Type}

/-- The elements from index `n - min n (skip + count)` to `n - min n skip`, of `n`. -/
def pageOf (l : List α) (skip count : ℕ) : List α :=
  (l.take (l.length - min l.length skip)).drop (l.length - min l.length (skip + count))

theorem sub_min_self (n k : ℕ) : n - min n k = n - k := by omega

theorem reverse_window_eq_pageOf (l : List α) (skip count : ℕ) :
    ((l.reverse.take (skip + count)).drop skip).reverse = pageOf l skip count := by
  rw [List.take_reverse, List.drop_reverse, List.reverse_reverse, pageOf, sub_min_self,
    sub_min_self, List.take_drop, List.length_drop]
  congr 2
  omega

theorem window_of_initial {p l : List α} (hp : p <+: l) {skip stop count : ℕ}
    (hstop : stop ≤ skip + count) (hfull : count ≤ ((p.take stop).drop skip).length) :
    (p.take stop).drop skip = (l.take stop).drop skip := by
  rw [List.length_drop, List.length_take] at hfull
  rcases Nat.eq_zero_or_pos count with rfl | hcount
  · rw [List.drop_eq_nil_of_le, List.drop_eq_nil_of_le] <;> simp <;> omega
  · obtain ⟨s, rfl⟩ := hp
    rw [List.take_append_of_le_length (by omega)]

theorem pageOf_append_drop (l : List α) (skip count : ℕ) :
    pageOf l skip count ++ l.drop (l.length - skip) = l.drop (l.length - (skip + count)) := by
  rw [pageOf, sub_min_self, sub_min_self]
  have hle : l.length - (skip + count) ≤ (l.take (l.length - skip)).length := by
    rw [List.length_take]
    omega
  rw [← List.drop_append_of_le_length hle, List.take_append_drop]

theorem pages_join (l : List α) (c k : ℕ) :
    (List.range k).reverse.flatMap (fun i => pageOf l (i * c) c) = l.drop (l.length - k * c) := by
  induction k with
  | zero => simp
  | succ k ih =>
    rw [List.range_succ, List.reverse_append, List.reverse_singleton, List.singleton_append,
      List.flatMap_cons, ih, pageOf_append_drop, Nat.succ_mul]

end Zecd
