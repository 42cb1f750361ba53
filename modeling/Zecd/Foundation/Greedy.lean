import Mathlib

/-! # Largest first

Taking values one after the other until what is taken is accepted, and what this cannot miss if
the largest values come first.
-/

namespace Zecd.Greedy

/-! ## The first prefix that is accepted -/

section Prefix

variable {β : Type*} (accept : ℕ → ℕ → Option β)

/-- The answer for the first prefix that has one, by its length and its sum. -/
def firstPrefix : ℕ → ℕ → List ℕ → Option β
  | _, _, [] => none
  | n, total, v :: vs =>
    (accept (n + 1) (total + v)).or (firstPrefix (n + 1) (total + v) vs)

variable {accept} {n total : ℕ} {vs : List ℕ} {b : β}

theorem firstPrefix_eq_none : firstPrefix accept n total vs = none ↔
    ∀ m, 0 < m → m ≤ vs.length → accept (n + m) (total + (vs.take m).sum) = none := by
  induction vs generalizing n total with
  | nil =>
    refine iff_of_true rfl fun m hm hle => ?_
    rw [List.length_nil] at hle
    omega
  | cons v vs ih =>
    rw [firstPrefix, Option.or_eq_none_iff, ih]
    constructor
    · rintro ⟨hhead, htail⟩ m hm hle
      obtain ⟨m, rfl⟩ := Nat.exists_eq_succ_of_ne_zero hm.ne'
      rcases Nat.eq_zero_or_pos m with rfl | hm'
      · simpa using hhead
      · have := htail m hm' (by rw [List.length_cons] at hle; omega)
        rw [List.take_succ_cons, List.sum_cons]
        rwa [Nat.add_assoc, Nat.add_comm 1, Nat.add_assoc] at this
    · intro h
      refine ⟨by simpa using h 1 one_pos (by simp), fun m hm hle => ?_⟩
      have := h (m + 1) (by omega) (by rw [List.length_cons]; omega)
      rw [List.take_succ_cons, List.sum_cons] at this
      rwa [Nat.add_assoc, Nat.add_comm 1, Nat.add_assoc]

theorem firstPrefix_eq_some (h : firstPrefix accept n total vs = some b) :
    ∃ m, 0 < m ∧ m ≤ vs.length ∧ accept (n + m) (total + (vs.take m).sum) = some b ∧
      ∀ j, 0 < j → j < m → accept (n + j) (total + (vs.take j).sum) = none := by
  induction vs generalizing n total with
  | nil => cases h
  | cons v vs ih =>
    rcases Option.or_eq_some_iff.mp h with hhead | ⟨hhead, htail⟩
    · refine ⟨1, one_pos, by simp, by simpa using hhead, fun j hj hlt => ?_⟩
      omega
    · obtain ⟨m, hm, hle, hacc, hmin⟩ := ih htail
      refine ⟨m + 1, by omega, by rw [List.length_cons]; omega, ?_, fun j hj hlt => ?_⟩
      · rw [List.take_succ_cons, List.sum_cons]
        rwa [Nat.add_assoc, Nat.add_comm 1, Nat.add_assoc] at hacc
      · obtain ⟨j, rfl⟩ := Nat.exists_eq_succ_of_ne_zero hj.ne'
        rcases Nat.eq_zero_or_pos j with rfl | hj'
        · simpa using hhead
        · have := hmin j hj' (by omega)
          rw [List.take_succ_cons, List.sum_cons]
          rwa [Nat.add_assoc, Nat.add_comm 1, Nat.add_assoc] at this

end Prefix

/-! ## No selection is worth more -/

theorem sum_le_sum_take {l s : List ℕ} (hl : l.Pairwise (· ≥ ·)) (hs : s.Sublist l) :
    s.sum ≤ (l.take s.length).sum := by
  induction hs with
  | slnil => rfl
  | @cons s l v hs ih =>
    have hv := (List.pairwise_cons.mp hl).1
    have hsum := ih hl.of_cons
    cases hlen : s.length with
    | zero => simp [List.length_eq_zero_iff.mp hlen]
    | succ k =>
      have hk : k < l.length := by have := hs.length_le; omega
      rw [hlen, List.take_succ_eq_append_getElem hk, List.sum_append] at hsum
      have := hv _ (List.getElem_mem hk)
      simp only [List.take_succ_cons, List.sum_cons, List.sum_nil] at hsum ⊢
      omega
  | @cons_cons s l v hs ih =>
    have := ih hl.of_cons
    simp only [List.length_cons, List.take_succ_cons, List.sum_cons]
    omega

theorem multiset_sum_le_sum_take {l : List ℕ} {s : Multiset ℕ} (hl : l.Pairwise (· ≥ ·))
    (hs : s ≤ ↑l) : s.sum ≤ (l.take s.card).sum := by
  induction s using Quotient.inductionOn with
  | h xs =>
    obtain ⟨ys, hperm, hsub⟩ := Multiset.coe_le.mp hs
    have hsum := sum_le_sum_take hl hsub
    rw [hperm.length_eq, hperm.sum_eq] at hsum
    exact hsum

end Zecd.Greedy
