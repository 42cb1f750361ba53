import Mathlib.Algebra.BigOperators.Group.Finset.Basic
import Mathlib.Tactic.Ring

/-! # Work resumed after breaks

A worker does `n` items over a stream of attempts. Attempt `i` is `none` when it does all that
is left, and `some k` when it breaks after at most `k` of them. A bounded number of attempts in
a row may do nothing: the worker gives up at the next one, and otherwise finishes.
-/

namespace Zecd

/-- Whether the worker finishes, with `stalled` empty attempts just behind it. -/
def resume (limit : ℕ) : ℕ → (ℕ → Option ℕ) → ℕ → ℕ → Option Bool
  | 0, _, _, _ => none
  | fuel + 1, a, n, stalled =>
    if n = 0 then some true
    else match a 0 with
      | none => some true
      | some 0 =>
        if limit < stalled + 1 then some false
        else resume limit fuel (fun j => a (j + 1)) n (stalled + 1)
      | some (k + 1) => resume limit fuel (fun j => a (j + 1)) (n - (k + 1)) 0

/-- With items left, more than `limit` attempts in a row do none. -/
def GivesUp (limit : ℕ) (a : ℕ → Option ℕ) (n : ℕ) : Prop :=
  ∃ m, (∀ j < m, a j ≠ none) ∧ ∑ j ∈ Finset.range m, (a j).getD 0 < n ∧
    ∀ j ≤ limit, a (m + j) = some 0

/-- `GivesUp`, or the attempts that follow complete a row begun by `stalled` empty ones. -/
def GivesUpAfter (limit : ℕ) (a : ℕ → Option ℕ) (n stalled : ℕ) : Prop :=
  GivesUp limit a n ∨ 0 < n ∧ ∀ j, stalled + j ≤ limit → a j = some 0

variable {limit fuel n stalled : ℕ} {a : ℕ → Option ℕ}

theorem givesUpAfter_zero : GivesUpAfter limit a n 0 ↔ GivesUp limit a n := by
  constructor
  · rintro (h | ⟨hn, h⟩)
    · exact h
    · exact ⟨0, by simp, by simpa using hn, fun j hj => by simpa using h j (by omega)⟩
  · exact .inl

theorem givesUp_iff : GivesUp limit a n ↔ (0 < n ∧ ∀ j ≤ limit, a j = some 0) ∨
    a 0 ≠ none ∧ GivesUp limit (fun j => a (j + 1)) (n - (a 0).getD 0) := by
  constructor
  · rintro ⟨m, hm, hsum, hrow⟩
    cases m with
    | zero => exact .inl ⟨by simpa using hsum, fun j hj => by simpa using hrow j hj⟩
    | succ m =>
      rw [Finset.sum_range_succ'] at hsum
      refine .inr ⟨hm 0 m.succ_pos, m, fun j hj => hm (j + 1) (by omega), ?_, ?_⟩
      · dsimp only
        omega
      · intro j hj
        have hstall := hrow j hj
        rwa [show m + 1 + j = m + j + 1 by ring] at hstall
  · rintro (⟨hn, h⟩ | ⟨h0, m, hm, hsum, hrow⟩)
    · exact ⟨0, by simp, by simpa using hn, by simpa using h⟩
    · refine ⟨m + 1, fun j hj => ?_, ?_, fun j hj => ?_⟩
      · cases j with
        | zero => exact h0
        | succ j => exact hm j (by omega)
      · rw [Finset.sum_range_succ']
        dsimp only at hsum
        omega
      · rw [show m + 1 + j = m + j + 1 by ring]
        exact hrow j hj

theorem not_givesUpAfter_nothing : ¬ GivesUpAfter limit a 0 stalled := by
  rintro (⟨_, _, h, _⟩ | ⟨h, _⟩) <;> omega

theorem not_givesUpAfter_done (hs : stalled ≤ limit) (ha : a 0 = none) :
    ¬ GivesUpAfter limit a n stalled := by
  rintro (h | ⟨_, h⟩)
  · rcases givesUp_iff.mp h with ⟨_, h⟩ | ⟨h, _⟩
    · have h0 := h 0 (Nat.zero_le _)
      simp [ha] at h0
    · exact h ha
  · have h0 := h 0 (by omega)
    simp [ha] at h0

theorem givesUpAfter_last (hn : 0 < n) (ha : a 0 = some 0) : GivesUpAfter limit a n limit := by
  refine .inr ⟨hn, fun j hj => ?_⟩
  obtain rfl : j = 0 := by omega
  exact ha

theorem givesUpAfter_stall (hn : 0 < n) (ha : a 0 = some 0) :
    GivesUpAfter limit a n stalled ↔
      GivesUpAfter limit (fun j => a (j + 1)) n (stalled + 1) := by
  constructor
  · rintro (h | ⟨_, h⟩)
    · rcases givesUp_iff.mp h with ⟨_, h⟩ | ⟨_, h⟩
      · exact .inr ⟨hn, fun j hj => h (j + 1) (by omega)⟩
      · exact .inl (by simpa [ha] using h)
    · exact .inr ⟨hn, fun j hj => h (j + 1) (by omega)⟩
  · rintro (h | ⟨_, h⟩)
    · exact .inl (givesUp_iff.mpr (.inr ⟨by simp [ha], by simpa [ha] using h⟩))
    · refine .inr ⟨hn, fun j hj => ?_⟩
      cases j with
      | zero => exact ha
      | succ j => exact h j (by omega)

theorem givesUpAfter_progress {k : ℕ} (hs : stalled ≤ limit) (ha : a 0 = some (k + 1)) :
    GivesUpAfter limit a n stalled ↔
      GivesUpAfter limit (fun j => a (j + 1)) (n - (k + 1)) 0 := by
  rw [givesUpAfter_zero]
  constructor
  · rintro (h | ⟨_, h⟩)
    · rcases givesUp_iff.mp h with ⟨_, h⟩ | ⟨_, h⟩
      · have h0 := h 0 (Nat.zero_le _)
        simp [ha] at h0
      · simpa [ha] using h
    · have h0 := h 0 (by omega)
      simp [ha] at h0
  · intro h
    exact .inl (givesUp_iff.mpr (.inr ⟨by simp [ha], by simpa [ha] using h⟩))

variable (a) in
/-- The worker answers after at most `limit + 1` attempts for each item and one row more. -/
theorem resume_spec (hs : stalled ≤ limit) (hf : (limit + 1) * n + (limit + 1) ≤ fuel + stalled) :
    (resume limit fuel a n stalled = some false ∧ GivesUpAfter limit a n stalled) ∨
      (resume limit fuel a n stalled = some true ∧ ¬ GivesUpAfter limit a n stalled) := by
  induction fuel generalizing a n stalled with
  | zero => omega
  | succ fuel ih =>
    rcases Nat.eq_zero_or_pos n with rfl | hn
    · exact .inr ⟨if_pos rfl, not_givesUpAfter_nothing⟩
    · simp only [resume, if_neg hn.ne']
      match ha : a 0 with
      | none => exact .inr ⟨rfl, not_givesUpAfter_done hs ha⟩
      | some 0 =>
        rcases hs.eq_or_lt with rfl | hlt
        · exact .inl ⟨if_pos (by omega), givesUpAfter_last hn ha⟩
        · have hpaid : (limit + 1) * n + (limit + 1) ≤ fuel + (stalled + 1) := by omega
          have hlater := ih (fun j => a (j + 1)) (Nat.succ_le_of_lt hlt) hpaid
          rw [givesUpAfter_stall hn ha]
          simpa only [if_neg (show ¬ limit < stalled + 1 by omega)] using hlater
      | some (k + 1) =>
        rw [givesUpAfter_progress hs ha]
        refine ih _ (Nat.zero_le _) ?_
        -- an attempt that does something pays for the row after it
        have hpaid : (limit + 1) * (n - (k + 1)) + (limit + 1) ≤ (limit + 1) * n := by
          rw [← Nat.mul_succ]
          exact Nat.mul_le_mul_left _ (by omega)
        omega

end Zecd
