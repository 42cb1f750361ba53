import Mathlib

/-! # Draining a list in batches

Each pass takes a batch off the front of what is pending, and nothing new comes up. The passes
end with a batch that takes all that is left. Each element was in one batch by then, unless it
went away by itself.
-/

namespace Zecd.Draining

variable {α : Type*} {k n : ℕ} {pending batch : ℕ → List α} {r : α}

/-- No pass before this one took all that was left. -/
def Reached (k : ℕ) (pending : ℕ → List α) (n : ℕ) : Prop := ∀ m < n, k < (pending m).length

/-- The batches are taken off the front, up to `k` at a time, and what is pending next is among
the rest. -/
structure Drains (k : ℕ) (pending batch : ℕ → List α) : Prop where
  nodup : ∀ n, (pending n).Nodup
  takes : ∀ n, Reached k pending n → (batch n).Perm ((pending n).take k)
  shrinks : ∀ n, Reached k pending (n + 1) → ∀ r ∈ pending (n + 1), r ∈ pending n ∧ r ∉ batch n

/-- What the passes before this one took. -/
def taken (batch : ℕ → List α) (n : ℕ) : List α := (List.range n).flatMap batch

theorem taken_succ (batch : ℕ → List α) (n : ℕ) :
    taken batch (n + 1) = taken batch n ++ batch n := by
  rw [taken, List.range_succ, List.flatMap_append, List.flatMap_singleton]
  rfl

theorem Reached.of_succ (h : Reached k pending (n + 1)) : Reached k pending n :=
  fun m hm => h m (hm.trans (Nat.lt_succ_self n))

namespace Drains

variable (h : Drains k pending batch)

include h

theorem batch_nodup (hn : Reached k pending n) : (batch n).Nodup :=
  (h.takes n hn).nodup_iff.mpr ((List.take_sublist _ _).nodup (h.nodup n))

theorem batch_subset (hn : Reached k pending n) : batch n ⊆ pending n := fun _ hr =>
  List.mem_of_mem_take ((h.takes n hn).mem_iff.mp hr)

theorem length_succ_lt (hk : 0 < k) (hn : Reached k pending (n + 1)) :
    (pending (n + 1)).length < (pending n).length := by
  have hlong := hn n (Nat.lt_succ_self n)
  have hrest : pending (n + 1) ⊆ (pending n).drop k := by
    intro r hr
    obtain ⟨hmem, hnot⟩ := h.shrinks n hn r hr
    rw [← List.take_append_drop k (pending n), List.mem_append] at hmem
    exact hmem.resolve_left fun htake => hnot ((h.takes n hn.of_succ).mem_iff.mpr htake)
  have hle := ((h.nodup (n + 1)).subperm hrest).length_le
  rw [List.length_drop] at hle
  omega

theorem length_add_le (hk : 0 < k) (hn : Reached k pending n) :
    (pending n).length + n ≤ (pending 0).length := by
  induction n with
  | zero => exact le_rfl
  | succ n ih =>
    have hlt := h.length_succ_lt hk hn
    have hle := ih hn.of_succ
    omega

theorem ends (hk : 0 < k) :
    ∃ n ≤ (pending 0).length, Reached k pending n ∧ (pending n).length ≤ k := by
  by_contra hnever
  push Not at hnever
  have hreached : ∀ n ≤ (pending 0).length + 1, Reached k pending n := by
    intro n hn
    induction n with
    | zero => exact fun m hm => absurd hm (Nat.not_lt_zero m)
    | succ n ih =>
      intro m hm
      rcases Nat.lt_succ_iff_lt_or_eq.mp hm with hlt | rfl
      · exact ih (by omega) m hlt
      · exact hnever m (by omega) (ih (by omega))
  have hle := h.length_add_le hk (hreached _ le_rfl)
  omega

variable [DecidableEq α]

/-- What is still pending was not taken, and nothing was taken twice. -/
theorem count_taken (hn : Reached k pending n) :
    (r ∈ pending n ∧ (taken batch n).count r = 0) ∨
      (r ∉ pending n ∧ ((taken batch n).count r = 1 ∨ (taken batch n).count r = 0)) := by
  induction n with
  | zero =>
    by_cases hr : r ∈ pending 0
    · exact Or.inl ⟨hr, rfl⟩
    · exact Or.inr ⟨hr, Or.inr rfl⟩
  | succ n ih =>
    rw [taken_succ, List.count_append]
    rcases ih hn.of_succ with ⟨-, hcount⟩ | ⟨hgone, hcount⟩
    · by_cases hbatch : r ∈ batch n
      · right
        refine ⟨fun hr => (h.shrinks n hn r hr).2 hbatch, Or.inl ?_⟩
        rw [hcount, List.count_eq_one_of_mem (h.batch_nodup hn.of_succ) hbatch]
      · rw [hcount, List.count_eq_zero_of_not_mem hbatch]
        by_cases hr : r ∈ pending (n + 1)
        · exact Or.inl ⟨hr, rfl⟩
        · exact Or.inr ⟨hr, Or.inr rfl⟩
    · have hbatch : r ∉ batch n := fun hr => hgone (h.batch_subset hn.of_succ hr)
      rw [List.count_eq_zero_of_not_mem hbatch]
      exact Or.inr ⟨fun hr => hgone (h.shrinks n hn r hr).1, hcount⟩

/-- By the end, each element was taken once, or it had gone away and was not taken. -/
theorem taken_once (hn : Reached k pending n) (hend : (pending n).length ≤ k) (r : α) :
    (taken batch (n + 1)).count r = 1 ∨ (taken batch (n + 1)).count r = 0 ∧ r ∉ pending n := by
  have hall := h.takes n hn
  rw [List.take_of_length_le hend] at hall
  rw [taken_succ, List.count_append, hall.count_eq]
  rcases h.count_taken (r := r) hn with ⟨hr, hcount⟩ | ⟨hr, hcount⟩
  · left
    rw [hcount, List.count_eq_one_of_mem (h.nodup n) hr]
  · rw [List.count_eq_zero_of_not_mem hr]
    exact hcount.imp id fun hzero => ⟨hzero, hr⟩

end Drains

end Zecd.Draining
