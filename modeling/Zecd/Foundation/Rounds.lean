import Zecd.Foundation.Runs

/-! # Progress by rounds

A schedule is cut into rounds. Where no admitted event raises a rank, and in every state some kind
of event lowers it and goes on to until it does, the rank runs out after as many rounds, if each
round has an event of every kind.
-/

namespace Zecd.Runs

variable {σ ε κ : Type*} {step : σ → ε → σ} {I : σ → Prop} {A : ε → Prop} {rank : σ → ℕ}
  {E : κ → σ → Prop} {N : κ → ε → Prop} {s : σ} {e : ε} {es : List ε} {rounds : List (List ε)}

/-- The kinds of events `N` are enabled where `E` says so: they lower the rank there, and stay
enabled until it is lowered. -/
structure Descends (step : σ → ε → σ) (I : σ → Prop) (A : ε → Prop) (rank : σ → ℕ)
    (E : κ → σ → Prop) (N : κ → ε → Prop) : Prop where
  keeps : ∀ s e, I s → A e → I (step s e)
  le : ∀ s e, I s → A e → rank (step s e) ≤ rank s
  stays : ∀ k s e, I s → A e → E k s → rank (step s e) = rank s → E k (step s e)
  drops : ∀ k s e, I s → E k s → N k e → rank (step s e) < rank s
  acts : ∀ s, I s → rank s ≠ 0 → ∃ k, E k s

namespace Descends

variable (d : Descends step I A rank E N)

include d

theorem invariant_run (hs : I s) (hes : ∀ e ∈ es, A e) : I (run step s es) := by
  induction es generalizing s with
  | nil => exact hs
  | cons e es ih =>
    apply ih (d.keeps s e hs (hes e List.mem_cons_self))
    exact fun x hx => hes x (List.mem_cons_of_mem _ hx)

theorem run_le (hs : I s) (hes : ∀ e ∈ es, A e) : rank (run step s es) ≤ rank s := by
  induction es generalizing s with
  | nil => exact le_rfl
  | cons e es ih =>
    have he := hes e List.mem_cons_self
    calc rank (run step (step s e) es)
        ≤ rank (step s e) :=
          ih (d.keeps s e hs he) fun x hx => hes x (List.mem_cons_of_mem _ hx)
      _ ≤ rank s := d.le s e hs he

/-- A round with an event of an enabled kind lowers the rank, wherever the event stands: what comes
before it leaves the kind enabled, or lowers the rank itself. -/
theorem round_lt {k : κ} (hs : I s) (hes : ∀ e ∈ es, A e) (henabled : E k s)
    (hacts : ∃ e ∈ es, N k e) : rank (run step s es) < rank s := by
  induction es generalizing s with
  | nil =>
    obtain ⟨e, he, -⟩ := hacts
    cases he
  | cons e es ih =>
    have he := hes e List.mem_cons_self
    have hrest : ∀ x ∈ es, A x := fun x hx => hes x (List.mem_cons_of_mem _ hx)
    have hnext := d.keeps s e hs he
    rw [run_cons]
    rcases (d.le s e hs he).lt_or_eq with hlt | heq
    · exact (d.run_le hnext hrest).trans_lt hlt
    · rw [← heq]
      apply ih hnext hrest (d.stays k s e hs he henabled heq)
      obtain ⟨x, hx, hk⟩ := hacts
      rcases List.mem_cons.mp hx with rfl | hx
      · exact absurd heq (d.drops k s x hs henabled hk).ne
      · exact ⟨x, hx, hk⟩

theorem rounds_le (hs : I s) (hA : ∀ round ∈ rounds, ∀ e ∈ round, A e)
    (hN : ∀ round ∈ rounds, ∀ k, ∃ e ∈ round, N k e) :
    rank (run step s rounds.flatten) ≤ rank s - rounds.length := by
  induction rounds generalizing s with
  | nil => exact le_rfl
  | cons round rounds ih =>
    have hround := hA round List.mem_cons_self
    have hnext := ih (d.invariant_run hs hround)
      (fun r hr => hA r (List.mem_cons_of_mem _ hr)) fun r hr => hN r (List.mem_cons_of_mem _ hr)
    rw [List.flatten_cons, run_append, List.length_cons]
    by_cases hzero : rank s = 0
    · have := d.run_le hs hround
      omega
    · obtain ⟨k, hk⟩ := d.acts s hs hzero
      have := d.round_lt hs hround hk (hN round List.mem_cons_self k)
      omega

end Descends

end Zecd.Runs
