import Mathlib

/-! # Runs of event-driven systems

A system handles one event at a time. `run` is the state after a list of events,
`Along` states that every event met a condition in the state it was handled in, and
`invariant` is the induction that carries a property through such a run.
-/

namespace Zecd.Runs

variable {σ ε : Type*}

/-- The state after handling the events in order. -/
def run (step : σ → ε → σ) (s : σ) (es : List ε) : σ := es.foldl step s

/-- Every event meets the condition in the state it is handled in. -/
def Along (step : σ → ε → σ) (P : σ → ε → Prop) : σ → List ε → Prop
  | _, [] => True
  | s, e :: es => P s e ∧ Along step P (step s e) es

variable {step : σ → ε → σ} {P : σ → ε → Prop} {I : σ → Prop} {s : σ} {e : ε} {es es' : List ε}

instance decidableAlong [h : ∀ s e, Decidable (P s e)] :
    (s : σ) → (es : List ε) → Decidable (Along step P s es)
  | _, [] => inferInstanceAs (Decidable True)
  | s, e :: es => @instDecidableAnd _ _ (h s e) (decidableAlong (step s e) es)

@[simp] theorem run_nil : run step s [] = s := rfl
@[simp] theorem run_cons : run step s (e :: es) = run step (step s e) es := rfl
@[simp] theorem along_nil : Along step P s [] := trivial
@[simp] theorem along_cons :
    Along step P s (e :: es) ↔ P s e ∧ Along step P (step s e) es := Iff.rfl

theorem run_append : run step s (es ++ es') = run step (run step s es) es' :=
  List.foldl_append

theorem along_append :
    Along step P s (es ++ es') ↔ Along step P s es ∧ Along step P (run step s es) es' := by
  induction es generalizing s with
  | nil => simp
  | cons e es ih => simp [ih, and_assoc]

/-- A property that each allowed step preserves holds after every allowed run. -/
theorem invariant (hstep : ∀ s e, I s → P s e → I (step s e)) (hs : I s)
    (h : Along step P s es) : I (run step s es) := by
  induction es generalizing s with
  | nil => exact hs
  | cons e es ih => exact ih (hstep s e hs h.1) h.2

theorem along_congr {Q : σ → ε → Prop} (hstep : ∀ s e, I s → I (step s e))
    (h : ∀ s e, I s → (P s e ↔ Q s e)) (hs : I s) : Along step P s es ↔ Along step Q s es := by
  induction es generalizing s with
  | nil => simp
  | cons e es ih => rw [along_cons, along_cons, h s e hs, ih (hstep s e hs)]

theorem along_imp {Q : σ → ε → Prop} (hstep : ∀ s e, I s → P s e → I (step s e))
    (h : ∀ s e, I s → P s e → Q s e) (hs : I s) (hP : Along step P s es) :
    Along step Q s es := by
  induction es generalizing s with
  | nil => trivial
  | cons e es ih => exact ⟨h s e hs hP.1, ih (hstep s e hs hP.1) hP.2⟩

theorem along_of_forall {R : ε → Prop} (hR : ∀ e ∈ es, R e) :
    Along step (fun _ e => R e) s es := by
  induction es generalizing s with
  | nil => trivial
  | cons e es ih =>
    exact ⟨hR e List.mem_cons_self, ih fun e he => hR e (List.mem_cons_of_mem _ he)⟩

theorem along_of_isPrefix (h : Along step P s es) (hes : es' <+: es) : Along step P s es' := by
  obtain ⟨rest, rfl⟩ := hes
  exact (along_append.mp h).1

/-- Where an invariant holds, a condition keeps it and nothing but the condition keeps what is
asked of a state, a run of admitted events meets the condition exactly when every state it
reaches is as asked. -/
theorem forall_reached_iff_along_of {G : σ → Prop} {L : σ → ε → Prop}
    (hstep : ∀ s e, I s → L s e → P s e → I (step s e)) (hgood : ∀ s, I s → G s)
    (hbad : ∀ s e, I s → L s e → G (step s e) → P s e) (hs : I s) (hL : Along step L s es) :
    (∀ es', es' <+: es → G (run step s es')) ↔ Along step P s es := by
  induction es generalizing s with
  | nil =>
    refine ⟨fun _ => trivial, fun _ es' hes => ?_⟩
    rw [List.prefix_nil.mp hes]
    exact hgood s hs
  | cons e es ih =>
    constructor
    · intro h
      have hP := hbad s e hs hL.1 (h [e] (List.cons_prefix_cons.mpr ⟨rfl, List.nil_prefix⟩))
      refine ⟨hP, (ih (hstep s e hs hL.1 hP) hL.2).mp fun es' hes => ?_⟩
      exact h (e :: es') (List.cons_prefix_cons.mpr ⟨rfl, hes⟩)
    · rintro ⟨hP, h⟩ es' hes
      cases es' with
      | nil => exact hgood s hs
      | cons e' es' =>
        obtain ⟨rfl, hrest⟩ := List.cons_prefix_cons.mp hes
        exact (ih (hstep s e' hs hL.1 hP) hL.2).mpr h es' hrest

theorem along_of_always (hP : ∀ s e, P s e) : Along step P s es := by
  induction es generalizing s with
  | nil => trivial
  | cons e es ih => exact ⟨hP s e, ih⟩

theorem forall_reached_iff_along {G : σ → Prop} (hstep : ∀ s e, I s → P s e → I (step s e))
    (hgood : ∀ s, I s → G s) (hbad : ∀ s e, I s → G (step s e) → P s e) (hs : I s) :
    (∀ es', es' <+: es → G (run step s es')) ↔ Along step P s es :=
  forall_reached_iff_along_of (L := fun _ _ => True) (fun s e hI _ => hstep s e hI) hgood
    (fun s e hI _ => hbad s e hI) hs (along_of_always fun _ _ => trivial)

theorem forall_of_along {R : ε → Prop} (h : Along step P s es) (hR : ∀ s e, P s e → R e) :
    ∀ e ∈ es, R e := by
  induction es generalizing s with
  | nil => exact fun _ he => absurd he List.not_mem_nil
  | cons e es ih =>
    intro x hx
    rcases List.mem_cons.mp hx with rfl | hx
    · exact hR s x h.1
    · exact ih h.2 x hx

theorem along_and_forall {R : ε → Prop} (h : Along step P s es) (hR : ∀ e ∈ es, R e) :
    Along step (fun s e => P s e ∧ R e) s es := by
  induction es generalizing s with
  | nil => trivial
  | cons e es ih =>
    exact ⟨⟨h.1, hR e List.mem_cons_self⟩, ih h.2 fun e he => hR e (List.mem_cons_of_mem _ he)⟩

/-! ## What a run emits and counts -/

/-- What the events emit, in order. -/
def trace {α : Type*} (step : σ → ε → σ) (f : σ → ε → Option α) : σ → List ε → List α
  | _, [] => []
  | s, e :: es => (f s e).toList ++ trace step f (step s e) es

/-- What enters a queue at its end and leaves it at its front leaves in the order it came. -/
theorem trace_queue {α : Type*} {enters leaves : σ → ε → Option α} (queue : σ → List α)
    (hI : ∀ s e, I s → I (step s e))
    (hq : ∀ s e, I s → queue s ++ (enters s e).toList = (leaves s e).toList ++ queue (step s e))
    (hs : I s) :
    queue s ++ trace step enters s es = trace step leaves s es ++ queue (run step s es) := by
  induction es generalizing s with
  | nil => simp [trace]
  | cons e es ih =>
    calc queue s ++ trace step enters s (e :: es)
        = (queue s ++ (enters s e).toList) ++ trace step enters (step s e) es := by
          rw [trace, List.append_assoc]
      _ = (leaves s e).toList ++ (queue (step s e) ++ trace step enters (step s e) es) := by
          rw [hq s e hs, List.append_assoc]
      _ = trace step leaves s (e :: es) ++ queue (run step s (e :: es)) := by
          rw [ih (hI s e hs), trace, List.append_assoc, run_cons]

variable (es) in
theorem total_eq {m : σ → ℕ} {f : ε → ℕ} (h : ∀ s, ∀ e ∈ es, m (step s e) = m s + f e) :
    m (run step s es) = m s + (es.map f).sum := by
  induction es generalizing s with
  | nil => rfl
  | cons e es ih =>
    rw [run_cons, ih fun s e he => h s e (List.mem_cons_of_mem _ he), h s e List.mem_cons_self,
      List.map_cons, List.sum_cons, Nat.add_assoc]

variable (es) in
theorem total_le {m : σ → ℕ} {f : ε → ℕ} (h : ∀ s e, m (step s e) ≤ m s + f e) :
    m (run step s es) ≤ m s + (es.map f).sum := by
  induction es generalizing s with
  | nil => exact le_rfl
  | cons e es ih =>
    calc m (run step (step s e) es) ≤ m (step s e) + (es.map f).sum := ih
      _ ≤ m s + f e + (es.map f).sum := Nat.add_le_add_right (h s e) _
      _ = m s + ((e :: es).map f).sum := by rw [List.map_cons, List.sum_cons, Nat.add_assoc]

end Zecd.Runs
