import Mathlib

/-! # Fallible computations

Inversion lemmas for `Except`: a computation that returns took every one of its
steps successfully. They let a proof peel a `do` block apart without unfolding
what each step does.
-/

namespace Zecd.Fallible

universe u v

variable {ε : Type u} {α β : Type v}

/-- Succeed exactly when the condition holds, else fail with the given error. -/
def ensure (b : Bool) (e : ε) : Except ε Unit := if b then .ok () else .error e

@[simp] theorem ensure_eq_ok {b : Bool} {e : ε} {x : Unit} :
    ensure b e = .ok x ↔ b = true := by
  cases b <;> simp [ensure]

@[simp] theorem bind_eq_ok {x : Except ε α} {f : α → Except ε β} {b : β} :
    (x >>= f) = .ok b ↔ ∃ a, x = .ok a ∧ f a = .ok b := by
  cases x <;> simp [bind, Except.bind]

theorem bind_eq_error {x : Except ε α} {f : α → Except ε β} {e : ε} :
    (x >>= f) = .error e ↔ x = .error e ∨ ∃ a, x = .ok a ∧ f a = .error e := by
  cases x <;> simp [bind, Except.bind]

theorem ensure_eq_error {b : Bool} {e e' : ε} :
    ensure b e = .error e' ↔ b = false ∧ e = e' := by
  cases b <;> simp [ensure]

theorem ok_bind (a : α) (f : α → Except ε β) : (.ok a : Except ε α) >>= f = f a := rfl

@[simp] theorem pure_eq_ok {a b : α} : (pure a : Except ε α) = .ok b ↔ a = b := by
  simp [pure, Except.pure]

theorem mapM_cons_ok {f : α → Except ε β} {a : α} {as : List α} {bs : List β} :
    (a :: as).mapM f = .ok bs ↔
      ∃ b bs', f a = .ok b ∧ as.mapM f = .ok bs' ∧ bs = b :: bs' := by
  simp only [List.mapM_cons, bind_eq_ok, pure_eq_ok]
  constructor
  · rintro ⟨b, hb, bs', hbs, rfl⟩; exact ⟨b, bs', hb, hbs, rfl⟩
  · rintro ⟨b, bs', hb, hbs, rfl⟩; exact ⟨b, hb, bs', hbs, rfl⟩

theorem forM_ok {f : α → Except ε PUnit} {as : List α} {u : PUnit} :
    as.forM f = .ok u ↔ ∀ a ∈ as, f a = .ok u := by
  induction as with
  | nil => simp [List.forM]
  | cons a as ih =>
    rw [List.forM, bind_eq_ok, List.forall_mem_cons, ← ih]
    exact ⟨fun ⟨_, ha, has⟩ => ⟨ha, has⟩, fun ⟨ha, has⟩ => ⟨u, ha, has⟩⟩

theorem exists_of_mem_mapM {f : α → Except ε β} {as : List α} {bs : List β}
    (h : as.mapM f = .ok bs) {b : β} (hb : b ∈ bs) : ∃ a ∈ as, f a = .ok b := by
  induction as generalizing bs with
  | nil =>
    rw [List.mapM_nil, pure_eq_ok] at h
    subst h
    cases hb
  | cons a as ih =>
    obtain ⟨b', bs', hb', hbs, rfl⟩ := mapM_cons_ok.mp h
    rcases List.mem_cons.mp hb with rfl | hb
    · exact ⟨a, List.mem_cons_self, hb'⟩
    · obtain ⟨x, hx, hfx⟩ := ih hbs hb
      exact ⟨x, List.mem_cons_of_mem _ hx, hfx⟩

end Zecd.Fallible
