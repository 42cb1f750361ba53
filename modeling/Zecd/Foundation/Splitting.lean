import Mathlib.Algebra.BigOperators.Group.List.Basic
import Mathlib.Tactic.Ring

/-! # Work split in two until it fits

A piece of work is done, fails, or is split in two, and the pieces wait on a stack with the next
one on top. The stack gives what the pieces give one after another, within a number of visits
bounded by their sizes.
-/

namespace Zecd.Splitting

universe u v w

variable {ρ : Type u} {α : Type v} {ε : Type w}

inductive Visit (ρ : Type u) (α : Type v) (ε : Type w) where
  | done (items : List α)
  | split (first second : ρ)
  | failed (error : ε)

/-- Visit the pieces on the stack until it is empty or one fails. -/
def run (visit : ρ → Visit ρ α ε) : ℕ → List ρ → List α → Option (Except ε (List α))
  | 0, _, _ => none
  | _ + 1, [], out => some (.ok out)
  | fuel + 1, r :: pending, out =>
    match visit r with
    | .done items => run visit fuel pending (out ++ items)
    | .split first second => run visit fuel (first :: second :: pending) out
    | .failed error => some (.error error)

def visited (visit : ρ → Visit ρ α ε) : ℕ → List ρ → List ρ
  | 0, _ => []
  | _ + 1, [] => []
  | fuel + 1, r :: pending => r ::
    match visit r with
    | .done _ => visited visit fuel pending
    | .split first second => visited visit fuel (first :: second :: pending)
    | .failed _ => []

/-- What the pieces give one after another, behind what they are appended to. -/
def inOrder (meaning : ρ → Except ε (List α)) : List ρ → List α → Except ε (List α)
  | [], out => .ok out
  | r :: pending, out =>
    match meaning r with
    | .ok items => inOrder meaning pending (out ++ items)
    | .error error => .error error

/-- A visit agrees with what the piece means: a split leaves two pieces of its kind that mean the
same one after the other, and are no larger together. -/
def Agrees (Valid : ρ → Prop) (size : ρ → ℕ) (meaning : ρ → Except ε (List α)) (r : ρ) :
    Visit ρ α ε → Prop
  | .done items => meaning r = .ok items
  | .split first second => Valid first ∧ Valid second ∧ size first + size second ≤ size r ∧
      ∀ out, inOrder meaning [first, second] out = inOrder meaning [r] out
  | .failed error => meaning r = .error error

variable {visit : ρ → Visit ρ α ε} {Valid : ρ → Prop} {size : ρ → ℕ}
  {meaning : ρ → Except ε (List α)}

theorem inOrder_append (rs rs' : List ρ) (out : List α) :
    inOrder meaning (rs ++ rs') out =
      match inOrder meaning rs out with
      | .ok items => inOrder meaning rs' items
      | .error error => .error error := by
  induction rs generalizing out with
  | nil => rfl
  | cons r rs ih =>
    simp only [List.cons_append, inOrder]
    cases meaning r with
    | ok items => exact ih (out ++ items)
    | error error => rfl

/-- Each visit of a piece lowers twice the size on the stack less one for each piece. -/
theorem run_eq (hvisit : ∀ r, Valid r → Agrees Valid size meaning r (visit r))
    (hsize : ∀ r, Valid r → 0 < size r) (fuel : ℕ) (pending : List ρ) (out : List α)
    (hvalid : ∀ r ∈ pending, Valid r)
    (hfuel : (pending.map fun r => 2 * size r - 1).sum < fuel) :
    run visit fuel pending out = some (inOrder meaning pending out) := by
  induction fuel generalizing pending out with
  | zero => exact absurd hfuel (Nat.not_lt_zero _)
  | succ fuel ih =>
    cases pending with
    | nil => rfl
    | cons r pending =>
      obtain ⟨hr, hrest⟩ := List.forall_mem_cons.mp hvalid
      rw [List.map_cons, List.sum_cons] at hfuel
      have hpos := hsize r hr
      have hagrees := hvisit r hr
      rw [run]
      cases hv : visit r with
      | done items =>
        rw [hv] at hagrees
        rw [inOrder, show meaning r = .ok items from hagrees]
        exact ih pending (out ++ items) hrest (by omega)
      | split first second =>
        rw [hv] at hagrees
        obtain ⟨hfirst, hsecond, hsizes, hmeans⟩ := hagrees
        have hposFirst := hsize first hfirst
        have hposSecond := hsize second hsecond
        have hrun := ih (first :: second :: pending) out
          (List.forall_mem_cons.mpr ⟨hfirst, List.forall_mem_cons.mpr ⟨hsecond, hrest⟩⟩)
          (by simp only [List.map_cons, List.sum_cons]; omega)
        have hpieces : inOrder meaning (first :: second :: pending) out =
            inOrder meaning (r :: pending) out := by
          rw [show first :: second :: pending = [first, second] ++ pending from rfl,
            inOrder_append, hmeans out, ← inOrder_append, List.singleton_append]
        exact hrun.trans (congrArg some hpieces)
      | failed error =>
        rw [hv] at hagrees
        rw [inOrder, show meaning r = .error error from hagrees]

theorem visited_valid (hvisit : ∀ r, Valid r → Agrees Valid size meaning r (visit r))
    (fuel : ℕ) (pending : List ρ) (hvalid : ∀ r ∈ pending, Valid r) :
    ∀ r ∈ visited visit fuel pending, Valid r := by
  induction fuel generalizing pending with
  | zero =>
    intro r hr
    cases hr
  | succ fuel ih =>
    cases pending with
    | nil =>
      intro r hr
      cases hr
    | cons r pending =>
      obtain ⟨hr, hrest⟩ := List.forall_mem_cons.mp hvalid
      have hagrees := hvisit r hr
      rw [visited]
      cases hv : visit r with
      | done items => exact List.forall_mem_cons.mpr ⟨hr, ih pending hrest⟩
      | split first second =>
        rw [hv] at hagrees
        obtain ⟨hfirst, hsecond, -, -⟩ := hagrees
        refine List.forall_mem_cons.mpr ⟨hr, ih (first :: second :: pending) ?_⟩
        exact List.forall_mem_cons.mpr ⟨hfirst, List.forall_mem_cons.mpr ⟨hsecond, hrest⟩⟩
      | failed error => exact List.forall_mem_cons.mpr ⟨hr, List.forall_mem_nil _⟩

end Zecd.Splitting
