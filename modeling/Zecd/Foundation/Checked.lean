import Mathlib

/-! # Checked arithmetic

Sums and products of machine integers: `none` once a result leaves the range of the type. A
computation that never leaves it has the exact result.
-/

namespace Zecd.Checked

variable {α : Type*} (inRange : α → Prop) [DecidablePred inRange]

def fit (n : α) : Option α := if inRange n then some n else none

/-- An operation on two values, checked after it. -/
def apply (f : α → α → α) (x y : Option α) : Option α := do fit inRange (f (← x) (← y))

def add [Add α] (x y : Option α) : Option α := apply inRange (· + ·) x y

def mul [Mul α] (x y : Option α) : Option α := apply inRange (· * ·) x y

variable {inRange} {a b n : α}

theorem fit_of_inRange (h : inRange n) : fit inRange n = some n := if_pos h

/-- If the operands fit whenever the result does, the exact results are not told apart from
checked ones. -/
theorem apply_fit {f : α → α → α} (h : inRange (f a b) → inRange a ∧ inRange b) :
    apply inRange f (fit inRange a) (fit inRange b) = fit inRange (f a b) := by
  by_cases hab : inRange (f a b)
  · rw [fit_of_inRange (h hab).1, fit_of_inRange (h hab).2]
    rfl
  · rw [show fit inRange (f a b) = none from if_neg hab]
    unfold apply fit
    split
    · split
      · exact if_neg hab
      · rfl
    · rfl

theorem add_fit [Add α] (h : inRange (a + b) → inRange a ∧ inRange b) :
    add inRange (fit inRange a) (fit inRange b) = fit inRange (a + b) := apply_fit h

theorem mul_fit [Mul α] (h : inRange (a * b) → inRange a ∧ inRange b) :
    mul inRange (fit inRange a) (fit inRange b) = fit inRange (a * b) := apply_fit h

end Zecd.Checked
