import Mathlib.Data.List.Nodup
import Mathlib.Data.List.Sort
import Mathlib.Data.Option.Basic
import Mathlib.Order.Defs.LinearOrder

/-! # Three-valued logic over nullable columns

A truth value is null where the comparison it comes from reads a null. A condition selects a row
when it is true, so the lemmas say when each connective is.
-/

namespace Zecd.Sql

abbrev Truth := Option Bool

def and : Truth → Truth → Truth
  | some false, _ => some false
  | some true, b => b
  | none, some false => some false
  | none, _ => none

def or : Truth → Truth → Truth
  | some true, _ => some true
  | some false, b => b
  | none, some true => some true
  | none, _ => none

def isNull {α : Type} (x : Option α) : Truth := some x.isNone

/-- A comparison with a null is null. -/
def compare {α β : Type} (r : α → β → Bool) (x : Option α) (y : Option β) : Truth :=
  x.bind fun a => y.map (r a)

def eq {α : Type} [DecidableEq α] : Option α → Option α → Truth :=
  compare fun a b => decide (a = b)

section Order

variable {α : Type} [LinearOrder α]

def lt : Option α → Option α → Truth := compare fun a b => decide (a < b)

def le : Option α → Option α → Truth := compare fun a b => decide (a ≤ b)

def between (x lo hi : Option α) : Truth := and (le lo x) (le x hi)

end Order

def add {α : Type} [Add α] (x y : Option α) : Option α := x.bind fun a => y.map (a + ·)

def coalesce {α : Type} (x y : Option α) : Option α := x.or y

def ifNull {α : Type} (x y : Option α) : Option α := coalesce x y

def caseWhen {α : Type} (condition : Truth) (x y : α) : α := if condition = some true then x else y

/-! ## When a condition is true -/

variable {a b : Truth}

@[simp] theorem and_eq_true : and a b = some true ↔ a = some true ∧ b = some true := by
  rcases a with - | (- | -) <;> rcases b with - | (- | -) <;> simp [and]

@[simp] theorem or_eq_true : or a b = some true ↔ a = some true ∨ b = some true := by
  rcases a with - | (- | -) <;> rcases b with - | (- | -) <;> simp [or]

@[simp] theorem isNull_eq_true {α : Type} {x : Option α} : isNull x = some true ↔ x = none := by
  simp [isNull]

@[simp] theorem ifNull_false_eq_true : ifNull a (some false) = some true ↔ a = some true := by
  rcases a with - | (- | -) <;> simp [ifNull, coalesce]

theorem ifNull_ne_none {α : Type} (x : Option α) (y : α) : ifNull x (some y) ≠ none := by
  cases x <;> simp [ifNull, coalesce]

variable {α : Type}

@[simp] theorem compare_eq_true {β : Type} {r : α → β → Bool} {x : Option α} {y : Option β} :
    compare r x y = some true ↔ ∃ a ∈ x, ∃ b ∈ y, r a b = true := by
  cases x <;> cases y <;> simp [compare]

@[simp] theorem eq_eq_true [DecidableEq α] {x y : Option α} :
    eq x y = some true ↔ ∃ a ∈ x, a ∈ y := by
  simp [eq]

section Order

variable [LinearOrder α] {x y lo hi : Option α}

@[simp] theorem lt_eq_true : lt x y = some true ↔ ∃ a ∈ x, ∃ b ∈ y, a < b := by
  simp [lt]

@[simp] theorem le_eq_true : le x y = some true ↔ ∃ a ∈ x, ∃ b ∈ y, a ≤ b := by
  simp [le]

@[simp] theorem between_eq_true : between x lo hi = some true ↔
    ∃ a ∈ x, (∃ b ∈ lo, b ≤ a) ∧ ∃ c ∈ hi, a ≤ c := by
  cases x <;> simp [between]

end Order

@[simp] theorem add_eq_some [Add α] {x y : Option α} {c : α} :
    add x y = some c ↔ ∃ a ∈ x, ∃ b ∈ y, a + b = c := by
  cases x <;> cases y <;> simp [add]

/-! ## Ordering rows -/

section OrderBy

variable {κ ι : Type} [LinearOrder κ] [LinearOrder ι]

def ascNullsLast : Option κ → Option κ → Bool
  | some a, some b => decide (a ≤ b)
  | _, none => true
  | none, some _ => false

def descNullsFirst : Option κ → Option κ → Bool
  | some a, some b => decide (b ≤ a)
  | none, _ => true
  | some _, none => false

/-- Rows by a nullable key, those that tie by a second key. -/
def byKeys (le₁ : Option κ → Option κ → Bool) (le₂ : ι → ι → Bool) (key₁ : α → Option κ)
    (key₂ : α → ι) (x y : α) : Bool :=
  if key₁ x = key₁ y then le₂ (key₂ x) (key₂ y) else le₁ (key₁ x) (key₁ y)

def orderBy (le : α → α → Bool) (rows : List α) : List α := rows.insertionSort fun x y => le x y

theorem pairwise_orderBy {le : α → α → Bool}
    (htrans : ∀ x y z, le x y = true → le y z = true → le x z = true)
    (htotal : ∀ x y, le x y = true ∨ le y x = true) (rows : List α) :
    (orderBy le rows).Pairwise fun x y => le x y = true := by
  have : IsTrans α fun x y => le x y = true := ⟨htrans⟩
  have : Std.Total fun x y => le x y = true := ⟨htotal⟩
  exact List.pairwise_insertionSort _ rows

variable {key₁ : α → Option κ} {key₂ : α → ι}

theorem descNullsFirst_eq (x y : Option κ) : descNullsFirst x y = ascNullsLast y x := by
  cases x <;> cases y <;> rfl

theorem ascNullsLast_trans {x y z : Option κ} (hxy : ascNullsLast x y = true)
    (hyz : ascNullsLast y z = true) : ascNullsLast x z = true := by
  cases x <;> cases y <;> cases z <;> simp_all [ascNullsLast]
  exact le_trans hxy hyz

theorem ascNullsLast_total (x y : Option κ) :
    ascNullsLast x y = true ∨ ascNullsLast y x = true := by
  cases x <;> cases y <;> simp [ascNullsLast, le_total]

theorem ascNullsLast_antisymm {x y : Option κ} (hxy : ascNullsLast x y = true)
    (hyx : ascNullsLast y x = true) : x = y := by
  cases x <;> cases y <;> simp_all [ascNullsLast]
  exact le_antisymm hxy hyx

variable (key₁ key₂) in
/-- Oldest first: both keys ascending, nulls last. -/
def ascending : α → α → Bool := byKeys ascNullsLast (fun i j => decide (i ≤ j)) key₁ key₂

variable (key₁ key₂) in
/-- Newest first: both keys descending, nulls first. -/
def descending : α → α → Bool := byKeys descNullsFirst (fun i j => decide (j ≤ i)) key₁ key₂

theorem descending_eq (x y : α) : descending key₁ key₂ x y = ascending key₁ key₂ y x := by
  simp only [descending, ascending, byKeys, descNullsFirst_eq, eq_comm]

theorem ascending_trans (x y z : α) (hxy : ascending key₁ key₂ x y = true)
    (hyz : ascending key₁ key₂ y z = true) : ascending key₁ key₂ x z = true := by
  simp only [ascending, byKeys] at hxy hyz ⊢
  split_ifs at hxy hyz with h₁ h₂ h₂
  · rw [if_pos (h₁.trans h₂)]
    exact decide_eq_true (le_trans (of_decide_eq_true hxy) (of_decide_eq_true hyz))
  · rwa [if_neg (h₁ ▸ h₂), h₁]
  · rwa [if_neg (h₂ ▸ h₁), ← h₂]
  · rw [if_neg]
    · exact ascNullsLast_trans hxy hyz
    · intro h
      exact h₁ (ascNullsLast_antisymm hxy (h ▸ hyz))

theorem ascending_total (x y : α) :
    ascending key₁ key₂ x y = true ∨ ascending key₁ key₂ y x = true := by
  by_cases h : key₁ x = key₁ y
  · simp only [ascending, byKeys, if_pos h, if_pos h.symm, decide_eq_true_eq]
    exact le_total _ _
  · simp only [ascending, byKeys, if_neg h, if_neg (Ne.symm h)]
    exact ascNullsLast_total _ _

theorem ascending_antisymm {x y : α} (hxy : ascending key₁ key₂ x y = true)
    (hyx : ascending key₁ key₂ y x = true) : key₂ x = key₂ y := by
  simp only [ascending, byKeys] at hxy hyx
  split_ifs at hxy hyx with h₁ h₂ h₂
  · exact le_antisymm (of_decide_eq_true hxy) (of_decide_eq_true hyx)
  · exact absurd h₁.symm h₂
  · exact absurd h₂.symm h₁
  · exact absurd (ascNullsLast_antisymm hxy hyx) h₁

variable (key₁) in
/-- Rows told apart by the second key come back exactly reversed when both keys are turned. -/
theorem orderBy_descending {rows : List α} (hkeys : (rows.map key₂).Nodup) :
    orderBy (descending key₁ key₂) rows = (orderBy (ascending key₁ key₂) rows).reverse := by
  have hperm : (orderBy (descending key₁ key₂) rows).Perm
      (orderBy (ascending key₁ key₂) rows).reverse :=
    (List.perm_insertionSort _ _).trans
      ((List.perm_insertionSort _ _).symm.trans (List.reverse_perm _).symm)
  have hdesc : (orderBy (descending key₁ key₂) rows).Pairwise
      fun x y => ascending key₁ key₂ y x = true := by
    simp only [← descending_eq]
    exact pairwise_orderBy
      (fun x y z hxy hyz => by
        rw [descending_eq] at hxy hyz ⊢
        exact ascending_trans z y x hyz hxy)
      (fun x y => by simpa only [descending_eq] using ascending_total y x) rows
  have hasc : (orderBy (ascending key₁ key₂) rows).reverse.Pairwise
      fun x y => ascending key₁ key₂ y x = true := by
    rw [List.pairwise_reverse]
    exact pairwise_orderBy ascending_trans ascending_total rows
  refine List.Perm.eq_of_pairwise ?_ hdesc hasc hperm
  intro x y hx hy hxy hyx
  refine List.inj_on_of_nodup_map hkeys ?_ ?_ (ascending_antisymm hyx hxy)
  · exact (List.mem_insertionSort _).mp hx
  · exact (List.mem_insertionSort _).mp (List.mem_reverse.mp hy)

end OrderBy

end Zecd.Sql
