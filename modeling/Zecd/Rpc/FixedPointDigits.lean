import Zecd.Rpc.FixedPoint

/-! # The digits of a fixed-point number

What each loop of the parser computes, in exact arithmetic: the bounds it checks are those of
the number it reads, and they keep its own arithmetic from overflowing.
-/

namespace Zecd.FixedPoint

open Decimal Fallible

/-! ## The digits -/

section Digits

variable {c : Char} {a t n : ℕ} {o : ℤ} {val : List Char}

theorem i64_eq_ok {n : ℤ} (hlo : -2 ^ 63 ≤ n) (hhi : n < 2 ^ 63) : i64 n = .ok n :=
  if_pos ⟨hlo, hhi⟩

theorem scaleMantissa_eq (n a : ℕ) : scaleMantissa (n + 1) a =
    if a * 10 ^ n < 10 ^ 17 then .ok ((a * 10 ^ (n + 1) : ℕ) : ℤ) else .error .invalid := by
  induction n generalizing a with
  | zero =>
    rw [scaleMantissa, pow_zero, mul_one, upperBound]
    by_cases ha : a < 10 ^ 17
    · rw [if_neg (by omega), if_pos ha, i64_eq_ok (by omega) (by omega)]
      rw [ok_bind]
      simp only [scaleMantissa, zero_add, pow_one]
      push_cast
      rfl
    · rw [if_pos (by omega), if_neg ha]
  | succ n ih =>
    rw [scaleMantissa, upperBound]
    by_cases ha : a < 10 ^ 17
    · rw [if_neg (by omega), i64_eq_ok (by omega) (by omega)]
      rw [ok_bind]
      rw [show (a : ℤ) * 10 = ((a * 10 : ℕ) : ℤ) by push_cast; rfl, ih (a * 10),
        show a * 10 * 10 ^ n = a * 10 ^ (n + 1) by ring,
        show a * 10 * 10 ^ (n + 1) = a * 10 ^ (n + 1 + 1) by ring]
    · have : a ≤ a * 10 ^ (n + 1) := Nat.le_mul_of_pos_right a (by positivity)
      rw [if_pos (by omega), if_neg (by omega)]

theorem processMantissaDigit_eq (hc : c.isDigit) (ha : a < 10 ^ 18) (ht : t + 1 < 2 ^ 63) :
    processMantissaDigit c ⟨a, t, o⟩ =
      if (push (a, t) c).1 < 10 ^ 18 then
        .ok ⟨(push (a, t) c).1, (push (a, t) c).2, o⟩
      else .error .invalid := by
  rw [processMantissaDigit, push]
  by_cases h0 : c = '0'
  · rw [if_pos h0, if_pos h0]
    dsimp only
    rw [if_pos ha, i64_eq_ok (by omega) (by omega)]
    rfl
  · have hdigit := digit_lt hc
    have hsucc : ((t : ℤ) + 1).toNat = t + 1 := by omega
    have hpow : a * 10 ^ (t + 1) = a * 10 ^ t * 10 := by rw [pow_succ, Nat.mul_assoc]
    rw [if_neg h0, if_neg h0]
    dsimp only
    rw [hsucc, scaleMantissa_eq]
    by_cases hlt : a * 10 ^ t < 10 ^ 17
    · rw [if_pos hlt, if_pos (by omega)]
      rw [ok_bind]
      rw [i64_eq_ok (by omega) (by omega)]
      rfl
    · rw [if_neg hlt, if_neg (by omega)]
      rfl

variable (val) in
def front : List Char := val.takeWhile Char.isDigit

variable (val) in
def behind : List Char := val.dropWhile Char.isDigit

variable (o a t val) in
theorem mantissaDigits_eq {ofs : ℕ} {p : ℕ} (hofs : ofs ≤ 1) (ha : a < 10 ^ 18)
    (ht : t + val.length < 2 ^ 63) (hp : p + val.length < 2 ^ 63) :
    mantissaDigits ofs ⟨a, t, p⟩ val =
      if (pushAll (a, t) (front val)).1 < 10 ^ 18 then
        .ok (⟨(pushAll (a, t) (front val)).1, (pushAll (a, t) (front val)).2,
          (p + ofs * (front val).length : ℕ)⟩, behind val)
      else .error .invalid := by
  induction val generalizing a t p with
  | nil =>
    rw [mantissaDigits, front, behind, List.takeWhile_nil, List.dropWhile_nil, pushAll_nil]
    dsimp only
    rw [if_pos ha]
    simp
  | cons c val ih =>
    rw [List.length_cons] at ht hp
    rw [mantissaDigits]
    by_cases hc : c.isDigit
    · have hfront : front (c :: val) = c :: front val := List.takeWhile_cons_of_pos hc
      have hbehind : behind (c :: val) = behind val := List.dropWhile_cons_of_pos hc
      rw [if_pos hc, hfront, hbehind, pushAll_cons, processMantissaDigit_eq hc ha (by omega)]
      by_cases hlt : (push (a, t) c).1 < 10 ^ 18
      · have hzeros : (push (a, t) c).2 ≤ t + 1 := by
          rw [push]
          split <;> simp
        rw [if_pos hlt, ok_bind]
        dsimp only
        rw [i64_eq_ok (by omega) (by omega), ok_bind,
          show (p : ℤ) + (ofs : ℤ) = ((p + ofs : ℕ) : ℤ) by push_cast; rfl,
          ih _ _ hlt (by omega) (by omega), List.length_cons,
          show p + ofs + ofs * (front val).length = p + ofs * ((front val).length + 1) by ring]
      · rw [if_neg hlt, if_neg]
        · rfl
        · exact fun h => hlt ((le_pushAll _ _).trans_lt h)
    · have hfront : front (c :: val) = [] := List.takeWhile_cons_of_neg hc
      have hbehind : behind (c :: val) = c :: val := List.dropWhile_cons_of_neg hc
      rw [if_neg hc, hfront, hbehind, pushAll_nil]
      dsimp only
      rw [if_pos ha]
      simp

variable (val) in
theorem exponentDigits_eq {e : ℕ} (he : e < 10 ^ 18) :
    exponentDigits e val =
      if e * 10 ^ (front val).length + decimal (front val) < 10 ^ 18 then
        .ok ((e * 10 ^ (front val).length + decimal (front val) : ℕ), behind val)
      else .error .invalid := by
  induction val generalizing e with
  | nil =>
    rw [exponentDigits, front, behind, List.takeWhile_nil, List.dropWhile_nil, decimal_nil,
      List.length_nil, pow_zero, mul_one, Nat.add_zero, if_pos he]
  | cons c val ih =>
    rw [exponentDigits]
    by_cases hc : c.isDigit
    · have hfront : front (c :: val) = c :: front val := List.takeWhile_cons_of_pos hc
      have hbehind : behind (c :: val) = behind val := List.dropWhile_cons_of_pos hc
      have hdigit := digit_lt hc
      have hvalue : e * 10 ^ (c :: front val).length + decimal (c :: front val) =
          (e * 10 + digit c) * 10 ^ (front val).length + decimal (front val) := by
        rw [decimal_cons, List.length_cons, pow_succ]
        ring
      rw [if_pos hc, hfront, hbehind, hvalue, upperBound]
      by_cases hlt : e < 10 ^ 17
      · rw [if_neg (by omega), i64_eq_ok (by omega) (by omega), ok_bind,
          i64_eq_ok (by omega) (by omega), ok_bind,
          show (e : ℤ) * 10 + (digit c : ℕ) = ((e * 10 + digit c : ℕ) : ℤ) by push_cast; rfl,
          ih (by omega)]
      · have hgrow : e * 10 + digit c ≤ (e * 10 + digit c) * 10 ^ (front val).length :=
          Nat.le_mul_of_pos_right _ (by positivity)
        rw [if_pos (by omega), if_neg (by omega)]
    · have hfront : front (c :: val) = [] := List.takeWhile_cons_of_neg hc
      have hbehind : behind (c :: val) = c :: val := List.dropWhile_cons_of_neg hc
      rw [if_neg hc, hfront, hbehind, decimal_nil, List.length_nil, pow_zero, mul_one,
        Nat.add_zero, if_pos he]

end Digits

/-! ## The value -/

section Value

theorem scaleValue_eq {n : ℕ} {v : ℤ} (hv : v.natAbs < 10 ^ 18) : scaleValue n v =
    if v.natAbs * 10 ^ n < 10 ^ 18 then .ok (v * 10 ^ n) else .error .invalid := by
  induction n generalizing v with
  | zero =>
    rw [scaleValue, upperBound, pow_zero, pow_zero, mul_one, mul_one, if_pos hv,
      if_pos (by omega)]
  | succ n ih =>
    have habs : (v * 10).natAbs = v.natAbs * 10 := by rw [Int.natAbs_mul]; rfl
    have hgrow : v.natAbs * 10 ≤ v.natAbs * 10 * 10 ^ n :=
      Nat.le_mul_of_pos_right _ (by positivity)
    rw [scaleValue, upperBound, pow_succ' 10 n, ← Nat.mul_assoc, pow_succ' 10 n, ← Int.mul_assoc]
    by_cases hlt : v.natAbs < 10 ^ 17
    · rw [if_pos (by omega), i64_eq_ok (by omega) (by omega), ok_bind, ih (by omega), habs]
    · rw [if_neg (by omega), if_neg (by omega)]

def signed (negative : Bool) (n : ℕ) : ℤ := if negative then -n else n

theorem natAbs_signed (negative : Bool) (n : ℕ) : (signed negative n).natAbs = n := by
  cases negative <;> simp [signed]

theorem applySign_eq {negative : Bool} {n : ℕ} (hn : n < 10 ^ 18) :
    applySign negative n = .ok (signed negative n) := by
  cases negative
  · rfl
  · exact i64_eq_ok (by omega) (by omega)

/-- The power of ten the mantissa is scaled by in the end. -/
def shift (t p : ℕ) (exponentNegative : Bool) (e : ℕ) : ℤ :=
  signed exponentNegative e - p + t + 8

theorem finalize_eq {negative exponentNegative : Bool} {a t p e : ℕ} (ha : a < 10 ^ 18)
    (ht : t < 10 ^ 17) (hp : p < 10 ^ 17) (he : e < 10 ^ 18) :
    finalize negative ⟨a, t, p⟩ exponentNegative e 8 =
      if 0 ≤ shift t p exponentNegative e ∧ shift t p exponentNegative e < 18 ∧
          a * 10 ^ (shift t p exponentNegative e).toNat < 10 ^ 18 then
        .ok (signed negative a * 10 ^ (shift t p exponentNegative e).toNat)
      else .error .invalid := by
  have hsigned := natAbs_signed exponentNegative e
  have hshift : signed exponentNegative e - p + t + 8 = shift t p exponentNegative e := rfl
  rw [finalize, applySign_eq he, ok_bind]
  dsimp only
  rw [i64_eq_ok (by omega) (by omega), ok_bind, i64_eq_ok (by omega) (by omega), ok_bind,
    applySign_eq ha, ok_bind, i64_eq_ok (by omega) (by omega), ok_bind, hshift,
    scaleValue_eq (by rwa [natAbs_signed]), natAbs_signed]
  split_ifs <;> first | rfl | omega

end Value

end Zecd.FixedPoint
