import Mathlib

/-! # Decimal numbers

The value of a string of decimal digits, the form of a number without its trailing zeros, and
when such a form shifted by a power of ten is an integer.
-/

namespace Zecd.Decimal

def digit (c : Char) : ℕ := c.toNat - '0'.toNat

def decimal (ds : List Char) : ℕ := ds.foldl (fun n c => 10 * n + digit c) 0

theorem isDigit_zero : '0'.isDigit := by decide

@[simp] theorem digit_zero : digit '0' = 0 := rfl

theorem digit_lt {c : Char} (h : c.isDigit) : digit c < 10 := by
  simp only [Char.isDigit, Bool.and_eq_true, decide_eq_true_eq] at h
  obtain ⟨hlo, hhi⟩ := h
  have hhi : c.val.toNat ≤ '9'.val.toNat := UInt32.le_iff_toNat_le.mp hhi
  have h9 : '9'.val.toNat = 57 := rfl
  have h0 : '0'.toNat = 48 := rfl
  have hc : c.toNat = c.val.toNat := rfl
  rw [digit, h0, hc]
  omega

theorem digit_pos {c : Char} (h : c.isDigit) (hc : c ≠ '0') : 0 < digit c := by
  simp only [Char.isDigit, Bool.and_eq_true, decide_eq_true_eq] at h
  have hlo : '0'.val.toNat ≤ c.val.toNat := UInt32.le_iff_toNat_le.mp h.1
  have hne : c.val.toNat ≠ '0'.val.toNat := fun heq =>
    hc (Char.ext (UInt32.toNat_inj.mp heq))
  have heq : c.toNat = c.val.toNat := rfl
  have h0 : '0'.toNat = '0'.val.toNat := rfl
  rw [digit, heq, h0]
  omega

@[simp] theorem decimal_nil : decimal [] = 0 := rfl

theorem decimal_concat (ds : List Char) (c : Char) :
    decimal (ds ++ [c]) = 10 * decimal ds + digit c := by
  rw [decimal, List.foldl_append]
  rfl

theorem decimal_append (as bs : List Char) :
    decimal (as ++ bs) = decimal as * 10 ^ bs.length + decimal bs := by
  induction bs using List.reverseRecOn with
  | nil => simp
  | append_singleton bs c ih =>
    rw [← List.append_assoc, decimal_concat, ih, decimal_concat, List.length_append,
      List.length_singleton, pow_succ]
    ring

theorem decimal_cons (c : Char) (ds : List Char) :
    decimal (c :: ds) = digit c * 10 ^ ds.length + decimal ds := by
  rw [← List.singleton_append, decimal_append]
  congr 2
  rw [← List.nil_append [c], decimal_concat, decimal_nil, Nat.mul_zero, Nat.zero_add]

/-! ## Printed numbers -/

theorem decimal_toDigits (n : ℕ) : decimal (Nat.toDigits 10 n) = n := by
  have heq : decimal (Nat.toDigits 10 n) = Nat.ofDigitChars 10 (Nat.toDigits 10 n) 0 :=
    Nat.ofDigitChars_eq_foldl.symm
  rw [heq, Nat.ofDigitChars_ten_toDigits]

theorem isDigit_of_mem_printed {n : ℕ} {c : Char} (h : c ∈ Nat.toDigits 10 n) : c.isDigit :=
  Nat.isDigit_of_mem_toDigits (by decide) (by decide) h

theorem toDigits_canonical (n : ℕ) :
    Nat.toDigits 10 n = ['0'] ∨ (Nat.toDigits 10 n).head? ≠ some '0' := by
  induction n using Nat.strong_induction_on with
  | h n ih =>
    rcases Nat.lt_or_ge n 10 with hlt | hge
    · rw [Nat.toDigits_of_lt_base hlt]
      by_cases hzero : n.digitChar = '0'
      · exact .inl (congrArg (fun c => [c]) hzero)
      · exact .inr fun h => hzero (Option.some.inj h)
    · refine .inr ?_
      rw [Nat.toDigits_of_base_le (by decide) hge,
        List.head?_append_of_ne_nil _ Nat.toDigits_ne_nil]
      rcases ih (n / 10) (Nat.div_lt_self (by omega) (by decide)) with hzero | hhead
      · -- a tenth that is printed as zero is zero, and the number is not that small
        have hdiv := decimal_toDigits (n / 10)
        rw [hzero] at hdiv
        have : n / 10 = 0 := hdiv.symm
        omega
      · exact hhead

/-- The digits of a number, with zeros in front up to this width. -/
def padded (width n : ℕ) : List Char :=
  List.replicate (width - (Nat.toDigits 10 n).length) '0' ++ Nat.toDigits 10 n

theorem isDigit_of_mem_padded {width n : ℕ} {c : Char} (h : c ∈ padded width n) : c.isDigit := by
  rcases List.mem_append.mp h with hzero | hdigit
  · rw [List.eq_of_mem_replicate hzero]
    exact isDigit_zero
  · exact isDigit_of_mem_printed hdigit

theorem decimal_replicate_zero (n : ℕ) : decimal (List.replicate n '0') = 0 := by
  induction n with
  | zero => rfl
  | succ n ih => rw [List.replicate_succ', decimal_concat, ih, digit_zero]

theorem decimal_padded (width n : ℕ) : decimal (padded width n) = n := by
  rw [padded, decimal_append, decimal_replicate_zero, decimal_toDigits, Nat.zero_mul, Nat.zero_add]

theorem length_padded {width n : ℕ} (hwidth : 0 < width) (h : n < 10 ^ width) :
    (padded width n).length = width := by
  have hle := (Nat.length_toDigits_le_iff (by decide) hwidth).mpr h
  rw [padded, List.length_append, List.length_replicate, Nat.sub_add_cancel hle]

/-! ## Trailing zeros -/

/-- One digit more of a number kept without its trailing zeros: those are counted apart. -/
def push : ℕ × ℕ → Char → ℕ × ℕ
  | (m, zeros), c => if c = '0' then (m, zeros + 1) else (m * 10 ^ (zeros + 1) + digit c, 0)

def pushAll (s : ℕ × ℕ) (ds : List Char) : ℕ × ℕ := ds.foldl push s

@[simp] theorem pushAll_nil (s : ℕ × ℕ) : pushAll s [] = s := rfl

@[simp] theorem pushAll_cons (s : ℕ × ℕ) (c : Char) (ds : List Char) :
    pushAll s (c :: ds) = pushAll (push s c) ds := rfl

theorem pushAll_append (s : ℕ × ℕ) (as bs : List Char) :
    pushAll s (as ++ bs) = pushAll (pushAll s as) bs := List.foldl_append

theorem pushAll_concat (s : ℕ × ℕ) (ds : List Char) (c : Char) :
    pushAll s (ds ++ [c]) = push (pushAll s ds) c := List.foldl_append

theorem le_push (s : ℕ × ℕ) (c : Char) : s.1 ≤ (push s c).1 := by
  obtain ⟨m, zeros⟩ := s
  rw [push]
  split
  · exact le_rfl
  · exact (Nat.le_mul_of_pos_right m (by positivity)).trans (Nat.le_add_right _ _)

theorem le_pushAll (s : ℕ × ℕ) (ds : List Char) : s.1 ≤ (pushAll s ds).1 := by
  induction ds generalizing s with
  | nil => exact le_rfl
  | cons c ds ih => exact (le_push s c).trans (ih _)

theorem zeros_pushAll_le (s : ℕ × ℕ) (ds : List Char) :
    (pushAll s ds).2 ≤ s.2 + ds.length := by
  induction ds generalizing s with
  | nil => exact le_rfl
  | cons c ds ih =>
    have hpush : (push s c).2 ≤ s.2 + 1 := by
      rw [push]
      split <;> simp
    have := ih (push s c)
    rw [pushAll_cons, List.length_cons]
    omega

/-- What the digits pushed so far leave behind: their number without its trailing zeros, and
how many these are. -/
structure Stripped (ds : List Char) (s : ℕ × ℕ) : Prop where
  value : s.1 * 10 ^ s.2 = decimal ds
  last : s.1 ≠ 0 → s.1 % 10 ≠ 0
  zeros : s.2 ≤ ds.length
  allZero : s.1 = 0 → s.2 = ds.length

theorem stripped_pushAll {ds : List Char} (h : ∀ c ∈ ds, c.isDigit) :
    Stripped ds (pushAll (0, 0) ds) := by
  induction ds using List.reverseRecOn with
  | nil => exact ⟨rfl, fun h => absurd rfl h, le_rfl, fun _ => rfl⟩
  | append_singleton ds c ih =>
    have hs := ih fun c hc => h c (by simp [hc])
    have hc := h c (by simp)
    rw [pushAll_concat]
    generalize pushAll (0, 0) ds = s at hs
    obtain ⟨m, zeros⟩ := s
    obtain ⟨hvalue, hlast, hzeros, hall⟩ := hs
    dsimp only at hvalue hlast hzeros hall
    rw [push]
    split
    · next h0 =>
      subst h0
      refine ⟨?_, hlast, by simpa using hzeros, fun hm => by simpa using hall hm⟩
      dsimp only
      rw [decimal_concat, ← hvalue, pow_succ, digit_zero]
      ring
    · next h0 =>
      have hpos := digit_pos hc h0
      have hlt := digit_lt hc
      have hmod : (m * 10 ^ (zeros + 1) + digit c) % 10 = digit c := by
        rw [pow_succ, ← Nat.mul_assoc, Nat.mul_comm _ 10, Nat.mul_add_mod,
          Nat.mod_eq_of_lt hlt]
      refine ⟨?_, fun _ => ?_, Nat.zero_le _, fun hm => ?_⟩
      · dsimp only
        rw [decimal_concat, ← hvalue, pow_zero, pow_succ]
        ring
      · dsimp only
        rw [hmod]
        exact hpos.ne'
      · dsimp only at hm
        omega

theorem decimal_eq_zero {ds : List Char} (h : ∀ c ∈ ds, c.isDigit) :
    decimal ds = 0 ↔ ∀ c ∈ ds, c = '0' := by
  induction ds using List.reverseRecOn with
  | nil => simp
  | append_singleton ds c ih =>
    have ih := ih fun c hc => h c (by simp [hc])
    have hc := h c (by simp)
    rw [decimal_concat, List.forall_mem_append, ← ih]
    have hdigit : digit c = 0 ↔ c = '0' :=
      ⟨fun h0 => by_contra fun hne => (digit_pos hc hne).ne' h0, fun h0 => h0 ▸ rfl⟩
    simp only [List.mem_singleton, forall_eq, ← hdigit]
    omega

/-! ## Shifts by a power of ten -/

/-- A number without trailing zeros, shifted by a power of ten, is an integer only if it is
shifted upwards. -/
theorem mul_zpow_eq_intCast {m : ℕ} {k v : ℤ} (hm : m % 10 ≠ 0) :
    (m : ℚ) * 10 ^ k = v ↔ 0 ≤ k ∧ (m : ℤ) * 10 ^ k.toNat = v := by
  rcases Int.le_total 0 k with hk | hk
  · obtain ⟨n, rfl⟩ := Int.eq_ofNat_of_zero_le hk
    simp only [zpow_natCast, Int.toNat_natCast, hk, true_and]
    exact_mod_cast Iff.rfl
  · obtain ⟨n, hn⟩ := Int.exists_eq_neg_ofNat hk
    subst hn
    rcases Nat.eq_zero_or_pos n with rfl | hpos
    · simp only [Nat.cast_zero, neg_zero, zpow_zero, mul_one, le_refl, Int.toNat_zero, pow_zero,
        true_and]
      exact_mod_cast Iff.rfl
    · refine iff_of_false (fun h => hm ?_) (by omega)
      rw [zpow_neg, zpow_natCast, mul_inv_eq_iff_eq_mul₀ (by positivity)] at h
      have h : (m : ℤ) = v * 10 ^ n := by exact_mod_cast h
      have hdvd : (10 : ℤ) ∣ m := by
        rw [h]
        exact (dvd_pow_self 10 hpos.ne').mul_left v
      exact Nat.mod_eq_zero_of_dvd (by exact_mod_cast hdvd)

end Zecd.Decimal
