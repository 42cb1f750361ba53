import Zecd.Rpc.FixedPointExact
import Zecd.Rpc.JsonRpc

/-! # Amounts on the wire

An amount is written as a JSON number with eight decimal places, and read from a number or a string
by the fixed-point parser. What is written is read back, up to the cap that the reader checks.
-/

namespace Zecd.AmountText

open Decimal FixedPoint

/-- Base units in one ZEC. -/
def coin : ℕ := 100000000

/-- The supply cap in base units. -/
def maxMoney : ℕ := 21000000 * coin

/-- An amount in ZEC, to eight decimal places. -/
def text (negative : Bool) (units : ℕ) : List Char :=
  (if negative then ['-'] else []) ++
    (Nat.toDigits 10 (units / coin) ++ '.' :: padded 8 (units % coin))

def zatsToValue (zats : ℕ) : Json := .number (String.ofList (text false zats))

def signedZatsToValue (zats : ℤ) : Json :=
  .number (String.ofList (text (decide (zats < 0)) zats.natAbs))

/-- A number keeps its literal, and a string may stand for one. -/
def literalOf : Json → Option String
  | .number literal => some literal
  | .string s => some s
  | _ => none

/-- The amount that a value gives, if no operation of the parser overflows. -/
def valueToZats (v : Json) : Option (Except RpcError ℕ) :=
  match literalOf v with
  | none => some (.error (.typeError "Amount is not a number or string"))
  | some literal =>
    match parseFixedPoint literal 8 with
    | .error .overflow => none
    | .error .invalid => some (.error (.typeError "Invalid amount"))
    | .ok zats =>
      if zats < 0 then some (.error (.typeError "Amount out of range"))
      else if maxMoney < zats.toNat then some (.error (.typeError "Amount out of range"))
      else some (.ok zats.toNat)

def signedOfValue (v : Json) : Option (Except String ℤ) :=
  match literalOf v with
  | none => some (.error "Amount is not a number or string")
  | some literal =>
    match parseFixedPoint literal 8 with
    | .error .overflow => none
    | .error .invalid => some (.error "Invalid amount")
    | .ok zats => some (.ok zats)

/-! ## The text of an amount -/

/-- What is written is a JSON number. -/
def literal (negative : Bool) (units : ℕ) : Literal where
  negative := negative
  integer := ⟨Nat.toDigits 10 (units / coin), Nat.toDigits_ne_nil, fun _ => isDigit_of_mem_printed⟩
  canonical := toDigits_canonical _
  fraction := some ⟨padded 8 (units % coin),
    List.append_ne_nil_of_right_ne_nil _ Nat.toDigits_ne_nil, fun _ => isDigit_of_mem_padded⟩
  exponent := none

variable {negative : Bool} {units : ℕ}

theorem literal_chars : (literal negative units).chars = text negative units := by
  have hexponent : exponentChars (literal negative units).exponent = [] := rfl
  rw [Literal.chars, hexponent, List.append_nil]
  rfl

theorem length_places (units : ℕ) : (padded 8 (units % coin)).length = 8 :=
  length_padded (by decide) (Nat.mod_lt _ (by decide))

theorem decimal_literal : decimal (literal negative units).mantissa = units := by
  have hmantissa : (literal negative units).mantissa =
      Nat.toDigits 10 (units / coin) ++ padded 8 (units % coin) := rfl
  rw [hmantissa, decimal_append, decimal_toDigits, decimal_padded, length_places]
  exact Nat.div_add_mod' units coin

theorem exponentValue_literal : (literal negative units).exponentValue = 0 := rfl

theorem value_literal : (literal negative units).value * 10 ^ 8 = signed negative units := by
  have hplaces : (digitsOf (literal negative units).fraction).length = 8 := length_places units
  rw [Literal.value, decimal_literal, hplaces, exponentValue_literal]
  have hneg : (literal negative units).negative = negative := rfl
  rw [hneg, mul_assoc]
  norm_num

theorem value_eq_zero (l : Literal) : l.value = 0 ↔ ∀ c ∈ l.mantissa, c = '0' := by
  have hpow : (10 : ℚ) ^ (l.exponentValue - (digitsOf l.fraction).length) ≠ 0 :=
    zpow_ne_zero _ (by norm_num)
  rw [Literal.value, mul_eq_zero, or_iff_left hpow, Int.cast_eq_zero, ← Int.natAbs_eq_zero,
    natAbs_signed, decimal_eq_zero l.digits_mantissa]

theorem denotes_literal {n : ℤ} :
    (literal negative units).Denotes n ↔ units < 10 ^ 18 ∧ n = signed negative units := by
  have habs := natAbs_signed negative units
  unfold Literal.Denotes
  rw [value_literal, exponentValue_literal]
  have hzeros : (∀ c ∈ (literal negative units).mantissa, c = '0') ↔ units = 0 := by
    rw [← decimal_eq_zero, decimal_literal]
    intro c hc
    rcases List.mem_append.mp hc with hinteger | hplaces
    · exact isDigit_of_mem_printed hinteger
    · exact isDigit_of_mem_padded hplaces
  have hzero : (literal negative units).value = 0 ↔ units = 0 := (value_eq_zero _).trans hzeros
  rw [hzeros, ne_eq, hzero, Int.cast_inj, Int.abs_eq_natAbs]
  constructor
  · rintro (⟨-, rfl, hle⟩ | ⟨rfl, -, -, rfl⟩)
    · rw [habs] at hle
      exact ⟨by omega, rfl⟩
    · exact ⟨by decide, by cases negative <;> rfl⟩
  · rintro ⟨hlt, rfl⟩
    by_cases hunits : units = 0
    · subst hunits
      exact .inr ⟨rfl, by decide, by decide, by cases negative <;> rfl⟩
    · exact .inl ⟨hunits, rfl, by rw [habs]; omega⟩

theorem length_text (h : units < 2 ^ 64) : (text negative units).length < 10 ^ 17 := by
  have hinteger : (Nat.toDigits 10 (units / coin)).length ≤ 20 :=
    (Nat.length_toDigits_le_iff (by decide) (by decide)).mpr
      ((Nat.div_le_self _ _).trans_lt (h.trans (by norm_num)))
  have hsign : (if negative then ['-'] else []).length ≤ 1 := by cases negative <;> decide
  rw [text, List.length_append, List.length_append, List.length_cons, length_places]
  omega

theorem parse_text (h : units < 2 ^ 64) :
    parseFixedPoint (String.ofList (text negative units)) 8 =
      if units < 10 ^ 18 then .ok (signed negative units) else .error .invalid := by
  have hchars : (literal negative units).chars =
      (String.ofList (text negative units)).toList := by
    rw [literal_chars, String.toList_ofList]
  have hlen : (String.ofList (text negative units)).toList.length < 10 ^ 17 := by
    rw [String.toList_ofList]
    exact length_text h
  have hread := (literal negative units).parseFixedPoint_eq_ok hchars hlen
  split
  next hlt => exact (hread _).mpr (denotes_literal.mpr ⟨hlt, rfl⟩)
  next hge =>
    cases hparse : parseFixedPoint (String.ofList (text negative units)) 8 with
    | ok n => exact absurd (denotes_literal.mp ((hread n).mp hparse)).1 hge
    | error stop =>
      cases stop with
      | overflow => exact absurd hparse (parseFixedPoint_total hlen).1
      | invalid => rfl

/-! ## Amounts read -/

/-- Up to the cap, a literal is worth what it writes, a zero only at an exponent with which a digit
in its place would be read. -/
theorem denotes_iff_of_le {l : Literal} {zats : ℕ} (hmax : zats ≤ maxMoney) :
    l.Denotes zats ↔ l.value * 10 ^ 8 = zats ∧
      (zats = 0 → -8 ≤ l.exponentValue ∧ l.exponentValue ≤ 9) := by
  have hcap : maxMoney ≤ 10 ^ 18 - 1 := by decide
  unfold Literal.Denotes
  constructor
  · rintro (⟨hne, hvalue, -⟩ | ⟨hzeros, hlo, hhi, hv⟩)
    · rw [Int.cast_natCast] at hvalue
      refine ⟨hvalue, ?_⟩
      rintro rfl
      rw [Nat.cast_zero, mul_eq_zero] at hvalue
      exact absurd (hvalue.resolve_right (by norm_num)) hne
    · obtain rfl : zats = 0 := by omega
      rw [(value_eq_zero l).mpr hzeros]
      exact ⟨by norm_num, fun _ => ⟨hlo, hhi⟩⟩
  · rintro ⟨hvalue, hexponent⟩
    by_cases hzero : zats = 0
    · obtain ⟨hlo, hhi⟩ := hexponent hzero
      rw [hzero, Nat.cast_zero, mul_eq_zero] at hvalue
      have hzeros := (value_eq_zero l).mp (hvalue.resolve_right (by norm_num))
      exact .inr ⟨hzeros, hlo, hhi, by omega⟩
    · refine .inl ⟨?_, by rwa [Int.cast_natCast], ?_⟩
      · intro h
        rw [h, zero_mul] at hvalue
        exact hzero (by exact_mod_cast hvalue.symm)
      · rw [Nat.abs_cast]
        omega

theorem valueToZats_denotes (v : Json) (hlen : ∀ s, literalOf v = some s → s.length < 10 ^ 17) :
    valueToZats v ≠ none ∧
      ∀ zats, valueToZats v = some (.ok zats) ↔ zats ≤ maxMoney ∧
        ∃ s, literalOf v = some s ∧ ∃ l : Literal, l.chars = s.toList ∧ l.Denotes zats := by
  unfold valueToZats
  cases hliteral : literalOf v with
  | none => exact ⟨by simp, fun zats => iff_of_false (by simp) (by rintro ⟨-, _, ⟨⟩, -⟩)⟩
  | some s =>
    have hs := hlen s hliteral
    rw [← String.length_toList] at hs
    have haccepts : ∀ zats : ℕ, (∃ s', some s = some s' ∧
        ∃ l : Literal, l.chars = s'.toList ∧ l.Denotes zats) ↔
          parseFixedPoint s 8 = .ok (zats : ℤ) := by
      intro zats
      rw [parseFixedPoint_eq_ok hs]
      constructor
      · rintro ⟨s', heq, haccepts⟩
        obtain rfl := Option.some.inj heq
        exact haccepts
      · intro haccepts
        exact ⟨s, rfl, haccepts⟩
    have hover := (parseFixedPoint_total hs).1
    simp only [haccepts]
    cases hparse : parseFixedPoint s 8 with
    | error stop =>
      cases stop with
      | overflow => exact absurd hparse hover
      | invalid => exact ⟨by simp, fun zats => iff_of_false (by simp) (by rintro ⟨-, ⟨⟩⟩)⟩
    | ok n =>
      simp only [Except.ok.injEq]
      split
      next hneg => exact ⟨by simp, fun zats => iff_of_false (by simp) fun h => by omega⟩
      next hpos =>
        split
        next hmax => exact ⟨by simp, fun zats => iff_of_false (by simp) fun h => by omega⟩
        next hmax =>
          refine ⟨by simp, fun zats => ?_⟩
          rw [Option.some.injEq, Except.ok.injEq]
          omega

/-- A value is read as an amount exactly if it is, or holds, a literal worth a whole number of base
units that the cap allows, one of zero only at an exponent from -8 to 9. No operation of the parser
overflows over it. -/
theorem valueToZats_reads (v : Json) (hlen : ∀ s, literalOf v = some s → s.length < 10 ^ 17) :
    valueToZats v ≠ none ∧
      ∀ zats, valueToZats v = some (.ok zats) ↔ zats ≤ maxMoney ∧
        ∃ s, literalOf v = some s ∧ ∃ l : Literal, l.chars = s.toList ∧
          l.value * 10 ^ 8 = zats ∧
          (zats = 0 → -8 ≤ l.exponentValue ∧ l.exponentValue ≤ 9) := by
  obtain ⟨htotal, hread⟩ := valueToZats_denotes v hlen
  refine ⟨htotal, fun zats => (hread zats).trans (and_congr_right fun hmax => ?_)⟩
  simp only [denotes_iff_of_le hmax]

theorem valueToZats_reads_half :
    valueToZats (.string "0.5") ≠ none ∧
      ∀ zats, valueToZats (.string "0.5") = some (.ok zats) ↔ zats ≤ maxMoney ∧
        ∃ s, literalOf (.string "0.5") = some s ∧ ∃ l : Literal, l.chars = s.toList ∧
          l.value * 10 ^ 8 = zats ∧
          (zats = 0 → -8 ≤ l.exponentValue ∧ l.exponentValue ≤ 9) :=
  valueToZats_reads (.string "0.5") (by
    rintro s hs
    obtain rfl := Option.some.inj hs
    decide)

/-- What is written is a JSON number, and read back as itself up to the cap: beyond it, an amount is
refused as out of range, and one of more than eighteen digits as no amount. A signed one is read
back up to eighteen digits. -/
theorem amounts_round_trip {zats : ℕ} (hzats : zats < 2 ^ 64) {delta : ℤ}
    (hdelta : delta.natAbs < 2 ^ 64) :
    valueToZats (zatsToValue zats) = some
        (if zats ≤ maxMoney then .ok zats
        else if zats < 10 ^ 18 then .error (.typeError "Amount out of range")
        else .error (.typeError "Invalid amount")) ∧
      signedOfValue (signedZatsToValue delta) = some
        (if delta.natAbs < 10 ^ 18 then .ok delta else .error "Invalid amount") ∧
      ∃ l l' : Literal, zatsToValue zats = .number (String.ofList l.chars) ∧
        signedZatsToValue delta = .number (String.ofList l'.chars) := by
  have hmax : maxMoney < 10 ^ 18 := by decide
  refine ⟨?_, ?_, literal false zats, literal (decide (delta < 0)) delta.natAbs, ?_, ?_⟩
  · simp only [valueToZats, zatsToValue, literalOf, parse_text hzats]
    by_cases hlt : zats < 10 ^ 18
    · have hnat : signed false zats = (zats : ℤ) := rfl
      simp only [if_pos hlt, hnat, Int.toNat_natCast]
      split
      next hneg => omega
      next =>
        split
        next hgt => rw [if_neg (not_le.mpr hgt)]
        next hle => rw [if_pos (not_lt.mp hle)]
    · rw [if_neg hlt, if_neg hlt, if_neg (by omega)]
  · simp only [signedOfValue, signedZatsToValue, literalOf, parse_text hdelta]
    by_cases hlt : delta.natAbs < 10 ^ 18
    · have hsigned : signed (decide (delta < 0)) delta.natAbs = delta := by
        unfold signed
        split
        next hneg =>
          rw [decide_eq_true_eq] at hneg
          omega
        next hpos =>
          rw [decide_eq_true_eq] at hpos
          omega
      rw [if_pos hlt, if_pos hlt, hsigned]
    · rw [if_neg hlt, if_neg hlt]
  · rw [literal_chars]
    rfl
  · rw [literal_chars]
    rfl

theorem amounts_round_trip_cap :
    valueToZats (zatsToValue (maxMoney + 1)) = some
        (if maxMoney + 1 ≤ maxMoney then .ok (maxMoney + 1)
        else if maxMoney + 1 < 10 ^ 18 then .error (.typeError "Amount out of range")
        else .error (.typeError "Invalid amount")) ∧
      signedOfValue (signedZatsToValue (-1)) = some
        (if (-1 : ℤ).natAbs < 10 ^ 18 then .ok (-1) else .error "Invalid amount") ∧
      ∃ l l' : Literal, zatsToValue (maxMoney + 1) = .number (String.ofList l.chars) ∧
        signedZatsToValue (-1) = .number (String.ofList l'.chars) :=
  amounts_round_trip (by decide) (by decide)

example : text false 1 = "0.00000001".toList := by decide
example : text true 150000000 = "-1.50000000".toList := by decide

end Zecd.AmountText
