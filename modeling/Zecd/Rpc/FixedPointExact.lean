import Zecd.Rpc.FixedPointDigits

/-! # Fixed-point numbers are exact

The parser accepts exactly the decimal literals whose value is a whole number of base units
within the bound, and returns that number.
-/

namespace Zecd.FixedPoint

open Decimal Fallible

/-! ## The grammar -/

structure Digits where
  chars : List Char
  ne_nil : chars ≠ []
  digits : ∀ c ∈ chars, c.isDigit

inductive ExponentSign where
  | none
  | plus
  | minus
  deriving DecidableEq, Repr

structure Exponent where
  upper : Bool
  sign : ExponentSign
  digits : Digits

/-- A number as it is written: `-?(0|[1-9][0-9]*)(\.[0-9]+)?([eE][+-]?[0-9]+)?`. -/
structure Literal where
  negative : Bool
  integer : Digits
  canonical : integer.chars = ['0'] ∨ integer.chars.head? ≠ some '0'
  fraction : Option Digits
  exponent : Option Exponent

def ExponentSign.chars : ExponentSign → List Char
  | none => []
  | plus => ['+']
  | minus => ['-']

def fractionChars : Option Digits → List Char
  | none => []
  | some ds => '.' :: ds.chars

def exponentChars : Option Exponent → List Char
  | none => []
  | some e => (if e.upper then 'E' else 'e') :: (e.sign.chars ++ e.digits.chars)

def digitsOf (fraction : Option Digits) : List Char := (fraction.map Digits.chars).getD []

def exponentOf (exponent : Option Exponent) : Bool × ℕ :=
  (exponent.any fun e => e.sign == .minus,
    (exponent.map fun e => decimal e.digits.chars).getD 0)

namespace Literal

variable (l : Literal)

def chars : List Char :=
  (if l.negative then ['-'] else []) ++
    (l.integer.chars ++ (fractionChars l.fraction ++ exponentChars l.exponent))

/-- The digits before and after the point. -/
def mantissa : List Char := l.integer.chars ++ digitsOf l.fraction

def exponentValue : ℤ := signed (exponentOf l.exponent).1 (exponentOf l.exponent).2

def value : ℚ :=
  signed l.negative (decimal l.mantissa) * 10 ^ (l.exponentValue - (digitsOf l.fraction).length)

/-- What the literal is worth in units of `10 ^ -8`: a whole number of at most eighteen digits;
or zero, at an exponent with which a digit in its place would be one. -/
def Denotes (v : ℤ) : Prop :=
  (l.value ≠ 0 ∧ l.value * 10 ^ 8 = v ∧ |v| ≤ 10 ^ 18 - 1) ∨
    ((∀ c ∈ l.mantissa, c = '0') ∧ -8 ≤ l.exponentValue ∧ l.exponentValue ≤ 9 ∧ v = 0)

end Literal

/-! ## Looking at the next character -/

section Strip

variable {p : Char → Bool} {val rest : List Char} {c : Char}

/-- A kind of characters that are all one byte long. -/
def Ascii (p : Char → Bool) : Prop := ∀ c, p c → c.utf8Size = 1

theorem ascii_eq {c : Char} (h : c.utf8Size = 1) : Ascii (· == c) := by
  intro d hd
  rwa [eq_of_beq hd]

theorem ascii_isDigit : Ascii Char.isDigit := by
  intro c hc
  simp only [Char.isDigit, Bool.and_eq_true, decide_eq_true_eq] at hc
  have h9 : '9'.val ≤ 0x7f := by decide
  exact if_pos (UInt32.le_trans hc.2 h9)

theorem ascii_marker : Ascii fun c => c == 'e' || c == 'E' := by
  intro c hc
  rcases Bool.or_eq_true_iff.mp hc with h | h
  · exact ascii_eq rfl c h
  · exact ascii_eq rfl c h

theorem strip_cons (hp : Ascii p) : strip p (c :: rest) = if p c then some (c, rest) else none := by
  have hsplit : splitAtChecked (c :: rest) = if c.utf8Size = 1 then some (c, rest) else none := rfl
  rw [strip, hsplit]
  by_cases hc : p c
  · rw [if_pos (hp c hc), if_pos hc]
    exact if_pos hc
  · rw [if_neg hc]
    split
    · exact if_neg hc
    · rfl

theorem strip_eq_some (hp : Ascii p) : strip p val = some (c, rest) ↔ val = c :: rest ∧ p c := by
  cases val with
  | nil => simp [strip, splitAtChecked]
  | cons d val =>
    rw [strip_cons hp]
    split
    · next hd => grind
    · next hd => grind

theorem strip_eq_none (hp : Ascii p) :
    strip p val = none ↔ ∀ c ∈ val.head?, ¬ p c := by
  cases val with
  | nil => simp [strip, splitAtChecked]
  | cons d val => simp [strip_cons hp]

end Strip

/-! ## The parts of the number -/

section Parts

variable {val rest : List Char} {m : Mantissa}

/-- The mantissa is within its bounds, and stays so however many digits follow. -/
def Fits (m : Mantissa) (rest : List Char) : Prop :=
  ∃ a t p : ℕ, m = ⟨a, t, p⟩ ∧ a < 10 ^ 18 ∧ t + rest.length < 10 ^ 17 ∧
    p + rest.length < 10 ^ 17

theorem front_append_behind (val : List Char) : front val ++ behind val = val :=
  List.takeWhile_append_dropWhile

theorem length_front_add (val : List Char) :
    (front val).length + (behind val).length = val.length := by
  rw [← List.length_append, front_append_behind]

theorem digits_front (val : List Char) : ∀ c ∈ front val, c.isDigit :=
  fun _ hc => List.mem_takeWhile_imp hc

theorem front_append {ds : List Char} (h : ∀ c ∈ ds, c.isDigit)
    (hrest : ∀ c ∈ rest.head?, ¬ c.isDigit) :
    front (ds ++ rest) = ds ∧ behind (ds ++ rest) = rest := by
  unfold front behind
  rw [List.takeWhile_append_of_pos h, List.dropWhile_append_of_pos h]
  cases rest with
  | nil => simp
  | cons c rest =>
    have hc : ¬ c.isDigit := hrest c rfl
    rw [List.takeWhile_cons_of_neg hc, List.dropWhile_cons_of_neg hc]
    simp

def frontDigits (val : List Char) (h : ∃ c ∈ val.head?, c.isDigit) : Digits where
  chars := front val
  ne_nil := by
    obtain ⟨c, hc, hdigit⟩ := h
    cases val with
    | nil => cases hc
    | cons d val =>
      obtain rfl : d = c := Option.some.inj hc
      rw [front, List.takeWhile_cons_of_pos hdigit]
      exact List.cons_ne_nil _ _
  digits := digits_front val

theorem mantissaDigits_total {ofs : ℕ} (hofs : ofs ≤ 1) (h : Fits m val) :
    mantissaDigits ofs m val = .error .invalid ∨
      ∃ m', mantissaDigits ofs m val = .ok (m', behind val) ∧ Fits m' (behind val) := by
  obtain ⟨a, t, p, rfl, ha, ht, hp⟩ := h
  have hlen := length_front_add val
  rw [mantissaDigits_eq a t val hofs ha (by omega) (by omega)]
  split
  · next hlt =>
    have hzeros := zeros_pushAll_le (a, t) (front val)
    have hofs : ofs * (front val).length ≤ (front val).length := by
      simpa using Nat.mul_le_mul_right _ hofs
    exact .inr ⟨_, rfl, _, _, _, rfl, hlt, by dsimp only at hzeros; omega, by omega⟩
  · exact .inl rfl

theorem parseInteger_total (hlen : val.length < 10 ^ 17) :
    parseInteger val = .error .invalid ∨
      ∃ m rest, ∃ ds : Digits, parseInteger val = .ok (m, rest) ∧ Fits m rest ∧
        (ds.chars = ['0'] ∨ ds.chars.head? ≠ some '0') ∧ val = ds.chars ++ rest := by
  unfold parseInteger
  cases hzero : strip (· == '0') val with
  | some split =>
    obtain ⟨c, rest⟩ := split
    obtain ⟨rfl, hc⟩ := (strip_eq_some (ascii_eq rfl)).mp hzero
    obtain rfl := eq_of_beq hc
    rw [List.length_cons] at hlen
    refine .inr ⟨_, rest, ⟨['0'], by simp, by simp [isDigit_zero]⟩, rfl, ?_, .inl rfl, rfl⟩
    exact ⟨0, 0, 0, rfl, by norm_num, by omega, by omega⟩
  | none =>
    dsimp only
    cases hdigit : strip Char.isDigit val with
    | none => exact .inl rfl
    | some split =>
      obtain ⟨c, rest⟩ := split
      obtain ⟨rfl, hc⟩ := (strip_eq_some ascii_isDigit).mp hdigit
      have hne := (strip_eq_none (ascii_eq rfl)).mp hzero c rfl
      have hfits : Fits .zero (c :: rest) :=
        ⟨0, 0, 0, rfl, by norm_num, by omega, by omega⟩
      dsimp only
      rcases mantissaDigits_total (Nat.zero_le 1) hfits with herr | ⟨m, hm, hfits'⟩
      · exact .inl herr
      · refine .inr ⟨m, _, frontDigits (c :: rest) ⟨c, rfl, hc⟩, hm, hfits', .inr ?_,
          (front_append_behind _).symm⟩
        have hhead : (front (c :: rest)).head? = some c := by
          rw [front, List.takeWhile_cons_of_pos hc, List.head?_cons]
        rw [show (frontDigits (c :: rest) _).chars.head? = some c from hhead]
        exact fun h => hne (beq_iff_eq.mpr (Option.some.inj h))

theorem parseFraction_total (h : Fits m val) :
    parseFraction m val = .error .invalid ∨
      ∃ m' rest fraction, parseFraction m val = .ok (m', rest) ∧ Fits m' rest ∧
        val = fractionChars fraction ++ rest := by
  unfold parseFraction
  cases hpoint : strip (· == '.') val with
  | none => exact .inr ⟨m, val, none, rfl, h, rfl⟩
  | some split =>
    obtain ⟨c, val⟩ := split
    obtain ⟨rfl, hc⟩ := (strip_eq_some (ascii_eq rfl)).mp hpoint
    obtain rfl := eq_of_beq hc
    dsimp only
    cases hdigit : strip Char.isDigit val with
    | none => exact .inl rfl
    | some split =>
      obtain ⟨d, rest⟩ := split
      obtain ⟨rfl, hd⟩ := (strip_eq_some ascii_isDigit).mp hdigit
      have hfits : Fits m (d :: rest) := by
        obtain ⟨a, t, p, rfl, ha, ht, hp⟩ := h
        rw [List.length_cons] at ht hp
        exact ⟨a, t, p, rfl, ha, by omega, by omega⟩
      dsimp only
      rcases mantissaDigits_total le_rfl hfits with herr | ⟨m', hm, hfits'⟩
      · exact .inl herr
      · refine .inr ⟨m', _, some (frontDigits (d :: rest) ⟨d, rfl, hd⟩), hm, hfits', ?_⟩
        rw [fractionChars, List.cons_append]
        exact congrArg _ (front_append_behind _).symm

theorem parseSign_sound {negative : Bool} (h : parseSign val = (negative, rest)) :
    val = (if negative then ['-'] else []) ++ rest := by
  unfold parseSign at h
  cases hs : strip (· == '-') val with
  | none =>
    rw [hs] at h
    cases h
    rfl
  | some split =>
    obtain ⟨c, rest'⟩ := split
    obtain ⟨rfl, hc⟩ := (strip_eq_some (ascii_eq rfl)).mp hs
    obtain rfl := eq_of_beq hc
    rw [hs] at h
    cases h
    rfl

theorem parseExponentSign_sound {negative : Bool}
    (h : parseExponentSign val = (negative, rest)) :
    ∃ sign : ExponentSign, val = sign.chars ++ rest := by
  unfold parseExponentSign at h
  cases hs : strip (· == '+') val with
  | none =>
    rw [hs] at h
    have hval := parseSign_sound h
    cases negative with
    | true => exact ⟨.minus, hval⟩
    | false => exact ⟨.none, hval⟩
  | some split =>
    obtain ⟨c, rest'⟩ := split
    obtain ⟨rfl, hc⟩ := (strip_eq_some (ascii_eq rfl)).mp hs
    obtain rfl := eq_of_beq hc
    rw [hs] at h
    cases h
    exact ⟨.plus, rfl⟩

theorem parseExponent_total (val : List Char) :
    parseExponent val = .error .invalid ∨
      ∃ negative, ∃ e : ℕ, ∃ rest exponent, parseExponent val = .ok (negative, (e : ℤ), rest) ∧
        e < 10 ^ 18 ∧ val = exponentChars exponent ++ rest := by
  unfold parseExponent
  cases hmark : strip (fun c => c == 'e' || c == 'E') val with
  | none => exact .inr ⟨false, 0, val, none, rfl, by norm_num, rfl⟩
  | some split =>
    obtain ⟨c, val⟩ := split
    obtain ⟨rfl, hc⟩ := (strip_eq_some ascii_marker).mp hmark
    dsimp only
    generalize hsign : parseExponentSign val = signed
    obtain ⟨negative, val'⟩ := signed
    obtain ⟨sign, rfl⟩ := parseExponentSign_sound hsign
    dsimp only
    cases hdigit : strip Char.isDigit val' with
    | none => exact .inl rfl
    | some split =>
      obtain ⟨d, rest⟩ := split
      obtain ⟨rfl, hd⟩ := (strip_eq_some ascii_isDigit).mp hdigit
      dsimp only
      have heq := exponentDigits_eq (d :: rest) (e := 0) (by norm_num)
      rw [Nat.zero_mul, Nat.zero_add, Nat.cast_zero] at heq
      rw [heq]
      split
      · next hlt =>
        refine .inr ⟨negative, _, _, some ⟨c == 'E', sign, frontDigits (d :: rest) ⟨d, rfl, hd⟩⟩,
          rfl, hlt, ?_⟩
        have hmarker : (if (c == 'E') = true then 'E' else 'e') = c := by
          rcases Bool.or_eq_true_iff.mp hc with h | h
          · rw [eq_of_beq h]
            rfl
          · rw [eq_of_beq h]
            rfl
        rw [exponentChars, hmarker, List.cons_append, List.append_assoc]
        exact congrArg _ (congrArg _ (front_append_behind _).symm)
      · exact .inl rfl

end Parts

/-! ## The whole string -/

theorem finalize_ne_overflow {negative exponentNegative : Bool} {m : Mantissa} {e : ℕ}
    (h : Fits m []) (he : e < 10 ^ 18) :
    finalize negative m exponentNegative e 8 ≠ .error .overflow := by
  obtain ⟨a, t, p, rfl, ha, ht, hp⟩ := h
  rw [finalize_eq ha (by simpa using ht) (by simpa using hp) he]
  split <;> simp

theorem parseFixedPoint_total {s : String} (hlen : s.toList.length < 10 ^ 17) :
    parseFixedPoint s 8 ≠ .error .overflow ∧
      ∀ v, parseFixedPoint s 8 = .ok v → ∃ l : Literal, l.chars = s.toList := by
  unfold parseFixedPoint
  generalize hsign : parseSign s.toList = signed
  obtain ⟨negative, val⟩ := signed
  have hval := parseSign_sound hsign
  have hlen' : val.length < 10 ^ 17 := by
    rw [hval, List.length_append] at hlen
    omega
  dsimp only
  rcases parseInteger_total hlen' with herr | ⟨m, rest, ds, hint, hfits, hcanon, rfl⟩
  · rw [herr]
    exact ⟨by simp [bind, Except.bind], fun v h => by cases h⟩
  rw [hint, ok_bind]
  dsimp only
  rcases parseFraction_total hfits with herr | ⟨m', rest', fraction, hfrac, hfits', rfl⟩
  · rw [herr]
    exact ⟨by simp [bind, Except.bind], fun v h => by cases h⟩
  rw [hfrac, ok_bind]
  dsimp only
  rcases parseExponent_total rest' with herr | ⟨en, e, rest, exponent, hexp, he, rfl⟩
  · rw [herr]
    exact ⟨by simp [bind, Except.bind], fun v h => by cases h⟩
  rw [hexp, ok_bind]
  dsimp only
  by_cases hrest : rest = []
  · subst hrest
    rw [List.append_nil] at hval hfits'
    rw [if_neg (by simp)]
    refine ⟨finalize_ne_overflow ?_ he, fun v _ => ⟨⟨negative, ds, hcanon, fraction, exponent⟩, ?_⟩⟩
    · obtain ⟨a, t, p, rfl, ha, ht, hp⟩ := hfits'
      exact ⟨a, t, p, rfl, ha, by simp; omega, by simp; omega⟩
    · rw [hval, Literal.chars]
  · rw [if_pos hrest]
    exact ⟨by simp, fun v h => by cases h⟩

/-! ## Reading a literal -/

section Reading

variable {rest : List Char} {a t : ℕ}

theorem Digits.exists_cons (ds : Digits) : ∃ c cs, ds.chars = c :: cs ∧ c.isDigit := by
  cases h : ds.chars with
  | nil => exact absurd h ds.ne_nil
  | cons c cs => exact ⟨c, cs, rfl, ds.digits c (by simp [h])⟩

theorem head_exponentChars (exponent : Option Exponent) :
    ∀ c ∈ (exponentChars exponent).head?, c = 'e' ∨ c = 'E' := by
  intro c hc
  cases exponent with
  | none => cases hc
  | some e =>
    obtain rfl : (if e.upper then 'E' else 'e') = c := Option.some.inj hc
    cases e.upper
    · exact .inl rfl
    · exact .inr rfl

theorem head_fractionChars (fraction : Option Digits) (exponent : Option Exponent) :
    ∀ c ∈ (fractionChars fraction ++ exponentChars exponent).head?, ¬ c.isDigit := by
  intro c hc
  cases fraction with
  | none =>
    rcases head_exponentChars exponent c hc with rfl | rfl <;> decide
  | some ds =>
    obtain rfl : '.' = c := Option.some.inj hc
    decide

theorem parseSign_chars (negative : Bool) (hrest : ∃ c cs, rest = c :: cs ∧ c.isDigit) :
    parseSign ((if negative then ['-'] else []) ++ rest) = (negative, rest) := by
  obtain ⟨c, cs, rfl, hc⟩ := hrest
  cases negative with
  | true => rfl
  | false =>
    have hne : (c == '-') = false := by
      rw [beq_eq_false_iff_ne]
      rintro rfl
      exact absurd hc (by decide)
    simp only [parseSign, Bool.false_eq_true, if_false, List.nil_append,
      strip_cons (ascii_eq (c := '-') rfl), hne]

/-- The digits of the integer that are folded: a single zero is passed over. -/
def Digits.pushed (ds : Digits) : List Char := if ds.chars = ['0'] then [] else ds.chars

theorem parseInteger_chars (ds : Digits)
    (hcanon : ds.chars = ['0'] ∨ ds.chars.head? ≠ some '0')
    (hrest : ∀ c ∈ rest.head?, ¬ c.isDigit) (hlen : (ds.chars ++ rest).length < 10 ^ 17) :
    parseInteger (ds.chars ++ rest) =
      if (pushAll (0, 0) ds.pushed).1 < 10 ^ 18 then
        .ok (⟨(pushAll (0, 0) ds.pushed).1, (pushAll (0, 0) ds.pushed).2, (0 : ℕ)⟩, rest)
      else .error .invalid := by
  by_cases hzero : ds.chars = ['0']
  · rw [Digits.pushed, if_pos hzero, pushAll_nil, hzero]
    rfl
  · obtain ⟨c, cs, hds, hc⟩ := ds.exists_cons
    have hne : (c == '0') = false := by
      have hhead := hcanon.resolve_left hzero
      rw [hds, List.head?_cons] at hhead
      rw [beq_eq_false_iff_ne]
      exact fun h => hhead (congrArg some h)
    have heq := mantissaDigits_eq 0 0 (ds.chars ++ rest) (Nat.zero_le 1) (p := 0) (by norm_num)
      (by omega) (by omega)
    obtain ⟨hfront, hbehind⟩ := front_append ds.digits hrest
    rw [hfront, hbehind, Nat.zero_mul, Nat.zero_add] at heq
    rw [Digits.pushed, if_neg hzero, ← heq]
    unfold parseInteger
    rw [hds, List.cons_append, strip_cons (ascii_eq rfl), strip_cons ascii_isDigit, hne, if_pos hc]
    rfl

theorem parseFraction_chars (fraction : Option Digits) (exponent : Option Exponent)
    (ha : a < 10 ^ 18)
    (hlen : t + (fractionChars fraction ++ exponentChars exponent).length < 10 ^ 17) :
    parseFraction ⟨a, t, (0 : ℕ)⟩ (fractionChars fraction ++ exponentChars exponent) =
      if (pushAll (a, t) (digitsOf fraction)).1 < 10 ^ 18 then
        .ok (⟨(pushAll (a, t) (digitsOf fraction)).1, (pushAll (a, t) (digitsOf fraction)).2,
          (digitsOf fraction).length⟩, exponentChars exponent)
      else .error .invalid := by
  cases fraction with
  | none =>
    have hstrip : strip (· == '.') (exponentChars exponent) = none := by
      rw [strip_eq_none (ascii_eq rfl)]
      intro c hc
      rcases head_exponentChars exponent c hc with rfl | rfl <;> decide
    have hdigits : digitsOf none = [] := rfl
    rw [parseFraction, fractionChars, List.nil_append, hstrip, hdigits, pushAll_nil]
    dsimp only
    rw [if_pos ha]
    rfl
  | some ds =>
    obtain ⟨c, cs, hds, hc⟩ := ds.exists_cons
    have hrest : ∀ c ∈ (exponentChars exponent).head?, ¬ c.isDigit := by
      intro c hc
      rcases head_exponentChars exponent c hc with rfl | rfl <;> decide
    obtain ⟨hfront, hbehind⟩ := front_append ds.digits hrest
    rw [fractionChars, List.cons_append, List.length_cons] at hlen
    have heq := mantissaDigits_eq a t (ds.chars ++ exponentChars exponent) le_rfl (p := 0) ha
      (by omega) (by omega)
    rw [hfront, hbehind, Nat.one_mul, Nat.zero_add] at heq
    have hdigits : digitsOf (some ds) = ds.chars := rfl
    rw [hdigits, ← heq]
    unfold parseFraction
    rw [fractionChars, List.cons_append, strip_cons (ascii_eq rfl), if_pos (by rfl)]
    dsimp only
    rw [hds, List.cons_append, strip_cons ascii_isDigit, if_pos hc]
    rfl

theorem parseExponentSign_chars (sign : ExponentSign)
    (hrest : ∃ c cs, rest = c :: cs ∧ c.isDigit) :
    parseExponentSign (sign.chars ++ rest) = (sign == .minus, rest) := by
  cases sign with
  | plus => rfl
  | minus => rfl
  | none =>
    have hsign := parseSign_chars false hrest
    obtain ⟨c, cs, rfl, hc⟩ := hrest
    have hne : (c == '+') = false := by
      rw [beq_eq_false_iff_ne]
      rintro rfl
      exact absurd hc (by decide)
    rw [ExponentSign.chars, List.nil_append, parseExponentSign, strip_cons (ascii_eq rfl), hne]
    exact hsign

theorem parseExponent_chars (exponent : Option Exponent) :
    parseExponent (exponentChars exponent) =
      if (exponentOf exponent).2 < 10 ^ 18 then
        .ok ((exponentOf exponent).1, ((exponentOf exponent).2 : ℤ), [])
      else .error .invalid := by
  cases exponent with
  | none =>
    rw [if_pos (by simp [exponentOf])]
    rfl
  | some e =>
    obtain ⟨c, cs, hds, hc⟩ := e.digits.exists_cons
    have hmark : ((if e.upper then 'E' else 'e') == 'e' ||
        (if e.upper then 'E' else 'e') == 'E') = true := by
      cases e.upper <;> rfl
    have hnil : ∀ c ∈ ([] : List Char).head?, ¬ c.isDigit := by simp
    obtain ⟨hfront, hbehind⟩ := front_append e.digits.digits hnil
    rw [List.append_nil] at hfront hbehind
    have heq := exponentDigits_eq e.digits.chars (e := 0) (by norm_num)
    rw [hfront, hbehind, Nat.zero_mul, Nat.zero_add, Nat.cast_zero] at heq
    have hof : exponentOf (some e) = (e.sign == .minus, decimal e.digits.chars) := rfl
    unfold parseExponent
    rw [exponentChars, strip_cons ascii_marker, if_pos hmark]
    dsimp only
    rw [parseExponentSign_chars e.sign ⟨c, cs, hds, hc⟩, hof]
    dsimp only
    rw [show strip Char.isDigit e.digits.chars = some (c, cs) by
      rw [hds, strip_cons ascii_isDigit, if_pos hc]]
    dsimp only
    rw [heq]
    split <;> rfl

end Reading

/-! ## The value of a literal -/

namespace Literal

variable (l : Literal)

/-- The digits of the mantissa that are folded. -/
def pushed : List Char := l.integer.pushed ++ digitsOf l.fraction

/-- The mantissa without its trailing zeros, and how many these are. -/
def stripped : ℕ × ℕ := pushAll (0, 0) l.pushed

/-- The power of ten that scales the stripped mantissa to base units. -/
def shift : ℤ := l.exponentValue - (digitsOf l.fraction).length + l.stripped.2 + 8

theorem parseFixedPoint_chars {s : String} (hs : s.toList = l.chars)
    (hlen : s.toList.length < 10 ^ 17) :
    parseFixedPoint s 8 =
      if l.stripped.1 < 10 ^ 18 ∧ (exponentOf l.exponent).2 < 10 ^ 18 then
        finalize l.negative ⟨l.stripped.1, l.stripped.2, (digitsOf l.fraction).length⟩
          (exponentOf l.exponent).1 (exponentOf l.exponent).2 8
      else .error .invalid := by
  obtain ⟨c, cs, hds, hc⟩ := l.integer.exists_cons
  have hstripped : l.stripped = pushAll (pushAll (0, 0) l.integer.pushed) (digitsOf l.fraction) :=
    pushAll_append _ _ _
  rw [hs, chars, List.length_append] at hlen
  rw [parseFixedPoint, hs, chars,
    parseSign_chars l.negative ⟨c, _, by rw [hds, List.cons_append], hc⟩]
  dsimp only
  rw [parseInteger_chars l.integer l.canonical (head_fractionChars _ _) (by omega)]
  by_cases hint : (pushAll (0, 0) l.integer.pushed).1 < 10 ^ 18
  · rw [if_pos hint, ok_bind]
    dsimp only
    have hzeros := zeros_pushAll_le (0, 0) l.integer.pushed
    have hpushed : l.integer.pushed.length ≤ l.integer.chars.length := by
      unfold Digits.pushed
      split <;> simp
    rw [List.length_append] at hlen
    rw [parseFraction_chars l.fraction l.exponent hint (by omega)]
    rw [hstripped]
    generalize pushAll (pushAll (0, 0) l.integer.pushed) (digitsOf l.fraction) = st
    by_cases hfrac : st.1 < 10 ^ 18
    · rw [if_pos hfrac, ok_bind]
      dsimp only
      rw [parseExponent_chars]
      by_cases hexp : (exponentOf l.exponent).2 < 10 ^ 18
      · rw [if_pos hexp, if_pos ⟨hfrac, hexp⟩, ok_bind]
        dsimp only
        rw [if_neg (by simp)]
      · rw [if_neg hexp, if_neg fun h => hexp h.2]
        rfl
    · rw [if_neg hfrac, if_neg fun h => hfrac h.1]
      rfl
  · have hgrow := le_pushAll (pushAll (0, 0) l.integer.pushed) (digitsOf l.fraction)
    rw [if_neg hint, hstripped, if_neg (by omega)]
    rfl

theorem digits_fraction : ∀ c ∈ digitsOf l.fraction, c.isDigit := by
  cases h : l.fraction with
  | none => simp [digitsOf]
  | some ds => exact ds.digits

theorem digits_mantissa : ∀ c ∈ l.mantissa, c.isDigit := by
  intro c hc
  rcases List.mem_append.mp hc with hc | hc
  · exact l.integer.digits c hc
  · exact l.digits_fraction c hc

theorem mantissa_eq :
    l.mantissa = l.pushed ∨ l.integer.pushed = [] ∧ l.mantissa = '0' :: l.pushed := by
  unfold mantissa pushed Digits.pushed
  split
  · next hzero =>
    rw [hzero]
    exact .inr ⟨rfl, rfl⟩
  · exact .inl rfl

theorem decimal_pushed : decimal l.pushed = decimal l.mantissa := by
  rcases l.mantissa_eq with h | ⟨-, h⟩
  · rw [h]
  · rw [h, decimal_cons, digit_zero, Nat.zero_mul, Nat.zero_add]

theorem stripped_spec : Stripped l.pushed l.stripped := by
  refine stripped_pushAll fun c hc => l.digits_mantissa c ?_
  rcases l.mantissa_eq with h | ⟨-, h⟩
  · rwa [h]
  · rw [h]
    exact List.mem_cons_of_mem _ hc

theorem stripped_eq_zero : l.stripped.1 = 0 ↔ ∀ c ∈ l.mantissa, c = '0' := by
  have hvalue := l.stripped_spec.value
  rw [← decimal_eq_zero l.digits_mantissa, ← l.decimal_pushed, ← hvalue, Nat.mul_eq_zero]
  exact ⟨.inl, fun h => h.resolve_right (by positivity)⟩

theorem zeros_of_stripped_eq_zero (h : l.stripped.1 = 0) :
    l.stripped.2 = (digitsOf l.fraction).length := by
  have hall := l.stripped_eq_zero.mp h
  have hpushed : l.integer.pushed = [] := by
    unfold Digits.pushed
    split
    · rfl
    · next hne =>
      obtain ⟨c, cs, hds, -⟩ := l.integer.exists_cons
      have hhead := l.canonical.resolve_left hne
      rw [hds, List.head?_cons] at hhead
      exact absurd (congrArg some (hall c (by simp [mantissa, hds]))) hhead
  rw [l.stripped_spec.allZero h, pushed, hpushed, List.nil_append]

theorem value_mul : l.value * 10 ^ 8 = signed l.negative l.stripped.1 * (10 : ℚ) ^ l.shift := by
  have hten : (10 : ℚ) ≠ 0 := by norm_num
  have hsigned : (signed l.negative (decimal l.mantissa) : ℚ) =
      signed l.negative l.stripped.1 * 10 ^ (l.stripped.2 : ℤ) := by
    rw [← l.decimal_pushed, ← l.stripped_spec.value, zpow_natCast]
    cases l.negative <;> simp [signed]
  rw [value, hsigned, shift, mul_assoc, mul_assoc, ← zpow_natCast, ← zpow_add₀ hten,
    ← zpow_add₀ hten]
  congr 2
  push_cast
  ring

theorem signed_mul_zpow {negative : Bool} {m : ℕ} {k v : ℤ} (hm : m % 10 ≠ 0) :
    (signed negative m : ℚ) * 10 ^ k = v ↔ 0 ≤ k ∧ signed negative m * 10 ^ k.toNat = v := by
  cases negative with
  | false => exact mul_zpow_eq_intCast hm
  | true =>
    have hneg := mul_zpow_eq_intCast (k := k) (v := -v) hm
    simp only [signed, if_true]
    push_cast at hneg ⊢
    rw [neg_mul, neg_mul, neg_eq_iff_eq_neg, neg_eq_iff_eq_neg]
    exact hneg

theorem length_mantissa_le :
    l.integer.chars.length + (digitsOf l.fraction).length ≤ l.chars.length := by
  have hfraction : (digitsOf l.fraction).length ≤ (fractionChars l.fraction).length := by
    cases l.fraction <;> simp [digitsOf, fractionChars]
  simp only [chars, List.length_append]
  omega

theorem zeros_le : l.stripped.2 ≤ l.chars.length := by
  refine (l.stripped_spec.zeros.trans ?_).trans l.length_mantissa_le
  rw [pushed, List.length_append, Digits.pushed]
  split <;> simp

theorem denotes_iff (hlen : l.chars.length < 10 ^ 17) (v : ℤ) :
    l.Denotes v ↔
      (l.stripped.1 < 10 ^ 18 ∧ (exponentOf l.exponent).2 < 10 ^ 18 ∧ 0 ≤ l.shift ∧ l.shift < 18 ∧
        l.stripped.1 * 10 ^ l.shift.toNat < 10 ^ 18) ∧
        v = signed l.negative l.stripped.1 * 10 ^ l.shift.toNat := by
  have hdigits := l.length_mantissa_le
  have hzeros := l.zeros_le
  have hexp : l.exponentValue.natAbs = (exponentOf l.exponent).2 := natAbs_signed _ _
  have hshift : l.shift = l.exponentValue - (digitsOf l.fraction).length + l.stripped.2 + 8 := rfl
  have habs := natAbs_signed l.negative l.stripped.1
  by_cases hm : l.stripped.1 = 0
  · -- every digit is a zero: only the exponent decides
    have hall := l.stripped_eq_zero.mp hm
    have ht := l.zeros_of_stripped_eq_zero hm
    have hzero : signed l.negative 0 = 0 := by cases l.negative <;> rfl
    have hvalue : l.value = 0 := by
      have := l.value_mul
      rw [hm, hzero] at this
      simpa using this
    rw [hm, hzero, Nat.zero_mul, Int.zero_mul, Denotes]
    constructor
    · rintro (⟨hne, -⟩ | ⟨-, hlo, hhi, hv⟩)
      · exact absurd hvalue hne
      · refine ⟨⟨by norm_num, by omega, by omega, by omega, by norm_num⟩, hv⟩
    · rintro ⟨⟨-, -, hlo, hhi, -⟩, hv⟩
      exact .inr ⟨hall, by omega, by omega, hv⟩
  · have hlast := l.stripped_spec.last hm
    have hvalue : l.value * 10 ^ 8 = v ↔
        0 ≤ l.shift ∧ signed l.negative l.stripped.1 * 10 ^ l.shift.toNat = v := by
      rw [l.value_mul]
      exact signed_mul_zpow hlast
    have hnotall : ¬ ∀ c ∈ l.mantissa, c = '0' := fun h => hm (l.stripped_eq_zero.mpr h)
    have hscaled : (signed l.negative l.stripped.1 * 10 ^ l.shift.toNat).natAbs =
        l.stripped.1 * 10 ^ l.shift.toNat := by
      rw [Int.natAbs_mul, habs, Int.natAbs_pow]
      rfl
    have hgrow : l.stripped.1 ≤ l.stripped.1 * 10 ^ l.shift.toNat :=
      Nat.le_mul_of_pos_right _ (by positivity)
    constructor
    · rintro (⟨-, hx, hv⟩ | ⟨hall, -⟩)
      · obtain ⟨hk, rfl⟩ := hvalue.mp hx
        rw [Int.abs_eq_natAbs, hscaled] at hv
        have hbound : l.stripped.1 * 10 ^ l.shift.toNat < 10 ^ 18 := by omega
        have hpow : 10 ^ l.shift.toNat < 10 ^ 18 :=
          (Nat.le_mul_of_pos_left _ (Nat.pos_of_ne_zero hm)).trans_lt hbound
        have hk18 := (Nat.pow_lt_pow_iff_right (by norm_num)).mp hpow
        exact ⟨⟨by omega, by omega, hk, by omega, hbound⟩, rfl⟩
      · exact absurd hall hnotall
    · rintro ⟨⟨-, -, hk, -, hbound⟩, rfl⟩
      have hx := hvalue.mpr ⟨hk, rfl⟩
      refine .inl ⟨fun h0 => ?_, hx, ?_⟩
      · rw [h0, zero_mul] at hx
        have h0 : signed l.negative l.stripped.1 * 10 ^ l.shift.toNat = 0 := by
          exact_mod_cast hx.symm
        rw [h0] at hscaled
        have : 0 < l.stripped.1 := Nat.pos_of_ne_zero hm
        rw [Int.natAbs_zero] at hscaled
        omega
      · rw [Int.abs_eq_natAbs, hscaled]
        omega

end Literal

theorem Literal.parseFixedPoint_eq_ok (l : Literal) {s : String} (hl : l.chars = s.toList)
    (hlen : s.toList.length < 10 ^ 17) (v : ℤ) : parseFixedPoint s 8 = .ok v ↔ l.Denotes v := by
  have hchars : l.chars.length < 10 ^ 17 := by rwa [hl]
  rw [l.denotes_iff hchars, l.parseFixedPoint_chars hl.symm hlen]
  by_cases hbounds : l.stripped.1 < 10 ^ 18 ∧ (exponentOf l.exponent).2 < 10 ^ 18
  · have hp := l.length_mantissa_le
    have ht := l.zeros_le
    have hshift : FixedPoint.shift l.stripped.2 (digitsOf l.fraction).length
        (exponentOf l.exponent).1 (exponentOf l.exponent).2 = l.shift := rfl
    rw [if_pos hbounds, finalize_eq hbounds.1 (by omega) (by omega) hbounds.2, hshift]
    split
    · next hk =>
      rw [Except.ok.injEq]
      exact ⟨fun hv => ⟨⟨hbounds.1, hbounds.2, hk⟩, hv.symm⟩, fun hv => hv.2.symm⟩
    · next hk => exact iff_of_false (by simp) fun h => hk ⟨h.1.2.2.1, h.1.2.2.2⟩
  · rw [if_neg hbounds]
    exact iff_of_false (by simp) fun h => hbounds ⟨h.1.1, h.1.2.1⟩

/-- The string is a literal, and worth `v` base units. -/
def Accepts (s : String) (v : ℤ) : Prop := ∃ l : Literal, l.chars = s.toList ∧ l.Denotes v

/-- Only a literal has a value, and it has the one it is worth. -/
theorem parseFixedPoint_eq_ok {s : String} (hlen : s.toList.length < 10 ^ 17) {v : ℤ} :
    parseFixedPoint s 8 = .ok v ↔ Accepts s v := by
  constructor
  · intro h
    obtain ⟨l, hl⟩ := (parseFixedPoint_total hlen).2 v h
    exact ⟨l, hl, (l.parseFixedPoint_eq_ok hl hlen v).mp h⟩
  · rintro ⟨l, hl, hv⟩
    exact (l.parseFixedPoint_eq_ok hl hlen v).mpr hv

/-- The parser returns exactly what a string is worth, and none of its arithmetic overflows. -/
theorem parseFixedPoint_spec {s : String} (hlen : s.length < 10 ^ 17) :
    parseFixedPoint s 8 ≠ .error .overflow ∧
      ∀ v, parseFixedPoint s 8 = .ok v ↔ Accepts s v := by
  rw [← String.length_toList] at hlen
  refine ⟨(parseFixedPoint_total hlen).1, ?_⟩
  intro v
  exact parseFixedPoint_eq_ok hlen

/-- `0.5` is fifty million base units. -/
theorem half_accepted :
    parseFixedPoint "0.5" 8 ≠ .error .overflow ∧ Accepts "0.5" 50000000 := by
  have hspec := parseFixedPoint_spec (s := "0.5") (by decide)
  exact ⟨hspec.1, (hspec.2 50000000).mp (by decide)⟩

example : parseFixedPoint "-0.00000001" 8 = .ok (-1) := by decide
example : parseFixedPoint "0.000000000000000000000000000001e+22" 8 = .ok 1 := by decide
example : parseFixedPoint "0.1e" 8 = .error .invalid := by decide

end Zecd.FixedPoint
