import Mathlib

/-! # Splitting text

Text is trimmed of its outer white space, and split at the first occurrence of a pattern or at
the last one of a character. An unsigned number is read from its digits.
-/

namespace Zecd.Text

-- Membership among texts is decided through this instance, and literals of 8 and 16 bits through
-- the next two.
instance lawfulBEqText : LawfulBEq (List Char) := inferInstance

instance neZeroByte : NeZero 256 := ⟨by decide⟩

instance neZeroTwoPowSixteen : NeZero (2 ^ 16) := ⟨by decide⟩

/-- The characters of the Unicode property `White_Space`. -/
def isWhitespace (c : Char) : Bool :=
  let n := c.toNat
  (9 ≤ n && n ≤ 13) || n == 0x20 || n == 0x85 || n == 0xA0 || n == 0x1680 ||
    (0x2000 ≤ n && n ≤ 0x200A) || n == 0x2028 || n == 0x2029 || n == 0x202F || n == 0x205F ||
    n == 0x3000

def trim (s : List Char) : List Char := (s.dropWhile isWhitespace).rdropWhile isWhitespace

/-- The text before and after the first occurrence of a pattern. -/
def splitOnce (pattern : List Char) : List Char → Option (List Char × List Char)
  | [] => if pattern = [] then some ([], []) else none
  | c :: cs =>
    if pattern.isPrefixOf (c :: cs) then some ([], (c :: cs).drop pattern.length)
    else (splitOnce pattern cs).map fun parts => (c :: parts.1, parts.2)

/-- The text before and after the last occurrence of a character. -/
def rsplitOnce (c : Char) : List Char → Option (List Char × List Char)
  | [] => none
  | d :: ds =>
    match rsplitOnce c ds with
    | some (before, after) => some (d :: before, after)
    | none => if d = c then some ([], ds) else none

/-- The text without one such character at its start, if it has one there. -/
def stripFirst (c : Char) : List Char → Option (List Char)
  | [] => none
  | d :: ds => if d = c then some ds else none

/-- An unsigned number below a bound: digits, behind one plus sign at most. -/
def parseUnsigned (bound : ℕ) (s : List Char) : Option (Fin bound) :=
  let digits := (stripFirst '+' s).getD s
  if digits ≠ [] ∧ digits.all Char.isDigit then
    if h : Nat.ofDigitChars 10 digits 0 < bound then some ⟨Nat.ofDigitChars 10 digits 0, h⟩
    else none
  else none

variable {s before after : List Char} {c : Char}

theorem isWhitespace_of_isDigit (h : c.isDigit) : isWhitespace c = false := by
  simp only [Char.isDigit, Bool.and_eq_true, decide_eq_true_eq] at h
  have hlo : '0'.val.toNat ≤ c.val.toNat := UInt32.le_iff_toNat_le.mp h.1
  have hhi : c.val.toNat ≤ '9'.val.toNat := UInt32.le_iff_toNat_le.mp h.2
  have h0 : '0'.val.toNat = 48 := rfl
  have h9 : '9'.val.toNat = 57 := rfl
  have hc : c.toNat = c.val.toNat := rfl
  simp [isWhitespace]
  omega

theorem trim_isInfix (s : List Char) : trim s <:+: s :=
  (List.rdropWhile_prefix _ _).isInfix.trans (List.dropWhile_suffix _).isInfix

theorem count_trim (h : isWhitespace c = false) : (trim s).count c = s.count c := by
  have hdrop : ∀ l : List Char, (l.dropWhile isWhitespace).count c = l.count c := by
    intro l
    induction l with
    | nil => rfl
    | cons d l ih =>
      by_cases hd : isWhitespace d
      · have hne : d ≠ c := by
          rintro rfl
          rw [h] at hd
          cases hd
        rw [List.dropWhile_cons_of_pos hd, ih, List.count_cons_of_ne hne]
      · rw [List.dropWhile_cons_of_neg hd]
  rw [trim, List.rdropWhile, List.count_reverse, hdrop, List.count_reverse, hdrop]

theorem trim_eq_self {first last : Char} {middle : List Char}
    (hfirst : isWhitespace first = false) (hlast : isWhitespace last = false) :
    trim (first :: (middle ++ [last])) = first :: (middle ++ [last]) := by
  rw [trim, List.dropWhile_cons_of_neg (by simp [hfirst]), ← List.cons_append]
  exact List.rdropWhile_concat_neg _ _ _ (by simp [hlast])

theorem splitOnce_eq_some {pattern : List Char}
    (h : splitOnce pattern s = some (before, after)) : s = before ++ pattern ++ after := by
  induction s generalizing before with
  | nil =>
    rw [splitOnce] at h
    split at h
    · next hp =>
      cases h
      simp [hp]
    · cases h
  | cons d ds ih =>
    rw [splitOnce] at h
    split at h
    · next hp =>
      cases h
      rw [List.nil_append]
      exact (List.prefix_iff_eq_append.mp (List.isPrefixOf_iff_prefix.mp hp)).symm
    · obtain ⟨⟨before', after'⟩, hrest, heq⟩ := Option.map_eq_some_iff.mp h
      cases heq
      rw [ih hrest]
      rfl

theorem rsplitOnce_eq_none : rsplitOnce c s = none ↔ c ∉ s := by
  induction s with
  | nil => simp [rsplitOnce]
  | cons d ds ih =>
    rw [rsplitOnce]
    cases hrest : rsplitOnce c ds with
    | some parts =>
      have hmem : c ∈ ds := by
        by_contra hnot
        rw [ih.mpr hnot] at hrest
        cases hrest
      simp [hmem]
    | none =>
      have hnot := ih.mp hrest
      by_cases hd : d = c
      · simp [hd]
      · simp [hd, hnot, Ne.symm hd]

theorem rsplitOnce_eq_some :
    rsplitOnce c s = some (before, after) ↔ s = before ++ c :: after ∧ c ∉ after := by
  induction s generalizing before after with
  | nil => simp [rsplitOnce]
  | cons d ds ih =>
    rw [rsplitOnce]
    cases hrest : rsplitOnce c ds with
    | some parts =>
      obtain ⟨before', after'⟩ := parts
      obtain ⟨rfl, hafter⟩ := ih.mp hrest
      constructor
      · intro h
        cases h
        exact ⟨rfl, hafter⟩
      · rintro ⟨heq, hnot⟩
        cases before with
        | nil =>
          obtain ⟨-, rfl⟩ := List.cons.inj heq
          simp at hnot
        | cons d' before =>
          obtain ⟨rfl, hds⟩ := List.cons.inj heq
          have hsame := ih.mpr ⟨hds, hnot⟩
          rw [hrest] at hsame
          cases hsame
          rfl
    | none =>
      have hnone := rsplitOnce_eq_none.mp hrest
      by_cases hd : d = c
      · subst hd
        simp only [if_true]
        constructor
        · intro h
          cases h
          exact ⟨rfl, hnone⟩
        · rintro ⟨heq, hnot⟩
          cases before with
          | nil => rw [(List.cons.inj heq).2]
          | cons d' before =>
            rw [(List.cons.inj heq).2] at hnone
            simp at hnone
      · simp only [if_neg hd]
        refine iff_of_false nofun ?_
        rintro ⟨heq, -⟩
        cases before with
        | nil => exact hd (List.cons.inj heq).1
        | cons d' before =>
          rw [(List.cons.inj heq).2] at hnone
          simp at hnone

theorem stripFirst_eq_some : stripFirst c s = some after ↔ s = c :: after := by
  cases s with
  | nil => simp [stripFirst]
  | cons d ds => simp [stripFirst]

theorem stripFirst_eq_none : stripFirst c s = none ↔ s.head? ≠ some c := by
  cases s with
  | nil => simp [stripFirst]
  | cons d ds => simp [stripFirst]

theorem parseUnsigned_toDigits {bound : ℕ} (n : Fin bound) :
    parseUnsigned bound (Nat.toDigits 10 n) = some n := by
  have hdigits : ∀ c ∈ Nat.toDigits 10 n, c.isDigit := fun c hc =>
    Nat.isDigit_of_mem_toDigits (by decide) (by decide) hc
  have hplain : (stripFirst '+' (Nat.toDigits 10 n)).getD (Nat.toDigits 10 n) =
      Nat.toDigits 10 n := by
    cases hs : stripFirst '+' (Nat.toDigits 10 n) with
    | none => rfl
    | some rest =>
      have hplus := hdigits '+' (by rw [stripFirst_eq_some.mp hs]; exact List.mem_cons_self)
      cases hplus
  rw [parseUnsigned, hplain, if_pos ⟨Nat.toDigits_ne_nil, List.all_eq_true.mpr hdigits⟩]
  simp only [Nat.ofDigitChars_ten_toDigits, n.isLt, dite_true]

theorem mem_of_parseUnsigned {bound : ℕ} {n : Fin bound} (h : parseUnsigned bound s = some n)
    (hc : c ∈ s) : c.isDigit ∨ c = '+' := by
  unfold parseUnsigned at h
  dsimp only at h
  split at h
  · next hdigits =>
    have hall := List.all_eq_true.mp hdigits.2
    cases hs : stripFirst '+' s with
    | none => exact Or.inl (hall c (by simpa [hs] using hc))
    | some rest =>
      rw [stripFirst_eq_some.mp hs] at hc
      rcases List.mem_cons.mp hc with rfl | hrest
      · exact Or.inr rfl
      · exact Or.inl (hall c (by simpa [hs] using hrest))
  · cases h

end Zecd.Text
