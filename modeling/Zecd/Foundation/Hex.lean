import Mathlib

/-! # Hexadecimal text

Bytes are written as two lower-case digits each, and read from digits in either case.
-/

namespace Zecd.Hex

def byteDigits (b : UInt8) : List Char :=
  [Nat.digitChar (b.toNat / 16), Nat.digitChar (b.toNat % 16)]

def encode (bytes : List UInt8) : List Char := bytes.flatMap byteDigits

def digitValue (c : Char) : Option ℕ :=
  let n := c.toNat
  if 48 ≤ n ∧ n ≤ 57 then some (n - 48)
  else if 97 ≤ n ∧ n ≤ 102 then some (n - 87)
  else if 65 ≤ n ∧ n ≤ 70 then some (n - 55)
  else none

def decode : List Char → Option (List UInt8)
  | [] => some []
  | [_] => none
  | a :: b :: rest => do
    let high ← digitValue a
    let low ← digitValue b
    let bytes ← decode rest
    some (UInt8.ofNat (high * 16 + low) :: bytes)

def asciiLower (s : List Char) : List Char := s.map Char.toLower

variable {bytes : List UInt8} {s : List Char}

theorem digitValue_digitChar : ∀ d < 16, digitValue (Nat.digitChar d) = some d := by decide

theorem ne_digitChar {c : Char} (hc : digitValue c = none) : ∀ d < 16, c ≠ Nat.digitChar d := by
  rintro d hd rfl
  rw [digitValue_digitChar d hd] at hc
  cases hc

theorem notMem_toDigits {b : ℕ} {c : Char} (hb : 1 < b) (hb' : b ≤ 16) (hc : digitValue c = none)
    (n : ℕ) : c ∉ Nat.toDigits b n := by
  induction n using Nat.strongRecOn with
  | ind n ih =>
    rw [Nat.toDigits_eq_if hb]
    split
    · next h => simpa using ne_digitChar hc n (by omega)
    · next h =>
      have hlast : n % b < b := Nat.mod_lt n (by omega)
      rw [List.mem_append, not_or, List.mem_singleton]
      exact ⟨ih (n / b) (Nat.div_lt_self (by omega) hb), ne_digitChar hc _ (by omega)⟩

theorem notMem_encode {c : Char} (hc : digitValue c = none) : c ∉ encode bytes := by
  intro hmem
  obtain ⟨b, -, hb⟩ := List.mem_flatMap.mp hmem
  have hb256 : b.toNat < 256 := b.toNat_lt
  rcases List.mem_cons.mp hb with hhigh | hb
  · exact ne_digitChar hc (b.toNat / 16) (by omega) hhigh
  · exact ne_digitChar hc (b.toNat % 16) (by omega) (List.mem_singleton.mp hb)

theorem length_encode (bytes : List UInt8) : (encode bytes).length = 2 * bytes.length := by
  induction bytes with
  | nil => rfl
  | cons b bytes ih =>
    rw [encode, List.flatMap_cons, List.length_append, ← encode, ih, List.length_cons]
    simp only [byteDigits, List.length_cons, List.length_nil]
    omega

theorem decode_encode (bytes : List UInt8) : decode (encode bytes) = some bytes := by
  induction bytes with
  | nil => rfl
  | cons b bytes ih =>
    have hb : b.toNat < 256 := b.toNat_lt
    have hhigh := digitValue_digitChar (b.toNat / 16) (by omega)
    have hlow := digitValue_digitChar (b.toNat % 16) (by omega)
    have hvalue : UInt8.ofNat (b.toNat / 16 * 16 + b.toNat % 16) = b := by
      rw [Nat.div_add_mod', UInt8.ofNat_toNat]
    have hcons : encode (b :: bytes) = Nat.digitChar (b.toNat / 16) ::
        Nat.digitChar (b.toNat % 16) :: encode bytes := rfl
    simp only [hcons, decode, hhigh, hlow, ih, Option.bind_eq_bind, Option.bind_some, hvalue]

theorem toNat_toLower (c : Char) :
    c.toLower.toNat = if 65 ≤ c.toNat ∧ c.toNat ≤ 90 then c.toNat + 32 else c.toNat := by
  have hupper : c.val ≥ 'A'.val ∧ c.val ≤ 'Z'.val ↔ 65 ≤ c.toNat ∧ c.toNat ≤ 90 :=
    and_congr UInt32.le_iff_toNat_le UInt32.le_iff_toNat_le
  unfold Char.toLower
  split
  · rename_i h
    rw [if_pos (hupper.mp h)]
    change (c.val + ('a'.val - 'A'.val)).toNat = c.val.toNat + 32
    have hlt : c.val.toNat ≤ 90 := (hupper.mp h).2
    have hshift : ('a'.val - 'A'.val).toNat = 32 := by decide
    rw [UInt32.toNat_add, hshift, Nat.mod_eq_of_lt (by omega)]
  · rename_i h
    rw [if_neg (fun h' => h (hupper.mpr h'))]

theorem digitValue_toLower (c : Char) : digitValue c.toLower = digitValue c := by
  simp only [digitValue, toNat_toLower]
  split_ifs <;> first | omega | exact congrArg some (by omega) | rfl

theorem decode_asciiLower (s : List Char) : decode (asciiLower s) = decode s := by
  induction s using decode.induct with
  | case1 => rfl
  | case2 a => rfl
  | case3 a b rest ih =>
    have hcons : asciiLower (a :: b :: rest) = a.toLower :: b.toLower :: asciiLower rest := rfl
    rw [hcons, decode, decode, digitValue_toLower, digitValue_toLower, ih]

end Zecd.Hex
