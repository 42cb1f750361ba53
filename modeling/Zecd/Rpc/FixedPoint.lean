import Zecd.Foundation.Decimal
import Zecd.Foundation.Fallible

/-! # Fixed-point numbers

The parser behind every amount: a decimal literal, scaled by a power of ten to a whole number
of base units.
-/

namespace Zecd.FixedPoint

open Decimal

/-- Why the parser stops without a value: an operation overflows, or it refuses the string. -/
inductive Stop where
  | overflow
  | invalid
  deriving DecidableEq, Repr

def i64 (n : ℤ) : Except Stop ℤ :=
  if -2 ^ 63 ≤ n ∧ n < 2 ^ 63 then .ok n else .error .overflow

/-- The largest number all of whose digits are arbitrary. -/
def upperBound : ℤ := 1000000000000000000 - 1

/-- The mantissa so far: its value without the trailing zeros, how many these are, and how many
digits stand after the point. -/
structure Mantissa where
  value : ℤ
  tzeros : ℤ
  pointOfs : ℤ
  deriving DecidableEq, Repr

def Mantissa.zero : Mantissa := ⟨0, 0, 0⟩

/-- Multiply by ten `n` times, each time only below a tenth of the bound. -/
def scaleMantissa : ℕ → ℤ → Except Stop ℤ
  | 0, value => .ok value
  | n + 1, value =>
    if upperBound / 10 < value then .error .invalid
    else do scaleMantissa n (← i64 (value * 10))

/-- Fold one digit: a zero is only counted until another digit follows it. -/
def processMantissaDigit (ch : Char) (m : Mantissa) : Except Stop Mantissa :=
  if ch = '0' then do
    let tzeros ← i64 (m.tzeros + 1)
    return { m with tzeros }
  else do
    let scaled ← scaleMantissa (m.tzeros + 1).toNat m.value
    let value ← i64 (scaled + digit ch)
    return { m with value, tzeros := 0 }

/-- Fold the digits at the front, each of which moves the point by `ofs`. -/
def mantissaDigits (ofs : ℤ) : Mantissa → List Char → Except Stop (Mantissa × List Char)
  | m, [] => .ok (m, [])
  | m, ch :: rest =>
    if ch.isDigit then do
      let m ← processMantissaDigit ch m
      let pointOfs ← i64 (m.pointOfs + ofs)
      mantissaDigits ofs { m with pointOfs } rest
    else .ok (m, ch :: rest)

def exponentDigits : ℤ → List Char → Except Stop (ℤ × List Char)
  | exponent, [] => .ok (exponent, [])
  | exponent, ch :: rest =>
    if ch.isDigit then
      if upperBound / 10 < exponent then .error .invalid
      else do
        let tens ← i64 (exponent * 10)
        let exponent ← i64 (tens + digit ch)
        exponentDigits exponent rest
    else .ok (exponent, ch :: rest)

/-- The first byte, where it is a character of its own. -/
def splitAtChecked : List Char → Option (Char × List Char)
  | [] => none
  | c :: rest => if c.utf8Size = 1 then some (c, rest) else none

/-- What follows a first character of the kind asked for. -/
def strip (p : Char → Bool) (val : List Char) : Option (Char × List Char) :=
  (splitAtChecked val).filter fun split => p split.1

def parseSign (val : List Char) : Bool × List Char :=
  match strip (· == '-') val with
  | some (_, rest) => (true, rest)
  | none => (false, val)

/-- A single zero, or digits that do not start with one. -/
def parseInteger (val : List Char) : Except Stop (Mantissa × List Char) :=
  match strip (· == '0') val with
  | some (_, rest) => .ok (.zero, rest)
  | none =>
    match strip Char.isDigit val with
    | some _ => mantissaDigits 0 .zero val
    | none => .error .invalid

def parseFraction (m : Mantissa) (val : List Char) : Except Stop (Mantissa × List Char) :=
  match strip (· == '.') val with
  | some (_, val) =>
    match strip Char.isDigit val with
    | some _ => mantissaDigits 1 m val
    | none => .error .invalid
  | none => .ok (m, val)

def parseExponentSign (val : List Char) : Bool × List Char :=
  match strip (· == '+') val with
  | some (_, rest) => (false, rest)
  | none => parseSign val

/-- The sign of the exponent, its digits, and what follows. -/
def parseExponent (val : List Char) : Except Stop (Bool × ℤ × List Char) :=
  match strip (fun c => c == 'e' || c == 'E') val with
  | some (_, val) =>
    let (negative, val) := parseExponentSign val
    match strip Char.isDigit val with
    | some _ => do
      let (exponent, rest) ← exponentDigits 0 val
      return (negative, exponent, rest)
    | none => .error .invalid
  | none => .ok (false, 0, val)

/-- Multiply by ten `n` times within the bound, and check the result against it. -/
def scaleValue : ℕ → ℤ → Except Stop ℤ
  | 0, value =>
    if -upperBound ≤ value ∧ value ≤ upperBound then .ok value else .error .invalid
  | n + 1, value =>
    if -(upperBound / 10) ≤ value ∧ value ≤ upperBound / 10 then do
      scaleValue n (← i64 (value * 10))
    else .error .invalid

def applySign (negative : Bool) (n : ℤ) : Except Stop ℤ := if negative then i64 (-n) else .ok n

def finalize (negative : Bool) (m : Mantissa) (exponentNegative : Bool) (exponent decimals : ℤ) :
    Except Stop ℤ := do
  let exponent ← applySign exponentNegative exponent
  let exponent ← i64 (exponent - m.pointOfs)
  let exponent ← i64 (exponent + m.tzeros)
  let value ← applySign negative m.value
  let exponent ← i64 (exponent + decimals)
  if exponent < 0 then .error .invalid
  else if 18 ≤ exponent then .error .invalid
  else scaleValue exponent.toNat value

/-- The value of the string in units of `10 ^ -decimals`. -/
def parseFixedPoint (val : String) (decimals : ℤ) : Except Stop ℤ := do
  let (negative, val) := parseSign val.toList
  let (m, val) ← parseInteger val
  let (m, val) ← parseFraction m val
  let (exponentNegative, exponent, val) ← parseExponent val
  if val ≠ [] then .error .invalid
  else finalize negative m exponentNegative exponent decimals

end Zecd.FixedPoint
