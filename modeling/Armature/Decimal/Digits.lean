/-
**Decimal digits and their positional layout.**

A `Digits` is a natural number together with a power of ten.  This module counts and writes
digits, rounds a quotient to a whole number, and lays a decimal number out without an exponent.

Main definitions:

* `Decimal.digitCount` — how many digits a number has;
* `Decimal.divNearest` — the nearest whole quotient, a half going to the even neighbour;
* `Decimal.Digits` — a number `coefficient * 10 ^ exponent`;
* `Decimal.Digits.positional` — its text without an exponent, `1`, `0.5`, `1200`.
-/

set_option autoImplicit false

namespace Armature.Decimal

/-- The number of decimal digits of `n`; zero has none. -/
def digitCount (n : Nat) : Nat := if n = 0 then 0 else (Nat.toDigits 10 n).length

/-- The whole number nearest to `n / d`; of two equally near ones the even one. -/
def divNearest (n d : Nat) : Nat :=
  let q := n / d
  let r := n % d
  if d < 2 * r || (2 * r == d && q % 2 == 1) then q + 1 else q

/-- A number `coefficient * 10 ^ exponent`. -/
structure Digits where
  /-- The digits, read as a natural number. -/
  coefficient : Nat
  /-- The power of ten of the last digit. -/
  exponent : Int
  deriving DecidableEq, Repr

/-- A text of `n` zeros. -/
def zeros (n : Nat) : String := String.ofList (List.replicate n '0')

/-- Move trailing zeros of the coefficient into the exponent, at most `fuel` of them. -/
def Digits.trimUpTo : Nat → Digits → Digits
  | 0, d => d
  | fuel + 1, d =>
    if d.coefficient ≠ 0 ∧ d.coefficient % 10 = 0 then
      trimUpTo fuel ⟨d.coefficient / 10, d.exponent + 1⟩
    else d

/-- The same number with no trailing zero in the coefficient. -/
def Digits.trim (d : Digits) : Digits := d.trimUpTo (digitCount d.coefficient)

/-- How many digits stand before the point; zero or less if the number is below one tenth. -/
def Digits.pointAt (d : Digits) : Int := digitCount d.coefficient + d.exponent

/-- Split a text after its first `n` characters by a point. -/
def splitPoint (n : Nat) (text : String) : String :=
  String.ofList (text.toList.take n) ++ "." ++ String.ofList (text.toList.drop n)

/-- The number without an exponent and, if it is whole, without a point. -/
def Digits.positional (d : Digits) : String :=
  let text := toString d.coefficient
  match d.exponent with
  | .ofNat e => text ++ zeros e
  | .negSucc e =>
    let places := e + 1
    if places < text.length then splitPoint (text.length - places) text
    else "0." ++ zeros (places - text.length) ++ text

/-- A number of thousandths, tenths and so on, with all its `places` digits after the point. -/
def fixedPoint (places coefficient : Nat) : String :=
  if places = 0 then toString coefficient
  else
    let text := toString coefficient
    let padded := zeros (places + 1 - text.length) ++ text
    splitPoint (padded.length - places) padded

end Armature.Decimal
