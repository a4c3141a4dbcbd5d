/-
**Numbers of JSON.**

A number without point and exponent is a whole number if it fits sixty-four bits.  Any other is read
in double precision: the digits are gathered in a whole number of sixty-four bits, those that no
longer fit count as zeros, and the result is multiplied or divided by a power of ten.  That loses a
bit here and there, but never more than the last one or two of a double.

Main definitions:

* `Json.Number` — a whole number or a double;
* `Json.Literal.number?` — the number of a literal, if it is in range;
* `Json.Literal.scalar?`, `Json.Literal.natural?` — as a scalar, and as a whole number;
* `Scalar.jsonText` — the shortest text of a scalar.
-/

import Armature.Json.Value
import Armature.Scalar.Text

set_option autoImplicit false

namespace Armature

namespace Json

/-- A number that has been read. -/
inductive Number where
  /-- A whole number without sign. -/
  | natural (n : UInt64)
  /-- The negative of a whole number that is not zero. -/
  | negative (n : UInt64)
  /-- Any other number. -/
  | double (x : Float)

/-! ### Digits -/

/-- The greatest number of sixty-four bits. -/
def maxWord64 : Nat := UInt64.size - 1

/-- Append digits to a number as long as it fits sixty-four bits; the rest is returned. -/
def appendDigits (n : Nat) : List Nat → Nat × List Nat
  | [] => (n, [])
  | d :: ds => if n * 10 + d ≤ maxWord64 then appendDigits (n * 10 + d) ds else (n, d :: ds)

/-- The number of some digits. -/
def ofDigits (digits : List Nat) : Nat := digits.foldl (fun n d => n * 10 + d) 0

/-! ### Powers of ten -/

/-- The greatest power of ten of double precision. -/
def maxPower : Nat := 308

/-- A power of ten. -/
def power (e : Nat) : Float := Float.ofScientific 1 false e

/-- Divide by a power of ten, in steps that double precision can hold. -/
def divideByPower : Nat → Float → Nat → Float
  | 0, x, _ => x
  | fuel + 1, x, e =>
    if e ≤ maxPower then x / power e
    else if x == 0.0 then x
    else divideByPower fuel (x / power maxPower) (e - maxPower)

/-- A whole number times a power of ten, unless it is too great. -/
def scaled? (n : Nat) (e : Int) : Option Float :=
  let x := (UInt64.ofNat n).toFloat
  match e with
  | .ofNat e =>
    if e ≤ maxPower then
      let y := x * power e
      if y.isInf then none else some y
    else if x == 0.0 then some x
    else none
  | .negSucc e => some (divideByPower 4 x (e + 1))

/-! ### Literals -/

/-- The greatest exponent that is taken as it is. -/
def maxExponent : Nat := 0x7fffffff

/-- The literal in double precision, without its sign. -/
def Literal.magnitude? (l : Literal) : Option Float :=
  let (n, dropped) := appendDigits 0 l.whole
  let (n, rest) := appendDigits n l.fraction
  let places : Int := (dropped.length : Int) - ((l.fraction.length - rest.length : Nat) : Int)
  match l.exponent? with
  | none => scaled? n places
  | some (negative, digits) =>
    let e := ofDigits digits
    if maxExponent < e then
      if n ≠ 0 ∧ !negative then none else some 0.0
    else scaled? n (if negative then places - e else places + e)

/-- The literal in double precision. -/
def Literal.double? (l : Literal) : Option Float :=
  l.magnitude?.map fun x => if l.negative then -x else x

/-- The number of a literal.  A negative zero, and a whole number that does not fit, is a double. -/
def Literal.number? (l : Literal) : Option Number :=
  let n := ofDigits l.whole
  let double := l.double?.map .double
  match l.fraction, l.exponent? with
  | [], none =>
    if l.negative then
      if n ≠ 0 ∧ n ≤ 0x8000000000000000 then some (.negative (UInt64.ofNat n)) else double
    else if n ≤ maxWord64 then some (.natural (UInt64.ofNat n))
    else double
  | _, _ => double

/-- The literal as a scalar. -/
def Literal.scalar? (l : Literal) : Option Scalar :=
  l.number?.map fun
    | .natural n => .ofUInt64 n
    | .negative n => -.ofUInt64 n
    | .double x => .ofFloat x

/-- The literal as a whole number without sign. -/
def Literal.natural? (l : Literal) : Option Nat :=
  match l.number? with
  | some (.natural n) => some n.toNat
  | _ => none

/-- The scalar of a number. -/
def Value.scalar? : Value → Option Scalar
  | .number l => l.scalar?
  | _ => none

/-- The whole number of a number. -/
def Value.natural? : Value → Option Nat
  | .number l => l.natural?
  | _ => none

end Json

/-! ### Writing -/

/-- How many digits may stand before the point. -/
def Json.maxWholeDigits : Int := 13

/-- How many zeros may stand between the point and the first digit, plus one. -/
def Json.maxLeadingZeros : Int := 6

/-- The shortest digits in the form of a JSON number.  Within bounds they are positional, with at
least one place; beyond, one digit stands before the point and a power of ten follows, with its
sign. -/
def Decimal.Digits.jsonText (d : Decimal.Digits) : String :=
  let digits := toString d.coefficient
  let point := d.pointAt
  if 0 ≤ d.exponent ∧ point ≤ Json.maxWholeDigits then d.positional ++ ".0"
  else if -Json.maxLeadingZeros < point ∧ point ≤ Json.maxWholeDigits then d.positional
  else
    let mantissa := if digits.length = 1 then digits else Decimal.splitPoint 1 digits
    mantissa ++ "e" ++ (if 0 < point then "+" else "") ++ toString (point - 1)

/-- The shortest text that reads back as the scalar; null stands for what is no finite number. -/
def Scalar.jsonText (a : Scalar) : String :=
  if a.isFinite then
    a.reading.text fun m =>
      if m.significand = 0 then "0.0" else (m.shortest .even).jsonText
  else "null"

end Armature
