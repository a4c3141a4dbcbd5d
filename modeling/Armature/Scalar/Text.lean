/-
**Numbers as text.**

Listings show a scalar by the fewest digits that read back as it, never with an exponent, and a
whole number without a point.  Tables show it with a fixed number of places, rounded from the exact
binary value with a half going to the even neighbour.  The sign is kept in both forms, also on
zero; a NaN has none.

Main definitions:

* `Scalar.text` — the shortest form;
* `Scalar.fixed` — the form with a fixed number of places;
* `percentage` — the same for a share of a total.
-/

import Armature.Scalar.Basic
import Armature.Decimal.Shortest

set_option autoImplicit false

namespace Armature

namespace Decimal

/-- A reading as text, where `finite` writes a magnitude. -/
def Reading.text (finite : Magnitude → String) : Reading → String
  | .nan => "NaN"
  | .infinite negative => if negative then "-inf" else "inf"
  | .finite negative m => (if negative then "-" else "") ++ finite m

/-- The magnitude with the fewest digits that read back as it, without an exponent; of two equally
near choices the greater. -/
def Magnitude.text (m : Magnitude) : String :=
  if m.significand = 0 then "0" else (m.shortest .up).positional

/-- The magnitude with exactly `places` digits after the point. -/
def Magnitude.fixed (places : Nat) (m : Magnitude) : String :=
  let (n, d) := m.ratio (Nat.pow 10 places)
  fixedPoint places (divNearest n d)

end Decimal

namespace Scalar

/-- What the pattern stands for. -/
def reading (a : Scalar) : Decimal.Reading := Decimal.single.decode a.bits.toNat

/-- The shortest text that reads back as the number, without an exponent. -/
def text (a : Scalar) : String := a.reading.text Decimal.Magnitude.text

/-- The number with `places` digits after the point. -/
def fixed (places : Nat) (a : Scalar) : String := a.reading.text (Decimal.Magnitude.fixed places)

end Scalar

/-- The share of `part` in `whole`, in percent with one place; no share of nothing. -/
def percentage (part whole : Nat) : String :=
  let share : Float := if whole = 0 then 0.0 else Float.ofNat part / Float.ofNat whole * 100.0
  (Decimal.double.decode share.toBits.toNat).text (Decimal.Magnitude.fixed 1)

end Armature
