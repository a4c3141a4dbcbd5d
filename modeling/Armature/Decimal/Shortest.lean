/-
**The fewest decimal digits that read back as a binary number.**

A magnitude stands for all real numbers that round to it: an interval around it, with its ends
included exactly when the significand is even.  On the grid of the decimal numbers with a given
number of digits, the two neighbours of the magnitude are tried; the coarsest grid with a neighbour
inside the interval wins, and on it the nearer neighbour.

Main definitions:

* `Decimal.Tie` — what happens when both neighbours are equally near;
* `Decimal.Magnitude.shortest` — the digits.
-/

import Armature.Decimal.Binary
import Armature.Decimal.Digits

set_option autoImplicit false

namespace Armature.Decimal

/-- The choice between two equally near neighbours. -/
inductive Tie where
  /-- The greater one. -/
  | up
  /-- The one with the even last digit. -/
  | even
  deriving DecidableEq, Repr

/-- The least `e` with `n / d < 10 ^ e`, for positive `n` and `d`. -/
def leadingExponent (n d : Nat) : Int :=
  if d ≤ n then digitCount (n / d) else 1 - (digitCount ((d - 1) / n) : Int)

/-- The real numbers that round to a magnitude, as multiples of `1 / unit`. -/
structure Interval where
  /-- The lower end. -/
  lower : Nat
  /-- The magnitude itself. -/
  value : Nat
  /-- The upper end. -/
  upper : Nat
  /-- The common denominator. -/
  unit : Nat
  /-- The ends belong to the interval. -/
  closed : Bool

/-- The numbers that round to `m`. -/
def Magnitude.interval (m : Magnitude) : Interval :=
  let quarter : Magnitude := ⟨1, m.exponent - 2, false⟩
  let (step, unit) := quarter.ratio 1
  { lower := (4 * m.significand - (if m.closeBelow then 1 else 2)) * step
    value := 4 * m.significand * step
    upper := (4 * m.significand + 2) * step
    unit := unit
    closed := m.significand % 2 == 0 }

/-- The point `p / unit` lies in the interval, all scaled by `scale`. -/
def Interval.contains (i : Interval) (scale p : Nat) : Bool :=
  if i.closed then i.lower * scale ≤ p && p ≤ i.upper * scale
  else i.lower * scale < p && p < i.upper * scale

/-- The nearest of the numbers `k * 10 ^ exponent` that lies in the interval, if one does. -/
def Interval.onGrid? (tie : Tie) (i : Interval) (exponent : Int) : Option Digits :=
  let scale := Nat.pow 10 (-exponent).toNat
  let mesh := i.unit * Nat.pow 10 exponent.toNat
  let k := i.value * scale / mesh
  let below := i.value * scale - k * mesh
  let above := (k + 1) * mesh - i.value * scale
  let upFirst := above < below || (above == below && (tie == .up || k % 2 == 1))
  let down := i.contains scale (k * mesh)
  let up := i.contains scale ((k + 1) * mesh)
  if up && (upFirst || !down) then some ⟨k + 1, exponent⟩
  else if down then some ⟨k, exponent⟩
  else none

/-- The fewest digits, at most seventeen, that read back as the positive magnitude `m`; of those
the nearest. -/
def Magnitude.shortest (tie : Tie) (m : Magnitude) : Digits :=
  let i := m.interval
  let lead := leadingExponent i.value i.unit
  let grids := (List.range 17).map fun n => lead - (n + 1 : Nat)
  ((grids.findSome? (i.onGrid? tie)).getD ⟨i.value / i.unit, 0⟩).trim

end Armature.Decimal
