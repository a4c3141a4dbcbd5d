/-
**What the bits of a binary floating-point number stand for.**

An interchange format is given by the widths of its fraction and its exponent field.  Decoding a
pattern gives a NaN, an infinity, or a sign and a magnitude `significand * 2 ^ exponent`; the
magnitude also remembers whether the number below it is only half as far away as the one above,
which is so at the powers of two.

Main definitions:

* `Decimal.Format`, `Decimal.single`, `Decimal.double` — the binary formats;
* `Decimal.Magnitude` — a natural number times a power of two;
* `Decimal.Format.decode` — the reading of a pattern.
-/

set_option autoImplicit false

namespace Armature.Decimal

/-- A binary interchange format. -/
structure Format where
  /-- Width of the fraction field. -/
  fractionBits : Nat
  /-- Width of the exponent field. -/
  exponentBits : Nat

/-- Single precision. -/
def single : Format := ⟨23, 8⟩

/-- Double precision. -/
def double : Format := ⟨52, 11⟩

/-- The exponent of the unit in which the subnormal numbers of a format are counted. -/
def Format.leastExponent (format : Format) : Int :=
  2 - (Nat.pow 2 (format.exponentBits - 1) : Int) - (format.fractionBits : Int)

/-- A number `significand * 2 ^ exponent`. -/
structure Magnitude where
  /-- The integer factor. -/
  significand : Nat
  /-- The power of two. -/
  exponent : Int
  /-- The number below is half as far away as the number above. -/
  closeBelow : Bool
  deriving DecidableEq, Repr

/-- A decoded pattern. -/
inductive Reading where
  /-- No number. -/
  | nan
  /-- An infinity with its sign. -/
  | infinite (negative : Bool)
  /-- A finite number with its sign, which `-0` has too. -/
  | finite (negative : Bool) (magnitude : Magnitude)
  deriving DecidableEq, Repr

/-- Read a pattern of the format. -/
def Format.decode (format : Format) (bits : Nat) : Reading :=
  let fraction := bits % Nat.pow 2 format.fractionBits
  let field := bits / Nat.pow 2 format.fractionBits % Nat.pow 2 format.exponentBits
  let negative := bits / Nat.pow 2 (format.fractionBits + format.exponentBits) % 2 == 1
  if field = Nat.pow 2 format.exponentBits - 1 then
    if fraction = 0 then .infinite negative else .nan
  else if field = 0 then
    .finite negative ⟨fraction, format.leastExponent, false⟩
  else
    .finite negative
      ⟨Nat.pow 2 format.fractionBits + fraction, format.leastExponent + (field - 1 : Nat),
        fraction == 0 && field != 1⟩

/-- The magnitude as a fraction of natural numbers, times `factor`. -/
def Magnitude.ratio (m : Magnitude) (factor : Nat) : Nat × Nat :=
  match m.exponent with
  | .ofNat e => (m.significand * factor * Nat.pow 2 e, 1)
  | .negSucc e => (m.significand * factor, Nat.pow 2 (e + 1))

end Armature.Decimal
