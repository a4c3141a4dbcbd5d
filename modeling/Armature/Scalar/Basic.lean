/-
**Single-precision numbers as bit patterns.**

A `Scalar` is the 32-bit pattern of a binary32 number.  Two scalars are the same value of the type
exactly when their patterns agree, so writing a scalar into a word and reading it back loses
nothing, not even the payload of a NaN.  Comparison *as numbers* is a separate matter: a NaN
compares with nothing, and the two zeros are equal.  It is defined on the pattern, through the
integer `Scalar.order`, so that facts about thresholds are facts about integers.

Arithmetic rounds to nearest, ties to even.  Sine, cosine and the two-argument arctangent are
computed in double precision and rounded once.

Main definitions:

* `Scalar` — a binary32 pattern;
* `Scalar.order`, `Scalar.eqv`, `Scalar.le`, `Scalar.lt` — comparison as numbers;
* `Scalar.max` — the greater of two numbers, where a NaN gives way to the other operand;
* `Scalar.toRadians`, `Scalar.toDegrees` — angle units.
-/

set_option autoImplicit false

namespace Armature

/-- A single-precision number, held as its bit pattern. -/
structure Scalar where
  /-- The binary32 pattern: sign, eight bits of exponent, twenty-three bits of fraction. -/
  bits : UInt32
  deriving DecidableEq, Inhabited, Repr

namespace Scalar

/-! ### Constants -/

/-- Positive zero. -/
def zero : Scalar := ⟨0x00000000⟩

/-- One half. -/
def half : Scalar := ⟨0x3f000000⟩

/-- One. -/
def one : Scalar := ⟨0x3f800000⟩

/-- Two. -/
def two : Scalar := ⟨0x40000000⟩

/-- The quiet NaN that arithmetic produces. -/
def nan : Scalar := ⟨0x7fc00000⟩

/-! ### Classification -/

/-- The pattern without its sign bit. -/
def magnitude (a : Scalar) : UInt32 := a.bits &&& 0x7fffffff

/-- The sign bit is set; this holds of `-0` and of some NaNs too. -/
def isNegative (a : Scalar) : Bool := 0x80000000 ≤ a.bits

/-- The number is no number at all. -/
def isNaN (a : Scalar) : Bool := 0x7f800000 < a.magnitude

/-- The number is neither infinite nor a NaN. -/
def isFinite (a : Scalar) : Bool := a.magnitude < 0x7f800000

/-! ### Sign -/

/-- The number with the other sign. -/
def neg (a : Scalar) : Scalar := ⟨a.bits ^^^ 0x80000000⟩

/-- The number without its sign. -/
def abs (a : Scalar) : Scalar := ⟨a.magnitude⟩

instance : Neg Scalar := ⟨neg⟩

/-! ### Comparison as numbers -/

/-- The place of a number that is not a NaN on the line of all of them; both zeros are at `0`. -/
def order (a : Scalar) : Int :=
  if a.isNegative then -(a.magnitude.toNat : Int) else (a.magnitude.toNat : Int)

/-- The two are equal as numbers. -/
def eqv (a b : Scalar) : Bool := !a.isNaN && !b.isNaN && a.order == b.order

/-- The first is a number at most the second. -/
def le (a b : Scalar) : Bool := !a.isNaN && !b.isNaN && a.order ≤ b.order

/-- The first is a number below the second. -/
def lt (a b : Scalar) : Bool := !a.isNaN && !b.isNaN && a.order < b.order

/-- The greater of two numbers; a NaN gives way to the other operand. -/
def max (a b : Scalar) : Scalar :=
  if a.isNaN then b else if b.isNaN then a else if a.order < b.order then b else a

/-! ### Arithmetic -/

/-- The number a machine float stands for. -/
def ofFloat32 (x : Float32) : Scalar := ⟨x.toBits⟩

/-- The machine float with this pattern. -/
def toFloat32 (a : Scalar) : Float32 := Float32.ofBits a.bits

/-- The sum, rounded. -/
def add (a b : Scalar) : Scalar := ofFloat32 (a.toFloat32 + b.toFloat32)

/-- The difference, rounded. -/
def sub (a b : Scalar) : Scalar := ofFloat32 (a.toFloat32 - b.toFloat32)

/-- The product, rounded. -/
def mul (a b : Scalar) : Scalar := ofFloat32 (a.toFloat32 * b.toFloat32)

/-- The quotient, rounded. -/
def div (a b : Scalar) : Scalar := ofFloat32 (a.toFloat32 / b.toFloat32)

/-- The square root, rounded. -/
def sqrt (a : Scalar) : Scalar := ofFloat32 a.toFloat32.sqrt

instance : Add Scalar := ⟨add⟩
instance : Sub Scalar := ⟨sub⟩
instance : Mul Scalar := ⟨mul⟩
instance : Div Scalar := ⟨div⟩

/-- The sine of an angle in radians. -/
def sin (a : Scalar) : Scalar := ofFloat32 a.toFloat32.toFloat.sin.toFloat32

/-- The cosine of an angle in radians. -/
def cos (a : Scalar) : Scalar := ofFloat32 a.toFloat32.toFloat.cos.toFloat32

/-- The angle of the point with ordinate `y` and abscissa `x`, in radians. -/
def atan2 (y x : Scalar) : Scalar :=
  ofFloat32 (Float.atan2 y.toFloat32.toFloat x.toFloat32.toFloat).toFloat32

/-! ### Angle units -/

/-- An angle in degrees, in radians. -/
def toRadians (degrees : Scalar) : Scalar := degrees * ⟨0x3c8efa35⟩

/-- An angle in radians, in degrees. -/
def toDegrees (radians : Scalar) : Scalar := radians * ⟨0x42652ee1⟩

/-! ### Conversion -/

/-- The number nearest to a natural number below `2 ^ 64`. -/
def ofUInt64 (n : UInt64) : Scalar := ofFloat32 n.toFloat32

/-- The number nearest to a double-precision one. -/
def ofFloat (x : Float) : Scalar := ofFloat32 x.toFloat32

/-! ### Tolerance -/

/-- The two numbers differ by at most `tolerance`; false if anything is a NaN. -/
def near (a b tolerance : Scalar) : Bool := (a - b).abs.le tolerance

end Scalar

end Armature
