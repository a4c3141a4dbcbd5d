/-
**Vectors of three and four components, and quaternions.**

Every operation names its roundings: sums and products are taken in the order written, so that two
evaluations of one expression agree to the last bit.

Main definitions:

* `Vec3`, `Vec4`, `Quat` — the tuples;
* `Vec3.dot`, `Vec3.length`, `Vec3.normalizeOrZero` — the geometry of three components;
* `Vec4.dot`, `Vec4.length` — of four, where the sum pairs the even and the odd components;
* `Quat.axes` — the images of the three unit vectors under a quaternion;
* `Quat.axisAngle` — the axis and the angle of the turn that a quaternion makes.
-/

import Armature.Scalar.Basic

set_option autoImplicit false

namespace Armature

/-- Three components. -/
structure Vec3 where
  /-- The first component. -/
  x : Scalar
  /-- The second component. -/
  y : Scalar
  /-- The third component. -/
  z : Scalar
  deriving DecidableEq, Inhabited, Repr

/-- Four components. -/
structure Vec4 where
  /-- The first component. -/
  x : Scalar
  /-- The second component. -/
  y : Scalar
  /-- The third component. -/
  z : Scalar
  /-- The fourth component. -/
  w : Scalar
  deriving DecidableEq, Inhabited, Repr

/-- A quaternion with real part `w`. -/
structure Quat where
  /-- The first imaginary component. -/
  x : Scalar
  /-- The second imaginary component. -/
  y : Scalar
  /-- The third imaginary component. -/
  z : Scalar
  /-- The real component. -/
  w : Scalar
  deriving DecidableEq, Inhabited, Repr

/-! ### Three components -/

namespace Vec3

/-- The zero vector. -/
def zero : Vec3 := ⟨.zero, .zero, .zero⟩

/-- The vector of ones. -/
def ones : Vec3 := ⟨.one, .one, .one⟩

/-- The first unit vector. -/
def unitX : Vec3 := ⟨.one, .zero, .zero⟩

/-- The vector with three equal components. -/
def splat (a : Scalar) : Vec3 := ⟨a, a, a⟩

/-- The components in order. -/
def toList (v : Vec3) : List Scalar := [v.x, v.y, v.z]

/-- All components are equal as numbers. -/
def eqv (a b : Vec3) : Bool := a.x.eqv b.x && a.y.eqv b.y && a.z.eqv b.z

/-- All components differ by at most `tolerance`. -/
def near (a b : Vec3) (tolerance : Scalar) : Bool :=
  a.x.near b.x tolerance && a.y.near b.y tolerance && a.z.near b.z tolerance

/-- The componentwise sum. -/
def add (a b : Vec3) : Vec3 := ⟨a.x + b.x, a.y + b.y, a.z + b.z⟩

/-- The componentwise product. -/
def mul (a b : Vec3) : Vec3 := ⟨a.x * b.x, a.y * b.y, a.z * b.z⟩

/-- Every component times `s`. -/
def scale (v : Vec3) (s : Scalar) : Vec3 := ⟨v.x * s, v.y * s, v.z * s⟩

instance : Add Vec3 := ⟨add⟩
instance : Mul Vec3 := ⟨mul⟩

/-- The inner product. -/
def dot (a b : Vec3) : Scalar := (a.x * b.x + a.y * b.y) + a.z * b.z

/-- The Euclidean length. -/
def length (v : Vec3) : Scalar := (v.dot v).sqrt

/-- The vector of length one in the same direction; zero if its length has no finite positive
reciprocal. -/
def normalizeOrZero (v : Vec3) : Vec3 :=
  let r := .one / v.length
  if r.isFinite && Scalar.zero.lt r then v.scale r else zero

end Vec3

/-! ### Four components -/

namespace Vec4

/-- The zero vector. -/
def zero : Vec4 := ⟨.zero, .zero, .zero, .zero⟩

/-- Three components with a fourth one. -/
def ofVec3 (v : Vec3) (w : Scalar) : Vec4 := ⟨v.x, v.y, v.z, w⟩

/-- The first three components. -/
def xyz (v : Vec4) : Vec3 := ⟨v.x, v.y, v.z⟩

/-- The components in order. -/
def toList (v : Vec4) : List Scalar := [v.x, v.y, v.z, v.w]

/-- All components are equal as numbers. -/
def eqv (a b : Vec4) : Bool := a.x.eqv b.x && a.y.eqv b.y && a.z.eqv b.z && a.w.eqv b.w

/-- All components differ by at most `tolerance`. -/
def near (a b : Vec4) (tolerance : Scalar) : Bool :=
  a.x.near b.x tolerance && a.y.near b.y tolerance && a.z.near b.z tolerance &&
    a.w.near b.w tolerance

/-- The componentwise sum. -/
def add (a b : Vec4) : Vec4 := ⟨a.x + b.x, a.y + b.y, a.z + b.z, a.w + b.w⟩

/-- Every component times `s`. -/
def scale (v : Vec4) (s : Scalar) : Vec4 := ⟨v.x * s, v.y * s, v.z * s, v.w * s⟩

instance : Add Vec4 := ⟨add⟩

/-- The inner product; the first and third products are added first, then the second and fourth. -/
def dot (a b : Vec4) : Scalar := (a.x * b.x + a.z * b.z) + (a.y * b.y + a.w * b.w)

/-- The Euclidean length. -/
def length (v : Vec4) : Scalar := (v.dot v).sqrt

end Vec4

/-! ### Quaternions -/

namespace Quat

/-- The quaternion of no turn. -/
def identity : Quat := ⟨.zero, .zero, .zero, .one⟩

/-- The components in order. -/
def toList (q : Quat) : List Scalar := [q.x, q.y, q.z, q.w]

/-- All components are equal as numbers. -/
def eqv (a b : Quat) : Bool := a.x.eqv b.x && a.y.eqv b.y && a.z.eqv b.z && a.w.eqv b.w

/-- All components differ by at most `tolerance`. -/
def near (a b : Quat) (tolerance : Scalar) : Bool :=
  a.x.near b.x tolerance && a.y.near b.y tolerance && a.z.near b.z tolerance &&
    a.w.near b.w tolerance

/-- The imaginary part. -/
def xyz (q : Quat) : Vec3 := ⟨q.x, q.y, q.z⟩

/-- The images of the three unit vectors, right when the quaternion has length one. -/
def axes (q : Quat) : Vec3 × Vec3 × Vec3 :=
  let x2 := q.x + q.x
  let y2 := q.y + q.y
  let z2 := q.z + q.z
  let xx := q.x * x2
  let xy := q.x * y2
  let xz := q.x * z2
  let yy := q.y * y2
  let yz := q.y * z2
  let zz := q.z * z2
  let wx := q.w * x2
  let wy := q.w * y2
  let wz := q.w * z2
  (⟨.one - (yy + zz), xy + wz, xz - wy⟩,
   ⟨xy - wz, .one - (xx + zz), yz + wx⟩,
   ⟨xz + wy, yz - wx, .one - (xx + yy)⟩)

/-- The quaternion whose turn takes the unit vectors to the three given axes, as far as they are
orthonormal.  Of the four components the one computed first is one that is not small. -/
def ofAxes (m0 m1 m2 : Vec3) : Quat :=
  if m2.z.le .zero then
    let d := m1.y - m0.x
    let o := .one - m2.z
    if d.le .zero then
      let f := o - d
      let n := .half / f.sqrt
      ⟨f * n, (m0.y + m1.x) * n, (m0.z + m2.x) * n, (m1.z - m2.y) * n⟩
    else
      let f := o + d
      let n := .half / f.sqrt
      ⟨(m0.y + m1.x) * n, f * n, (m1.z + m2.y) * n, (m2.x - m0.z) * n⟩
  else
    let s := m1.y + m0.x
    let o := .one + m2.z
    if s.le .zero then
      let f := o - s
      let n := .half / f.sqrt
      ⟨(m0.z + m2.x) * n, (m1.z + m2.y) * n, f * n, (m0.y - m1.x) * n⟩
    else
      let f := o + s
      let n := .half / f.sqrt
      ⟨(m1.z - m2.y) * n, (m2.x - m0.z) * n, (m0.y - m1.x) * n, f * n⟩

/-- The least length of an imaginary part that still has a direction. -/
def leastDirection : Scalar := ⟨0x322bcc77⟩

/-- The axis of the turn and its angle in radians; the first unit vector and zero if the imaginary
part is too short to have a direction. -/
def axisAngle (q : Quat) : Vec3 × Scalar :=
  let l := q.xyz.length
  if leastDirection.le l then
    (⟨q.x / l, q.y / l, q.z / l⟩, .two * Scalar.atan2 l q.w)
  else (Vec3.unitX, .zero)

end Quat

end Armature
