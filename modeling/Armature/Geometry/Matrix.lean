/-
**Affine maps as matrices of four columns.**

A `Mat4` maps column vectors.  A product is evaluated column by column, and each element is a sum
of four products added from left to right.

Main definitions:

* `Mat4` — a matrix by its columns;
* `Mat4.mul` — the product, also written `*`;
* `Mat4.displacement`, `Mat4.scaling`, `Mat4.rotationX`, `Mat4.rotationY`, `Mat4.rotationZ`,
  `Mat4.axisRotation`, `Mat4.rotation` — the elementary maps;
* `Mat4.determinant` — by minors of the last two columns.
-/

import Armature.Geometry.Vector

set_option autoImplicit false

namespace Armature

/-- A matrix of four columns. -/
structure Mat4 where
  /-- The image of the first unit vector. -/
  x : Vec4
  /-- The image of the second unit vector. -/
  y : Vec4
  /-- The image of the third unit vector. -/
  z : Vec4
  /-- The image of the origin. -/
  w : Vec4
  deriving DecidableEq, Inhabited, Repr

namespace Mat4

/-- The matrix of zeros. -/
def zero : Mat4 := ⟨.zero, .zero, .zero, .zero⟩

/-- The identity. -/
def identity : Mat4 :=
  ⟨⟨.one, .zero, .zero, .zero⟩, ⟨.zero, .one, .zero, .zero⟩,
   ⟨.zero, .zero, .one, .zero⟩, ⟨.zero, .zero, .zero, .one⟩⟩

instance : One Mat4 := ⟨identity⟩

/-- The sixteen elements, column after column. -/
def toList (m : Mat4) : List Scalar := m.x.toList ++ m.y.toList ++ m.z.toList ++ m.w.toList

/-- All elements are equal as numbers. -/
def eqv (a b : Mat4) : Bool := a.x.eqv b.x && a.y.eqv b.y && a.z.eqv b.z && a.w.eqv b.w

/-- All elements differ by at most `tolerance`. -/
def near (a b : Mat4) (tolerance : Scalar) : Bool :=
  a.x.near b.x tolerance && a.y.near b.y tolerance && a.z.near b.z tolerance &&
    a.w.near b.w tolerance

/-! ### Product -/

/-- The image of a vector. -/
def mulVec (m : Mat4) (v : Vec4) : Vec4 :=
  ((m.x.scale v.x + m.y.scale v.y) + m.z.scale v.z) + m.w.scale v.w

/-- The map that applies `b` first. -/
def mul (a b : Mat4) : Mat4 := ⟨a.mulVec b.x, a.mulVec b.y, a.mulVec b.z, a.mulVec b.w⟩

instance : Mul Mat4 := ⟨mul⟩

/-! ### Elementary maps -/

/-- The map with the three given axes that keeps the origin. -/
def ofAxes (x y z : Vec3) : Mat4 :=
  ⟨.ofVec3 x .zero, .ofVec3 y .zero, .ofVec3 z .zero, ⟨.zero, .zero, .zero, .one⟩⟩

/-- Move every point by `t`. -/
def displacement (t : Vec3) : Mat4 :=
  ⟨⟨.one, .zero, .zero, .zero⟩, ⟨.zero, .one, .zero, .zero⟩,
   ⟨.zero, .zero, .one, .zero⟩, .ofVec3 t .one⟩

/-- Multiply the components by those of `s`. -/
def scaling (s : Vec3) : Mat4 :=
  ofAxes ⟨s.x, .zero, .zero⟩ ⟨.zero, s.y, .zero⟩ ⟨.zero, .zero, s.z⟩

/-- Turn about the first axis by an angle in radians. -/
def rotationX (angle : Scalar) : Mat4 :=
  let s := angle.sin
  let c := angle.cos
  ofAxes ⟨.one, .zero, .zero⟩ ⟨.zero, c, s⟩ ⟨.zero, -s, c⟩

/-- Turn about the second axis by an angle in radians. -/
def rotationY (angle : Scalar) : Mat4 :=
  let s := angle.sin
  let c := angle.cos
  ofAxes ⟨c, .zero, -s⟩ ⟨.zero, .one, .zero⟩ ⟨s, .zero, c⟩

/-- Turn about the third axis by an angle in radians. -/
def rotationZ (angle : Scalar) : Mat4 :=
  let s := angle.sin
  let c := angle.cos
  ofAxes ⟨c, s, .zero⟩ ⟨-s, c, .zero⟩ ⟨.zero, .zero, .one⟩

/-- Turn about an axis of length one by an angle in radians. -/
def axisRotation (axis : Vec3) (angle : Scalar) : Mat4 :=
  let s := angle.sin
  let c := angle.cos
  let o := .one - c
  let along := axis.scale s
  let xy := axis.x * axis.y * o
  let xz := axis.x * axis.z * o
  let yz := axis.y * axis.z * o
  ofAxes
    ⟨axis.x * axis.x * o + c, xy + along.z, xz - along.y⟩
    ⟨xy - along.z, axis.y * axis.y * o + c, yz + along.x⟩
    ⟨xz + along.y, yz - along.x, axis.z * axis.z * o + c⟩

/-- The turn of a quaternion. -/
def rotation (q : Quat) : Mat4 :=
  let (x, y, z) := q.axes
  ofAxes x y z

/-! ### Determinant -/

/-- The determinant, from the minors of the last two columns. -/
def determinant (m : Mat4) : Scalar :=
  let z := m.z
  let w := m.w
  let s23 := z.z * w.w - z.w * w.z
  let s13 := z.y * w.w - z.w * w.y
  let s12 := z.y * w.z - z.z * w.y
  let s03 := z.x * w.w - z.w * w.x
  let s02 := z.x * w.z - z.z * w.x
  let s01 := z.x * w.y - z.y * w.x
  let y := m.y
  let minus : Scalar := -.one
  let k0 := (y.y * s23 - y.z * s13) + y.w * s12
  let k1 := ((y.x * s23 - y.z * s03) + y.w * s02) * minus
  let k2 := (y.x * s13 - y.y * s03) + y.w * s01
  let k3 := ((y.x * s12 - y.y * s02) + y.z * s01) * minus
  m.x.dot ⟨k0, k1, k2, k3⟩

end Mat4

end Armature
