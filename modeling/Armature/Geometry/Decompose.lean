/-
**A matrix as scale, turn and move.**

`Placement` splits a matrix into the three parts in which a joint is usually given.  The split is
always carried out; whether the parts describe the matrix is seen by putting them together again
and comparing.

Main definitions:

* `Placement` — scale, rotation and position;
* `Mat4.placement` — the parts of a matrix;
* `Placement.matrix` — the matrix of the parts.
-/

import Armature.Geometry.Matrix

set_option autoImplicit false

namespace Armature

/-- Scale first, then turn, then move. -/
structure Placement where
  /-- The factors along the three axes. -/
  scale : Vec3
  /-- The turn. -/
  rotation : Quat
  /-- The move. -/
  position : Vec3
  deriving DecidableEq, Repr

/-- One with the sign of the number; a NaN for a NaN. -/
def Scalar.signum (a : Scalar) : Scalar :=
  if a.isNaN then .nan else if a.isNegative then -.one else .one

/-- The parts of a matrix: the lengths of its columns, the first with the sign of the determinant,
the turn of the columns divided by them, and the image of the origin. -/
def Mat4.placement (m : Mat4) : Placement :=
  let scale : Vec3 := ⟨m.x.length * m.determinant.signum, m.y.length, m.z.length⟩
  { scale := scale
    rotation := Quat.ofAxes (m.x.xyz.scale (.one / scale.x)) (m.y.xyz.scale (.one / scale.y))
      (m.z.xyz.scale (.one / scale.z))
    position := m.w.xyz }

/-- The matrix of the parts. -/
def Placement.matrix (p : Placement) : Mat4 :=
  let (x, y, z) := p.rotation.axes
  ⟨(Vec4.ofVec3 x .zero).scale p.scale.x, (Vec4.ofVec3 y .zero).scale p.scale.y,
   (Vec4.ofVec3 z .zero).scale p.scale.z, .ofVec3 p.position .one⟩

end Armature
