/-
**Two transforms as one.**

Two transforms of one shape that commute with themselves become one of the same shape; all others
become a matrix.

Main definitions:

* `Transform.Family`, `Transform.family` — shapes that are worth joining;
* `Transform.joins` — the pair is joined even if the second transform stays where it is;
* `Transform.merge` — the joined transform.
-/

import Armature.Transform.Basic

set_option autoImplicit false

namespace Armature.Transform

/-- Groups of shapes whose members are worth joining with each other. -/
inductive Family where
  /-- Matrices. -/
  | matrix
  /-- Moves. -/
  | translate
  /-- Turns about the first axis. -/
  | rotateX
  /-- Turns about the second axis. -/
  | rotateY
  /-- Turns about the third axis. -/
  | rotateZ
  /-- Turns about any axis. -/
  | rotate
  /-- Scales. -/
  | scale
  deriving DecidableEq, Repr

/-- The group of a transform. -/
def family : Transform → Family
  | float4x4 _ => .matrix
  | translate _ => .translate
  | rotateX _ => .rotateX
  | rotateY _ => .rotateY
  | rotateZ _ => .rotateZ
  | rotateAxisAngle _ _ | rotateQuaternion _ => .rotate
  | uniformScale _ | arbitraryScale _ => .scale

/-- A matrix joins with anything, and other transforms with their own group. -/
def joins (source target : Transform) : Bool :=
  source.family == .matrix || target.family == .matrix || source.family == target.family

/-- The transform that has the effect of `source` and then, inside it, `target`. -/
def merge (source target : Transform) : Transform :=
  match source, target with
  | translate a, translate b => translate (a + b)
  | rotateX a, rotateX b => rotateX (a + b)
  | rotateY a, rotateY b => rotateY (a + b)
  | rotateZ a, rotateZ b => rotateZ (a + b)
  | uniformScale a, uniformScale b => uniformScale (a * b)
  | arbitraryScale a, arbitraryScale b => arbitraryScale (a * b)
  | _, _ => float4x4 (source.toMatrix * target.toMatrix)

end Armature.Transform
