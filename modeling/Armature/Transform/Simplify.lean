/-
**Simpler forms of a transform.**

A matrix that only turns, only moves, only scales, or scales and then moves is written as such.
Whether it does is judged by its parts: put together again they must give back the matrix, and each
part counts as absent if it is close to doing nothing.

Main definitions:

* `OptimizerConfig` — the tolerances;
* `Vec3.isUniform`, `Vec3.median` — three factors that are nearly one, and which one;
* `Mat4.simplify?` — the simpler forms of a matrix;
* `Transform.simplify` — the simpler forms of a transform.
-/

import Armature.Geometry.Decompose
import Armature.Transform.Basic

set_option autoImplicit false

namespace Armature

/-- The tolerances of the optimizer. -/
structure OptimizerConfig where
  /-- A turn, scale or move this close to none counts as none. -/
  identityThreshold : Scalar
  /-- Factors that differ by at most this share of themselves count as one. -/
  scaleThreshold : Scalar
  deriving DecidableEq, Repr

/-- One ten-thousandth for both. -/
def OptimizerConfig.standard : OptimizerConfig := ⟨⟨0x38d1b717⟩, ⟨0x38d1b717⟩⟩

instance : Inhabited OptimizerConfig := ⟨.standard⟩

/-! ### Uniform factors -/

namespace Vec3

/-- The difference of two factors is at most the given share of the greater one. -/
def closeFactors (a b threshold : Scalar) : Bool := (a - b).abs.le (a.abs.max b.abs * threshold)

/-- All three factors are close to each other. -/
def isUniform (v : Vec3) (threshold : Scalar) : Bool :=
  closeFactors v.x v.y threshold && closeFactors v.x v.z threshold &&
    closeFactors v.y v.z threshold

/-- The component whose magnitude lies between those of the others. -/
def median (v : Vec3) : Scalar :=
  let x := v.x.abs
  let y := v.y.abs
  let z := v.z.abs
  if x.lt y then
    if z.lt x then v.x else if z.lt y then v.z else v.y
  else if x.lt z then v.x
  else if y.lt z then v.z
  else v.y

/-- The opposite vector. -/
def neg (v : Vec3) : Vec3 := ⟨-v.x, -v.y, -v.z⟩

/-- The sign of a direction along `axis`, if it is one. -/
def along? (v axis : Vec3) (tolerance : Scalar) : Option Scalar :=
  if v.near axis tolerance then some .one
  else if v.near axis.neg tolerance then some (-.one)
  else none

end Vec3

/-- A scale with one factor if the three are close, else with three. -/
def Transform.ofScale (factors : Vec3) (threshold : Scalar) : Transform :=
  if factors.isUniform threshold then .uniformScale factors.median else .arbitraryScale factors

/-- The turn of a quaternion: about one of the three axes if it is one, else about any axis. -/
def Transform.ofRotation (rotation : Quat) (tolerance : Scalar) : Transform :=
  let (axis, angle) := rotation.axisAngle
  let degrees := angle.toDegrees
  match axis.along? ⟨.one, .zero, .zero⟩ tolerance with
  | some sign => .rotateX (sign * degrees)
  | none =>
    match axis.along? ⟨.zero, .one, .zero⟩ tolerance with
    | some sign => .rotateY (sign * degrees)
    | none =>
      match axis.along? ⟨.zero, .zero, .one⟩ tolerance with
      | some sign => .rotateZ (sign * degrees)
      | none => .rotateAxisAngle axis degrees

/-! ### Matrices -/

/-- The greatest magnitude of an element, and at least one. -/
def Mat4.magnitude (m : Mat4) : Scalar := m.toList.foldl (fun acc a => acc.max a.abs) .one

/-- The axes that a quaternion gives are close to the unit vectors. -/
def Quat.isNone (q : Quat) (tolerance : Scalar) : Bool :=
  let (x, y, z) := q.axes
  x.near ⟨.one, .zero, .zero⟩ tolerance && y.near ⟨.zero, .one, .zero⟩ tolerance &&
    z.near ⟨.zero, .zero, .one⟩ tolerance

/-- The transforms, one or two, that do the same as the matrix.  There are none if the parts of the
matrix do not give it back, if it does nothing, or if it turns and does something else too. -/
def Mat4.simplify? (m : Mat4) (config : OptimizerConfig) : Option (List Transform) :=
  let p := m.placement
  let tolerance := config.identityThreshold
  if p.matrix.near m (tolerance * m.magnitude) then
    let turns := !p.rotation.isNone tolerance
    let scales := !p.scale.near .ones tolerance
    let moves := !p.position.near .zero tolerance
    match turns, scales, moves with
    | true, false, false => some [.ofRotation p.rotation tolerance]
    | false, false, true => some [.translate p.position]
    | false, true, true =>
      some [.translate p.position, .ofScale p.scale config.scaleThreshold]
    | false, true, false => some [.ofScale p.scale config.scaleThreshold]
    | _, _, _ => none
  else none

/-- The transforms, one or two, that take the place of a transform. -/
def Transform.simplify (config : OptimizerConfig) (t : Transform) : List Transform :=
  match t with
  | .float4x4 m => (m.simplify? config).getD [t]
  | .arbitraryScale factors => [.ofScale factors config.scaleThreshold]
  | _ => [t]

end Armature
