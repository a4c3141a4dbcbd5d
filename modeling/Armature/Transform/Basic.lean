/-
**Local transforms.**

A `Transform` is a shape with its payload.  Angles are in degrees.

Main definitions:

* `Transform` — the nine forms of a local transform;
* `Transform.payload`, `Transform.ofPayload` — the components, in the order in which they are
  stored;
* `Transform.toMatrix` — the matrix by which a frame is multiplied;
* `Transform.encode`, `Transform.decode?` — opcode and payload as words.

Main results:

* `Transform.ofPayload_payload` — a transform is given by its shape and its payload;
* `Transform.length_payload` — the payload has as many components as the shape says.
-/

import Armature.Geometry.Matrix
import Armature.Opcode

set_option autoImplicit false

namespace Armature

/-- A local transform. -/
inductive Transform where
  /-- A matrix. -/
  | float4x4 (matrix : Mat4)
  /-- A move. -/
  | translate (offset : Vec3)
  /-- A turn about the first axis. -/
  | rotateX (degrees : Scalar)
  /-- A turn about the second axis. -/
  | rotateY (degrees : Scalar)
  /-- A turn about the third axis. -/
  | rotateZ (degrees : Scalar)
  /-- A turn about an axis of any length. -/
  | rotateAxisAngle (axis : Vec3) (degrees : Scalar)
  /-- A turn given by a quaternion. -/
  | rotateQuaternion (rotation : Quat)
  /-- One factor for all axes. -/
  | uniformScale (factor : Scalar)
  /-- A factor for each axis. -/
  | arbitraryScale (factors : Vec3)
  deriving DecidableEq, Inhabited, Repr

namespace Transform

/-- The shape of a transform. -/
def shape : Transform → Shape
  | float4x4 _ => .float4x4
  | translate _ => .translate
  | rotateX _ => .rotateX
  | rotateY _ => .rotateY
  | rotateZ _ => .rotateZ
  | rotateAxisAngle _ _ => .rotateAxisAngle
  | rotateQuaternion _ => .rotateQuaternion
  | uniformScale _ => .uniformScale
  | arbitraryScale _ => .arbitraryScale

/-- The opcode that applies a transform with its payload inline. -/
def opcode (t : Transform) : Opcode := .static t.shape

/-- All components of the two transforms are equal as numbers. -/
def eqv : Transform → Transform → Bool
  | float4x4 a, float4x4 b => a.eqv b
  | translate a, translate b => a.eqv b
  | rotateX a, rotateX b => a.eqv b
  | rotateY a, rotateY b => a.eqv b
  | rotateZ a, rotateZ b => a.eqv b
  | rotateAxisAngle a d, rotateAxisAngle b e => a.eqv b && d.eqv e
  | rotateQuaternion a, rotateQuaternion b => a.eqv b
  | uniformScale a, uniformScale b => a.eqv b
  | arbitraryScale a, arbitraryScale b => a.eqv b
  | _, _ => false

/-! ### Meaning -/

/-- The matrix of a transform.  A turn about an axis without direction turns nothing. -/
def toMatrix : Transform → Mat4
  | float4x4 m => m
  | translate v => .displacement v
  | rotateX degrees => .rotationX degrees.toRadians
  | rotateY degrees => .rotationY degrees.toRadians
  | rotateZ degrees => .rotationZ degrees.toRadians
  | rotateAxisAngle axis degrees =>
    let unit := axis.normalizeOrZero
    if unit.eqv .zero then .identity else .axisRotation unit degrees.toRadians
  | rotateQuaternion q => .rotation q
  | uniformScale s => .scaling (.splat s)
  | arbitraryScale v => .scaling v

/-! ### Payload -/

/-- The components in the order in which they are stored. -/
def payload : Transform → List Scalar
  | float4x4 m => m.toList
  | translate v | arbitraryScale v => v.toList
  | rotateX a | rotateY a | rotateZ a | uniformScale a => [a]
  | rotateAxisAngle axis degrees => axis.toList ++ [degrees]
  | rotateQuaternion q => q.toList

/-- The transform with the given components; missing ones are zero, further ones are not read. -/
def ofPayload (shape : Shape) (values : List Scalar) : Transform :=
  let component (i : Nat) : Scalar := values.getD i .zero
  let vec3 : Vec3 := ⟨component 0, component 1, component 2⟩
  let column (i : Nat) : Vec4 := ⟨component i, component (i + 1), component (i + 2), component (i + 3)⟩
  match shape with
  | .float4x4 => float4x4 ⟨column 0, column 4, column 8, column 12⟩
  | .translate => translate vec3
  | .rotateX => rotateX (component 0)
  | .rotateY => rotateY (component 0)
  | .rotateZ => rotateZ (component 0)
  | .rotateAxisAngle => rotateAxisAngle vec3 (component 3)
  | .rotateQuaternion => rotateQuaternion ⟨component 0, component 1, component 2, component 3⟩
  | .uniformScale => uniformScale (component 0)
  | .arbitraryScale => arbitraryScale vec3

/-- The payload, filled up with zeros to the size of the largest one. -/
def paddedPayload (t : Transform) : List Scalar :=
  t.payload ++ List.replicate (Shape.float4x4.size - t.shape.size) .zero

@[simp] theorem length_payload (t : Transform) : t.payload.length = t.shape.size := by
  cases t <;> rfl

@[simp] theorem shape_ofPayload (s : Shape) (values : List Scalar) :
    (ofPayload s values).shape = s := by
  cases s <;> rfl

/-- A transform is given by its shape and its payload. -/
@[simp] theorem ofPayload_payload (t : Transform) : ofPayload t.shape t.payload = t := by
  cases t <;> rfl

/-! ### Words -/

/-- The opcode and the payload as words. -/
def encode (t : Transform) : List UInt32 := t.opcode.toWord :: t.payload.map Scalar.bits

/-- The static transform of an opcode with the given operands; other opcodes have none. -/
def decode? : Opcode → List UInt32 → Option Transform
  | .static shape, operands => some (ofPayload shape ((operands.take shape.size).map Scalar.mk))
  | _, _ => none

@[simp] theorem length_encode (t : Transform) : t.encode.length = 1 + t.shape.size := by
  simp [encode, Nat.add_comm]

/-- The number of words of transforms that are stored one after another. -/
def wordLengths : List Transform → Nat
  | [] => 0
  | t :: ts => 1 + t.shape.size + wordLengths ts

@[simp] theorem wordLengths_nil : wordLengths [] = 0 := rfl

theorem length_flatMap_encode (ts : List Transform) :
    (ts.flatMap encode).length = wordLengths ts := by
  induction ts with
  | nil => rfl
  | cons t ts ih => rw [List.flatMap_cons, List.length_append, ih, length_encode, wordLengths]

end Transform

end Armature
