/-
**The interchange form of the library's types.**

Records are JSON objects; reading also takes an array of their fields in order, and passes over
fields it does not know.  A shape is its name, a transform an object with one entry: the name of its
form and the payload.  Vectors, quaternions and matrices are flat arrays of numbers.

Main definitions:

* `Tag.ofJson?`, `Tag.toJson` and the same for `OptimizerConfig`, `EvalConfig`, `Shape` and
  `Transform` — reading and writing.
-/

import Armature.Evaluate.Run
import Armature.Json.Number
import Armature.Json.Reader
import Armature.Json.Writer
import Armature.Skeleton.Tag
import Armature.Transform.Simplify

set_option autoImplicit false

namespace Armature

open Json (Value)

/-! ### Joints and configurations -/

/-- Read a joint. -/
def Tag.ofJson? (v : Value) : Option Tag := do
  match ← v.fields? ["skeleton", "joint"] with
  | [skeleton, joint] => some ⟨← skeleton.string?, ← joint.string?⟩
  | _ => none

/-- Write a joint. -/
def Tag.toJson (t : Tag) : String :=
  Json.record [("skeleton", Json.quote t.skeleton), ("joint", Json.quote t.joint)]

/-- Read the tolerances of the optimizer. -/
def OptimizerConfig.ofJson? (v : Value) : Option OptimizerConfig := do
  match ← v.fields? ["identity_threshold", "scale_threshold"] with
  | [identity, scale] => some ⟨← identity.scalar?, ← scale.scalar?⟩
  | _ => none

/-- Write the tolerances of the optimizer. -/
def OptimizerConfig.toJson (c : OptimizerConfig) : String :=
  Json.record [("identity_threshold", c.identityThreshold.jsonText),
    ("scale_threshold", c.scaleThreshold.jsonText)]

/-- Read the limits of an evaluation. -/
def EvalConfig.ofJson? (v : Value) : Option EvalConfig := do
  match ← v.fields? ["max_stack_depth"] with
  | [depth] => some ⟨← depth.natural?⟩
  | _ => none

/-- Write the limits of an evaluation. -/
def EvalConfig.toJson (c : EvalConfig) : String :=
  Json.record [("max_stack_depth", toString c.maxStackDepth)]

/-! ### Shapes -/

/-- Read a shape: its name, or an object with its name and null. -/
def Shape.ofJson? (v : Value) : Option Shape :=
  match v with
  | .string pieces => do Shape.ofName? (← Json.text? pieces)
  | _ => do
    match ← v.variant? with
    | (name, .null) => Shape.ofName? name
    | _ => none

/-- Write a shape. -/
def Shape.toJson (s : Shape) : String := Json.quote s.name

/-! ### Transforms -/

/-- The name of the form of a transform. -/
def Transform.form (s : Shape) : String :=
  match s with
  | .float4x4 => "Matrix"
  | s => s.name

/-- The numbers of an array of a given length. -/
def scalars? (length : Nat) (v : Value) : Option (List Scalar) := do
  (← v.items? length).mapM Value.scalar?

/-- Read the payload of a transform of the given shape. -/
def Transform.payload? (shape : Shape) (v : Value) : Option (List Scalar) :=
  match shape with
  | .rotateX | .rotateY | .rotateZ | .uniformScale => do some [← v.scalar?]
  | .rotateAxisAngle => do
    match ← v.fields? ["axis", "degrees"] with
    | [axis, degrees] => some ((← scalars? 3 axis) ++ [← degrees.scalar?])
    | _ => none
  | shape => scalars? shape.size v

/-- Read a transform. -/
def Transform.ofJson? (v : Value) : Option Transform := do
  let (name, payload) ← v.variant?
  let shape ← Shape.all.find? fun s => form s == name
  some (.ofPayload shape (← payload? shape payload))

/-- An array of numbers. -/
def scalarsJson (values : List Scalar) : String := Json.list (values.map Scalar.jsonText)

/-- Write the payload of a transform. -/
def Transform.payloadJson (t : Transform) : String :=
  match t with
  | rotateX a | rotateY a | rotateZ a | uniformScale a => a.jsonText
  | rotateAxisAngle axis degrees =>
    Json.record [("axis", scalarsJson axis.toList), ("degrees", degrees.jsonText)]
  | t => scalarsJson t.payload

/-- Write a transform. -/
def Transform.toJson (t : Transform) : String :=
  Json.record [(form t.shape, t.payloadJson)]

end Armature
