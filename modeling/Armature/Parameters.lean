/-
**Parameter blocks.**

Animated values live outside the stream, in a block of bytes.  A parameter instruction gives the
byte offset of its payload; payloads may lie anywhere and overlap.

Main definitions:

* `ParameterBlock` — the bytes;
* `ParameterBlock.readScalars`, `ParameterBlock.readTransform`, `ParameterBlock.readMatrix`,
  `ParameterBlock.readScalar` — reading at an offset;
* `ParameterBlock.push`, `ParameterBlock.pushScalar`, `ParameterBlock.set` — building a block.
-/

import Armature.Fault
import Armature.Transform.Basic
import Armature.Word

set_option autoImplicit false

namespace Armature

/-- A block of parameters. -/
structure ParameterBlock where
  /-- The bytes. -/
  bytes : List UInt8
  deriving DecidableEq, Inhabited

namespace ParameterBlock

/-- The block without parameters. -/
def empty : ParameterBlock := ⟨[]⟩

/-- The number of bytes. -/
def size (b : ParameterBlock) : Nat := b.bytes.length

/-! ### Reading -/

/-- The `count` numbers at a byte offset. -/
def readScalars (b : ParameterBlock) (offset : UInt32) (count : Nat) :
    Except Fault (List Scalar) :=
  let length := count * 4
  if offset.toNat + length ≤ b.size then
    .ok ((Word.parse ((b.bytes.drop offset.toNat).take length)).map Scalar.mk)
  else .error (.parameterOutOfRange offset length b.size)

/-- The transform of the given shape at a byte offset. -/
def readTransform (b : ParameterBlock) (shape : Shape) (offset : UInt32) :
    Except Fault Transform :=
  (b.readScalars offset shape.size).map (Transform.ofPayload shape)

/-- The matrix of the transform of the given shape at a byte offset. -/
def readMatrix (b : ParameterBlock) (shape : Shape) (offset : UInt32) : Except Fault Mat4 :=
  (b.readTransform shape offset).map Transform.toMatrix

/-- The number at a byte offset. -/
def readScalar (b : ParameterBlock) (offset : UInt32) : Except Fault Scalar :=
  (b.readScalars offset 1).map fun values => values.headD .zero

/-! ### Building -/

/-- The bytes of a transform's payload. -/
def payloadBytes (t : Transform) : List UInt8 := Word.image (t.payload.map Scalar.bits)

/-- The offset at which the next payload will lie. -/
def nextOffset (b : ParameterBlock) : UInt32 := UInt32.ofNat b.size

/-- Append the payload of a transform; its offset is the `nextOffset` before. -/
def push (b : ParameterBlock) (t : Transform) : ParameterBlock := ⟨b.bytes ++ payloadBytes t⟩

/-- Append a number; its offset is the `nextOffset` before. -/
def pushScalar (b : ParameterBlock) (a : Scalar) : ParameterBlock :=
  ⟨b.bytes ++ Word.toBytes a.bits⟩

/-- Replace the bytes at an offset by the payload of a transform, if the block reaches that far. -/
def set? (b : ParameterBlock) (offset : UInt32) (t : Transform) : Option ParameterBlock :=
  let stop := offset.toNat + t.shape.byteSize
  if stop ≤ b.size then
    some ⟨b.bytes.take offset.toNat ++ payloadBytes t ++ b.bytes.drop stop⟩
  else none

end ParameterBlock

end Armature
