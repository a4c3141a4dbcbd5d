/-
**Opcodes and the shapes of local transforms.**

An instruction starts with one word, its opcode.  Nine shapes of local transforms occur twice among
the opcodes: with their payload inline (*static*), and with the byte offset of their payload in a
parameter block (*parameter*).  The numbering is fixed, since streams are stored.

Main definitions:

* `Shape` — the nine shapes, with the number of components of their payload;
* `Opcode` — the twenty-eight opcodes, by what they do;
* `Opcode.toWord`, `Opcode.ofWord?` — their numbering;
* `Opcode.operandCount` — how many words belong to the opcode itself;
* `Opcode.name` — the name in listings and messages.

Main results:

* `Opcode.ofWord?_toWord`, `Opcode.toWord_of_ofWord?` — the numbering is one to one.
-/

import Armature.Fault

set_option autoImplicit false

namespace Armature

/-! ### Shapes -/

/-- The shapes of local transforms. -/
inductive Shape where
  /-- A matrix. -/
  | float4x4
  /-- A move. -/
  | translate
  /-- A turn about the first axis. -/
  | rotateX
  /-- A turn about the second axis. -/
  | rotateY
  /-- A turn about the third axis. -/
  | rotateZ
  /-- A turn about a given axis. -/
  | rotateAxisAngle
  /-- A turn given by a quaternion. -/
  | rotateQuaternion
  /-- One factor for all axes. -/
  | uniformScale
  /-- A factor for each axis. -/
  | arbitraryScale
  deriving DecidableEq, Inhabited, Repr

namespace Shape

/-- All shapes in the order of their numbers. -/
def all : List Shape :=
  [float4x4, translate, rotateX, rotateY, rotateZ, rotateAxisAngle, rotateQuaternion,
   uniformScale, arbitraryScale]

/-- The place of a shape among all of them. -/
def index : Shape → Nat
  | float4x4 => 0
  | translate => 1
  | rotateX => 2
  | rotateY => 3
  | rotateZ => 4
  | rotateAxisAngle => 5
  | rotateQuaternion => 6
  | uniformScale => 7
  | arbitraryScale => 8

/-- The number of components of a payload. -/
def size : Shape → Nat
  | float4x4 => 16
  | translate | arbitraryScale => 3
  | rotateX | rotateY | rotateZ | uniformScale => 1
  | rotateAxisAngle | rotateQuaternion => 4

/-- The number of bytes of a payload. -/
def byteSize (s : Shape) : Nat := s.size * 4

/-- The name of the shape. -/
def name : Shape → String
  | float4x4 => "Float4x4"
  | translate => "Translate"
  | rotateX => "RotateX"
  | rotateY => "RotateY"
  | rotateZ => "RotateZ"
  | rotateAxisAngle => "RotateAxisAngle"
  | rotateQuaternion => "RotateQuaternion"
  | uniformScale => "UniformScale"
  | arbitraryScale => "ArbitraryScale"

/-- The shape with a given name. -/
def ofName? (name : String) : Option Shape := all.find? fun s => s.name == name

/-- The name of the operation that applies the shape. -/
def operation : Shape → String
  | float4x4 => "TransformFloat4x4"
  | s => s.name

end Shape

/-! ### Opcodes -/

/-- The number of words of the text of a comment. -/
def commentWords : Nat := 16

/-- The greatest number of defaults of a binding point. -/
def maxBindingDefaults : Nat := 3

/-- What an instruction does. -/
inductive Opcode where
  /-- Open a frame. -/
  | push
  /-- Close frames. -/
  | pop
  /-- Apply a transform whose payload follows. -/
  | static (shape : Shape)
  /-- Apply a transform whose payload is in the parameter block. -/
  | parameter (shape : Shape)
  /-- Store the frame. -/
  | write
  /-- Store the frame times a matrix that follows. -/
  | writeStatic
  /-- Store the frame times a matrix in the parameter block. -/
  | writeParameter
  /-- A named place with the given number of default transforms. -/
  | binding (defaults : Fin 4)
  /-- A text without effect. -/
  | comment
  deriving DecidableEq, Repr

namespace Opcode

/-- All opcodes in the order of their numbers. -/
def all : List Opcode :=
  [push, pop] ++ Shape.all.map static ++ Shape.all.map parameter ++
    [write, writeStatic, writeParameter, binding 0, binding 1, binding 2, binding 3, comment]

/-- The number of an opcode. -/
def number : Opcode → Nat
  | push => 0
  | pop => 1
  | static s => 2 + s.index
  | parameter s => 11 + s.index
  | write => 20
  | writeStatic => 21
  | writeParameter => 22
  | binding n => 23 + n.val
  | comment => 27

/-- The word that stands for an opcode. -/
def toWord (op : Opcode) : UInt32 := UInt32.ofNat op.number

/-- The opcode that a word stands for. -/
def ofWord? (w : UInt32) : Option Opcode := all[w.toNat]?

/-- The opcode that the word at `offset` stands for. -/
def read (w : UInt32) (offset : Nat) : Except Fault Opcode :=
  match ofWord? w with
  | some op => .ok op
  | none => .error (.unknownOpcode w offset)

theorem number_lt (op : Opcode) : op.number < 28 := by
  cases op with
  | static s | parameter s => cases s <;> decide
  | binding n => simp only [number]; omega
  | _ => decide

theorem all_getElem?_number (op : Opcode) : all[op.number]? = some op := by
  cases op with
  | static s | parameter s => cases s <;> rfl
  | binding n => match n with | 0 | 1 | 2 | 3 => rfl
  | _ => rfl

@[simp] theorem toNat_toWord (op : Opcode) : op.toWord.toNat = op.number := by
  have := op.number_lt
  simp only [toWord, UInt32.toNat_ofNat']
  omega

/-- A word written for an opcode stands for that opcode. -/
@[simp] theorem ofWord?_toWord (op : Opcode) : ofWord? op.toWord = some op := by
  rw [ofWord?, toNat_toWord, all_getElem?_number]

/-- Only the word written for an opcode stands for it. -/
theorem toWord_of_ofWord? {w : UInt32} {op : Opcode} (h : ofWord? w = some op) :
    op.toWord = w := by
  have numbers : all.map number = List.range 28 := by decide
  have place : (all.map number)[w.toNat]? = some op.number := by
    rw [List.getElem?_map, show all[w.toNat]? = some op from h]; rfl
  rw [numbers] at place
  have bound : w.toNat < 28 := by simpa using (List.getElem?_eq_some_iff.1 place).1
  rw [List.getElem?_range bound] at place
  exact UInt32.toNat_inj.1 ((toNat_toWord op).trans (Option.some.inj place).symm)

/-! ### Kinds of opcodes -/

/-- The payload of a transform follows. -/
def isStatic : Opcode → Bool
  | static _ => true
  | _ => false

/-- The payload of a transform is in the parameter block. -/
def isParameter : Opcode → Bool
  | parameter _ => true
  | _ => false

/-- The frame is multiplied by a transform. -/
def isTransform (op : Opcode) : Bool := op.isStatic || op.isParameter

/-- A slot is written. -/
def isOutput : Opcode → Bool
  | write | writeStatic | writeParameter => true
  | _ => false

/-- The shape of the transform that multiplies the frame. -/
def shape? : Opcode → Option Shape
  | static s | parameter s => some s
  | _ => none

/-- The number of defaults that follow a binding point. -/
def defaults? : Opcode → Option Nat
  | binding n => some n.val
  | _ => none

/-- The binding point with a given number of defaults. -/
def ofDefaults? (count : Nat) : Option Opcode :=
  if h : count < 4 then some (binding ⟨count, h⟩) else none

/-- The number of operand words, without the defaults of a binding point. -/
def operandCount : Opcode → Nat
  | push => 0
  | pop | parameter _ | write => 1
  | static s => s.size
  | writeStatic => 1 + Shape.float4x4.size
  | writeParameter => 2
  | binding _ => 2
  | comment => commentWords

/-- The name in listings and messages. -/
def name : Opcode → String
  | push => "PushLocalToWorld"
  | pop => "PopLocalToWorld"
  | static s => s.operation ++ "_Static"
  | parameter s => s.operation ++ "_Parameter"
  | write => "WriteOutputMatrix"
  | writeStatic => "TransformFloat4x4AndWrite_Static"
  | writeParameter => "TransformFloat4x4AndWrite_Parameter"
  | binding n => "BindingPoint_" ++ toString n.val
  | comment => "Comment"

end Opcode

end Armature
