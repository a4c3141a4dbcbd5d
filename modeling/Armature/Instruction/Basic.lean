/-
**Instructions.**

An `Instruction` is the decoded form of a piece of a stream.  This module holds the type and what
can be said of one instruction without running it.

Main definitions:

* `CommentText` — the sixty-four bytes of a comment, and the text in them;
* `Instruction` — the instructions;
* `Instruction.opcode`, `Instruction.wordLength`, `Instruction.output?`,
  `Instruction.isTransform`, `Instruction.modifiesFrame` — properties of one instruction;
* `Instruction.eqv`, `Instruction.eqvAll` — agreement as numbers, where a NaN differs from itself.
-/

import Armature.Text.Quoted
import Armature.Text.Utf8
import Armature.Transform.Basic

set_option autoImplicit false

namespace Armature

/-! ### Comments -/

/-- The number of bytes of a comment. -/
def commentBytes : Nat := 4 * commentWords

/-- The bytes of a comment. -/
structure CommentText where
  /-- The bytes. -/
  bytes : List UInt8
  /-- There are sixty-four of them. -/
  length_bytes : bytes.length = commentBytes
  deriving DecidableEq

namespace CommentText

/-- The first bytes of a list, filled up with NUL. -/
def ofBytes (bytes : List UInt8) : CommentText :=
  ⟨(bytes ++ List.replicate commentBytes 0).take commentBytes, by simp⟩

instance : Inhabited CommentText := ⟨ofBytes []⟩

/-- The comment with a text: of its bytes, all that leave room for a closing NUL. -/
def ofText (text : String) : CommentText :=
  ofBytes ((Text.Utf8.encode text.toList).take (commentBytes - 1))

/-- The text before the first NUL. -/
def text (c : CommentText) : List Char := Text.Utf8.decode (c.bytes.takeWhile (· != 0))

/-- The text between quotes. -/
def quoted (c : CommentText) : String := Text.quote c.text

end CommentText

/-! ### Instructions -/

/-- An instruction. -/
inductive Instruction where
  /-- Open a frame that starts as a copy of the current one. -/
  | push
  /-- Close the given number of frames. -/
  | pop (count : UInt32)
  /-- Multiply the frame by a transform. -/
  | static (transform : Transform)
  /-- Multiply the frame by a transform whose payload is in the parameter block. -/
  | parameter (shape : Shape) (offset : UInt32)
  /-- Store the frame in a slot. -/
  | write (slot : UInt32)
  /-- Store the frame times a matrix in a slot; the frame stays as it is. -/
  | writeStatic (slot : UInt32) (matrix : Mat4)
  /-- Store the frame times a matrix of the parameter block; the frame stays as it is. -/
  | writeParameter (slot offset : UInt32)
  /-- Multiply the frame by default transforms, at a place known by a name. -/
  | binding (name : UInt64) (defaults : List Transform)
  /-- Do nothing. -/
  | comment (text : CommentText)
  deriving DecidableEq, Inhabited

namespace Instruction

/-- The opcode under which the instruction is stored. -/
def opcode : Instruction → Opcode
  | push => .push
  | pop _ => .pop
  | static t => t.opcode
  | parameter shape _ => .parameter shape
  | write _ => .write
  | writeStatic _ _ => .writeStatic
  | writeParameter _ _ => .writeParameter
  | binding _ defaults => (Opcode.ofDefaults? defaults.length).getD (.binding (Fin.last 3))
  | comment _ => .comment

/-- The defaults that are stored with the instruction: at most three. -/
def storedDefaults : Instruction → List Transform
  | binding _ defaults => defaults.take maxBindingDefaults
  | _ => []

/-- The number of words under which the instruction is stored. -/
def wordLength (i : Instruction) : Nat :=
  1 + i.opcode.operandCount + Transform.wordLengths i.storedDefaults

/-- The slot that the instruction writes. -/
def output? : Instruction → Option UInt32
  | write slot | writeStatic slot _ | writeParameter slot _ => some slot
  | _ => none

/-- The instruction multiplies the frame by one transform. -/
def isTransform : Instruction → Bool
  | static _ | parameter _ _ => true
  | _ => false

/-- The instruction can change the frame. -/
def modifiesFrame : Instruction → Bool
  | static _ | parameter _ _ => true
  | binding _ defaults => !defaults.isEmpty
  | _ => false

/-- The two instructions agree, their numbers as numbers. -/
def eqv : Instruction → Instruction → Bool
  | push, push => true
  | pop a, pop b => a == b
  | static a, static b => a.eqv b
  | parameter s a, parameter t b => s == t && a == b
  | write a, write b => a == b
  | writeStatic a m, writeStatic b n => a == b && m.eqv n
  | writeParameter a m, writeParameter b n => a == b && m == n
  | binding a ts, binding b us =>
    a == b && ts.length == us.length && (ts.zip us).all fun (t, u) => t.eqv u
  | comment a, comment b => a.bytes == b.bytes
  | _, _ => false

/-- The two lists agree, their numbers as numbers. -/
def eqvAll (is js : List Instruction) : Bool :=
  is.length == js.length && (is.zip js).all fun (i, j) => i.eqv j

end Instruction

end Armature
