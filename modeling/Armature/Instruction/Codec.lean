/-
**Instructions as words.**

Encoding writes an opcode and its operands; a name of sixty-four bits is written low half first,
and the defaults of a binding point follow as static transforms of their own.  Decoding reads them
back from a position in a stream and says exactly what is wrong where it fails.

Main definitions:

* `Instruction.encode`, `Instruction.encodeAll` — the words of instructions;
* `Instruction.decodeFrom` — the instruction at the front of the rest of a stream;
* `Instruction.decodeAt`, `Instruction.decodeAll` — at a position, and throughout.

Main results:

* `Instruction.length_encode` — an instruction is encoded in `Instruction.wordLength` words.
-/

import Armature.Instruction.Basic
import Armature.Word

set_option autoImplicit false

namespace Armature

/-! ### Encoding -/

namespace CommentText

/-- The words of a comment. -/
def encode (c : CommentText) : List UInt32 := Word.parse c.bytes

@[simp] theorem length_encode (c : CommentText) : c.encode.length = commentWords := by
  rw [encode, Word.length_parse, c.length_bytes]
  rfl

/-- The comment in the given words. -/
def decode (words : List UInt32) : CommentText := ofBytes (Word.image words)

end CommentText

namespace Instruction

/-- The words of an instruction. -/
def encode (i : Instruction) : List UInt32 :=
  match i with
  | push => [Opcode.push.toWord]
  | pop count => [Opcode.pop.toWord, count]
  | static t => t.encode
  | parameter shape offset => [(Opcode.parameter shape).toWord, offset]
  | write slot => [Opcode.write.toWord, slot]
  | writeStatic slot matrix =>
    Opcode.writeStatic.toWord :: slot :: matrix.toList.map Scalar.bits
  | writeParameter slot offset => [Opcode.writeParameter.toWord, slot, offset]
  | binding name _ =>
    i.opcode.toWord :: name.toUInt32 :: (name >>> 32).toUInt32 ::
      i.storedDefaults.flatMap Transform.encode
  | comment text => Opcode.comment.toWord :: text.encode

/-- The words of an instruction are as many as its length says. -/
theorem length_encode (i : Instruction) : i.encode.length = i.wordLength := by
  cases i with
  | static t =>
    simp [encode, wordLength, storedDefaults, opcode, Transform.opcode, Opcode.operandCount]
  | binding name defaults =>
    have : (opcode (binding name defaults)).operandCount = 2 := by
      simp only [opcode, Opcode.ofDefaults?]
      split <;> rfl
    simp only [encode, wordLength, this, List.length_cons, Transform.length_flatMap_encode]
    omega
  | comment text =>
    simp [encode, wordLength, storedDefaults, opcode, Opcode.operandCount]
    omega
  | _ =>
    simp [encode, wordLength, storedDefaults, opcode, Opcode.operandCount, Shape.size,
      Mat4.toList, Vec4.toList]

/-- The words of a list of instructions. -/
def encodeAll (is : List Instruction) : List UInt32 := is.flatMap encode

/-! ### Decoding -/

/-- Split off `n` words, if there are as many. -/
def takeWords? (n : Nat) (words : List UInt32) : Option (List UInt32 × List UInt32) :=
  let operands := words.take n
  if operands.length = n then some (operands, words.drop n) else none

/-- Read `n` inline defaults of the binding point at `start`, the first of them at `offset`.  The
result ends with the position after them. -/
def decodeDefaults (length start : Nat) :
    Nat → Nat → List UInt32 → Except Fault (List Transform × Nat)
  | 0, offset, _ => .ok ([], offset)
  | _ + 1, offset, [] => .error (.truncated start (offset + 1 - start) length)
  | n + 1, offset, w :: rest =>
    match Opcode.ofWord? w with
    | none => .error (.unknownOpcode w offset)
    | some (.static shape) =>
      match takeWords? shape.size rest with
      | none => .error (.truncated offset (1 + shape.size) length)
      | some (operands, rest) => do
        let (defaults, next) ← decodeDefaults length start n (offset + 1 + shape.size) rest
        .ok (.ofPayload shape (operands.map Scalar.mk) :: defaults, next)
    | some _ => .error (.invalidBindingDefault w offset)

/-- Build the instruction of an opcode from its operands; the rest of the stream after them is read
for the defaults of a binding point only. -/
def ofOperands (length offset : Nat) (op : Opcode) (operands rest : List UInt32) :
    Except Fault (Instruction × Nat) :=
  let operand (k : Nat) : UInt32 := operands.getD k 0
  let next := offset + 1 + op.operandCount
  match op with
  | .push => .ok (push, next)
  | .pop => .ok (pop (operand 0), next)
  | .static shape => .ok (static (.ofPayload shape (operands.map Scalar.mk)), next)
  | .parameter shape => .ok (parameter shape (operand 0), next)
  | .write => .ok (write (operand 0), next)
  | .writeStatic =>
    match Transform.ofPayload .float4x4 (operands.tail.map Scalar.mk) with
    | .float4x4 matrix => .ok (writeStatic (operand 0) matrix, next)
    | _ => .ok (writeStatic (operand 0) .identity, next)
  | .writeParameter => .ok (writeParameter (operand 0) (operand 1), next)
  | .binding n => do
    let (defaults, next) ← decodeDefaults length offset n.val next rest
    .ok (binding ((operand 0).toUInt64 ||| (operand 1).toUInt64 <<< 32) defaults, next)
  | .comment => .ok (comment (.decode operands), next)

/-- Read the instruction at the front of `words`, which are the rest of a stream of the given length
from `offset` on.  The result ends with the position after it. -/
def decodeFrom (length offset : Nat) : List UInt32 → Except Fault (Instruction × Nat)
  | [] => .error (.truncated offset 1 length)
  | w :: rest =>
    match Opcode.ofWord? w with
    | none => .error (.unknownOpcode w offset)
    | some op =>
      match takeWords? op.operandCount rest with
      | none => .error (.truncated offset (1 + op.operandCount) length)
      | some (operands, rest) => ofOperands length offset op operands rest

/-- Read the instruction at a position of a stream. -/
def decodeAt (words : List UInt32) (offset : Nat) : Except Fault (Instruction × Nat) :=
  decodeFrom words.length offset (words.drop offset)

/-- Read all instructions of the rest of a stream. -/
def decodeRest (length offset : Nat) : List UInt32 → Except Fault (List Instruction)
  | [] => .ok []
  | w :: rest =>
    match decodeFrom length offset (w :: rest) with
    | .error fault => .error fault
    | .ok (i, next) =>
      match decodeRest length next (rest.drop (next - offset - 1)) with
      | .error fault => .error fault
      | .ok is => .ok (i :: is)
  termination_by words => words.length
  decreasing_by simp only [List.length_drop, List.length_cons]; omega

/-- Read a stream. -/
def decodeAll (words : List UInt32) : Except Fault (List Instruction) :=
  decodeRest words.length 0 words

end Instruction

end Armature
