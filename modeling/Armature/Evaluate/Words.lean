/-
**Running a stream.**

The evaluator walks over the words once and takes the operands of each instruction from where they
stand; no instruction is built.

Main definitions:

* `Run.multiplyInline` — the loop over the defaults of a binding point;
* `Run.actOn` — what an instruction does, from its words;
* `Run.walk` — the run of the rest of a stream;
* `Stream.run` — the run of a stream;
* `Stream.evaluate`, `Stream.evaluateBatch` — the matrices of all slots, for one block of parameters
  and for several.
-/

import Armature.Evaluate.Program
import Armature.Stream

set_option autoImplicit false

namespace Armature

namespace Run

variable {M : Type}

/-- The value of the static transform that an opcode applies, or writes the frame times it;
`operands` start with its payload.  Other opcodes have none. -/
def inlineValue (I : Interpretation M) (op : Opcode) (operands : List UInt32) (offset : Nat) :
    Except Fault M :=
  match Transform.decode? (if op = .writeStatic then .static .float4x4 else op) operands with
  | some t => .ok (I.ofTransform t)
  | none => .error (.unknownOpcode op.toWord offset)

/-- Multiply the frame by the static transforms that follow each other in `words`, the rest of a
stream of the given length from `offset` on, up to the position `stop`. -/
def multiplyInline (I : Interpretation M) (length stop offset : Nat) (r : Run M) :
    List UInt32 → Run M
  | [] => r
  | w :: rest =>
    if offset < stop then
      match Stream.measure length offset (w :: rest) with
      | .error fault => r.fail fault
      | .ok next =>
        match Opcode.read w offset with
        | .error fault => r.fail fault
        | .ok op =>
          let r := r.multiply? I (inlineValue I op (rest.take (next - offset - 1)) offset)
          if r.fault?.isSome then r
          else multiplyInline I length stop next r (rest.drop (next - offset - 1))
    else r
  termination_by words => words.length
  decreasing_by simp only [List.length_drop, List.length_cons]; omega

/-- What the instruction with the opcode `op` at `offset` does, which ends before `next`; `words` are
the words of the stream behind the opcode. -/
def actOn (s : Setting M) (length offset next : Nat) (r : Run M) (op : Opcode)
    (words : List UInt32) : Run M :=
  let I := s.interpretation
  let operand (k : Nat) : UInt32 := words.getD k 0
  match op with
  | .push => r.push I s.limit
  | .pop => r.pop (operand 0)
  | .static _ => r.multiply? I (inlineValue I op words offset)
  | .parameter shape => r.multiply? I (s.parameter shape (operand 0))
  | .write => r.store I (operand 0)
  | .writeStatic => r.storeTimes? I op (operand 0) (inlineValue I op words.tail offset)
  | .writeParameter => r.storeTimes? I op (operand 0) (s.parameter .float4x4 (operand 1))
  | .binding _ =>
    r.multiplyInline I length next (offset + 1 + op.operandCount) (words.drop op.operandCount)
  | .comment => r

/-- Run the rest of a stream of the given length from `offset` on. -/
def walk (s : Setting M) (length offset : Nat) (r : Run M) : List UInt32 → Run M
  | [] => r
  | w :: rest =>
    match Stream.measure length offset (w :: rest) with
    | .error fault => r.fail fault
    | .ok next =>
      match Opcode.read w offset with
      | .error fault => r.fail fault
      | .ok op =>
        let r := r.actOn s length offset next op rest
        if r.fault?.isSome then r else walk s length next r (rest.drop (next - offset - 1))
  termination_by words => words.length
  decreasing_by simp only [List.length_drop, List.length_cons]; omega

end Run

namespace Stream

variable {M : Type}

/-- The run of a stream with `count` slots.  The allocation of the frames up to the limit and of the
slots is taken to succeed. -/
def run (s : Setting M) (count : Nat) (words : List UInt32) : Run M :=
  (Run.start s.interpretation count).walk s words.length 0 words

/-- The run that computes matrices. -/
def runMatrices (limit : Nat) (block : ParameterBlock) (count : Nat) (words : List UInt32) :
    Run Mat4 :=
  run ⟨.matrices, block, limit⟩ count words

/-- The matrices of all slots. -/
def evaluate (words : List UInt32) (block : ParameterBlock) (count : Nat) :
    Reported (Except Fault (Array Mat4)) :=
  let r := runMatrices maxStackDepth block count words
  ⟨r.result, r.events.toList⟩

/-- The matrices of all slots for each block of parameters; the first failure is the result. -/
def evaluateBatch (words : List UInt32) (blocks : List ParameterBlock) (count : Nat) :
    Reported (Except Fault (List (Array Mat4))) :=
  let runs := blocks.map fun block => evaluate words block count
  ⟨runs.mapM Reported.value, runs.flatMap Reported.events⟩

end Stream

end Armature
