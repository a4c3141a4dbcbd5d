/-
**Running decoded instructions.**

This is the reference for the evaluation of a stream: every instruction acts on the run, one after
the other, and a run that has stopped stays as it is.

Main definitions:

* `Setting` — what a run is given: an interpretation, a parameter block and a limit;
* `Run.step` — one instruction;
* `Run.exec` — a list of instructions;
* `Program.run` — the run of a stream: the instructions that can be decoded, and then the fault
  where decoding fails.

Main results:

* `Run.exec_append` — a list is run piece by piece.
-/

import Armature.Evaluate.Run
import Armature.Instruction.Codec

set_option autoImplicit false

namespace Armature

/-- What a run is given. -/
structure Setting (M : Type) where
  /-- What transforms stand for. -/
  interpretation : Interpretation M
  /-- The parameters. -/
  block : ParameterBlock
  /-- The greatest number of frames. -/
  limit : Nat

namespace Setting

variable {M : Type}

/-- The value of the parameter of the given shape at an offset. -/
def parameter (s : Setting M) (shape : Shape) (offset : UInt32) : Except Fault M :=
  (s.block.readTransform shape offset).map s.interpretation.ofTransform

end Setting

namespace Run

variable {M : Type}

/-- What an instruction does to a run that has not stopped. -/
def act (s : Setting M) (r : Run M) : Instruction → Run M
  | .push => r.push s.interpretation s.limit
  | .pop count => r.pop count
  | .static t => r.multiply s.interpretation (s.interpretation.ofTransform t)
  | .parameter shape offset => r.multiply? s.interpretation (s.parameter shape offset)
  | .write slot => r.store s.interpretation slot
  | .writeStatic slot matrix =>
    r.storeTimes s.interpretation .writeStatic slot (s.interpretation.ofTransform (.float4x4 matrix))
  | .writeParameter slot offset =>
    r.storeTimes? s.interpretation .writeParameter slot (s.parameter .float4x4 offset)
  | .binding _ defaults =>
    (defaults.map s.interpretation.ofTransform).foldl (multiply s.interpretation) r
  | .comment _ => r

/-- One instruction; a run that has stopped stays as it is. -/
def step (s : Setting M) (r : Run M) (i : Instruction) : Run M :=
  if r.fault?.isSome then r else r.act s i

/-- A list of instructions. -/
def exec (s : Setting M) (r : Run M) (is : List Instruction) : Run M := is.foldl (step s) r

@[simp] theorem exec_nil (s : Setting M) (r : Run M) : r.exec s [] = r := rfl

@[simp] theorem exec_cons (s : Setting M) (r : Run M) (i : Instruction) (is : List Instruction) :
    r.exec s (i :: is) = (r.step s i).exec s is := rfl

/-- A list is run piece by piece. -/
theorem exec_append (s : Setting M) (r : Run M) (is js : List Instruction) :
    r.exec s (is ++ js) = (r.exec s is).exec s js := List.foldl_append

end Run

namespace Program

variable {M : Type}

/-- The instructions of the rest of a stream up to the first that cannot be read, and its fault. -/
def readablePart (length offset : Nat) : List UInt32 → List Instruction × Option Fault
  | [] => ([], none)
  | w :: rest =>
    match Instruction.decodeFrom length offset (w :: rest) with
    | .error fault => ([], some fault)
    | .ok (i, next) =>
      let (is, fault?) := readablePart length next (rest.drop (next - offset - 1))
      (i :: is, fault?)
  termination_by words => words.length
  decreasing_by simp only [List.length_drop, List.length_cons]; omega

/-- The run of decoded instructions with `count` slots. -/
def exec (s : Setting M) (count : Nat) (is : List Instruction) : Run M :=
  (Run.start s.interpretation count).exec s is

/-- The run of a stream with `count` slots: all that can be decoded runs, and the run stops where
decoding fails. -/
def run (s : Setting M) (count : Nat) (words : List UInt32) : Run M :=
  match readablePart words.length 0 words with
  | (is, none) => exec s count is
  | (is, some fault) =>
    let r := exec s count is
    if r.fault?.isSome then r else r.fail fault

end Program

end Armature
