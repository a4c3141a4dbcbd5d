/-
**Runs.**

A `Run` is what the evaluation of a stream has reached so far: the frames, the slots, what an
observer saw, what was reported, and the fault that stopped it, if one did.  This module holds the
actions that instructions are made of.  They are written for any interpretation of transforms, of
which the matrices are one: the equations that an optimizer relies on hold in exact arithmetic, not
of rounded numbers.

Main definitions:

* `EvalConfig` — the limits of an evaluation;
* `Interpretation` — values with a product, and a value for each transform;
* `Run`, `Run.start` — a run, and the one that has done nothing;
* `Run.push`, `Run.pop`, `Run.multiply`, `Run.store`, `Run.storeTimes` — the actions;
* `Run.result` — the slots, or the fault.
-/

import Armature.Evaluate.Frames
import Armature.Event
import Armature.Opcode
import Armature.Parameters

set_option autoImplicit false

namespace Armature

/-- What transforms stand for. -/
structure Interpretation (M : Type) where
  /-- The value of the first frame and of a slot that is not written. -/
  identity : M
  /-- The value that applies its second operand first. -/
  compose : M → M → M
  /-- The value of a transform. -/
  ofTransform : Transform → M

/-- Transforms stand for their matrices. -/
def Interpretation.matrices : Interpretation Mat4 := ⟨.identity, .mul, Transform.toMatrix⟩

/-- The number of frames allowed unless another limit is given. -/
def maxStackDepth : Nat := 64

/-- The limits of an evaluation. -/
structure EvalConfig where
  /-- The greatest number of frames, for all of which memory is taken to be available. -/
  maxStackDepth : Nat
  deriving DecidableEq, Repr

/-- The limits that hold unless others are given. -/
def EvalConfig.standard : EvalConfig := ⟨Armature.maxStackDepth⟩

instance : Inhabited EvalConfig := ⟨.standard⟩

/-- What an evaluation has reached. -/
structure Run (M : Type) where
  /-- The stack of frames. -/
  frames : Frames M
  /-- The slots. -/
  outputs : Array M
  /-- What an observer saw: pairs of a parent and a child. -/
  visits : Array (M × M)
  /-- What was reported. -/
  events : Array Event
  /-- Why the run stopped, if it did. -/
  fault? : Option Fault

namespace Run

variable {M : Type}

/-- The run that has done nothing, with `count` slots. -/
def start (I : Interpretation M) (count : Nat) : Run M :=
  { frames := .root I.identity
    outputs := Array.replicate count I.identity
    visits := #[]
    events := #[]
    fault? := none }

/-- Stop with a fault. -/
def fail (r : Run M) (fault : Fault) : Run M := { r with fault? := some fault }

/-- Continue with new frames, or stop with the fault that there is instead. -/
def continue? (r : Run M) : Except Fault (Frames M) → Run M
  | .ok frames => { r with frames }
  | .error fault => r.fail fault

/-- Show a pair to the observer. -/
def visit (r : Run M) (parent child : M) : Run M := { r with visits := r.visits.push (parent, child) }

/-- Show the frame under the current one, or the identity, and the current one. -/
def visitTop (I : Interpretation M) (r : Run M) : Run M :=
  r.visit (r.frames.parent?.getD I.identity) r.frames.top

/-- Report something. -/
def report (r : Run M) (e : Event) : Run M := { r with events := r.events.push e }

/-- Open a frame; the observer sees the current one first. -/
def push (I : Interpretation M) (limit : Nat) (r : Run M) : Run M :=
  (r.visitTop I).continue? (r.frames.push? limit)

/-- Close frames. -/
def pop (r : Run M) (count : UInt32) : Run M := r.continue? (r.frames.pop? count)

/-- Multiply the current frame. -/
def multiply (I : Interpretation M) (r : Run M) (value : M) : Run M :=
  { r with frames := r.frames.setTop (I.compose r.frames.top value) }

/-- Multiply the current frame by a value that may not be there. -/
def multiply? (I : Interpretation M) (r : Run M) : Except Fault M → Run M
  | .ok value => r.multiply I value
  | .error fault => r.fail fault

/-- Store the current frame. -/
def store (I : Interpretation M) (r : Run M) (slot : UInt32) : Run M :=
  if slot.toNat < r.outputs.size then
    { r with outputs := r.outputs.setIfInBounds slot.toNat r.frames.top }.visitTop I
  else r.report (.warn s!"bad output matrix index ({slot})")

/-- Store the current frame times a value, on behalf of the opcode `op`. -/
def storeTimes (I : Interpretation M) (r : Run M) (op : Opcode) (slot : UInt32) (value : M) :
    Run M :=
  if slot.toNat < r.outputs.size then
    let product := I.compose r.frames.top value
    { r with outputs := r.outputs.setIfInBounds slot.toNat product }.visit r.frames.top product
  else r.report (.warn s!"bad output matrix index in {op.name} ({slot})")

/-- Store the current frame times a value that may not be there. -/
def storeTimes? (I : Interpretation M) (r : Run M) (op : Opcode) (slot : UInt32) :
    Except Fault M → Run M
  | .ok value => r.storeTimes I op slot value
  | .error fault => r.fail fault

/-- Whether the run went to the end. -/
def status (r : Run M) : Except Fault Unit :=
  match r.fault? with
  | none => .ok ()
  | some fault => .error fault

/-- The slots of a run that went to the end. -/
def result (r : Run M) : Except Fault (Array M) :=
  match r.fault? with
  | none => .ok r.outputs
  | some fault => .error fault

end Run

end Armature
