/-
**Finished machines.**

A machine is a stream together with its output interface: how many slots it has, and which joint is
behind each of them.

Main definitions:

* `Machine` — the stream and its interface;
* `Machine.find?` — the slot of a joint;
* `Machine.generate`, `Machine.generateBatch`, `Machine.visit`, `Machine.defaults` — the matrices;
* `Machine.parents`, `Machine.trace`, `Machine.describe` — reports.
-/

import Armature.Disassembly
import Armature.Evaluate.Parents
import Armature.Skeleton.Tag

set_option autoImplicit false

namespace Armature

/-- A stream with its output interface. -/
structure Machine where
  /-- The stream. -/
  words : List UInt32
  /-- The number of slots. -/
  outputCount : Nat
  /-- The joints behind the slots, from the first slot on. -/
  joints : List Tag
  deriving DecidableEq, Repr

namespace Machine

/-- The machine of a stream with at least as many slots as joints. -/
def ofParts (words : List UInt32) (outputCount : Nat) (joints : List Tag) : Machine :=
  ⟨words, max outputCount joints.length, joints⟩

/-- The slot of a joint; of several the first. -/
def find? (m : Machine) (tag : Tag) : Option Nat := m.joints.findIdx? fun t => t == tag

/-! ### Matrices -/

/-- The matrices of all slots. -/
def generate (m : Machine) (block : ParameterBlock) : Reported (Except Fault (Array Mat4)) :=
  Stream.evaluate m.words block m.outputCount

/-- The matrices of all slots, with the pairs that an observer sees on the way. -/
def visit (m : Machine) (block : ParameterBlock) : Run Mat4 :=
  Stream.runMatrices maxStackDepth block m.outputCount m.words

/-- The matrices of all slots for each block of parameters. -/
def generateBatch (m : Machine) (blocks : List ParameterBlock) :
    Reported (Except Fault (List (Array Mat4))) :=
  Stream.evaluateBatch m.words blocks m.outputCount

/-- The matrices of all slots without parameters. -/
def defaults (m : Machine) : Reported (Except Fault (Array Mat4)) := m.generate .empty

/-- The parents of all slots. -/
def parents (m : Machine) : Reported (Except Fault (Array UInt32)) :=
  Stream.parents m.words m.outputCount

/-! ### Reports -/

/-- The name of the joint behind a slot. -/
def slotName (m : Machine) (slot : UInt32) : String :=
  match m.joints[slot.toNat]? with
  | some tag => tag.text
  | none => "<unnamed>"

/-- The listing of the stream with joint names at the slots. -/
def trace (m : Machine) : String := disassembleWith ⟨some m.slotName, none⟩ m.words

/-- The place of a slot, to three places. -/
def placeLine (slot : Nat) (matrix : Mat4) : String :=
  s!"  [{slot}] ({matrix.w.x.fixed 3}, {matrix.w.y.fixed 3}, {matrix.w.z.fixed 3})\n"

/-- The interface, the listing, and where the slots are without parameters. -/
def describe (m : Machine) : Reported String :=
  let interface := m.joints.zipIdx.map fun (tag, slot) => s!"  [{slot}] {tag.text}\n"
  let defaults := m.defaults
  let places :=
    match defaults.value with
    | .ok matrices =>
      "Default output translations:\n" ++
        String.join (matrices.toList.zipIdx.map fun (matrix, slot) => placeLine slot matrix)
    | .error fault => s!"Default output transforms unavailable: {fault.message}\n"
  ⟨String.join (["Output interface: ", toString m.outputCount, " slots\n"] ++ interface ++
      ["Command stream:\n", m.trace, places]),
    defaults.events⟩

end Machine

end Armature
