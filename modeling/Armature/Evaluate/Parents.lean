/-
**The parent of each slot.**

The parent of a slot is the slot last written in the frame that the write of the slot starts from.
The walk keeps, in place of each frame, the slot last written in it.

Main definitions:

* `noParent` — what a slot without a parent has;
* `Stream.parents` — the parents of all slots.
-/

import Armature.Evaluate.Words

set_option autoImplicit false

namespace Armature

/-- The parent of a slot that has none. -/
def noParent : UInt32 := 0xffffffff

/-- What the search for parents has reached. -/
structure Lineage where
  /-- For each open frame, the slot last written in it. -/
  frames : Frames UInt32
  /-- The parent of each slot. -/
  parents : Array UInt32
  /-- What was reported. -/
  events : Array Event

namespace Lineage

/-- The search that has seen nothing, with `count` slots. -/
def start (count : Nat) : Lineage := ⟨.root noParent, Array.replicate count noParent, #[]⟩

/-- Give the slot its parent. -/
def record (l : Lineage) (slot : UInt32) : Lineage :=
  { l with parents := l.parents.setIfInBounds slot.toNat l.frames.top }

/-- The slot is the last one written in the current frame. -/
def enter (l : Lineage) (slot : UInt32) : Lineage := { l with frames := l.frames.setTop slot }

/-- Report something. -/
def report (l : Lineage) (e : Event) : Lineage := { l with events := l.events.push e }

/-- The current frame is stored.  A slot that does not exist has no parent, but is entered all the
same. -/
def write (l : Lineage) (slot : UInt32) : Lineage :=
  if slot.toNat < l.parents.size then (l.record slot).enter slot
  else (l.report (.warn s!"bad output matrix index ({slot})")).enter slot

/-- The current frame times a matrix is stored.  A slot that does not exist is passed over. -/
def writeTimes (l : Lineage) (op : Opcode) (slot : UInt32) : Lineage :=
  if slot.toNat < l.parents.size then (l.record slot).enter slot
  else l.report (.warn s!"bad output matrix index in {op.name} ({slot})")

/-- What the instruction with the given opcode does. -/
def actOn (limit : Nat) (l : Lineage) (op : Opcode) (operands : List UInt32) :
    Except Fault Lineage :=
  match op with
  | .push => (l.frames.push? limit).map fun frames => { l with frames }
  | .pop => (l.frames.pop? (operands.headD 0)).map fun frames => { l with frames }
  | .write => .ok (l.write (operands.headD 0))
  | .writeStatic | .writeParameter => .ok (l.writeTimes op (operands.headD 0))
  | _ => .ok l

/-- Search the rest of a stream of the given length from `offset` on.  Where the search fails, the
events up to there remain. -/
def walk (limit length offset : Nat) (l : Lineage) : List UInt32 → Lineage × Except Fault Unit
  | [] => (l, .ok ())
  | w :: rest =>
    match Stream.measure length offset (w :: rest) with
    | .error fault => (l, .error fault)
    | .ok next =>
      match Opcode.read w offset with
      | .error fault => (l, .error fault)
      | .ok op =>
        match l.actOn limit op rest with
        | .error fault => (l, .error fault)
        | .ok l => walk limit length next l (rest.drop (next - offset - 1))
  termination_by words => words.length
  decreasing_by simp only [List.length_drop, List.length_cons]; omega

end Lineage

/-- The parents of `count` slots, the slot number of each or `noParent`. -/
def Stream.parents (words : List UInt32) (count : Nat) :
    Reported (Except Fault (Array UInt32)) :=
  let (l, status) := (Lineage.start count).walk maxStackDepth words.length 0 words
  ⟨status.map fun _ => l.parents, l.events.toList⟩

end Armature
