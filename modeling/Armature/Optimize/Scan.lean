/-
**Looking ahead from a transform.**

A transform acts on its frame until that frame is closed, and on every frame opened in between.
Two questions decide what may be done with it: whether a write follows at all, and which
instructions are the first to use it.

Pushes and pops are not matched up beforehand.  A scan keeps how many frames are open relative to
where it started; a pop of several frames just lowers that number by more than one.

Main definitions:

* `Role`, `Instruction.role` — what an instruction is to a transform before it;
* `writesBeforeClose` — a write follows before the frame is closed;
* `Reach` — which open frames still carry the transform unused;
* `Reach.influenced`, `influences` — the first users, as instructions and as positions;
* `worthMerging` — whether moving a transform to its users shortens the list.
-/

import Armature.Instruction.Basic

set_option autoImplicit false

namespace Armature

/-! ### Roles -/

/-- What an instruction is to a static transform before it. -/
inductive Role where
  /-- A static transform, which can take up the one before. -/
  | static
  /-- A plain write, which can be folded into. -/
  | output
  /-- It opens a frame. -/
  | push
  /-- It closes frames. -/
  | pop
  /-- Anything else that needs the frame as it is. -/
  | blocker
  deriving DecidableEq, Repr

namespace Role

/-- The name of a role. -/
def name : Role → String
  | static => "StaticTransform"
  | output => "OutputMatrix"
  | push => "Push"
  | pop => "Pop"
  | blocker => "Blocker"

end Role

/-- The role of an instruction. -/
def Instruction.role : Instruction → Role
  | .push => .push
  | .pop _ => .pop
  | .static _ => .static
  | .write _ => .output
  | .parameter _ _ | .writeStatic _ _ | .writeParameter _ _ | .binding _ _ | .comment _ => .blocker

/-! ### Writes -/

/-- A write follows before the frame is closed that is `depth` frames under the current one. -/
def writesBeforeClose (depth : Nat) : List Instruction → Bool
  | [] => false
  | .push :: rest => writesBeforeClose (depth + 1) rest
  | .pop count :: rest =>
    if count.toNat ≤ depth then writesBeforeClose (depth - count.toNat) rest else false
  | i :: rest => i.output?.isSome || writesBeforeClose depth rest

/-- A write follows the position before the frame at that position is closed. -/
def hasFollowingOutput (is : List Instruction) (position : Nat) : Bool :=
  writesBeforeClose 0 (is.drop position)

/-! ### First users -/

/-- The open frames that a transform reaches, from its own frame on.  The outer `carrying` ones have
it unused; in the inner `shut` ones something has used it already, and in those opened inside it
arrives already used. -/
structure Reach where
  /-- The number of frames that carry the transform unused. -/
  carrying : Nat
  /-- The number of frames on top of those in which it has been used. -/
  shut : Nat
  deriving DecidableEq, Repr

namespace Reach

/-- The reach just after the transform. -/
def start : Reach := ⟨1, 0⟩

/-- The current frame carries the transform unused. -/
def isOpen (r : Reach) : Bool := r.shut == 0 && r.carrying != 0

/-- The instruction is a first user. -/
def marks (r : Reach) (i : Instruction) : Bool :=
  r.isOpen && match i.role with
    | .static | .output | .blocker => true
    | .push | .pop => false

/-- The reach after an instruction. -/
def step (r : Reach) (i : Instruction) : Reach :=
  match i with
  | .push =>
    if r.shut = 0 then (if r.carrying = 0 then r else { r with carrying := r.carrying + 1 })
    else { r with shut := r.shut + 1 }
  | .pop count => ⟨r.carrying - (count.toNat - r.shut), r.shut - count.toNat⟩
  | .write _ => r
  | _ => if r.isOpen then ⟨r.carrying - 1, 1⟩ else r

/-- For each instruction, whether it is a first user. -/
def flags (r : Reach) : List Instruction → List Bool
  | [] => []
  | i :: rest => r.marks i :: (r.step i).flags rest

/-- The first users. -/
def influenced (r : Reach) : List Instruction → List Instruction
  | [] => []
  | i :: rest => if r.marks i then i :: (r.step i).influenced rest else (r.step i).influenced rest

theorem mem_influenced_cons {r : Reach} {i j : Instruction} {rest : List Instruction} :
    j ∈ r.influenced (i :: rest) ↔ r.marks i = true ∧ j = i ∨ j ∈ (r.step i).influenced rest := by
  rw [influenced]
  split
  · rename_i marked
    simp [marked]
  · rename_i unmarked
    simp [unmarked]

theorem mem_influenced_self {r : Reach} {i : Instruction} (user : r.marks i = true)
    (rest : List Instruction) : i ∈ r.influenced (i :: rest) :=
  mem_influenced_cons.2 (.inl ⟨user, rfl⟩)

/-- The users that are left after an instruction. -/
theorem mem_influenced_of_mem {r : Reach} {i j : Instruction} {rest : List Instruction}
    (h : j ∈ (r.step i).influenced rest) : j ∈ r.influenced (i :: rest) :=
  mem_influenced_cons.2 (.inr h)

/-- What follows the first of the first users. -/
def afterFirst (r : Reach) : List Instruction → List Instruction
  | [] => []
  | i :: rest => if r.marks i then rest else (r.step i).afterFirst rest

end Reach

/-- The positions of the instructions that a transform in front of `position` reaches first. -/
def influences (is : List Instruction) (position : Nat) : List Nat :=
  ((Reach.start.flags (is.drop position)).zipIdx position).filterMap fun (flag, p) =>
    if flag then some p else none

/-! ### Cost -/

/-- What moving the transform to one of its users costs: the expected change of the number of
instructions, in which a static transform counts as a saving, and the certain change. -/
def movingCost (foldable : UInt32 → Bool) (i : Instruction) : Int × Int :=
  match i with
  | .static _ => (-1, 0)
  | .write slot => if foldable slot then (0, 0) else (3, 3)
  | _ => (1, 1)

/-- A write that takes no transform is the only user that costs more than one instruction. -/
theorem foldable_of_movingCost_le {foldable : UInt32 → Bool} {slot : UInt32}
    (cheap : (movingCost foldable (.write slot)).2 ≤ 1) : foldable slot = true := by
  cases takes : foldable slot with
  | true => rfl
  | false => simp [movingCost, takes] at cheap

/-- The sum of costs. -/
def totalCost : List Int → Int
  | [] => 0
  | cost :: costs => cost + totalCost costs

/-- Moving a transform to the given users is expected to shorten the list and never lengthens it.
The transform itself, which goes away, counts as one saved instruction. -/
def worthMerging (foldable : UInt32 → Bool) (users : List Instruction) : Bool :=
  let costs := users.map (movingCost foldable)
  let expected := totalCost (costs.map Prod.fst)
  let certain := totalCost (costs.map Prod.snd)
  expected < 1 && certain ≤ 1

end Armature
