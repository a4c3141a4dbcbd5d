/-
**Writing through a matrix.**

A matrix that is applied right before a write, with nothing after the write in its frame, is joined
with the write: the frame is then stored times the matrix and stays as it is.

Main definitions:

* `endsFrame` — nothing follows in the current frame;
* `Instruction.fuse?` — the joined instruction;
* `fuseWrites` — the list with joined writes.
-/

import Armature.Instruction.Basic

set_option autoImplicit false

namespace Armature

/-- The list ends, or closes a frame at once. -/
def endsFrame : List Instruction → Bool
  | [] => true
  | .pop count :: _ => 0 < count
  | _ => false

/-- A matrix and a write as one instruction. -/
def Instruction.fuse? : Instruction → Instruction → Option Instruction
  | .static (.float4x4 matrix), .write slot => some (.writeStatic slot matrix)
  | .parameter .float4x4 offset, .write slot => some (.writeParameter slot offset)
  | _, _ => none

/-- Join matrices with the writes that end their frames. -/
def fuseWrites : List Instruction → List Instruction
  | [] => []
  | [i] => [i]
  | i :: j :: rest =>
    match if endsFrame rest then i.fuse? j else none with
    | some fused => fused :: fuseWrites rest
    | none => i :: fuseWrites (j :: rest)

end Armature
