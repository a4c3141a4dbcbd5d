/-
**Folding into slots.**

Whoever uses a slot may take over a transform that is applied last, right before the slot is
written, for instance by baking it into a mesh once.  The table says for each slot whether it does,
and gathers what has been folded into it.

Main definitions:

* `FoldTable` — the slots;
* `FoldTable.foldable`, `FoldTable.folded` — whether a slot takes transforms, and what it took;
* `FoldTable.fold` — give a slot one more.
-/

import Armature.Geometry.Matrix

set_option autoImplicit false

namespace Armature

/-- One slot of a fold table. -/
structure FoldSlot where
  /-- The slot takes transforms. -/
  foldable : Bool
  /-- The product of what it took. -/
  folded : Mat4
  deriving DecidableEq, Repr

/-- For each slot, whether it takes transforms and what it took. -/
structure FoldTable where
  /-- The slots. -/
  slots : Array FoldSlot
  deriving DecidableEq, Repr

namespace FoldTable

/-- The table of `count` slots that all take transforms, or all do not. -/
def uniform (count : Nat) (foldable : Bool) : FoldTable :=
  ⟨Array.replicate count ⟨foldable, .identity⟩⟩

/-- The table of slots that take transforms where the flag is set. -/
def ofFlags (flags : List Bool) : FoldTable :=
  ⟨(flags.map fun foldable => ⟨foldable, Mat4.identity⟩).toArray⟩

/-- The table without slots, into which nothing is folded. -/
def none : FoldTable := ⟨#[]⟩

/-- The number of slots. -/
def size (t : FoldTable) : Nat := t.slots.size

/-- The slot takes transforms; a slot that does not exist takes none. -/
def foldable (t : FoldTable) (slot : UInt32) : Bool :=
  match t.slots[slot.toNat]? with
  | some s => s.foldable
  | .none => false

/-- What the slot took; the identity if it does not exist. -/
def folded (t : FoldTable) (slot : UInt32) : Mat4 :=
  match t.slots[slot.toNat]? with
  | some s => s.folded
  | .none => .identity

/-- What all slots took. -/
def allFolded (t : FoldTable) : List Mat4 := t.slots.toList.map FoldSlot.folded

/-- Let the slot take transforms or not; a slot that does not exist is ignored. -/
def setFoldable (t : FoldTable) (slot : UInt32) (foldable : Bool) : FoldTable :=
  ⟨t.slots.modify slot.toNat fun s => { s with foldable }⟩

/-- Fold a matrix into the slot.  It comes before what was folded in earlier, since it stood before
it on the way to the write. -/
def fold (t : FoldTable) (slot : UInt32) (matrix : Mat4) : FoldTable :=
  ⟨t.slots.modify slot.toNat fun s => { s with folded := matrix * s.folded }⟩

@[simp] theorem foldable_none (slot : UInt32) : none.foldable slot = false := rfl

end FoldTable

end Armature
