/-
**Edits addressed by position.**

Edits are recorded against the positions of one list and carried out together, so that no edit
moves the place of another.  Of several replacements or removals at one position the last recorded
one counts; insertions keep the order in which they were recorded.  A position outside the list is
ignored.

Main definitions:

* `Edit`, `Edits` — an edit, and edits with their positions in the order of recording;
* `Edits.apply` — the edited list.
-/

set_option autoImplicit false

namespace Armature

/-- What happens at a position. -/
inductive Edit (α : Type) where
  /-- The item gives way to others, perhaps to none. -/
  | replace (items : List α)
  /-- Items are inserted in front. -/
  | before (items : List α)
  /-- Items are inserted behind. -/
  | after (items : List α)

/-- Edits with their positions, in the order of recording. -/
abbrev Edits (α : Type) : Type := List (Nat × Edit α)

namespace Edit

variable {α : Type}

/-- What the edit inserts in front. -/
def inFront : Edit α → List α
  | before items => items
  | _ => []

/-- What the edit inserts behind. -/
def behind : Edit α → List α
  | after items => items
  | _ => []

/-- What the edit puts in place of the item, if it replaces it. -/
def inPlace? : Edit α → Option (List α)
  | replace items => some items
  | _ => none

end Edit

namespace Edits

variable {α : Type}

/-- Remove the item at a position. -/
def remove (position : Nat) : Nat × Edit α := (position, .replace [])

/-- The edits recorded at a position. -/
def here (edits : Edits α) (position : Nat) : List (Edit α) :=
  edits.filterMap fun (p, e) => if p = position then some e else none

@[simp] theorem here_nil (k : Nat) : here ([] : Edits α) k = [] := rfl

theorem here_cons (e : Nat × Edit α) (edits : Edits α) (k : Nat) :
    here (e :: edits) k = if e.1 = k then e.2 :: edits.here k else edits.here k := by
  rw [here, List.filterMap_cons]
  by_cases same : e.1 = k <;> simp only [same, if_true, if_false, here]

theorem here_append (edits edits' : Edits α) (k : Nat) :
    here (edits ++ edits') k = edits.here k ++ edits'.here k := List.filterMap_append

/-- No edit is recorded at a position if all are recorded at others. -/
theorem here_eq_nil {edits : Edits α} {k : Nat} (other : ∀ e ∈ edits, e.1 ≠ k) :
    edits.here k = [] :=
  List.filterMap_eq_nil_iff.2 fun e he => if_neg (other e he)

@[simp] theorem here_remove_self (k : Nat) : here ([remove k] : Edits α) k = [.replace []] := by
  simp [here, remove]

theorem here_remove_of_ne {p k : Nat} (other : p ≠ k) : here ([remove p] : Edits α) k = [] := by
  simp [here, remove, other]

/-- What becomes of one item under the edits at its position. -/
def applyTo (edits : List (Edit α)) (item : α) : List α :=
  edits.flatMap Edit.inFront ++ ((edits.filterMap Edit.inPlace?).getLast?.getD [item]) ++
    edits.flatMap Edit.behind

/-- Carry out all edits together. -/
def apply (edits : Edits α) (items : List α) : List α :=
  items.zipIdx.flatMap fun (item, position) => applyTo (edits.here position) item

end Edits

end Armature
