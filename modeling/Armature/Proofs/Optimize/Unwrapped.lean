/-
**A merging pass changes static transforms and nothing else.**

To a plain write that is not folded into, a transform could be moved by wrapping the write: a frame
is opened for a copy of the transform, and closed behind the write.  That is never done.  It takes
three instructions, and a move is made only if it saves as many as it adds, of which the moved
transform is one; or if its only user is another static transform, and then there is no write.  So
pushes and pops stay as they are, and the list does not become longer.

Main definitions:

* `withoutStatics` — a list without its static transforms;
* `Edit.items` — what an edit brings in.

Main results:

* `Merges.withoutStatics_eq` — **everything but static transforms stays**, in its order;
* `Merges.length_le` — **the list does not become longer**;
* `role_of_mem_items` — a move brings in static transforms only;
* `mergeTransforms_changes_statics` — all of this, and the frames stay as deep.
-/

import Armature.Proofs.Optimize.Depth
import Armature.Proofs.Optimize.Turns

set_option autoImplicit false

namespace Armature

variable {foldable : UInt32 → Bool} {s : Transform} {r : Reach} {i : Instruction}
  {is js rest : List Instruction}

/-! ### Lists without static transforms -/

/-- The list without its static transforms. -/
def withoutStatics (is : List Instruction) : List Instruction :=
  is.filter fun i => i.role != .static

theorem withoutStatics_append (is js : List Instruction) :
    withoutStatics (is ++ js) = withoutStatics is ++ withoutStatics js := List.filter_append ..

@[simp] theorem withoutStatics_static (t : Transform) (is : List Instruction) :
    withoutStatics (.static t :: is) = withoutStatics is := rfl

theorem withoutStatics_cons (i : Instruction) (is : List Instruction) :
    withoutStatics (i :: is) = withoutStatics [i] ++ withoutStatics is :=
  withoutStatics_append [i] is

/-- A user that costs at most one instruction is no wrapped write. -/
theorem withoutStatics_moveTo (cheap : (movingCost foldable i).2 ≤ 1) :
    withoutStatics (moveTo s foldable i) = withoutStatics [i] := by
  cases i with
  | write slot => rw [moveTo, if_pos (foldable_of_movingCost_le cheap)]
  | _ => rfl

theorem withoutStatics_absorb (cheap : ∀ i ∈ r.influenced is, (movingCost foldable i).2 ≤ 1) :
    withoutStatics (absorb s foldable r is) = withoutStatics is :=
  read_absorb withoutStatics_append fun i user => withoutStatics_moveTo (cheap i user)

/-! ### The pass -/

namespace Merges

variable {taken : List UInt32} {folds : List Fold}
  {result : Except OptimizeFault (List Instruction)}

/-- **Everything but static transforms stays**, in its order. -/
theorem withoutStatics_eq (h : Merges foldable taken is folds result) (ok : result = .ok js) :
    withoutStatics js = withoutStatics is := by
  refine h.induction_of_ok (fun is js => withoutStatics js = withoutStatics is) rfl
    (fun _ _ _ same => same) ?_ ?_ ok
  · intro s rest js worth same
    rw [same, withoutStatics_absorb (movingCost_le_of_shouldMove worth), withoutStatics_static]
  · intro i rest js same
    rw [withoutStatics_cons, same, ← withoutStatics_cons]

/-- **The list does not become longer.** -/
theorem length_le (h : Merges foldable taken is folds result) (ok : result = .ok js) :
    js.length ≤ is.length := by
  refine h.induction_of_ok (fun is js => js.length ≤ is.length) (Nat.le_refl 0)
    (fun _ _ _ => Nat.le_succ_of_le) ?_ (fun _ _ _ => Nat.succ_le_succ) ok
  intro s rest js worth short
  exact Nat.le_trans short (length_absorb_le worth)

end Merges

/-! ### Its edits -/

/-- What an edit brings in. -/
def Edit.items {α : Type} : Edit α → List α
  | replace items | before items | after items => items

/-- What is recorded at a user that is no wrapped write brings in a static transform. -/
theorem role_of_mem_moveEdits (cheap : (movingCost foldable i).2 ≤ 1) {position : Nat}
    {e : Nat × Edit Instruction} (recorded : e ∈ moveEdits s foldable position i) :
    ∀ j ∈ e.2.items, j.role = .static := by
  cases i with
  | write slot =>
      rw [moveEdits, if_pos (foldable_of_movingCost_le cheap)] at recorded
      cases recorded
  | _ =>
      rw [List.mem_singleton.1 recorded]
      intro j brought
      rw [List.mem_singleton.1 brought]
      rfl

/-- **A move brings in static transforms only**, wherever it is made: no push and no pop around a
write. -/
theorem role_of_mem_items {position : Nat} (moves : movesAt foldable s is position = true)
    {e : Nat × Edit Instruction} (recorded : e ∈ editsOfMove s foldable is position) :
    ∀ j ∈ e.2.items, j.role = .static := by
  rcases List.mem_append.1 recorded with recorded | removal
  · obtain ⟨p, found, recorded⟩ := List.mem_flatMap.1 recorded
    have there := List.mem_map_of_mem (f := (is[·]?)) found
    rw [map_influences] at there
    obtain ⟨i, user, here⟩ := List.mem_map.1 there
    rw [movesAt_eq_shouldMove] at moves
    rw [← here] at recorded
    exact role_of_mem_moveEdits (movingCost_le_of_shouldMove moves i user) recorded
  · rw [List.mem_singleton.1 removal]
    exact fun j brought => absurd brought List.not_mem_nil

/-! ### All of it -/

/-- **A merging pass changes static transforms and nothing else.**  Without its static transforms
the list is the one it was, so that pushes and pops stay and frames are as deep as before; it does
not become longer; and no move brings in anything but static transforms, so that no write is
wrapped. -/
theorem mergeTransforms_changes_statics {table table' : FoldTable}
    (ok : mergeTransforms table is = (table', .ok js)) :
    withoutStatics js = withoutStatics is ∧ js.length ≤ is.length ∧
    (∀ limit depth, finalDepth? limit depth js = finalDepth? limit depth is) ∧
    ∀ s list position, movesAt table.foldable s list position = true →
      ∀ e ∈ editsOfMove s table.foldable list position, ∀ i ∈ e.2.items, i.role = .static := by
  have spec := merges_mergeTransforms table is
  rw [ok] at spec
  refine ⟨spec.withoutStatics_eq rfl, spec.length_le rfl, fun limit depth => ?_,
    fun s list position moves e recorded => role_of_mem_items moves recorded⟩
  rw [← finalDepth?_seen limit depth js, spec.seen_eq bracketView rfl, finalDepth?_seen]

/-- A transform for two branches and for a write behind them, which is folded into. -/
def branchedScale : List Instruction :=
  [.static (.uniformScale (-.one)), .push, .static (.uniformScale (-.one)), .write 1, .pop 1, .push,
    .static (.uniformScale (-.one)), .write 2, .pop 1, .write 0]

/-- It is joined with one transform in each branch, and these stay in front of their writes. -/
theorem mergeTransforms_changes_statics_branchedScale :
    ∃ js, js = [.push, .static (.uniformScale .one), .write 1, .pop 1, .push,
        .static (.uniformScale .one), .write 2, .pop 1, .write 0] ∧
      withoutStatics js = withoutStatics branchedScale ∧ js.length ≤ branchedScale.length ∧
      finalDepth? maxStackDepth 0 js = some 0 ∧
      movesAt (FoldTable.ofFlags [true]).foldable (.uniformScale (-.one)) branchedScale 0 = true ∧
      ∀ e ∈ editsOfMove (.uniformScale (-.one)) (FoldTable.ofFlags [true]).foldable
        branchedScale 0, ∀ i ∈ e.2.items, i.role = .static := by
  have ok : (mergeTransforms (.ofFlags [true]) branchedScale).2 =
      .ok [.push, .static (.uniformScale .one), .write 1, .pop 1, .push,
        .static (.uniformScale .one), .write 2, .pop 1, .write 0] := by decide +kernel
  have moves : movesAt (FoldTable.ofFlags [true]).foldable (.uniformScale (-.one)) branchedScale 0 =
      true := by decide +kernel
  obtain ⟨same, short, deep, unwrapped⟩ := mergeTransforms_changes_statics (Prod.ext rfl ok)
  exact ⟨_, rfl, same, short, (deep maxStackDepth 0).trans (by decide +kernel), moves,
    unwrapped _ _ 0 moves⟩

end Armature
