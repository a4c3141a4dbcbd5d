/-
**What shows through the passes.**

The passes simplify, move and drop static transforms, drop pushes and lower pops, and join a matrix
with a write.  Whoever looks at a list without noticing any of this sees the same before and after,
in the same order.  A `View` is a way to look at instructions one by one in which static transforms
are not noticed; what the optimizer leaves alone is stated for all views at once.

Only the removal of dead transforms drops other instructions, and it just drops them: what is seen
afterwards is a part of what was seen, in its order.

Main definitions:

* `View`, `View.seen` — a way to look at instructions, and what is seen of a list;
* `View.Blind` — pushes and pops are not noticed either.

Main results:

* `View.seen_simplifyTransforms`, `View.seen_fuseWrites`, `View.seen_absorb_of_cost` — **these
  passes show in no view**, a move as long as it wraps no write;
* `View.Blind.seen_removeRedundantPushes`, `View.Blind.seen_absorb` — nor does what happens to
  pushes and pops where they are not noticed;
* `View.seen_eliminateDead_sublist`, `View.seen_eliminateDead` — the removal of dead transforms
  shows a part of what was there, and nothing where transforms are not noticed.
-/

import Armature.Optimize.Merge
import Armature.Optimize.Simplify
import Armature.Proofs.Optimize.Dead
import Armature.Proofs.Optimize.Fuse
import Armature.Proofs.Optimize.Pushes

set_option autoImplicit false

namespace Armature

/-- A way to look at instructions in which static transforms are not noticed, and a joined write
looks like what was joined. -/
structure View (α : Type) where
  /-- What is seen of an instruction. -/
  see : Instruction → Option α
  /-- A static transform is not seen. -/
  see_static : ∀ t, see (.static t) = none
  /-- A write through a static matrix looks like a write. -/
  see_writeStatic : ∀ slot matrix, see (.writeStatic slot matrix) = see (.write slot)
  /-- A write through a parameter looks like the parameter and the write. -/
  see_writeParameter : ∀ slot offset, (see (.writeParameter slot offset)).toList =
    (see (.parameter .float4x4 offset)).toList ++ (see (.write slot)).toList

namespace View

variable {α : Type} (v : View α)

/-- What is seen of a list. -/
def seen (is : List Instruction) : List α := is.filterMap v.see

@[simp] theorem seen_nil : v.seen [] = [] := rfl

theorem seen_cons (i : Instruction) (is : List Instruction) :
    v.seen (i :: is) = (v.see i).toList ++ v.seen is := by
  rw [seen, List.filterMap_cons]
  cases v.see i <;> rfl

theorem seen_append (is js : List Instruction) : v.seen (is ++ js) = v.seen is ++ v.seen js :=
  List.filterMap_append

@[simp] theorem seen_static (t : Transform) (is : List Instruction) :
    v.seen (.static t :: is) = v.seen is := by
  rw [seen_cons, v.see_static]
  rfl

/-- Pushes and pops are not noticed. -/
structure Blind : Prop where
  /-- A push is not seen. -/
  see_push : v.see .push = none
  /-- A pop is not seen. -/
  see_pop : ∀ count, v.see (.pop count) = none

/-! ### Pushes and pops -/

namespace Blind

variable {v} (blind : v.Blind)
include blind

theorem seen_push (is : List Instruction) : v.seen (.push :: is) = v.seen is := by
  rw [seen_cons, blind.see_push]
  rfl

theorem seen_pop (count : UInt32) (is : List Instruction) :
    v.seen (.pop count :: is) = v.seen is := by
  rw [seen_cons, blind.see_pop]
  rfl

theorem seen_oneLess (count : UInt32) : v.seen (oneLess count) = [] := by
  unfold oneLess
  split
  · rw [blind.seen_pop, seen_nil]
  · rfl

theorem seen_of_release? {inner : Nat} {changed : Bool} {is js : List Instruction}
    (h : release? inner changed is = some js) : v.seen js = v.seen is := by
  rcases eq_or_split_of_release? h with rfl | ⟨front, count, rest, rfl, rfl⟩
  · rfl
  · rw [seen_append, seen_append, seen_append, blind.seen_oneLess, blind.seen_pop, List.nil_append]

/-- **Dropping pushes does not show.** -/
theorem seen_removeRedundantPushes (is : List Instruction) :
    v.seen (removeRedundantPushes is) = v.seen is := by
  refine removeRedundantPushes_induction (fun is js => v.seen js = v.seen is) (fun _ => rfl)
    (fun first second => second.trans first) ?_ ?_ ?_ ?_ is
  · intro is js i same
    rw [seen_cons, seen_cons, same]
  · intro is
    rw [blind.seen_pop]
  · intro count more is
    rw [blind.seen_pop, blind.seen_pop, blind.seen_pop]
  · intro is js released
    rw [blind.seen_of_release? released, blind.seen_push]

end Blind

/-! ### Static transforms -/

theorem seen_map_static (ts : List Transform) : v.seen (ts.map .static) = [] := by
  induction ts with
  | nil => rfl
  | cons t ts ih => rw [List.map_cons, seen_static, ih]

/-- **Simplifying transforms does not show.** -/
theorem seen_simplifyTransforms (config : OptimizerConfig) (is : List Instruction) :
    v.seen (simplifyTransforms config is) = v.seen is := by
  induction is with
  | nil => rfl
  | cons i rest ih =>
      rw [simplifyTransforms, List.flatMap_cons, seen_append]
      rw [simplifyTransforms] at ih
      rw [ih]
      cases i with
      | static t => rw [Instruction.simplify, seen_map_static, seen_static, List.nil_append]
      | _ => exact (v.seen_append [_] rest).symm

/-- A move does not show at a user, unless a write is wrapped. -/
theorem seen_moveTo {s : Transform} {foldable : UInt32 → Bool} {i : Instruction}
    (wrapped : ∀ slot, i = .write slot → foldable slot = false → v.Blind) :
    v.seen (moveTo s foldable i) = v.seen [i] := by
  cases i with
  | static t => rw [moveTo, seen_static, seen_static]
  | write slot =>
      rw [moveTo]
      split
      · rfl
      · rename_i fixed
        have blind := wrapped slot rfl (Bool.eq_false_iff.2 fixed)
        rw [blind.seen_push, seen_static, seen_cons, blind.seen_pop, seen_cons]
  | _ => exact v.seen_static s [_]

/-- A move does not show, unless a write is wrapped. -/
theorem seen_absorb_of {s : Transform} {foldable : UInt32 → Bool} {r : Reach}
    {is : List Instruction}
    (wrapped : ∀ slot, .write slot ∈ r.influenced is → foldable slot = false → v.Blind) :
    v.seen (absorb s foldable r is) = v.seen is :=
  read_absorb v.seen_append fun _ user =>
    v.seen_moveTo fun slot same => wrapped slot (same ▸ user)

/-- **A move that wraps no write does not show.** -/
theorem seen_absorb_of_cost {s : Transform} {foldable : UInt32 → Bool} {r : Reach}
    {is : List Instruction} (cheap : ∀ i ∈ r.influenced is, (movingCost foldable i).2 ≤ 1) :
    v.seen (absorb s foldable r is) = v.seen is := by
  refine v.seen_absorb_of fun slot user fixed => ?_
  rw [foldable_of_movingCost_le (cheap _ user)] at fixed
  cases fixed

/-- **A move does not show where pushes and pops are not noticed.** -/
theorem Blind.seen_absorb {v : View α} (blind : v.Blind) (s : Transform)
    (foldable : UInt32 → Bool) (r : Reach) (is : List Instruction) :
    v.seen (absorb s foldable r is) = v.seen is := v.seen_absorb_of fun _ _ _ => blind

/-! ### Writes -/

/-- A joined instruction looks like the two that were joined. -/
theorem see_of_fuse? {i j fused : Instruction} (h : i.fuse? j = some fused) :
    (v.see fused).toList = (v.see i).toList ++ (v.see j).toList := by
  unfold Instruction.fuse? at h
  split at h
  · cases h
    rw [v.see_writeStatic, v.see_static, Option.toList_none, List.nil_append]
  · cases h
    exact v.see_writeParameter ..
  · cases h

/-- **Joining matrices with writes does not show.** -/
theorem seen_fuseWrites (is : List Instruction) : v.seen (fuseWrites is) = v.seen is := by
  fun_induction fuseWrites is with
  | case1 => rfl
  | case2 => rfl
  | case3 i j rest fused h ih =>
      split at h
      · rw [seen_cons, ih, v.see_of_fuse? h, seen_cons, seen_cons, List.append_assoc]
      · cases h
  | case4 i j rest h ih => rw [seen_cons, ih, v.seen_cons i]

/-! ### Dead transforms -/

/-- **Removing dead transforms shows a part of what was there**, in its order. -/
theorem seen_eliminateDead_sublist (is : List Instruction) :
    (v.seen (eliminateDead is)).Sublist (v.seen is) :=
  (eliminateDead_sublist is).filterMap v.see

/-- It does not show at all where transforms are not seen. -/
theorem seen_eliminateDead (unseen : ∀ i, i.isTransform = true → v.see i = none)
    (is : List Instruction) : v.seen (eliminateDead is) = v.seen is := by
  induction is with
  | nil => rfl
  | cons i rest ih =>
      simp only [eliminateDead]
      split
      · rename_i dead
        simp only [Bool.and_eq_true] at dead
        rw [ih, seen_cons, unseen i dead.1]
        rfl
      · rw [seen_cons, seen_cons, ih]

end View

end Armature
