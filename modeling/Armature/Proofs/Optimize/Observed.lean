/-
**What the passes leave alone.**

The passes add, move and drop transforms, pushes and pops.  Everything else a list holds is still
there afterwards and in its order: the slots that are written, plainly or through a matrix, the
binding points with their names and defaults, and the comments.

Main definitions:

* `Observed`, `observed` — what is left of a list without transforms, pushes and pops;
* `Observed.view` — the view of those who see this of a list.

Main results:

* `Observed.blind`, `observed_eliminateDead`, `observed_absorb` — transforms, pushes and pops are not
  noticed, so that **each pass leaves alone what is observed**;
* `storable_of_observed_eq` — and the result of a pass can be stored if its input can.
-/

import Armature.Proofs.Codec.RoundTrip
import Armature.Proofs.Optimize.Views

set_option autoImplicit false

namespace Armature

/-- What an instruction is for others than the optimizer. -/
inductive Observed where
  /-- A slot is written. -/
  | write (slot : UInt32)
  /-- A place is known by a name. -/
  | binding (name : UInt64) (defaults : List Transform)
  /-- A comment. -/
  | comment (text : CommentText)
  deriving DecidableEq

/-- What is observed of an instruction; of a transform, a push or a pop it is nothing. -/
def Instruction.observed? : Instruction → Option Observed
  | write slot | writeStatic slot _ | writeParameter slot _ => some (.write slot)
  | binding name defaults => some (.binding name defaults)
  | comment text => some (.comment text)
  | push | pop _ | static _ | parameter _ _ => none

/-- What is observed of a list. -/
def observed (is : List Instruction) : List Observed := is.filterMap Instruction.observed?

theorem observed_append (is js : List Instruction) :
    observed (is ++ js) = observed is ++ observed js := List.filterMap_append

/-! ### What follows from it -/

/-- The slots that are written are observed. -/
theorem writtenSlots_eq (is : List Instruction) :
    writtenSlots is = (observed is).filterMap fun
      | .write slot => some slot
      | _ => none := by
  rw [writtenSlots, observed, List.filterMap_filterMap]
  congr 1
  funext i
  cases i <;> rfl

theorem writtenSlots_of_observed_eq {is js : List Instruction} (h : observed js = observed is) :
    writtenSlots js = writtenSlots is := by
  rw [writtenSlots_eq, writtenSlots_eq, h]

/-- Whether a list can be stored shows in what is observed of it. -/
theorem storable_of_observed_eq {is js : List Instruction} (h : observed js = observed is)
    (stored : ∀ i ∈ is, i.Storable) : ∀ j ∈ js, j.Storable := by
  intro j hj
  cases j with
  | binding name defaults =>
      have seen : Observed.binding name defaults ∈ observed js :=
        List.mem_filterMap.2 ⟨_, hj, rfl⟩
      rw [h] at seen
      obtain ⟨i, hi, hs⟩ := List.mem_filterMap.1 seen
      cases i with
      | binding name' defaults' =>
          cases hs
          exact stored _ hi
      | _ => cases hs
  | _ => trivial

/-! ### The passes -/

/-- The view of those who observe. -/
def Observed.view : View Observed where
  see := Instruction.observed?
  see_static _ := rfl
  see_writeStatic _ _ := rfl
  see_writeParameter _ _ := rfl

theorem Observed.blind : view.Blind := ⟨rfl, fun _ => rfl⟩

theorem observed?_of_isTransform {i : Instruction} (h : i.isTransform = true) :
    i.observed? = none := by
  cases i with
  | static | parameter => rfl
  | _ => cases h

theorem observed_eliminateDead (is : List Instruction) :
    observed (eliminateDead is) = observed is :=
  Observed.view.seen_eliminateDead (fun _ => observed?_of_isTransform) is

/-- Moving a transform to its users leaves everything else alone. -/
theorem observed_absorb (s : Transform) (foldable : UInt32 → Bool) (r : Reach)
    (is : List Instruction) : observed (absorb s foldable r is) = observed is :=
  Observed.blind.seen_absorb s foldable r is

end Armature
