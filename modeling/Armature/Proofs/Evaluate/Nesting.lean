/-
**How frames lie inside each other.**

Frames are opened and closed in a stream without a word that says which push a pop belongs to.  What
is inside a frame is told by counting: the frame that is current at some point is closed where more
frames have been closed since than were opened.

Main definitions:

* `Outlasts` — a frame that is current in front of a list is still open behind it;
* `Stands` — an instruction of some kind stands in such a frame;
* `Balanced` — a list closes the frames that it opens, and no others.

Main results:

* `outlasts_append_singleton`, `stands_append_singleton` — the last instruction of a list closes
  frames or opens them;
* `balanced_iff` — a list is balanced exactly if counting from zero goes through and comes back to
  zero; `Balanced.map_stored` says that this can be told from what is stored.
-/

import Armature.Proofs.Evaluate.Validity

set_option autoImplicit false

namespace Armature

/-! ### Totals -/

theorem opened_append (is js : List Instruction) : opened (is ++ js) = opened is + opened js := by
  simp [opened]

theorem closed_append (is js : List Instruction) : closed (is ++ js) = closed is + closed js := by
  simp [closed]

/-! ### Frames that stay open -/

/-- The frame that is current in front of the list is still open behind it, and would be if `more`
frames were closed there: no part of the list, from its front on, closes more frames than it
opens. -/
structure Outlasts (more : Nat) (is : List Instruction) : Prop where
  /-- It is not closed on the way. -/
  open_ : ∀ js, js <+: is → closed js ≤ opened js
  /-- So many frames lie inside it at the end. -/
  inside : closed is + more ≤ opened is

theorem outlasts_nil_iff {more : Nat} : Outlasts more [] ↔ more = 0 := by
  constructor
  · intro h
    simpa using h.inside
  · rintro rfl
    refine ⟨fun js front => ?_, Nat.le_refl 0⟩
    rw [List.prefix_nil.1 front]
    exact Nat.le_refl 0

/-- The frames to be closed in front of an instruction, so that `more` are closed behind it. -/
def Instruction.closingBefore (i : Instruction) (more : Nat) : Nat := more + i.closes - i.opens

/-- **The last instruction of a list closes frames or opens them.** -/
theorem outlasts_append_singleton {more : Nat} {is : List Instruction} {i : Instruction} :
    Outlasts more (is ++ [i]) ↔ Outlasts (i.closingBefore more) is := by
  have total : opened (is ++ [i]) = opened is + i.opens ∧
      closed (is ++ [i]) = closed is + i.closes := by
    simp [opened_append, closed_append]
  constructor
  · intro h
    have whole := h.inside
    have front := h.open_ is (List.prefix_append ..)
    refine ⟨fun js part => h.open_ js (part.trans (List.prefix_append ..)), ?_⟩
    rw [Instruction.closingBefore]
    omega
  · intro h
    have whole := h.inside
    have front := h.open_ is List.prefix_rfl
    rw [Instruction.closingBefore] at whole
    refine ⟨fun js part => ?_, by omega⟩
    rcases List.prefix_concat_iff.1 part with rfl | part
    · omega
    · exact h.open_ js part

/-- An instruction that opens and closes no frame does not matter to those around it. -/
theorem outlasts_cons_of_even {more : Nat} {is : List Instruction} {i : Instruction}
    (even : i.opens = 0 ∧ i.closes = 0) : Outlasts more (i :: is) ↔ Outlasts more is := by
  obtain ⟨opens, closes⟩ := even
  constructor
  · intro h
    have whole := h.inside
    rw [opened_cons, closed_cons] at whole
    refine ⟨fun js front => ?_, by omega⟩
    have part := h.open_ (i :: js) ((List.prefix_cons_inj i).2 front)
    rw [opened_cons, closed_cons] at part
    omega
  · intro h
    have whole := h.inside
    refine ⟨fun js front => ?_, by rw [opened_cons, closed_cons]; omega⟩
    rcases List.prefix_cons_iff.1 front with rfl | ⟨ks, rfl, part⟩
    · exact Nat.zero_le _
    · have := h.open_ ks part
      rw [opened_cons, closed_cons]
      omega

/-! ### Instructions in frames that stay open -/

/-- An instruction of the kind stands in a frame that is still open behind the list, and would be if
`more` frames were closed there. -/
def Stands (kind : Instruction → Prop) (more : Nat) (is : List Instruction) : Prop :=
  ∃ before i after, is = before ++ i :: after ∧ kind i ∧ Outlasts more after

theorem not_stands_nil (kind : Instruction → Prop) (more : Nat) : ¬ Stands kind more [] := by
  rintro ⟨before, i, after, split, -⟩
  simp at split

/-- **The last instruction is of the kind, or lets through what stands in front of it.** -/
theorem stands_append_singleton (kind : Instruction → Prop) {more : Nat} {is : List Instruction}
    {i : Instruction} :
    Stands kind more (is ++ [i]) ↔
      more = 0 ∧ kind i ∨ Stands kind (i.closingBefore more) is := by
  constructor
  · rintro ⟨before, j, after, split, of, open_⟩
    rcases List.eq_nil_or_concat after with rfl | ⟨rest, last, rfl⟩
    · obtain ⟨-, rfl⟩ := List.append_singleton_inj.1 split
      exact .inl ⟨outlasts_nil_iff.1 open_, of⟩
    · rw [List.concat_eq_append, ← List.cons_append, ← List.append_assoc] at split
      obtain ⟨rfl, rfl⟩ := List.append_singleton_inj.1 split
      rw [List.concat_eq_append] at open_
      exact .inr ⟨before, j, rest, rfl, of, outlasts_append_singleton.1 open_⟩
  · rintro (⟨rfl, of⟩ | ⟨before, j, after, rfl, of, open_⟩)
    · exact ⟨is, i, [], rfl, of, outlasts_nil_iff.2 rfl⟩
    · exact ⟨before, j, after ++ [i], by simp, of, outlasts_append_singleton.2 open_⟩

/-! ### Balanced lists -/

/-- The list closes the frames that it opens, and no others. -/
structure Balanced (is : List Instruction) : Prop where
  /-- It closes no frame from in front of it. -/
  inside : ∀ js, js <+: is → closed js ≤ opened js
  /-- It closes as many frames as it opens. -/
  even : opened is = closed is

/-- A list is balanced exactly if counting from zero goes through and comes back to zero. -/
theorem balanced_iff {is : List Instruction} : Balanced is ↔ balance 0 is = .ok 0 := by
  rw [balance_eq_ok_iff]
  simp only [Nat.zero_add]
  constructor
  · intro h
    exact ⟨h.inside, h.even.symm⟩
  · rintro ⟨inside, even⟩
    exact ⟨inside, even.symm⟩

instance : DecidablePred Balanced := fun _ => decidable_of_iff _ balanced_iff.symm

/-- An instruction that opens and closes no frame leaves their number alone. -/
theorem Instruction.depthAfter_of_not_bracket {i : Instruction} (h : i.isBracket = false)
    (depth : Nat) : i.depthAfter depth = .ok depth := by
  cases i with
  | push | pop => cases h
  | _ => rfl

/-- What is stored of a list opens and closes the same frames. -/
theorem balance_map_stored (depth : Nat) (is : List Instruction) :
    balance depth (is.map Instruction.stored) = balance depth is := by
  induction is generalizing depth with
  | nil => rfl
  | cons i is ih =>
      have same : i.stored.depthAfter depth = i.depthAfter depth := by
        cases i <;> rfl
      rw [List.map_cons, balance, balance, same]
      cases i.depthAfter depth with
      | error fault => rfl
      | ok after => exact ih after

theorem Balanced.map_stored {is : List Instruction} (balanced : Balanced is) :
    Balanced (is.map Instruction.stored) := by
  rw [balanced_iff, balance_map_stored]
  exact balanced_iff.1 balanced

end Armature
