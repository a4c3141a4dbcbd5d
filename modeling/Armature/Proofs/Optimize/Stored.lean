/-
**Defaults that are not stored.**

The words of a binding point hold three defaults at most; a list of instructions may hold more,
which leave no trace in its words.  No pass looks at them: it does the same with them and without
them.  So what a pass does to lists that can be stored it does to the words of any list.

Main results:

* `removeRedundantPushes_map_stored`, `eliminateDead_map_stored`, `Merges.map_stored` — **a pass
  does the same to what is stored of a list**;
* `Keeps.result`, `Keeps.result_of_capacity` — what keeps the journal of what is stored keeps the
  slots;
* `Stream.result_encodeAll_eq_ok_iff` — what the words of a list are run to;
* `Stream.validate_encodeAll_iff` — the words of a list are valid exactly if its frames balance.
-/

import Armature.Proofs.Evaluate.Depth
import Armature.Proofs.Optimize.Folds

set_option autoImplicit false

namespace Armature

/-! ### One instruction -/

namespace Instruction

/-- Only a push is stored as a push. -/
theorem stored_eq_push_iff {i : Instruction} : i.stored = push ↔ i = push := by
  cases i <;> simp [stored]

/-- Only a static transform is stored as one. -/
theorem stored_eq_static_iff {i : Instruction} {t : Transform} :
    i.stored = static t ↔ i = static t := by
  cases i <;> simp [stored]

@[simp] theorem isBracket_stored (i : Instruction) : i.stored.isBracket = i.isBracket := by
  cases i <;> rfl

@[simp] theorem isTransform_stored (i : Instruction) : i.stored.isTransform = i.isTransform := by
  cases i <;> rfl

@[simp] theorem output?_stored (i : Instruction) : i.stored.output? = i.output? := by
  cases i <;> rfl

@[simp] theorem role_stored (i : Instruction) : i.stored.role = i.role := by
  cases i <;> rfl

/-- A binding point that has defaults has some that are stored. -/
@[simp] theorem modifiesFrame_stored (i : Instruction) :
    i.stored.modifiesFrame = i.modifiesFrame := by
  cases i with
  | binding name defaults => cases defaults <;> rfl
  | push | pop | static | parameter | write | writeStatic | writeParameter | comment => rfl

@[simp] theorem climb?_stored (limit depth : Nat) (i : Instruction) :
    i.stored.climb? limit depth = i.climb? limit depth := by
  cases i <;> rfl

end Instruction

open Instruction (stored)

/-- Frames are counted alike. -/
theorem finalDepth?_map_stored (limit depth : Nat) (is : List Instruction) :
    finalDepth? limit depth (is.map stored) = finalDepth? limit depth is := by
  induction is generalizing depth with
  | nil => rfl
  | cons i is ih =>
      rw [List.map_cons, finalDepth?, finalDepth?, Instruction.climb?_stored]
      exact congrArg _ (funext ih)

theorem writtenSlots_map_stored (is : List Instruction) :
    writtenSlots (is.map stored) = writtenSlots is := by
  rw [writtenSlots, List.filterMap_map, writtenSlots]
  exact congrArg (is.filterMap ·) (funext Instruction.output?_stored)

/-! ### Dropping pushes -/

theorem coalescePops_map_stored (is : List Instruction) :
    coalescePops (is.map stored) = (coalescePops is).map stored := by
  fun_induction coalescePops is with
  | case1 => rfl
  | case2 rest ih =>
      show coalescePops (.pop 0 :: rest.map stored) = _
      rw [coalescePops, if_pos rfl, ih]
  | case3 count rest several more rest' found ih =>
      show coalescePops (.pop count :: rest.map stored) = _
      rw [coalescePops, if_neg several, ih, found]
      rfl
  | case4 count rest several other ih =>
      show coalescePops (.pop count :: rest.map stored) = _
      rw [coalescePops, if_neg several, ih]
      -- what is joined with a pop is a pop, before and after
      cases found : coalescePops rest with
      | nil => rfl
      | cons j rest' =>
          cases j with
          | pop more => exact (other more rest' found).elim
          | _ => rfl
  | case5 i rest notPop ih =>
      rw [List.map_cons, List.map_cons, ← ih]
      cases i with
      | pop count => exact (notPop count rfl).elim
      | _ => rfl

theorem release?_map_stored (inner : Nat) (changed : Bool) (is : List Instruction) :
    release? inner changed (is.map stored) =
      (release? inner changed is).map (List.map stored) := by
  fun_induction release? inner changed is with
  | case1 => rfl
  | case2 inner changed rest ih =>
      show release? inner changed (.push :: rest.map stored) = _
      rw [release?, ih, Option.map_map, Option.map_map]
      rfl
  | case3 inner changed count rest inside ih =>
      show release? inner changed (.pop count :: rest.map stored) = _
      rw [release?, if_pos inside, ih, Option.map_map, Option.map_map]
      rfl
  | case4 inner changed count rest closes silent =>
      show release? inner changed (.pop count :: rest.map stored) = _
      have pops : (oneLess count).map stored = oneLess count := by
        unfold oneLess
        split <;> rfl
      rw [release?, if_neg closes, List.isEmpty_map, if_pos silent, Option.map_some,
        List.map_append, pops]
  | case5 inner changed count rest closes told =>
      show release? inner changed (.pop count :: rest.map stored) = _
      rw [release?, if_neg closes, List.isEmpty_map, if_neg told]
      rfl
  | case6 inner changed i rest notPush notPop ih =>
      have inside := Instruction.isBracket_eq_false notPush notPop
      rw [List.map_cons, release?_of_not_bracket (i.isBracket_stored.trans inside),
        Instruction.modifiesFrame_stored, ih, Option.map_map, Option.map_map]
      rfl

theorem releasePushes_map_stored (is : List Instruction) :
    releasePushes (is.map stored) = (releasePushes is).map stored := by
  fun_induction releasePushes is with
  | case1 => rw [List.map_nil, releasePushes]
  | case2 rest rest' released _ ih =>
      rw [← ih]
      refine releasePushes_push_of_some ?_
      rw [release?_map_stored, released]
      rfl
  | case3 rest kept ih =>
      rw [List.map_cons, List.map_cons, ← ih]
      refine releasePushes_push_of_none ?_
      rw [release?_map_stored, kept]
      rfl
  | case4 i rest notPush ih =>
      rw [List.map_cons, List.map_cons, ← ih]
      exact releasePushes_cons_of_ne (fun push => notPush (Instruction.stored_eq_push_iff.1 push)) _

/-- **Dropping pushes does the same to what is stored.** -/
theorem removeRedundantPushes_map_stored (is : List Instruction) :
    removeRedundantPushes (is.map stored) = (removeRedundantPushes is).map stored := by
  rw [removeRedundantPushes, coalescePops_map_stored, releasePushes_map_stored,
    removeRedundantPushes]

/-! ### Dead transforms -/

theorem writesBeforeClose_map_stored (depth : Nat) (is : List Instruction) :
    writesBeforeClose depth (is.map stored) = writesBeforeClose depth is := by
  induction is generalizing depth with
  | nil => rfl
  | cons i rest ih =>
      rw [List.map_cons]
      cases i using Instruction.bracketCases with
      | push => exact ih (depth + 1)
      | pop count =>
          show writesBeforeClose depth (.pop count :: rest.map stored) = _
          rw [writesBeforeClose, ih, writesBeforeClose]
      | inside i hb =>
          rw [writesBeforeClose_of_not_bracket (i.isBracket_stored.trans hb),
            writesBeforeClose_of_not_bracket hb, Instruction.output?_stored, ih]

/-- **Eliminating dead transforms does the same to what is stored.** -/
theorem eliminateDead_map_stored (is : List Instruction) :
    eliminateDead (is.map stored) = (eliminateDead is).map stored := by
  induction is with
  | nil => rfl
  | cons i rest ih =>
      rw [List.map_cons, eliminateDead, eliminateDead, Instruction.isTransform_stored,
        writesBeforeClose_map_stored, ih]
      split
      · rfl
      · rfl

/-! ### Merging -/

namespace Reach

@[simp] theorem marks_stored (r : Reach) (i : Instruction) : r.marks i.stored = r.marks i := by
  rw [marks, marks, Instruction.role_stored]

@[simp] theorem step_stored (r : Reach) (i : Instruction) : r.step i.stored = r.step i := by
  cases i <;> rfl

theorem influenced_map_stored (r : Reach) (is : List Instruction) :
    r.influenced (is.map stored) = (r.influenced is).map stored := by
  induction is generalizing r with
  | nil => rfl
  | cons i rest ih =>
      rw [List.map_cons, influenced, influenced, marks_stored, step_stored, ih]
      split
      · rfl
      · rfl

theorem afterFirst_map_stored (r : Reach) (is : List Instruction) :
    r.afterFirst (is.map stored) = (r.afterFirst is).map stored := by
  induction is generalizing r with
  | nil => rfl
  | cons i rest ih =>
      rw [List.map_cons, afterFirst, afterFirst, marks_stored, step_stored, ih]
      split
      · rfl
      · rfl

end Reach

section Merging

variable {foldable : UInt32 → Bool}

theorem worthMerging_map_stored (users : List Instruction) :
    worthMerging foldable (users.map stored) = worthMerging foldable users := by
  have same : (users.map stored).map (movingCost foldable) = users.map (movingCost foldable) := by
    rw [List.map_map]
    refine congrArg (users.map ·) (funext fun i => ?_)
    cases i <;> rfl
  rw [worthMerging, same, worthMerging]

theorem shouldMove_map_stored (s : Transform) (rest : List Instruction) :
    shouldMove foldable s (rest.map stored) = shouldMove foldable s rest := by
  simp only [shouldMove, Reach.influenced_map_stored, Reach.afterFirst_map_stored,
    worthMerging_map_stored]
  congr 1
  -- the only user is a static transform before and after
  cases Reach.start.influenced rest with
  | nil => rfl
  | cons user others =>
      cases others with
      | nil => cases user <;> rfl
      | cons => cases user <;> rfl

theorem foldSlots_map_stored (users : List Instruction) :
    foldSlots foldable (users.map stored) = foldSlots foldable users := by
  rw [foldSlots, List.filterMap_map, foldSlots]
  refine congrArg (users.filterMap ·) (funext fun i => ?_)
  cases i <;> rfl

theorem moveTo_stored (s : Transform) (i : Instruction) :
    moveTo s foldable i.stored = (moveTo s foldable i).map stored := by
  cases i with
  | write slot =>
      show moveTo s foldable (.write slot) = _
      rw [moveTo]
      split
      · rfl
      · rfl
  | _ => rfl

theorem absorb_map_stored (s : Transform) (r : Reach) (is : List Instruction) :
    absorb s foldable r (is.map stored) = (absorb s foldable r is).map stored := by
  induction is generalizing r with
  | nil => rfl
  | cons i rest ih =>
      rw [List.map_cons, absorb, absorb, List.map_append, Reach.marks_stored, Reach.step_stored, ih]
      congr 1
      split
      · exact moveTo_stored s i
      · rfl

theorem absorbFolds_map_stored (s : Transform) (r : Reach) (is : List Instruction) :
    absorbFolds s foldable r (is.map stored) = absorbFolds s foldable r is := by
  induction is generalizing r with
  | nil => rfl
  | cons i rest ih =>
      rw [List.map_cons, absorbFolds, absorbFolds, Reach.marks_stored, Reach.step_stored, ih]
      congr 2
      cases i with
      | write slot =>
          show foldAt s foldable (rest.map stored) (.write slot) = _
          rw [foldAt, writtenSlots_map_stored, foldAt]
      | _ => rfl

/-- **A merging pass does the same to what is stored**, with the same folds. -/
theorem Merges.map_stored {taken : List UInt32} {is : List Instruction} {folds : List Fold}
    {result : Except OptimizeFault (List Instruction)}
    (h : Merges foldable taken is folds result) :
    Merges foldable taken (is.map stored) folds (result.map (List.map stored)) := by
  induction h with
  | nil => exact .nil
  | @unused taken s rest folds result users next ih =>
      refine .unused ?_ ih
      rw [Reach.influenced_map_stored, users]
      rfl
  | @rejected taken s rest slot worth twice =>
      refine .rejected ?_ ?_
      · rw [shouldMove_map_stored]
        exact worth
      · rw [Reach.influenced_map_stored, foldSlots_map_stored]
        exact twice
  | @moved taken s rest folds result worth once next ih =>
      rw [← absorbFolds_map_stored]
      refine .moved ?_ ?_ ?_
      · rw [shouldMove_map_stored]
        exact worth
      · rw [Reach.influenced_map_stored, foldSlots_map_stored]
        exact once
      · rw [Reach.influenced_map_stored, foldSlots_map_stored, absorb_map_stored]
        exact ih
  | @passed taken i rest folds result stays next ih =>
      have commute : (result.map (i :: ·)).map (List.map stored) =
          (result.map (List.map stored)).map (i.stored :: ·) := by
        cases result <;> rfl
      rw [commute]
      refine .passed ?_ ih
      intro s static
      rw [shouldMove_map_stored]
      exact stays s (Instruction.stored_eq_static_iff.1 static)

end Merging

/-! ### Streams -/

variable {M : Type} {s : Setting M} {is js : List Instruction} {count : Nat} {outputs : Array M}

/-- The words of a list are run to the slots of the journal of what is stored. -/
theorem Stream.result_encodeAll_eq_ok_iff :
    (Stream.run s count (Instruction.encodeAll is)).result = .ok outputs ↔
      ∃ ws, journal s [s.interpretation.identity] (is.map stored) = some ws ∧
        outputs = enter (Array.replicate count s.interpretation.identity) ws := by
  rw [Stream.result_eq_ok_iff, Instruction.decodeAll_encodeAll_stored]
  simp only [Except.ok.injEq, exists_and_left, exists_eq_left']

/-- What keeps the journal of what is stored keeps the slots. -/
theorem Keeps.result (keeps : Keeps s (is.map stored) (js.map stored))
    (run : (Stream.run s count (Instruction.encodeAll is)).result = .ok outputs) :
    (Stream.run s count (Instruction.encodeAll js)).result = .ok outputs := by
  obtain ⟨ws, writes, entered⟩ := Stream.result_encodeAll_eq_ok_iff.1 run
  have kept := keeps (Nat.le_max_right ..) writes
  exact Stream.result_encodeAll_eq_ok_iff.2 ⟨ws, kept, entered⟩

/-- The same if it does so under the limits that a word counts, as long as more frames cannot be
open. -/
theorem Keeps.result_of_capacity
    (keeps : ∀ limit, limit ≤ UInt32.size →
      Keeps { s with limit := limit } (is.map stored) (js.map stored))
    (capacity : s.limit ≤ UInt32.size ∨ is.length < UInt32.size)
    (run : (Stream.run s count (Instruction.encodeAll is)).result = .ok outputs) :
    (Stream.run s count (Instruction.encodeAll js)).result = .ok outputs := by
  obtain ⟨ws, writes, entered⟩ := Stream.result_encodeAll_eq_ok_iff.1 run
  -- the run does not notice if the limit is lowered, and then raised again
  have low := journal_lowered writes (capacity.imp_right fun short => by
    rw [List.length_singleton, List.length_map]
    omega)
  have kept := keeps _ (Nat.min_le_right ..) (Nat.le_max_right ..) low
  exact Stream.result_encodeAll_eq_ok_iff.2
    ⟨ws, journal_withLimit kept (.inl (Nat.min_le_left ..)), entered⟩

/-- **The words of a list are valid exactly if its frames balance**, without a limit that is ever
reached. -/
theorem Stream.validate_encodeAll_iff {limit : Nat} (room : is.length ≤ limit) :
    Stream.validate (Instruction.encodeAll is) = .ok () ↔ finalDepth? limit 0 is = some 0 := by
  have decoded := Instruction.decodeAll_encodeAll_stored is
  have size := Instruction.length_le_of_decodeAll decoded
  rw [List.length_map] at size
  rw [Stream.validate_eq_ok_iff (Nat.le_refl _), decoded]
  simp only [Except.ok.injEq, exists_eq_left', finalDepth?_map_stored]
  constructor
  · exact fun counts => finalDepth?_of_limit counts (Nat.zero_le _) (.inr (by omega))
  · exact fun counts => finalDepth?_of_limit counts (Nat.zero_le _) (.inr (by omega))

end Armature
