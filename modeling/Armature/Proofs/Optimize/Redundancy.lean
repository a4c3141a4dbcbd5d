/-
**The removal of redundant pushes on its own.**

Whoever runs the list sees nothing of it: the slots stay the same, bit by bit and under the same
limit, and what balances goes on to balance.  A list in which there is nothing to be done stays as
it is.

Main definitions:

* `IsNormal` — no two pops in a row, no pop of nothing, no push that may be dropped.

Main results:

* `removeRedundantPushes_keeps_outputs` — **the slots stay the same, and what balances balances**;
* `removeRedundantPushes_eq_self_iff` — **exactly the normal lists stay as they are**;
* `isNormal_iterate` — doing it over and over leads to a normal list.
-/

import Armature.Proofs.Optimize.Depth
import Armature.Proofs.Optimize.Progress
import Armature.Proofs.Optimize.Stored

set_option autoImplicit false

namespace Armature

variable {i : Instruction} {is js : List Instruction}

/-! ### What it keeps -/

/-- What lowers a list that balances leaves one that balances. -/
theorem Lowers.validate (lower : Lowers is js) (short : is.length < UInt32.size)
    (fewer : js.length ≤ is.length) (valid : Stream.validate (Instruction.encodeAll is) = .ok ()) :
    Stream.validate (Instruction.encodeAll js) = .ok () := by
  have counts := (Stream.validate_encodeAll_iff (Nat.le_refl _)).1 valid
  exact (Stream.validate_encodeAll_iff fewer).2 (lower.closing short (Nat.zero_le _) counts)

theorem length_coalescePops_le (is : List Instruction) : (coalescePops is).length ≤ is.length := by
  refine coalescePops_induction (fun is js => js.length ≤ is.length) (fun _ => Nat.le_refl _)
    (fun first second => Nat.le_trans second first) ?_ ?_ ?_ is
  · intro is js i fewer
    exact Nat.succ_le_succ fewer
  · intro is
    exact Nat.le_succ _
  · intro count more is
    exact Nat.le_succ _

theorem length_removeRedundantPushes_le (is : List Instruction) :
    (removeRedundantPushes is).length ≤ is.length := by
  refine Nat.le_trans ?_ (length_coalescePops_le is)
  refine releasePushes_induction (fun is js => js.length ≤ is.length) (fun _ => Nat.le_refl _)
    (fun first second => Nat.le_trans second first) ?_ ?_ _
  · intro is js i fewer
    exact Nat.succ_le_succ fewer
  · intro is js released
    exact Nat.le_succ_of_le (length_le_of_release? released)

/-- **Dropping redundant pushes changes no output.**  A list that is evaluated is evaluated to the
same outputs under the same limit after its pops are joined, and after its redundant pushes are
dropped; and if it balances it goes on to do so.  The counts of pops are words, so that the frames
must be countable in a word, by the limit or by the size of the list. -/
theorem removeRedundantPushes_keeps_outputs (is : List Instruction) :
    (∀ (M : Type) (s : Setting M) (count : Nat) (outputs : Array M),
      s.limit ≤ UInt32.size ∨ is.length < UInt32.size →
      (Stream.run s count (Instruction.encodeAll is)).result = .ok outputs →
        (Stream.run s count (Instruction.encodeAll (coalescePops is))).result = .ok outputs ∧
        (Stream.run s count (Instruction.encodeAll (removeRedundantPushes is))).result =
          .ok outputs) ∧
    (is.length < UInt32.size → Stream.validate (Instruction.encodeAll is) = .ok () →
      Stream.validate (Instruction.encodeAll (coalescePops is)) = .ok () ∧
      Stream.validate (Instruction.encodeAll (removeRedundantPushes is)) = .ok ()) := by
  refine ⟨fun M s count outputs capacity run => ⟨?_, ?_⟩, fun short valid => ⟨?_, ?_⟩⟩
  · refine Keeps.result_of_capacity (fun limit small => ?_) capacity run
    rw [← coalescePops_map_stored]
    exact keeps_coalescePops small _
  · refine Keeps.result_of_capacity (fun limit small => ?_) capacity run
    rw [← removeRedundantPushes_map_stored]
    exact keeps_removeRedundantPushes small _
  · exact (lowers_coalescePops is).validate short (length_coalescePops_le is) valid
  · exact (lowers_removeRedundantPushes is).validate short (length_removeRedundantPushes_le is)
      valid

/-- Frames that are opened for nothing, each for another reason, and one that is not. -/
def idleFrames : List Instruction :=
  [.push, .write 0, .pop 1, .push, .static (.uniformScale (-.one)), .push,
    .static (.uniformScale (-.one)), .write 1, .pop 2, .pop 0, .push,
    .static (.uniformScale (-.one)), .write 2, .pop 1]

/-- Nothing is done in the first of them, the third is closed with the second, and the last is
closed at the end. -/
theorem removeRedundantPushes_keeps_outputs_idleFrames :
    ∃ js, js = [.write 0, .push, .static (.uniformScale (-.one)), .static (.uniformScale (-.one)),
        .write 1, .pop 1, .static (.uniformScale (-.one)), .write 2] ∧
      (Stream.runMatrices 3 .empty 3 (Instruction.encodeAll js)).result =
        .ok #[.identity, .identity, .scaling (.splat (-.one))] ∧
      Stream.validate (Instruction.encodeAll js) = .ok () := by
  obtain ⟨runs, balance⟩ := removeRedundantPushes_keeps_outputs idleFrames
  have run : (Stream.runMatrices 3 .empty 3 (Instruction.encodeAll idleFrames)).result =
      .ok #[.identity, .identity, .scaling (.splat (-.one))] := by decide +kernel
  have valid : Stream.validate (Instruction.encodeAll idleFrames) = .ok () := by decide +kernel
  refine ⟨removeRedundantPushes idleFrames, by decide +kernel, ?_, ?_⟩
  · exact (runs _ _ _ _ (.inr (by decide)) run).2
  · exact (balance (by decide) valid).2

/-! ### Normal forms -/

/-- No two pops are in a row. -/
def PopsApart (is : List Instruction) : Prop :=
  ∀ count more rest, ¬ .pop count :: .pop more :: rest <:+ is

/-- There is nothing to be done. -/
structure IsNormal (is : List Instruction) : Prop where
  /-- No two pops are in a row. -/
  apart : PopsApart is
  /-- No pop closes nothing. -/
  nonzero : .pop 0 ∉ is
  /-- No push may be dropped. -/
  needed : ∀ rest, .push :: rest <:+ is → release? 0 false rest = none

theorem PopsApart.tail (h : PopsApart (i :: is)) : PopsApart is :=
  fun count more rest there => h count more rest (there.trans (List.suffix_cons ..))

theorem popsApart_cons (h : PopsApart is)
    (first : ∀ count more rest, i = .pop count → is = .pop more :: rest → False) :
    PopsApart (i :: is) := by
  intro count more rest there
  rcases List.suffix_cons_iff.1 there with same | later
  · cases same
    exact first count more rest rfl rfl
  · exact h count more rest later

/-- **Joining pops changes nothing exactly if they are apart and none closes nothing.** -/
theorem coalescePops_eq_self_iff : coalescePops is = is ↔ PopsApart is ∧ .pop 0 ∉ is := by
  constructor
  · intro same
    fun_induction coalescePops is with
    | case1 =>
        refine ⟨fun count more rest there => ?_, List.not_mem_nil⟩
        cases List.suffix_nil.1 there
    | case2 rest ih =>
        -- a list does not gain a pop
        have fewer := (thins_coalescePops rest).le
        rw [same, removable_cons_of_isRemovable rfl] at fewer
        omega
    | case3 count rest _ more rest' found ih =>
        have fewer := (thins_coalescePops rest).le
        rw [found, (List.cons.inj same).2, removable_cons_of_isRemovable rfl] at fewer
        omega
    | case4 count rest several other ih =>
        have same := (List.cons.inj same).2
        obtain ⟨apart, nonzero⟩ := ih same
        refine ⟨popsApart_cons apart fun _ more rest' _ found => ?_, ?_⟩
        · exact other more rest' (same.trans found)
        · intro zero
          rcases List.mem_cons.1 zero with first | later
          · exact several (Instruction.pop.inj first).symm
          · exact nonzero later
    | case5 i rest notPop ih =>
        obtain ⟨apart, nonzero⟩ := ih (List.cons.inj same).2
        refine ⟨popsApart_cons apart fun count _ _ pop _ => notPop count pop, ?_⟩
        intro zero
        rcases List.mem_cons.1 zero with first | later
        · exact notPop 0 first.symm
        · exact nonzero later
  · rintro ⟨apart, nonzero⟩
    induction is with
    | nil => rfl
    | cons i rest ih =>
        have later := ih apart.tail fun zero => nonzero (List.mem_cons_of_mem _ zero)
        cases i with
        | pop count =>
            have several : count ≠ 0 := by
              rintro rfl
              exact nonzero (List.mem_cons_self ..)
            rw [coalescePops, if_neg several, later]
            cases rest with
            | nil => rfl
            | cons j rest =>
                cases j with
                | pop more => exact absurd (List.suffix_refl _) (apart count more rest)
                | _ => rfl
        | _ => exact congrArg (_ :: ·) later

/-- **Dropping pushes changes nothing exactly if none may be dropped.** -/
theorem releasePushes_eq_self_iff :
    releasePushes is = is ↔ ∀ rest, .push :: rest <:+ is → release? 0 false rest = none := by
  constructor
  · intro same
    fun_induction releasePushes is with
    | case1 =>
        intro rest there
        cases List.suffix_nil.1 there
    | case2 rest rest' released _ ih =>
        -- a list does not gain a push
        have fewer := (thins_releasePushes rest').le
        have less := removable_le_of_release? released
        rw [same, removable_cons_of_isRemovable rfl] at fewer
        omega
    | case3 rest kept ih =>
        intro rest' there
        rcases List.suffix_cons_iff.1 there with first | later
        · cases first
          exact kept
        · exact ih (List.cons.inj same).2 rest' later
    | case4 i rest notPush ih =>
        intro rest' there
        rcases List.suffix_cons_iff.1 there with first | later
        · cases first
          exact (notPush rfl).elim
        · exact ih (List.cons.inj same).2 rest' later
  · intro needed
    induction is with
    | nil => rw [releasePushes]
    | cons i rest ih =>
        have later := ih fun rest' there => needed rest' (there.trans (List.suffix_cons ..))
        by_cases push : i = .push
        · subst push
          rw [releasePushes_push_of_none (needed rest (List.suffix_refl _)), later]
        · rw [releasePushes_cons_of_ne push, later]

/-- **Exactly the normal lists stay as they are.** -/
theorem removeRedundantPushes_eq_self_iff : removeRedundantPushes is = is ↔ IsNormal is := by
  constructor
  · intro same
    -- what is joined is not pulled apart again
    have joined : coalescePops is = is := by
      refine (thins_coalescePops is).resolve_right fun fewer => ?_
      have fewer' := (thins_releasePushes (coalescePops is)).le
      rw [show releasePushes (coalescePops is) = is from same] at fewer'
      omega
    have released : releasePushes is = is := by
      rw [removeRedundantPushes, joined] at same
      exact same
    obtain ⟨apart, nonzero⟩ := coalescePops_eq_self_iff.1 joined
    exact ⟨apart, nonzero, releasePushes_eq_self_iff.1 released⟩
  · intro normal
    rw [removeRedundantPushes, coalescePops_eq_self_iff.2 ⟨normal.apart, normal.nonzero⟩,
      releasePushes_eq_self_iff.2 normal.needed]

/-- **Doing it over and over leads to a normal list**, in at most as many steps as there are
instructions. -/
theorem isNormal_iterate (is : List Instruction) :
    IsNormal (removeRedundantPushes^[is.length] is) := by
  have steps : ∀ (n : Nat) (is : List Instruction), removable is ≤ n →
      IsNormal (removeRedundantPushes^[n] is) := by
    intro n
    induction n with
    | zero =>
        intro is none
        refine removeRedundantPushes_eq_self_iff.1 ?_
        exact (thins_removeRedundantPushes is).resolve_right (by omega)
    | succ n ih =>
        intro is few
        rw [Function.iterate_succ_apply]
        rcases thins_removeRedundantPushes is with same | fewer
        · rw [same, Function.iterate_fixed same]
          exact removeRedundantPushes_eq_self_iff.1 same
        · exact ih _ (by omega)
  exact steps is.length is List.countP_le_length

end Armature
