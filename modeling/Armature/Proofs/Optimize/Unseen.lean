/-
**Exactly the transforms that no write sees are dropped.**

Whether a write sees a transform is told by counting: the frame of the transform is open as long as
no part of what follows, from its beginning on, closes more frames than it opens.  All transforms
are judged in the list as it was and dropped together.  The judgements stay right, since nothing
that they depend on is dropped: neither writes nor pushes nor pops.

Main definitions:

* `WriteFollows` — a write follows before the current frame is closed;
* `Prunes` — a list without exactly the transforms that no write follows.

Main results:

* `writesBeforeClose_zero_iff` — looking ahead finds a write exactly if one follows;
* `prunes_iff` — **eliminating dead transforms drops exactly those that no write follows**;
* `writeFollows_of_eliminateDead_eq` — **what is left of them is followed by a write that is left**;
* `eliminateDead_idem` — so that there is nothing left to drop;
* `eliminateDead_exact` — all of this, and the slots stay the same.
-/

import Armature.Proofs.Evaluate.Validity
import Armature.Proofs.Optimize.Stored

set_option autoImplicit false

namespace Armature

variable {i : Instruction} {is js rest : List Instruction} {depth : Nat}

/-! ### Writes that follow -/

/-- A write follows before the current frame is closed: no beginning of what stands in between
closes more frames than it opens. -/
def WriteFollows (is : List Instruction) : Prop :=
  ∃ front w back, is = front ++ w :: back ∧ w.output?.isSome ∧
    ∀ js, js <+: front → closed js ≤ opened js

/-- Behind an instruction the frames that it opens and closes are counted as well. -/
theorem forall_isPrefix_cons_iff {front : List Instruction} :
    (∀ js, js <+: i :: front → closed js ≤ depth + opened js) ↔
      i.closes ≤ depth + i.opens ∧
        ∀ js, js <+: front → closed js ≤ depth + i.opens - i.closes + opened js := by
  constructor
  · intro fronts
    have first := fronts [i] (List.prefix_cons_inj i |>.2 front.nil_prefix)
    simp only [closed_cons, opened_cons, closed_nil, opened_nil, Nat.add_zero] at first
    refine ⟨first, fun js h => ?_⟩
    have later := fronts (i :: js) (List.prefix_cons_inj i |>.2 h)
    rw [closed_cons, opened_cons] at later
    omega
  · rintro ⟨first, fronts⟩ js h
    rcases List.prefix_cons_iff.1 h with rfl | ⟨ks, rfl, hk⟩
    · exact Nat.zero_le _
    · have later := fronts ks hk
      rw [closed_cons, opened_cons]
      omega

/-- Looking ahead finds a write exactly if one follows before the watched frame is closed, which
lies under `depth` others. -/
theorem writesBeforeClose_iff :
    writesBeforeClose depth is = true ↔
      ∃ front w back, is = front ++ w :: back ∧ w.output?.isSome ∧
        ∀ js, js <+: front → closed js ≤ depth + opened js := by
  induction is generalizing depth with
  | nil =>
      constructor
      · intro found
        cases found
      · rintro ⟨front, w, back, split, -⟩
        cases front <;> cases split
  | cons i rest ih =>
      -- the write is the first instruction, or it stands behind it and is found from there
      have split : (∃ front w back, i :: rest = front ++ w :: back ∧ w.output?.isSome ∧
            ∀ js, js <+: front → closed js ≤ depth + opened js) ↔
          i.output?.isSome ∨ (i.closes ≤ depth + i.opens ∧
            writesBeforeClose (depth + i.opens - i.closes) rest = true) := by
        rw [ih]
        constructor
        · rintro ⟨front, w, back, split, write, fronts⟩
          cases front with
          | nil =>
              cases split
              exact .inl write
          | cons j front =>
              cases split
              obtain ⟨first, fronts⟩ := forall_isPrefix_cons_iff.1 fronts
              exact .inr ⟨first, front, w, back, rfl, write, fronts⟩
        · rintro (write | ⟨first, front, w, back, rfl, write, fronts⟩)
          · refine ⟨[], i, rest, rfl, write, fun js h => ?_⟩
            rw [List.prefix_nil.1 h]
            exact Nat.zero_le _
          · exact ⟨i :: front, w, back, rfl, write, forall_isPrefix_cons_iff.2 ⟨first, fronts⟩⟩
      rw [split]
      cases i using Instruction.bracketCases with
      | push =>
          simp only [writesBeforeClose, Instruction.output?, Instruction.opens, Instruction.closes,
            Option.isSome_none, Bool.false_eq_true, false_or, Nat.zero_le, true_and, Nat.sub_zero]
      | pop count =>
          simp only [writesBeforeClose, Instruction.output?, Instruction.opens, Instruction.closes,
            Option.isSome_none, Bool.false_eq_true, false_or, Nat.add_zero]
          split
          · rename_i inside
            simp only [inside, true_and]
          · rename_i closes
            simp only [closes, Bool.false_eq_true, false_and]
      | inside i hb =>
          have counts : i.opens = 0 ∧ i.closes = 0 := by
            cases i with
            | push | pop => cases hb
            | _ => exact ⟨rfl, rfl⟩
          rw [writesBeforeClose_of_not_bracket hb, Bool.or_eq_true, counts.1, counts.2]
          simp only [Nat.zero_le, true_and, Nat.add_zero, Nat.sub_zero]

/-- **Looking ahead finds a write exactly if one follows.** -/
theorem writesBeforeClose_zero_iff : writesBeforeClose 0 is = true ↔ WriteFollows is := by
  rw [writesBeforeClose_iff, WriteFollows]
  simp only [Nat.zero_add]

instance : DecidablePred WriteFollows := fun _ => decidable_of_iff _ writesBeforeClose_zero_iff

/-! ### What is dropped -/

/-- The list `js` is `is` without exactly the transforms that no write follows. -/
inductive Prunes : List Instruction → List Instruction → Prop
  /-- Nothing is left. -/
  | nil : Prunes [] []
  /-- A transform stays only if a write follows. -/
  | keep {i : Instruction} {rest js : List Instruction}
      (seen : i.isTransform = true → WriteFollows rest) (next : Prunes rest js) :
      Prunes (i :: rest) (i :: js)
  /-- Only a transform goes, and only if no write follows. -/
  | drop {i : Instruction} {rest js : List Instruction} (transform : i.isTransform = true)
      (unseen : ¬ WriteFollows rest) (next : Prunes rest js) : Prunes (i :: rest) js

theorem eliminateDead_cons_of_dead (transform : i.isTransform = true)
    (unseen : ¬ WriteFollows rest) : eliminateDead (i :: rest) = eliminateDead rest := by
  rw [← writesBeforeClose_zero_iff, Bool.not_eq_true] at unseen
  rw [eliminateDead, transform, unseen]
  rfl

theorem eliminateDead_cons_of_seen (seen : i.isTransform = true → WriteFollows rest) :
    eliminateDead (i :: rest) = i :: eliminateDead rest := by
  rw [eliminateDead, if_neg]
  rw [Bool.and_eq_true, Bool.not_eq_true', not_and, Bool.not_eq_false]
  exact fun transform => writesBeforeClose_zero_iff.2 (seen transform)

theorem dead_or_seen (i : Instruction) (rest : List Instruction) :
    (i.isTransform = true ∧ ¬ WriteFollows rest) ∨ (i.isTransform = true → WriteFollows rest) := by
  by_cases seen : WriteFollows rest
  · exact .inr fun _ => seen
  · by_cases transform : i.isTransform = true
    · exact .inl ⟨transform, seen⟩
    · exact .inr fun h => absurd h transform

/-- **Eliminating dead transforms drops exactly those that no write follows.** -/
theorem prunes_iff : Prunes is js ↔ js = eliminateDead is := by
  constructor
  · intro h
    induction h with
    | nil => rfl
    | keep seen _ ih => rw [eliminateDead_cons_of_seen seen, ih]
    | drop transform unseen _ ih => rw [eliminateDead_cons_of_dead transform unseen, ih]
  · rintro rfl
    induction is with
    | nil => exact .nil
    | cons i rest ih =>
        rcases dead_or_seen i rest with ⟨transform, unseen⟩ | seen
        · rw [eliminateDead_cons_of_dead transform unseen]
          exact .drop transform unseen ih
        · rw [eliminateDead_cons_of_seen seen]
          exact .keep seen ih

/-! ### What is left -/

/-- The writes, pushes and pops that looking ahead depends on are all there. -/
theorem writesBeforeClose_eliminateDead (depth : Nat) (is : List Instruction) :
    writesBeforeClose depth (eliminateDead is) = writesBeforeClose depth is := by
  induction is generalizing depth with
  | nil => rfl
  | cons i rest ih =>
      rcases dead_or_seen i rest with ⟨transform, unseen⟩ | seen
      · rw [eliminateDead_cons_of_dead transform unseen, ih,
          writesBeforeClose_of_not_bracket (isBracket_of_isTransform transform),
          output?_of_isTransform transform]
        rfl
      · rw [eliminateDead_cons_of_seen seen]
        cases i using Instruction.bracketCases with
        | push => exact ih (depth + 1)
        | pop count => rw [writesBeforeClose, writesBeforeClose, ih]
        | inside i hb =>
            rw [writesBeforeClose_of_not_bracket hb, writesBeforeClose_of_not_bracket hb, ih]

theorem writeFollows_eliminateDead_iff : WriteFollows (eliminateDead is) ↔ WriteFollows is := by
  rw [← writesBeforeClose_zero_iff, ← writesBeforeClose_zero_iff, writesBeforeClose_eliminateDead]

/-- **A transform that is left is followed by a write that is left.** -/
theorem writeFollows_of_eliminateDead_eq {front : List Instruction}
    (split : eliminateDead is = front ++ i :: rest) (transform : i.isTransform = true) :
    WriteFollows rest := by
  have pruned : Prunes is (eliminateDead is) := prunes_iff.2 rfl
  generalize eliminateDead is = js at split pruned
  induction pruned generalizing front with
  | nil => cases front <;> cases split
  | drop _ _ _ ih => exact ih split
  | keep seen next ih =>
      cases front with
      | cons j front =>
          cases split
          exact ih rfl
      | nil =>
          cases split
          rw [prunes_iff.1 next, writeFollows_eliminateDead_iff]
          exact seen transform

/-- Nothing goes from a list in which every transform is followed by a write. -/
theorem eliminateDead_eq_self
    (seen : ∀ front i rest, is = front ++ i :: rest → i.isTransform = true → WriteFollows rest) :
    eliminateDead is = is := by
  induction is with
  | nil => rfl
  | cons i rest ih =>
      rw [eliminateDead_cons_of_seen (seen [] i rest rfl), ih]
      intro front j back split
      exact seen (i :: front) j back (congrArg (i :: ·) split)

/-- **Nothing is left to drop.** -/
theorem eliminateDead_idem (is : List Instruction) :
    eliminateDead (eliminateDead is) = eliminateDead is :=
  eliminateDead_eq_self fun _ _ _ => writeFollows_of_eliminateDead_eq

/-- **Eliminating dead transforms is exact.**  A list that is evaluated is evaluated to the same
outputs; exactly the transforms go that no write follows; those that stay are followed by a write
that stays; and to do it again changes nothing. -/
theorem eliminateDead_exact (is : List Instruction) :
    (∀ (M : Type) (s : Setting M) (count : Nat) (outputs : Array M),
      (Stream.run s count (Instruction.encodeAll is)).result = .ok outputs →
        (Stream.run s count (Instruction.encodeAll (eliminateDead is))).result = .ok outputs) ∧
    Prunes is (eliminateDead is) ∧
    (∀ front i rest, eliminateDead is = front ++ i :: rest → i.isTransform = true →
      WriteFollows rest) ∧
    eliminateDead (eliminateDead is) = eliminateDead is := by
  refine ⟨fun M s count outputs run => ?_, prunes_iff.2 rfl,
    fun front i rest => writeFollows_of_eliminateDead_eq, eliminateDead_idem is⟩
  refine Keeps.result ?_ run
  rw [← eliminateDead_map_stored]
  exact keeps_eliminateDead _

/-- Two branches, with transforms that act on no write in either of them and behind them. -/
def barrenBranches : List Instruction :=
  [.push, .static (.uniformScale (-.one)), .push, .parameter .uniformScale 0, .pop 1, .write 0,
    .static (.uniformScale (-.one)), .pop 1, .static (.uniformScale (-.one)), .push, .push,
    .static (.uniformScale (-.one)), .pop 2, .write 1, .static (.uniformScale (-.one))]

/-- The transforms that act on a write stay, one in a branch and one outside. -/
theorem eliminateDead_exact_barrenBranches :
    ∃ js, js = [.push, .static (.uniformScale (-.one)), .push, .pop 1, .write 0, .pop 1,
        .static (.uniformScale (-.one)), .push, .push, .pop 2, .write 1] ∧
      (Stream.runMatrices maxStackDepth (ParameterBlock.empty.push (.uniformScale (-.one))) 2
        (Instruction.encodeAll js)).result =
          .ok #[.scaling (.splat (-.one)), .scaling (.splat (-.one))] ∧
      Prunes barrenBranches js ∧ WriteFollows (js.drop 2) ∧ eliminateDead js = js := by
  obtain ⟨keeps, prunes, follows, again⟩ := eliminateDead_exact barrenBranches
  have run : (Stream.runMatrices maxStackDepth (ParameterBlock.empty.push (.uniformScale (-.one))) 2
      (Instruction.encodeAll barrenBranches)).result =
        .ok #[.scaling (.splat (-.one)), .scaling (.splat (-.one))] := by
    decide +kernel
  refine ⟨eliminateDead barrenBranches, by decide +kernel, keeps _ _ _ _ run, prunes, ?_, again⟩
  refine follows [.push] (.static (.uniformScale (-.one))) _ ?_ rfl
  decide +kernel

end Armature
