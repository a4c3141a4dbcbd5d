/-
**Transforms that no write sees can go.**

A write stores the current frame, so the frames that are closed before the next write have no
influence on the journal.  A transform with no write before the end of its frame only changes such
a frame.

Main results:

* `journal_eq_of_unseen` — frames that no write sees may hold anything;
* `keeps_eliminateDead` — **eliminating dead transforms keeps the journal**;
* `eliminateDead_sublist` — nothing else changes.
-/

import Armature.Optimize.Dead
import Armature.Proofs.Evaluate.Journal

set_option autoImplicit false

namespace Armature

variable {M : Type} {s : Setting M}

theorem writesBeforeClose_of_not_bracket {i : Instruction} (h : i.isBracket = false)
    (depth : Nat) (rest : List Instruction) :
    writesBeforeClose depth (i :: rest) =
      (i.output?.isSome || writesBeforeClose depth rest) := by
  cases i with
  | push | pop => cases h
  | _ => rfl

/-- What is dropped entirely makes no difference. -/
theorem drop_append_eq (as bs below : List M) {n : Nat} (h : as.length = bs.length)
    (all : as.length ≤ n) : (as ++ below).drop n = (bs ++ below).drop n := by
  have all' : bs.length ≤ n := h ▸ all
  rw [List.drop_append, List.drop_append, List.drop_of_length_le all,
    List.drop_of_length_le all', h]

/-- The frames that are closed before the next write may hold anything.  There are `depth + 1` of
them, since the frame that is watched lies under `depth` others. -/
theorem journal_eq_of_unseen (as bs below : List M) {depth : Nat} {is : List Instruction}
    (unseen : writesBeforeClose depth is = false)
    (ha : as.length = depth + 1) (hb : bs.length = depth + 1) :
    journal s (as ++ below) is = journal s (bs ++ below) is := by
  -- the stacks stay equally high, so that pushes and pops succeed on both or on neither
  induction is generalizing depth as bs with
  | nil =>
      obtain ⟨a, as, rfl⟩ := List.exists_cons_of_length_eq_add_one ha
      obtain ⟨b, bs, rfl⟩ := List.exists_cons_of_length_eq_add_one hb
      rfl
  | cons i is ih =>
      obtain ⟨a, as, rfl⟩ := List.exists_cons_of_length_eq_add_one ha
      obtain ⟨b, bs, rfl⟩ := List.exists_cons_of_length_eq_add_one hb
      simp only [List.length_cons, Nat.add_right_cancel_iff] at ha hb
      have height : (as ++ below).length = (bs ++ below).length := by
        rw [List.length_append, List.length_append, ha, hb]
      simp only [List.cons_append]
      cases i using Instruction.bracketCases with
      | push =>
          have rest := ih (a :: a :: as) (b :: b :: bs) unseen
            (by simp only [List.length_cons, ha]) (by simp only [List.length_cons, hb])
          rw [journal_push, journal_push, height]
          simp only [List.cons_append] at rest
          rw [rest]
      | pop count =>
          rw [journal_pop, journal_pop, height, ← List.cons_append, ← List.cons_append]
          by_cases inside : count.toNat ≤ depth
          · rw [writesBeforeClose, if_pos inside] at unseen
            have rest := ih ((a :: as).drop count.toNat) ((b :: bs).drop count.toNat)
              unseen (by simp only [List.length_drop, List.length_cons]; omega)
              (by simp only [List.length_drop, List.length_cons]; omega)
            rw [List.drop_append_of_le_length (by simp only [List.length_cons]; omega),
              List.drop_append_of_le_length (by simp only [List.length_cons]; omega), rest]
          · -- the watched frame is closed too, so that what is left is the same
            rw [drop_append_eq (a :: as) (b :: bs) below
              (by rw [List.length_cons, List.length_cons, ha, hb])
              (by rw [List.length_cons, ha]; omega)]
      | inside i hi =>
          rw [writesBeforeClose_of_not_bracket hi, Bool.or_eq_false_iff] at unseen
          obtain ⟨silent, unseen⟩ := unseen
          -- it writes nothing, and what it makes of the current frame is not seen either
          have silent : i.output? = none := by simpa using silent
          rw [journal_of_not_bracket hi, journal_of_not_bracket hi]
          have both := Instruction.effect?_isSome s a b i
          cases he : i.effect? s a with
          | none =>
              rw [he] at both
              have none : i.effect? s b = none := by simpa using both.symm
              rw [none]
              rfl
          | some p =>
              obtain ⟨frame, written⟩ := p
              rw [he] at both
              obtain ⟨⟨frame', written'⟩, he'⟩ := Option.isSome_iff_exists.1 both.symm
              have rest := ih (frame :: as) (frame' :: bs) unseen
                (by simp only [List.length_cons, ha]) (by simp only [List.length_cons, hb])
              rw [he', Instruction.written_eq_nil he silent,
                Instruction.written_eq_nil he' silent]
              simp only [List.cons_append] at rest
              simp only [Option.bind_some, rest]

theorem isBracket_of_isTransform {i : Instruction} (h : i.isTransform = true) :
    i.isBracket = false := by
  cases i with
  | push | pop => cases h
  | _ => rfl

theorem output?_of_isTransform {i : Instruction} (h : i.isTransform = true) :
    i.output? = none := by
  cases i with
  | write | writeStatic | writeParameter => cases h
  | _ => rfl

/-- **Eliminating dead transforms keeps the journal.** -/
theorem keeps_eliminateDead (is : List Instruction) : Keeps s is (eliminateDead is) := by
  induction is with
  | nil => exact .refl []
  | cons i rest ih =>
      simp only [eliminateDead]
      split
      · rename_i dead
        simp only [Bool.and_eq_true, Bool.not_eq_true'] at dead
        obtain ⟨transform, unseen⟩ := dead
        intro frames ws bound run
        obtain ⟨top, below, rfl⟩ := ne_nil_of_journal run
        obtain ⟨frame, written, later, he, hj, rfl⟩ :=
          (journal_other_eq_some_iff (isBracket_of_isTransform transform)).1 run
        have same : journal s (top :: below) rest = journal s (frame :: below) rest :=
          journal_eq_of_unseen [top] [frame] below unseen rfl rfl
        rw [Instruction.written_eq_nil he (output?_of_isTransform transform)]
        exact ih bound (same.trans hj)
      · exact ih.cons i

/-- Eliminating dead transforms only removes instructions. -/
theorem eliminateDead_sublist (is : List Instruction) : (eliminateDead is).Sublist is := by
  induction is with
  | nil => exact .slnil
  | cons i rest ih =>
      simp only [eliminateDead]
      split
      · exact ih.cons i
      · exact ih.cons_cons i

end Armature
