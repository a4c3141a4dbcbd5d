/-
**What holds for every hook.**

Whatever a hook answers, and whatever becomes of it, the optimizer reworks transforms, pushes and
pops and nothing else, and it fails only at a slot that would be folded into twice.  A table is a
hook whose answers never change: optimizing for this hook is optimizing for the table.

Main definitions:

* `Reworked` — a result that is still observed as the list was, or the rejection of a fold;
* `Attempt.hooked` — what was reached with a table, as reached with a hook.

Main results:

* `Hook.observed_absorb` — a move does not show, whoever is asked;
* `Hook.reworked_mergeTransforms`, `Hook.reworked_optimizeInstructions` — **a merging pass and an
  optimization rework the list or reject a fold**;
* `Hook.optimize_spec` — for a stream that is decoded the result is one that is decoded;
* `FoldTable.optimize_hook` — **optimizing for the table as a hook is optimizing for the table**.
-/

import Armature.Optimize.Hook
import Armature.Proofs.Codec.Bijection
import Armature.Proofs.Optimize.Rounds

set_option autoImplicit false

namespace Armature

/-- The list was reworked so that it is observed as before, or a slot would have been folded into
twice. -/
def Reworked (is : List Instruction) : Except OptimizeFault (List Instruction) → Prop
  | .ok js => observed js = observed is
  | .error fault => ∃ slot, fault = .duplicateFold slot

theorem Reworked.trans {is js : List Instruction} {result : Except OptimizeFault (List Instruction)}
    (first : Reworked is (.ok js)) (second : Reworked js result) : Reworked is result := by
  cases result with
  | ok ks => exact Eq.trans second first
  | error fault => exact second

/-- What stays in front of a list stays in front of the reworked list. -/
theorem Reworked.cons {is : List Instruction} {result : Except OptimizeFault (List Instruction)}
    (i : Instruction) (rest : Reworked is result) : Reworked (i :: is) (result.map (i :: ·)) := by
  cases result with
  | ok js =>
      show observed ([i] ++ js) = observed ([i] ++ is)
      rw [observed_append, observed_append, show observed js = observed is from rest]
  | error fault => exact rest

namespace Hook

variable {σ : Type} {hook : Hook σ} {config : OptimizerConfig}

/-! ### Any hook -/

/-- **A move does not show**, whoever is asked. -/
theorem observed_absorb (s : Transform) (state : σ) (r : Reach) (is : List Instruction) :
    observed (hook.absorb s state r is).list = observed is :=
  read_absorb observed_append fun _ _ => Observed.view.seen_moveTo fun _ _ _ => Observed.blind

variable (hook)

theorem reworked_mergeFrom (state : σ) (taken : List UInt32) (is : List Instruction) :
    Reworked is (hook.mergeFrom state taken is).2 := by
  fun_induction mergeFrom hook state taken is with
  | case1 => exact rfl
  | case2 state taken s rest users none ih => exact ih
  | case3 => exact ⟨_, rfl⟩
  | case4 state taken s rest users some moves fresh _ moved ih =>
      exact Reworked.trans (observed_absorb s state .start rest) ih
  | case5 state taken s rest users some stays state' result run ih =>
      rw [run] at ih
      exact ih.cons _
  | case6 state taken i rest other state' result run ih =>
      rw [run] at ih
      exact ih.cons _

/-- **A merging pass reworks the list or rejects a fold.** -/
theorem reworked_mergeTransforms (state : σ) (is : List Instruction) :
    Reworked is (hook.mergeTransforms state is).2 := reworked_mergeFrom hook state [] is

variable (config)

/-- A pass reworks the list or rejects a fold. -/
theorem reworked_runPass (state : σ) (is : List Instruction) (pass : Pass) :
    Reworked is (hook.runPass config state is pass).2 := by
  have others : ∀ result, (pass.run config .none is).2 = result → Reworked is result := by
    intro result run
    cases result with
    | ok js => exact observed_pass (Prod.ext rfl run)
    | error fault =>
        obtain ⟨slot, same, _⟩ := Pass.exists_slot_of_fault run
        exact ⟨slot, same⟩
  cases pass with
  | merge => exact reworked_mergeTransforms hook state is
  | dead | push | simplify | fuse => exact others _ rfl

theorem reworked_runPasses (state : σ) (is : List Instruction) (passes : List Pass) :
    Reworked is (hook.runPasses config state is passes).result := by
  induction passes generalizing state is with
  | nil => exact rfl
  | cons pass passes ih =>
      have first := reworked_runPass hook config state is pass
      rw [runPasses]
      rcases run : hook.runPass config state is pass with ⟨after, fault | next⟩
      · rw [run] at first
        exact first
      · rw [run] at first
        exact first.trans (ih after next)

theorem reworked_runRounds (fuel number : Nat) (state : σ) (is : List Instruction) :
    Reworked is (hook.runRounds config fuel number state is).result := by
  induction fuel generalizing number state is with
  | zero => exact rfl
  | succ fuel ih =>
      have first := reworked_runPasses hook config state is Pass.round
      rw [runRounds]
      cases round : (hook.runPasses config state is Pass.round).result with
      | error fault =>
          rw [round] at first
          exact first
      | ok next =>
          rw [round] at first
          by_cases settled : Instruction.eqvAll next is = true
          · simp only [if_pos settled]
            exact first
          · simp only [if_neg settled]
            exact first.trans (ih (number + 1) _ next)

/-- **An optimization reworks the list or rejects a fold.** -/
theorem reworked_optimizeInstructions (state : σ) (is : List Instruction) :
    Reworked is (hook.optimizeInstructions config state is).result :=
  reworked_runRounds hook config maxRounds 0 state is

theorem optimize_result {words : List UInt32} {is : List Instruction}
    (decoded : Instruction.decodeAll words = .ok is) (state : σ) :
    (hook.optimize config state words).result =
      (hook.optimizeInstructions config state is).result.map fun js =>
        (Instruction.encodeAll js, ⟨is.length, js.length, words.length,
          (Instruction.encodeAll js).length⟩) := by
  simp only [optimize, decoded]
  cases (hook.optimizeInstructions config state is).result <;> rfl

/-- **For a stream that is decoded the result is one that is decoded and observed as before**, or
else a fold is rejected. -/
theorem optimize_spec {words : List UInt32} {is : List Instruction}
    (decoded : Instruction.decodeAll words = .ok is) (state : σ) :
    match (hook.optimize config state words).result with
    | .ok built => ∃ js, Instruction.decodeAll built.1 = .ok js ∧ observed js = observed is
    | .error fault => ∃ slot, fault = .duplicateFold slot := by
  obtain ⟨_, stored⟩ := Instruction.decodeAll_eq_ok_iff.1 decoded
  have reworked := reworked_optimizeInstructions hook config state is
  rw [optimize_result hook config decoded]
  cases run : (hook.optimizeInstructions config state is).result with
  | error fault =>
      rw [run] at reworked
      exact reworked
  | ok js =>
      rw [run] at reworked
      exact ⟨js, Instruction.decodeAll_encodeAll (storable_of_observed_eq reworked stored),
        reworked⟩

end Hook

/-! ### Tables -/

/-- What was reached with a table, as reached with a hook. -/
def Attempt.hooked {α : Type} (a : Attempt α) : Hook.Attempt FoldTable α :=
  ⟨a.table, a.events, a.result⟩

namespace FoldTable

variable {config : OptimizerConfig}

/-- The answers of a table do not change on the way. -/
theorem absorb_hook (s : Transform) (t : FoldTable) (r : Reach) (is : List Instruction) :
    hook.absorb s t r is =
      ⟨hook.foldAll s t (foldSlots t.foldable (r.influenced is)),
        foldSlots t.foldable (r.influenced is), absorb s t.foldable r is⟩ := by
  have fixed : ∀ (t : FoldTable) slots, (hook.foldAll s t slots).foldable = t.foldable := by
    intro t slots
    induction slots generalizing t with
    | nil => rfl
    | cons slot slots ih => exact (ih (t.fold slot s.toMatrix)).trans (foldable_fold ..)
  induction is generalizing t r with
  | nil => rfl
  | cons i rest ih =>
      rw [absorb, Reach.influenced]
      by_cases marked : r.marks i = true
      · have split : foldSlots t.foldable (i :: (r.step i).influenced rest) =
            foldSlots t.foldable [i] ++ foldSlots t.foldable ((r.step i).influenced rest) := by
          rw [← List.singleton_append]
          exact List.filterMap_append
        rw [Hook.absorb_cons_of_marks marked, ih, fixed, if_pos marked, if_pos marked, split,
          Hook.foldAll, Hook.foldAll, ← List.foldl_append]
        rfl
      · rw [Hook.absorb_cons_of_not_marks marked, ih, if_neg marked, if_neg marked]
        rfl

theorem mergeFrom_hook (t : FoldTable) (taken : List UInt32) (is : List Instruction) :
    hook.mergeFrom t taken is = mergeFrom t taken is := by
  fun_induction mergeFrom t taken is with
  | case1 => rw [Hook.mergeFrom]
  | case2 t taken s rest users none ih => rw [Hook.mergeFrom, if_pos none, ih]
  | case3 t taken s rest users some moves _ slots slot again =>
      have moves : shouldMove (hook.foldable t) s rest = true := moves
      have again : firstRepeat? taken (foldSlots (hook.foldable t) (Reach.start.influenced rest)) =
          .some slot := again
      exact Hook.mergeFrom_rejected some moves again
  | case4 t taken s rest users some moves _ slots fresh ih =>
      have moves : shouldMove (hook.foldable t) s rest = true := moves
      have fresh : firstRepeat? taken (foldSlots (hook.foldable t) (Reach.start.influenced rest)) =
          .none := fresh
      rw [Hook.mergeFrom_moved some moves fresh, absorb_hook]
      exact ih
  | case5 t taken s rest users some stays t' result run ih =>
      rw [Hook.mergeFrom, if_neg some, dif_neg (show ¬ shouldMove (hook.foldable t) s rest from stays),
        ih, run]
  | case6 t taken i rest other t' result run ih =>
      cases i with
      | static s => exact (other s rfl).elim
      | _ => rw [Hook.mergeFrom, ih, run]; exact other

theorem runPass_hook (t : FoldTable) (is : List Instruction) (pass : Pass) :
    hook.runPass config t is pass = pass.run config t is := by
  cases pass with
  | merge => exact mergeFrom_hook t [] is
  | dead | push | simplify | fuse => rfl

theorem runPasses_hook (t : FoldTable) (is : List Instruction) (passes : List Pass) :
    hook.runPasses config t is passes = (runPasses config t is passes).hooked := by
  induction passes generalizing t is with
  | nil => rfl
  | cons pass passes ih =>
      rw [Hook.runPasses, runPasses, runPass_hook]
      rcases pass.run config t is with ⟨t', fault | next⟩
      · rfl
      · simp only [ih]
        rfl

theorem runRounds_hook (fuel number : Nat) (t : FoldTable) (is : List Instruction) :
    hook.runRounds config fuel number t is = (runRounds config fuel number t is).hooked := by
  induction fuel generalizing number t is with
  | zero => rfl
  | succ fuel ih =>
      rw [Hook.runRounds, runRounds, runRound, runPasses_hook]
      simp only [Attempt.hooked]
      cases (runPasses config t is Pass.round).result with
      | error fault => rfl
      | ok next =>
          simp only [ih]
          split <;> rfl

/-- **Optimizing for the table as a hook is optimizing for the table.** -/
theorem optimize_hook (config : OptimizerConfig) (t : FoldTable) (words : List UInt32) :
    hook.optimize config t words = (optimize config t words).hooked := by
  rw [Hook.optimize, optimize]
  cases Instruction.decodeAll words with
  | error fault => rfl
  | ok is =>
      simp only [Hook.optimizeInstructions, optimizeInstructions, runRounds_hook, Attempt.hooked]
      cases (runRounds config maxRounds 0 t is).result <;> rfl

end FoldTable

end Armature
