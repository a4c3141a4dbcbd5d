/-
**From passes to rounds.**

What every pass does to a list, a whole optimization does, if doing it twice in a row is doing it
once: the rounds stop early or late, but they only ever run passes.  The folds of all passes are put
together in their order, and the table is what it was with these folds taken.

Main definitions:

* `Pass.folds`, `passesFolds`, `roundsFolds`, `optimizeFolds`, `streamFolds` — the folds up to the
  end of a pass, of several passes, of several rounds, of an optimization, and of that of a stream.

Main results:

* `optimizeInstructions_table`, `optimize_table` — **the table has taken exactly the folds, whether
  or not the optimization fails**;
* `optimizeInstructions_induction` — what all passes do, an optimization does;
* `observed_optimizeInstructions` — it loses, adds and reorders nothing but transforms, pushes and
  pops;
* `place_of_mem_optimizeFolds` — each fold stands at a write of its slot;
* `exists_pass_of_runRounds`, `exists_pass_of_runRounds_of_kept` — an optimization fails only where
  a pass does, on a list with all that passes keep.
-/

import Armature.Optimize.Pipeline
import Armature.Proofs.Optimize.Folds

set_option autoImplicit false

namespace Armature

/-! ### Folds -/

/-- The folds of one pass. -/
def Pass.folds (table : FoldTable) (is : List Instruction) : Pass → List Fold
  | merge => mergeFolds table.foldable [] is
  | dead | push | simplify | fuse => []

/-- The folds of passes up to the first that fails. -/
def passesFolds (config : OptimizerConfig) (table : FoldTable) (is : List Instruction) :
    List Pass → List Fold
  | [] => []
  | pass :: passes =>
    pass.folds table is ++
      match pass.run config table is with
      | (_, .error _) => []
      | (table, .ok next) => passesFolds config table next passes

/-- The folds of at most `fuel` rounds. -/
def roundsFolds (config : OptimizerConfig) (fuel : Nat) (table : FoldTable)
    (is : List Instruction) : List Fold :=
  match fuel with
  | 0 => []
  | fuel + 1 =>
    let round := runRound config table is
    passesFolds config table is Pass.round ++
      match round.result with
      | .error _ => []
      | .ok next =>
        if Instruction.eqvAll next is then [] else roundsFolds config fuel round.table next

/-- The folds of an optimization. -/
def optimizeFolds (config : OptimizerConfig) (table : FoldTable) (is : List Instruction) :
    List Fold := roundsFolds config maxRounds table is

/-- The folds of the optimization of a stream; none if it cannot be read. -/
def streamFolds (config : OptimizerConfig) (table : FoldTable) (words : List UInt32) : List Fold :=
  match Instruction.decodeAll words with
  | .error _ => []
  | .ok is => optimizeFolds config table is

variable {config : OptimizerConfig}

theorem Pass.run_fst (config : OptimizerConfig) (table : FoldTable) (is : List Instruction)
    (pass : Pass) :
    (pass.run config table is).1 = table.takeAll (pass.folds table is) := by
  cases pass with
  | merge => exact mergeTransforms_fst table is
  | dead | push | simplify | fuse => rfl

theorem runPasses_table (table : FoldTable) (is : List Instruction) (passes : List Pass) :
    (runPasses config table is passes).table =
      table.takeAll (passesFolds config table is passes) := by
  induction passes generalizing table is with
  | nil => rfl
  | cons pass passes ih =>
      have first := Pass.run_fst config table is pass
      rw [runPasses, passesFolds, FoldTable.takeAll_append, ← first]
      split
      · rename_i run
        rw [run]
        rfl
      · rename_i run
        rw [run]
        exact ih ..

theorem runRounds_table (fuel number : Nat) (table : FoldTable) (is : List Instruction) :
    (runRounds config fuel number table is).table =
      table.takeAll (roundsFolds config fuel table is) := by
  induction fuel generalizing number table is with
  | zero => rfl
  | succ fuel ih =>
      have first : (runRound config table is).table =
          table.takeAll (passesFolds config table is Pass.round) := runPasses_table ..
      rw [runRounds, roundsFolds, FoldTable.takeAll_append, ← first]
      cases round : (runRound config table is).result with
      | error fault => rfl
      | ok next =>
          simp only
          split
          · rfl
          · exact ih ..

/-- **The table has taken exactly the folds, whether or not the optimization fails.** -/
theorem optimizeInstructions_table (config : OptimizerConfig) (table : FoldTable)
    (is : List Instruction) :
    (optimizeInstructions config table is).table =
      table.takeAll (optimizeFolds config table is) := runRounds_table ..

/-- **The same for a stream.** -/
theorem optimize_table (config : OptimizerConfig) (table : FoldTable) (words : List UInt32) :
    (optimize config table words).table = table.takeAll (streamFolds config table words) := by
  rw [optimize, streamFolds]
  cases Instruction.decodeAll words with
  | error fault => rfl
  | ok is =>
      rw [← optimizeInstructions_table]
      simp only
      split <;> rfl

/-! ### What passes do -/

section Induction

variable (does : List Instruction → List Fold → List Instruction → Prop) {foldable : UInt32 → Bool}

/-- What all passes do to lists, passes in a row do. -/
theorem runPasses_induction (refl : ∀ is, does is [] is)
    (trans : ∀ is fs js gs ks, does is fs js → does js gs ks → does is (fs ++ gs) ks)
    (step : ∀ pass table is table' next, table.foldable = foldable →
      Pass.run config table is pass = (table', .ok next) → does is (pass.folds table is) next)
    {passes : List Pass} {table : FoldTable} (ht : table.foldable = foldable)
    {is js : List Instruction} (ok : (runPasses config table is passes).result = .ok js) :
    does is (passesFolds config table is passes) js := by
  induction passes generalizing table is with
  | nil =>
      cases ok
      exact refl _
  | cons pass passes ih =>
      rw [runPasses] at ok
      rw [passesFolds]
      rcases run : Pass.run config table is pass with ⟨table', fault | next⟩
      · rw [run] at ok
        cases ok
      · rw [run] at ok
        have same : table'.foldable = foldable := by
          have first := Pass.run_fst config table is pass
          rw [run] at first
          rw [show table' = _ from first, FoldTable.foldable_takeAll, ht]
        exact trans _ _ _ _ _ (step pass table is table' next ht run) (ih same ok)

/-- What all passes do to lists, rounds do. -/
theorem runRounds_induction (refl : ∀ is, does is [] is)
    (trans : ∀ is fs js gs ks, does is fs js → does js gs ks → does is (fs ++ gs) ks)
    (step : ∀ pass table is table' next, table.foldable = foldable →
      Pass.run config table is pass = (table', .ok next) → does is (pass.folds table is) next)
    {fuel number : Nat} {table : FoldTable} (ht : table.foldable = foldable)
    {is js : List Instruction} (ok : (runRounds config fuel number table is).result = .ok js) :
    does is (roundsFolds config fuel table is) js := by
  induction fuel generalizing number table is with
  | zero =>
      cases ok
      exact refl _
  | succ fuel ih =>
      rw [runRounds] at ok
      rw [roundsFolds]
      cases round : (runRound config table is).result with
      | error fault =>
          rw [round] at ok
          cases ok
      | ok next =>
          have first := runPasses_induction does refl trans step ht round
          have same : (runRound config table is).table.foldable = foldable := by
            rw [runRound, runPasses_table, FoldTable.foldable_takeAll, ht]
          rw [round] at ok
          simp only at ok ⊢
          split at ok
          · rename_i settled
            cases ok
            rw [if_pos settled, List.append_nil]
            exact first
          · rename_i unsettled
            rw [if_neg unsettled]
            exact trans _ _ _ _ _ first (ih same ok)

/-- **What all passes do to lists, an optimization does.** -/
theorem optimizeInstructions_induction (refl : ∀ is, does is [] is)
    (trans : ∀ is fs js gs ks, does is fs js → does js gs ks → does is (fs ++ gs) ks)
    (step : ∀ pass table is table' next, table.foldable = foldable →
      Pass.run config table is pass = (table', .ok next) → does is (pass.folds table is) next)
    {table : FoldTable} (ht : table.foldable = foldable) {is js : List Instruction}
    (ok : (optimizeInstructions config table is).result = .ok js) :
    does is (optimizeFolds config table is) js := runRounds_induction does refl trans step ht ok

end Induction

/-! ### What is left alone -/

/-- **A pass shows in no view**, but for the removal of dead transforms, and that of pushes where
they are noticed. -/
theorem View.seen_pass {α : Type} (v : View α) {pass : Pass} (live : pass ≠ .dead)
    (blind : pass = .push → v.Blind) {table table' : FoldTable} {is js : List Instruction}
    (run : pass.run config table is = (table', .ok js)) : v.seen js = v.seen is := by
  cases pass with
  | dead => exact (live rfl).elim
  | push => cases run; exact (blind rfl).seen_removeRedundantPushes is
  | merge =>
      have spec := merges_mergeTransforms table is
      rw [show mergeTransforms table is = (table', .ok js) from run] at spec
      exact spec.seen_eq v rfl
  | simplify => cases run; exact v.seen_simplifyTransforms config is
  | fuse => cases run; exact v.seen_fuseWrites is

theorem observed_pass {pass : Pass} {table table' : FoldTable} {is js : List Instruction}
    (run : pass.run config table is = (table', .ok js)) : observed js = observed is := by
  by_cases dead : pass = .dead
  · subst dead
    cases run
    exact observed_eliminateDead is
  · exact Observed.view.seen_pass dead (fun _ => Observed.blind) run

theorem observed_runPasses {passes : List Pass} {table : FoldTable} {is js : List Instruction}
    (ok : (runPasses config table is passes).result = .ok js) : observed js = observed is :=
  runPasses_induction (fun is _ js => observed js = observed is) (fun _ => rfl)
    (fun _ _ _ _ _ first second => second.trans first)
    (fun _ _ _ _ _ _ run => observed_pass run) rfl ok

/-- **An optimization loses, adds and reorders nothing but transforms, pushes and pops.** -/
theorem observed_optimizeInstructions {table : FoldTable} {is js : List Instruction}
    (ok : (optimizeInstructions config table is).result = .ok js) : observed js = observed is :=
  optimizeInstructions_induction (fun is _ js => observed js = observed is) (fun _ => rfl)
    (fun _ _ _ _ _ first second => second.trans first)
    (fun _ _ _ _ _ _ run => observed_pass run) rfl ok

/-! ### Places of folds -/

theorem place_of_mem_folds {table : FoldTable} {is : List Instruction} {pass : Pass} {f : Fold}
    (hf : f ∈ pass.folds table is) :
    (f.slot :: f.following) <:+ writtenSlots is ∧ table.foldable f.slot = true := by
  cases pass with
  | merge =>
      have spec := merges_mergeTransforms table is
      exact ⟨spec.fold_place hf, spec.foldable_of_mem hf⟩
  | dead | push | simplify | fuse => cases hf

theorem place_of_mem_passesFolds {passes : List Pass} {table : FoldTable} {is : List Instruction}
    {f : Fold} (hf : f ∈ passesFolds config table is passes) :
    (f.slot :: f.following) <:+ writtenSlots is ∧ table.foldable f.slot = true := by
  induction passes generalizing table is with
  | nil => cases hf
  | cons pass passes ih =>
      rw [passesFolds, List.mem_append] at hf
      rcases hf with hf | hf
      · exact place_of_mem_folds hf
      · have first := Pass.run_fst config table is pass
        split at hf
        · cases hf
        · rename_i table' next run
          rw [run] at first
          have later := ih hf
          rw [writtenSlots_of_observed_eq (observed_pass run), show table' = _ from first,
            FoldTable.foldable_takeAll] at later
          exact later

theorem place_of_mem_roundsFolds {fuel : Nat} {table : FoldTable} {is : List Instruction}
    {f : Fold} (hf : f ∈ roundsFolds config fuel table is) :
    (f.slot :: f.following) <:+ writtenSlots is ∧ table.foldable f.slot = true := by
  induction fuel generalizing table is with
  | zero => cases hf
  | succ fuel ih =>
      rw [roundsFolds, List.mem_append] at hf
      rcases hf with hf | hf
      · exact place_of_mem_passesFolds hf
      · cases round : (runRound config table is).result with
        | error fault => rw [round] at hf; cases hf
        | ok next =>
            rw [round] at hf
            simp only at hf
            split at hf
            · cases hf
            · have later := ih hf
              rw [writtenSlots_of_observed_eq (observed_runPasses round), runRound,
                runPasses_table, FoldTable.foldable_takeAll] at later
              exact later

/-- **Each fold stands at a write of a slot that takes transforms.** -/
theorem place_of_mem_optimizeFolds (config : OptimizerConfig) (table : FoldTable)
    (is : List Instruction) :
    ∀ f ∈ optimizeFolds config table is,
      (f.slot :: f.following) <:+ writtenSlots is ∧ table.foldable f.slot = true :=
  fun _ hf => place_of_mem_roundsFolds hf

/-! ### Failure -/

/-- A pass fails only because a slot that takes transforms would take two. -/
theorem Pass.exists_slot_of_fault {pass : Pass} {table : FoldTable} {is : List Instruction}
    {fault : OptimizeFault} (failed : (pass.run config table is).2 = .error fault) :
    ∃ slot, fault = .duplicateFold slot ∧ table.foldable slot = true := by
  cases pass with
  | merge => exact (merges_mergeTransforms table is).exists_slot_of_fault failed
  | dead | push | simplify | fuse => cases failed

section

variable (holds : List Instruction → Prop)
  (kept : ∀ pass table is table' next, Pass.run config table is pass = (table', .ok next) →
    holds is → holds next)

include kept

/-- Passes in a row fail only where one of them does, on a list with all that the passes keep. -/
theorem exists_pass_of_runPasses_of_kept {passes : List Pass} {table : FoldTable}
    {is : List Instruction} {fault : OptimizeFault} (first : holds is)
    (failed : (runPasses config table is passes).result = .error fault) :
    ∃ pass table' is', table'.foldable = table.foldable ∧ holds is' ∧
      (Pass.run config table' is' pass).2 = .error fault := by
  induction passes generalizing table is with
  | nil => cases failed
  | cons pass passes ih =>
      rw [runPasses] at failed
      split at failed
      · rename_i table' fault' run
        cases failed
        exact ⟨pass, table, is, rfl, first, by rw [run]⟩
      · rename_i table' next run
        obtain ⟨pass', table'', is', same, there, found⟩ := ih (kept _ _ _ _ _ run first) failed
        have taken := Pass.run_fst config table is pass
        rw [run] at taken
        rw [show table' = _ from taken, FoldTable.foldable_takeAll] at same
        exact ⟨pass', table'', is', same, there, found⟩

/-- An optimization fails only where a pass does, on a list with all that the passes keep. -/
theorem exists_pass_of_runRounds_of_kept {fuel number : Nat} {table : FoldTable}
    {is : List Instruction} {fault : OptimizeFault} (first : holds is)
    (failed : (runRounds config fuel number table is).result = .error fault) :
    ∃ pass table' is', table'.foldable = table.foldable ∧ holds is' ∧
      (Pass.run config table' is' pass).2 = .error fault := by
  induction fuel generalizing number table is with
  | zero => cases failed
  | succ fuel ih =>
      rw [runRounds] at failed
      cases round : (runRound config table is).result with
      | error fault' =>
          rw [round] at failed
          cases failed
          exact exists_pass_of_runPasses_of_kept holds kept first round
      | ok next =>
          have second : holds next :=
            runPasses_induction (fun is _ js => holds is → holds js) (fun _ => id)
              (fun _ _ _ _ _ before after => after ∘ before)
              (fun pass table is table' next _ run => kept pass table is table' next run) rfl round
              first
          rw [round] at failed
          simp only at failed
          split at failed
          · cases failed
          · obtain ⟨pass, table', is', same, there, found⟩ := ih second failed
            rw [runRound, runPasses_table, FoldTable.foldable_takeAll] at same
            exact ⟨pass, table', is', same, there, found⟩

end

theorem exists_pass_of_runPasses {passes : List Pass} {table : FoldTable}
    {is : List Instruction} {fault : OptimizeFault}
    (failed : (runPasses config table is passes).result = .error fault) :
    ∃ pass table' is', table'.foldable = table.foldable ∧
      (Pass.run config table' is' pass).2 = .error fault := by
  obtain ⟨pass, table', is', same, -, found⟩ :=
    exists_pass_of_runPasses_of_kept (fun _ => True) (fun _ _ _ _ _ _ => id) trivial failed
  exact ⟨pass, table', is', same, found⟩

/-- **An optimization fails only where a pass does.** -/
theorem exists_pass_of_runRounds {fuel number : Nat} {table : FoldTable} {is : List Instruction}
    {fault : OptimizeFault}
    (failed : (runRounds config fuel number table is).result = .error fault) :
    ∃ pass table' is', table'.foldable = table.foldable ∧
      (Pass.run config table' is' pass).2 = .error fault := by
  obtain ⟨pass, table', is', same, -, found⟩ :=
    exists_pass_of_runRounds_of_kept (fun _ => True) (fun _ _ _ _ _ _ => id) trivial failed
  exact ⟨pass, table', is', same, found⟩

end Armature
