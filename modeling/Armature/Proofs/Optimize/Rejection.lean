/-
**What a rejected optimization leaves in the table.**

A move that would fold two transforms into a slot is rejected as a whole, and with it the
optimization.  The moves before it are not taken back: the list they led to is lost, while the table
has taken their folds.

Main results:

* `stream_optimize_of_error` — a builder keeps its stream if the optimization fails;
* `folded_of_duplicateFold` — **after a rejection a slot has what the moves before it folded**, and
  nothing more.
-/

import Armature.Proofs.Interpretation
import Armature.Proofs.Optimize.Rounds
import Armature.Skeleton.Builder
import Mathlib.Data.List.Nodup

set_option autoImplicit false

namespace Armature

/-! ### Builders -/

namespace Builder

variable {config : OptimizerConfig} {table : FoldTable} {b : Builder}

theorem optimize_attempt (b : Builder) (config : OptimizerConfig) (table : FoldTable) :
    (b.optimize config table).2.table = (Armature.optimize config table b.stream).table ∧
      ∀ fault, (b.optimize config table).2.result = .error fault ↔
        (Armature.optimize config table b.stream).result = .error fault := by
  rw [optimize]
  cases result : (Armature.optimize config table b.stream).result with
  | ok built => simp
  | error fault => simp

/-- **A builder keeps its stream if the optimization fails.** -/
theorem stream_optimize_of_error {fault : OptimizeFault}
    (failed : (b.optimize config table).2.result = .error fault) :
    (b.optimize config table).1.stream = b.stream := by
  have failed' := ((b.optimize_attempt config table).2 fault).1 failed
  rw [optimize, failed']
  rfl

end Builder

/-! ### Tables -/

/-- A list has at most one element for each key if no key is repeated. -/
theorem length_slotFolds_le_one {folds : List Fold} (h : (folds.map Fold.slot).Nodup)
    (slot : UInt32) : (slotFolds slot folds).length ≤ 1 := by
  have count := List.nodup_iff_count_le_one.1 h slot
  rw [List.count_eq_countP, List.countP_map, List.countP_eq_length_filter] at count
  exact count

/-- **After a rejection a slot has what the moves before it folded**, and nothing more: after a
merging pass that is at most one matrix in front of the old one, after an optimization one for each
of its passes.  A builder keeps its stream all the same. -/
theorem folded_of_duplicateFold (config : OptimizerConfig) (table : FoldTable) (slot : UInt32) :
    (∀ is, (mergeTransforms table is).2 = .error (.duplicateFold slot) → ∀ other,
      (mergeTransforms table is).1.folded other =
          takeMatrices (slotFolds other (mergeFolds table.foldable [] is)) (table.folded other) ∧
        (slotFolds other (mergeFolds table.foldable [] is)).length ≤ 1) ∧
    (∀ words, (optimize config table words).result = .error (.duplicateFold slot) → ∀ other,
      (optimize config table words).table.folded other =
        takeMatrices (slotFolds other (streamFolds config table words)) (table.folded other)) ∧
    (∀ b : Builder, (b.optimize config table).2.result = .error (.duplicateFold slot) →
      (b.optimize config table).1.stream = b.stream ∧ ∀ other,
        (b.optimize config table).2.table.folded other =
          takeMatrices (slotFolds other (streamFolds config table b.stream))
            (table.folded other)) := by
  have streams : ∀ words other, (optimize config table words).table.folded other =
      takeMatrices (slotFolds other (streamFolds config table words)) (table.folded other) := by
    intro words other
    rw [optimize_table]
    refine FoldTable.folded_takeAll (fun f hf => ?_) other
    rw [streamFolds] at hf
    split at hf
    · cases hf
    · exact (place_of_mem_optimizeFolds _ _ _ f hf).2
  refine ⟨fun is _ other => ?_, fun words _ other => streams words other, fun b failed => ?_⟩
  · have spec := merges_mergeTransforms table is
    rw [mergeTransforms_fst]
    exact ⟨FoldTable.folded_takeAll (fun f hf => spec.foldable_of_mem hf) other,
      length_slotFolds_le_one spec.nodup_slots.1 other⟩
  · refine ⟨Builder.stream_optimize_of_error failed, fun other => ?_⟩
    rw [(b.optimize_attempt config table).1]
    exact streams b.stream other

/-! ### A move that is not taken back -/

/-- One frame is written once, and another one twice to the same slot. -/
def repeatedWrite : List Instruction :=
  [.push, .static (.uniformScale (-.one)), .write 1, .pop 1, .static (.uniformScale (-.one)),
    .write 0, .write 0]

/-- The second slot has what the first move folded. -/
theorem folded_of_duplicateFold_reflecting :
    ((mergeTransforms (.uniform 2 true) repeatedWrite).1.folded 1 =
        takeMatrices (slotFolds 1 (mergeFolds (FoldTable.uniform 2 true).foldable [] repeatedWrite))
          .identity ∧
      (slotFolds 1 (mergeFolds (FoldTable.uniform 2 true).foldable [] repeatedWrite)).length ≤ 1) ∧
    (optimize .standard (.uniform 2 true) (Instruction.encodeAll repeatedWrite)).table.folded 1 =
      takeMatrices (slotFolds 1 (streamFolds .standard (.uniform 2 true)
        (Instruction.encodeAll repeatedWrite))) .identity ∧
    (Builder.optimize ⟨Instruction.encodeAll repeatedWrite, 1, 2, []⟩ .standard
      (.uniform 2 true)).1.stream = Instruction.encodeAll (repeatedWrite ++ [.pop 1]) := by
  obtain ⟨lists, streams, builders⟩ := folded_of_duplicateFold .standard (.uniform 2 true) 0
  refine ⟨lists repeatedWrite (by decide +kernel) 1, streams _ (by decide +kernel) 1, ?_⟩
  exact (builders ⟨Instruction.encodeAll repeatedWrite, 1, 2, []⟩ (by decide +kernel)).1.trans
    (by decide +kernel)

/-- **A rejected call may have changed the table.** -/
theorem table_changed_before_duplicateFold :
    ((mergeTransforms (.uniform 2 true) repeatedWrite).2 = .error (.duplicateFold 0) ∧
      (mergeTransforms (.uniform 2 true) repeatedWrite).1.folded 1 ≠
        (FoldTable.uniform 2 true).folded 1) ∧
    (optimize .standard (.uniform 2 true) (Instruction.encodeAll repeatedWrite)).result =
        .error (.duplicateFold 0) ∧
      (optimize .standard (.uniform 2 true)
        (Instruction.encodeAll repeatedWrite)).table.folded 1 ≠
          (FoldTable.uniform 2 true).folded 1 := by
  decide +kernel

end Armature
