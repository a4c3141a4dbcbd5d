/-
**The optimizer loses, duplicates and reorders nothing.**

What a list writes and names, and its comments, are the same before and after an optimization, in
the same order.  So are the parameters that are read, except for those of transforms that no write
sees: these are dropped, and no parameter is ever read that was not, nor twice, nor in another order.

Main definitions:

* `readView` — the view of the parameter block.

Main results:

* `reads_optimizeInstructions` — an optimization drops reads and changes nothing else about them;
* `optimize_keeps_order` — **the optimized stream is observed as the stream is, and reads a part of
  its parameters, both in their order**.
-/

import Armature.Proofs.Evaluate.Depth
import Armature.Proofs.Optimize.Equivalence

set_option autoImplicit false

namespace Armature

variable {config : OptimizerConfig}

/-! ### Reads -/

/-- The view of the parameter block, to which a joined write is still a read. -/
def readView : View (Shape × UInt32) where
  see := Instruction.read?
  see_static _ := rfl
  see_writeStatic _ _ := rfl
  see_writeParameter _ _ := rfl

theorem readView_blind : readView.Blind := ⟨rfl, fun _ => rfl⟩

/-- A pass drops reads and changes nothing else about them. -/
theorem reads_pass {pass : Pass} {table table' : FoldTable} {is js : List Instruction}
    (run : pass.run config table is = (table', .ok js)) : (reads js).Sublist (reads is) := by
  by_cases dead : pass = .dead
  · subst dead
    cases run
    exact readView.seen_eliminateDead_sublist is
  · have same : reads js = reads is := readView.seen_pass dead (fun _ => readView_blind) run
    rw [same]

/-- **An optimization drops reads and changes nothing else about them.** -/
theorem reads_optimizeInstructions {table : FoldTable} {is js : List Instruction}
    (ok : (optimizeInstructions config table is).result = .ok js) :
    (reads js).Sublist (reads is) :=
  optimizeInstructions_induction (fun is _ js => (reads js).Sublist (reads is))
    (fun is => List.Sublist.refl (reads is))
    (fun _ _ _ _ _ first second => second.trans first)
    (fun _ _ _ _ _ _ run => reads_pass run) rfl ok

/-! ### Streams -/

/-- **The optimized stream is observed as the stream is, and reads a part of its parameters, both in
their order.** -/
theorem optimize_keeps_order {table : FoldTable} {words next : List UInt32}
    {stats : OptimizationStats} {is : List Instruction}
    (decoded : Instruction.decodeAll words = .ok is)
    (ok : (optimize config table words).result = .ok (next, stats)) :
    ∃ js, Instruction.decodeAll next = .ok js ∧ observed js = observed is ∧
      (reads js).Sublist (reads is) := by
  obtain ⟨js, ok, _, decoded'⟩ := exists_list_of_optimize decoded ok
  exact ⟨js, decoded', observed_optimizeInstructions ok, reads_optimizeInstructions ok⟩

/-- A matrix of the block is read for a write, a turn for another, and a shift for nothing. -/
def readingList : List Instruction :=
  [.push, .parameter .float4x4 16, .write 2, .pop 1, .binding 7 [.translate .zero],
    .push, .parameter .rotateX 0, .static (.uniformScale .one), .write 0, .pop 1,
    .comment (.ofText "unused"), .parameter .translate 4]

/-- Its optimization, where the first slot takes transforms. -/
def readingListOptimized : List Instruction :=
  [.writeParameter 2 16, .binding 7 [.translate .zero], .push, .parameter .rotateX 0, .write 0,
    .pop 1, .comment (.ofText "unused")]

/-- Both write, name and say the same, and the shift is no longer read. -/
theorem optimize_keeps_order_reading :
    ∃ stats, (optimize .standard (.uniform 1 true) (Instruction.encodeAll readingList)).result =
        .ok (Instruction.encodeAll readingListOptimized, stats) ∧
      ∃ js, Instruction.decodeAll (Instruction.encodeAll readingListOptimized) = .ok js ∧
        observed js = observed readingList ∧ (reads js).Sublist (reads readingList) := by
  have decoded : Instruction.decodeAll (Instruction.encodeAll readingList) = .ok readingList :=
    Instruction.decodeAll_encodeAll (by decide)
  have optimized : (optimizeInstructions .standard (.uniform 1 true) readingList).result =
      .ok readingListOptimized := by decide +kernel
  obtain ⟨stats, ok, _⟩ := optimize_eq_ok decoded optimized
  exact ⟨stats, ok, optimize_keeps_order decoded ok⟩

end Armature
