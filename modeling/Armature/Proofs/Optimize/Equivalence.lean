/-
**The optimizer keeps the value of every slot.**

Each pass keeps the journal of a list, or keeps it up to its folds.  So does the whole optimization,
and where nothing can be folded the slots of the result are those of the stream.

Main results:

* `recovers_optimizeInstructions` — it keeps every write up to its folds;
* `optimize_keeps_outputs` — **without folding the optimized stream gives the same slots**.
-/

import Armature.Proofs.Evaluate.Reference
import Armature.Proofs.Optimize.Fuse
import Armature.Proofs.Optimize.Merge
import Armature.Proofs.Optimize.Pushes
import Armature.Proofs.Optimize.Rounds
import Armature.Proofs.Optimize.Simplify

set_option autoImplicit false

namespace Armature

/-! ### Lists -/

section Values

variable {M : Type} [Monoid M] {config : OptimizerConfig} {domain : Transform → Prop}
  {value : Mat4 → M} {block : ParameterBlock} {limit : Nat} {table table' : FoldTable}
  {is js : List Instruction}

/-- A pass stays in the class of transforms. -/
theorem statics_pass (laws : Lawful config domain value) {pass : Pass}
    (run : pass.run config table is = (table', .ok js))
    (statics : ∀ t, .static t ∈ is → domain t) : ∀ t, .static t ∈ js → domain t := by
  cases pass with
  | dead =>
      cases run
      exact fun t ht => statics t ((eliminateDead_sublist is).mem ht)
  | push =>
      cases run
      exact fun t ht => statics t (mem_of_mem_removeRedundantPushes ht fun _ e => by cases e)
  | merge =>
      have spec := merges_mergeTransforms table is
      rw [show mergeTransforms table is = (table', .ok js) from run] at spec
      exact spec.statics laws.merging rfl statics
  | simplify =>
      cases run
      exact statics_simplifyTransforms laws statics
  | fuse =>
      cases run
      exact fun t ht => statics t (static_mem_of_mem_fuseWrites ht)

/-- **A pass keeps every write up to its folds.** -/
theorem recovers_pass (laws : Lawful config domain value) (capacity : limit ≤ UInt32.size)
    {pass : Pass} (run : pass.run config table is = (table', .ok js))
    (statics : ∀ t, .static t ∈ is → domain t) :
    Recovers (.ofMonoid value block limit) (pass.folds table is) is js := by
  cases pass with
  | dead =>
      cases run
      exact recovers_nil_iff.2 (keeps_eliminateDead is)
  | push =>
      cases run
      exact recovers_nil_iff.2 (keeps_removeRedundantPushes capacity is)
  | merge =>
      have spec := merges_mergeTransforms table is
      rw [show mergeTransforms table is = (table', .ok js) from run] at spec
      exact spec.recovers laws.merging rfl statics
  | simplify =>
      cases run
      exact recovers_nil_iff.2 (keeps_simplifyTransforms laws statics)
  | fuse =>
      cases run
      exact recovers_nil_iff.2 (keeps_fuseWrites is)

/-- **An optimization keeps every write up to its folds.** -/
theorem recovers_optimizeInstructions (laws : Lawful config domain value)
    (capacity : limit ≤ UInt32.size) (statics : ∀ t, .static t ∈ is → domain t)
    (ok : (optimizeInstructions config table is).result = .ok js) :
    Recovers (.ofMonoid value block limit) (optimizeFolds config table is) is js := by
  have both := optimizeInstructions_induction
    (fun is fs js => (∀ t, .static t ∈ is → domain t) →
      (∀ t, .static t ∈ js → domain t) ∧ Recovers (.ofMonoid value block limit) fs is js)
    (fun is old => ⟨old, recovers_nil_iff.2 (.refl is)⟩)
    (fun is fs js gs ks first second old =>
      have mid := first old
      have last := second mid.1
      ⟨last.1, mid.2.trans last.2⟩)
    (fun pass t is t' next _ run old =>
      ⟨statics_pass laws run old, recovers_pass laws capacity run old⟩)
    rfl ok
  exact (both statics).2

/-- The journal of the result, under any limit that a word counts or that the list cannot reach. -/
theorem exists_journal_optimizeInstructions (laws : Lawful config domain value)
    (capacity : limit ≤ UInt32.size ∨ is.length < UInt32.size)
    (statics : ∀ t, .static t ∈ is → domain t)
    (ok : (optimizeInstructions config table is).result = .ok js) {ws : List (UInt32 × M)}
    (run : journal (.ofMonoid value block limit) [1] is = some ws) :
    ∃ ws', journal (.ofMonoid value block limit) [1] js = some ws' ∧
      ws = recoverAll (.ofMonoid value block limit) (optimizeFolds config table is) ws' := by
  -- the run does not notice if the limit is lowered, and then raised again
  have low := journal_lowered run (capacity.imp_right fun short => by
    rw [List.length_singleton]
    omega)
  obtain ⟨ws', run', hws⟩ := recovers_optimizeInstructions laws (Nat.min_le_right ..) statics ok
    (by rw [List.length_singleton]; omega) low
  exact ⟨ws', journal_withLimit run' (.inl (Nat.min_le_left ..)), hws⟩

end Values

/-! ### Streams -/

/-- Without folding there is nothing to reject. -/
theorem exists_optimizeInstructions (config : OptimizerConfig) {table : FoldTable}
    (fixed : ∀ slot, table.foldable slot = false) (is : List Instruction) :
    ∃ js, (optimizeInstructions config table is).result = .ok js := by
  cases result : (optimizeInstructions config table is).result with
  | ok js => exact ⟨js, rfl⟩
  | error fault =>
      obtain ⟨pass, table', is', same, failed⟩ := exists_pass_of_runRounds result
      obtain ⟨slot, _, takes⟩ := Pass.exists_slot_of_fault failed
      rw [same, fixed slot] at takes
      cases takes

/-- Without folding there are no folds. -/
theorem optimizeFolds_eq_nil (config : OptimizerConfig) {table : FoldTable}
    (fixed : ∀ slot, table.foldable slot = false) (is : List Instruction) :
    optimizeFolds config table is = [] := by
  refine List.eq_nil_iff_forall_not_mem.2 fun f hf => ?_
  have takes := (place_of_mem_optimizeFolds config table is f hf).2
  rw [fixed] at takes
  cases takes

/-- The optimized stream decodes to the optimized list. -/
theorem optimize_eq_ok {config : OptimizerConfig} {table : FoldTable} {words : List UInt32}
    {is js : List Instruction} (decoded : Instruction.decodeAll words = .ok is)
    (ok : (optimizeInstructions config table is).result = .ok js) :
    ∃ stats, (optimize config table words).result = .ok (Instruction.encodeAll js, stats) ∧
      Instruction.decodeAll (Instruction.encodeAll js) = .ok js := by
  have stored := storable_of_observed_eq (observed_optimizeInstructions ok)
    (Instruction.storable_of_decodeAll decoded)
  refine ⟨⟨is.length, js.length, words.length, (Instruction.encodeAll js).length⟩, ?_,
    Instruction.decodeAll_encodeAll stored⟩
  simp only [optimize, decoded, ok]

/-- The optimized stream is the optimized list, and so is the table. -/
theorem exists_list_of_optimize {config : OptimizerConfig} {table : FoldTable}
    {words next : List UInt32} {stats : OptimizationStats} {is : List Instruction}
    (decoded : Instruction.decodeAll words = .ok is)
    (ok : (optimize config table words).result = .ok (next, stats)) :
    ∃ js, (optimizeInstructions config table is).result = .ok js ∧
      next = Instruction.encodeAll js ∧ Instruction.decodeAll next = .ok js := by
  simp only [optimize, decoded] at ok
  cases result : (optimizeInstructions config table is).result with
  | error fault =>
      rw [result] at ok
      cases ok
  | ok js =>
      rw [result] at ok
      cases ok
      obtain ⟨_, _, decoded'⟩ := optimize_eq_ok decoded result
      exact ⟨js, rfl, rfl, decoded'⟩

/-- **Without folding the optimized stream gives the same slots**, in every monoid in which merged
and simplified transforms have the values they stand for.  The counts of pops are words, so that the
frames that can be open must be countable in a word, which a limit or the size of the stream
guarantees. -/
theorem optimize_keeps_outputs {M : Type} [Monoid M] {config : OptimizerConfig}
    {domain : Transform → Prop} {value : Mat4 → M} (laws : Lawful config domain value)
    {words : List UInt32} {is : List Instruction}
    (decoded : Instruction.decodeAll words = .ok is)
    (statics : ∀ t, .static t ∈ is → domain t) {block : ParameterBlock} {limit count : Nat}
    (capacity : limit ≤ UInt32.size ∨ words.length < UInt32.size) {outputs : Array M}
    (run : (Stream.run (.ofMonoid value block limit) count words).result = .ok outputs) :
    ∃ next stats, (optimize config .none words).result = .ok (next, stats) ∧
      (Stream.run (.ofMonoid value block limit) count next).result = .ok outputs := by
  have fixed : ∀ slot, FoldTable.none.foldable slot = false := fun _ => rfl
  obtain ⟨js, ok⟩ := exists_optimizeInstructions config fixed is
  obtain ⟨stats, result, decoded'⟩ := optimize_eq_ok decoded ok
  refine ⟨Instruction.encodeAll js, stats, result, ?_⟩
  rw [Stream.run_eq_exec _ _ decoded, Program.result_eq_ok_iff] at run
  rw [Stream.run_eq_exec _ _ decoded', Program.result_eq_ok_iff]
  obtain ⟨ws, hws, rfl⟩ := run
  have short : limit ≤ UInt32.size ∨ is.length < UInt32.size :=
    capacity.imp_right fun h => Nat.lt_of_le_of_lt (Instruction.length_le_of_decodeAll decoded) h
  obtain ⟨ws', hws', rfl⟩ := exists_journal_optimizeInstructions laws short statics ok hws
  rw [optimizeFolds_eq_nil config fixed is]
  exact ⟨ws', hws', rfl⟩

/-- A frame is reflected twice, closed, and reflected once. -/
def reflectingList : List Instruction :=
  [.push, .static (.uniformScale (-.one)), .comment (.ofText "twice"),
    .static (.uniformScale (-.one)), .write 0, .pop 1, .static (.uniformScale (-.one)), .write 1]

/-- The optimized stream reflects the second slot only. -/
theorem optimize_keeps_outputs_reflecting :
    ∃ next stats, (optimize .standard .none (Instruction.encodeAll reflectingList)).result =
        .ok (next, stats) ∧
      (Stream.run (.ofMonoid orientation .empty maxStackDepth) 2 next).result = .ok #[1, -1] := by
  have decoded : Instruction.decodeAll (Instruction.encodeAll reflectingList) =
      .ok reflectingList := Instruction.decodeAll_encodeAll (by decide)
  refine optimize_keeps_outputs lawful_reflections decoded ?_ (.inl (by decide)) ?_
  · intro t ht
    simp only [reflectingList, List.mem_cons, reduceCtorEq, Instruction.static.injEq, false_or,
      List.not_mem_nil, or_false, or_self] at ht
    rw [ht]
    decide
  · rw [Stream.run_eq_exec _ _ decoded]
    decide +kernel

end Armature
