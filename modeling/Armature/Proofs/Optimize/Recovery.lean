/-
**What was folded can be given back.**

Only the last write to a slot counts.  So a slot of the stream is the slot of the optimized stream
times what was folded at its last write; the table, on the other hand, has all that was folded into
the slot.  The two are the same unless something was folded at a write that another write to the
slot replaces.

Main definitions:

* `LawfulFolds` — the equations of `Lawful`, and those by which the table adds up what it takes;
* `Fold.isLast` — the fold was made at the last write to its slot;
* `factor` — the product of folds, the last of them first.

Main results:

* `lastWrite?_recoverAll` — the last write to a slot before folds;
* `value_takeMatrices` — the value of what the table has for a slot;
* `optimize_recovers_outputs` — **a slot is recovered by the folds at its last write**, and by the
  table if there are no others;
* `isLast_of_count_le_one` — there are no others if the slot is written once.
-/

import Armature.Proofs.Optimize.Equivalence

set_option autoImplicit false

namespace Armature

/-! ### The equations -/

section Laws

variable {M : Type} [Monoid M]

/-- The equations that folding relies on. -/
structure LawfulFolds (config : OptimizerConfig) (domain : Transform → Prop) (value : Mat4 → M) :
    Prop extends Lawful config domain value where
  /-- The matrices of transforms stay in the class. -/
  matrix_mem : ∀ {t : Transform}, domain t → domain (.float4x4 t.toMatrix)
  /-- The matrix that does nothing is in the class. -/
  identity_mem : domain (.float4x4 .identity)
  /-- It has the value one. -/
  value_identity : value .identity = 1

/-- **Reflections satisfy the equations of folding.** -/
theorem lawfulFolds_reflections : LawfulFolds .standard (· ∈ reflections) orientation where
  toLawful := lawful_reflections
  matrix_mem := by
    have all : ∀ t ∈ reflections, .float4x4 t.toMatrix ∈ reflections := by decide +kernel
    exact fun {t} h => all t h
  identity_mem := by decide +kernel
  value_identity := by decide +kernel

end Laws

/-! ### Last writes -/

/-- The fold was made at the last write to its slot. -/
def Fold.isLast (f : Fold) : Bool := !f.following.contains f.slot

section Writes

variable {M : Type} {s : Setting M}

/-- A slot has a last write if it is written. -/
theorem isSome_lastWrite? (slot : UInt32) (ws : List (UInt32 × M)) :
    (lastWrite? slot ws).isSome ↔ slot ∈ ws.map Prod.fst := by
  induction ws with
  | nil => simp [lastWrite?]
  | cons w ws ih =>
      rw [lastWrite?, Option.isSome_or, Bool.or_eq_true, ih, List.map_cons, List.mem_cons]
      by_cases h : w.1 = slot
      · simp [h]
      · simp [h, Ne.symm h]

/-- Changing a write changes the last one to a slot only if it is that. -/
theorem lastWrite?_rewriteAt (g : M → M) {ws : List (UInt32 × M)} {written : UInt32}
    {following : List UInt32} (place : (written :: following) <:+ ws.map Prod.fst)
    (slot : UInt32) :
    lastWrite? slot (rewriteAt following.length g ws) =
      if written = slot ∧ slot ∉ following then (lastWrite? slot ws).map g
      else lastWrite? slot ws := by
  induction ws with
  | nil => cases List.suffix_nil.1 place
  | cons w ws ih =>
      rw [List.map_cons, List.suffix_cons_iff] at place
      rcases place with here | later
      · obtain ⟨rfl, rfl⟩ := List.cons_eq_cons.1 here
        have wrote := isSome_lastWrite? slot ws
        rw [List.length_map, rewriteAt, if_pos rfl, lastWrite?, lastWrite?]
        cases hv : lastWrite? slot ws with
        | some value =>
            -- the changed write is replaced by a later one
            have later : slot ∈ ws.map Prod.fst := wrote.1 (by rw [hv]; rfl)
            have replaced : ¬(w.1 = slot ∧ slot ∉ ws.map Prod.fst) := fun h => h.2 later
            rw [if_neg replaced]
            rfl
        | none =>
            have alone : slot ∉ ws.map Prod.fst := fun h => by
              rw [hv] at wrote
              cases wrote.2 h
            by_cases same : w.1 = slot <;> simp [same, alone]
      · have shorter := later.length_le
        rw [List.length_cons, List.length_map] at shorter
        rw [rewriteAt, if_neg (by omega), lastWrite?, lastWrite?, ih later]
        by_cases h : written = slot ∧ slot ∉ following
        · -- the changed write is among the others, which therefore write the slot
          have wrote : (lastWrite? slot ws).isSome := by
            rw [isSome_lastWrite?]
            exact later.subset (h.1 ▸ List.mem_cons_self ..)
          obtain ⟨value, hv⟩ := Option.isSome_iff_exists.1 wrote
          simp [h, hv]
        · rw [if_neg h, if_neg h]

/-- The folds that were made at the last write to a slot. -/
def lastFolds (slot : UInt32) (folds : List Fold) : List Fold :=
  folds.filter fun f => f.slot = slot ∧ f.isLast

theorem isLast_iff {f : Fold} : f.isLast = true ↔ f.slot ∉ f.following := by
  simp [Fold.isLast]

theorem lastFolds_cons (slot : UInt32) (f : Fold) (folds : List Fold) :
    lastFolds slot (f :: folds) =
      if f.slot = slot ∧ slot ∉ f.following then f :: lastFolds slot folds
      else lastFolds slot folds := by
  rw [lastFolds, List.filter_cons]
  by_cases same : f.slot = slot
  · subst same
    simp [isLast_iff, lastFolds]
  · simp [same, lastFolds]

/-- These are all folds for the slot if none was made at another write to it. -/
theorem lastFolds_eq_slotFolds {slot : UInt32} {folds : List Fold}
    (h : ∀ f ∈ folds, f.slot = slot → f.isLast = true) :
    lastFolds slot folds = slotFolds slot folds := by
  refine List.filter_congr fun f hf => ?_
  by_cases same : f.slot = slot
  · simp [same, h f hf same]
  · simp [same]

end Writes

/-! ### Factors -/

section Factors

variable {M : Type} [Monoid M] {config : OptimizerConfig} {domain : Transform → Prop}
  {value : Mat4 → M} {block : ParameterBlock} {limit : Nat}

/-- The product of folds, the last of them first. -/
def factor (value : Mat4 → M) : List Fold → M
  | [] => 1
  | f :: folds => factor value folds * value f.transform.toMatrix

/-- The last write to a slot lacks what was folded at it. -/
theorem lastWrite?_recoverAll {folds : List Fold} {ws : List (UInt32 × M)}
    (place : ∀ f ∈ folds, (f.slot :: f.following) <:+ ws.map Prod.fst) (slot : UInt32) :
    lastWrite? slot (recoverAll (.ofMonoid value block limit) folds ws) =
      (lastWrite? slot ws).map (· * factor value (lastFolds slot folds)) := by
  induction folds with
  | nil => simp [lastFolds, factor]
  | cons f folds ih =>
      have here := place f (List.mem_cons_self ..)
      have before := ih fun g hg => place g (List.mem_cons_of_mem _ hg)
      -- the first fold is taken back last, and finds its write at the same place
      rw [← map_fst_recoverAll (s := .ofMonoid value block limit) folds ws] at here
      rw [recoverAll_cons, Fold.recover, lastWrite?_rewriteAt _ here, before, lastFolds_cons]
      split
      · rw [Option.map_map, factor]
        congr 1
        funext last
        exact mul_assoc last _ _
      · rfl

/-- The values of matrices in the class multiply. -/
theorem value_mul (laws : LawfulFolds config domain value) {m n : Mat4}
    (hm : domain (.float4x4 m)) (hn : domain (.float4x4 n)) :
    domain (.float4x4 (m * n)) ∧ value (m * n) = value m * value n := by
  have merged : (Transform.float4x4 m).merge (.float4x4 n) = .float4x4 (m * n) := rfl
  have closed := laws.merge_mem hm hn
  have product := laws.value_merge hm hn
  rw [merged] at closed product
  exact ⟨closed, product⟩

/-- The value of a matrix after folds. -/
theorem value_takeMatrices (laws : LawfulFolds config domain value) {folds : List Fold}
    (transforms : ∀ f ∈ folds, domain f.transform) {m : Mat4} (hm : domain (.float4x4 m)) :
    value (takeMatrices folds m) = factor value folds * value m := by
  induction folds generalizing m with
  | nil => exact (one_mul _).symm
  | cons f folds ih =>
      have product := value_mul laws
        (laws.matrix_mem (transforms f (List.mem_cons_self ..))) hm
      have rest := ih (fun g hg => transforms g (List.mem_cons_of_mem _ hg)) product.1
      rw [product.2, ← mul_assoc] at rest
      exact rest

/-! ### Optimized streams -/

/-- What a pass folds is in the class. -/
theorem Merges.domain_of_mem (laws : LawfulMerge domain value) {foldable : UInt32 → Bool}
    {taken : List UInt32} {is : List Instruction} {folds : List Fold}
    {result : Except OptimizeFault (List Instruction)}
    (h : Merges foldable taken is folds result) (old : ∀ t, .static t ∈ is → domain t) :
    ∀ f ∈ folds, domain f.transform := by
  induction h with
  | nil | rejected => exact fun _ hf => absurd hf List.not_mem_nil
  | unused _ _ ih | passed _ _ ih => exact ih fun t ht => old t (List.mem_cons_of_mem _ ht)
  | @moved taken m rest folds result _ _ _ ih =>
      have tail : ∀ t, .static t ∈ rest → domain t := fun t ht =>
        old t (List.mem_cons_of_mem _ ht)
      have head := old m (List.mem_cons_self ..)
      intro f hf
      rcases List.mem_append.1 hf with hf | hf
      · rw [transform_of_mem_absorbFolds hf]
        exact head
      · exact ih (statics_absorb laws head tail) f hf

/-- What an optimization folds is in the class. -/
theorem domain_of_mem_optimizeFolds (laws : Lawful config domain value) {table : FoldTable}
    {is js : List Instruction} (statics : ∀ t, .static t ∈ is → domain t)
    (ok : (optimizeInstructions config table is).result = .ok js) :
    ∀ f ∈ optimizeFolds config table is, domain f.transform := by
  have both := optimizeInstructions_induction
    (fun is fs js => (∀ t, .static t ∈ is → domain t) →
      (∀ t, .static t ∈ js → domain t) ∧ ∀ f ∈ fs, domain f.transform)
    (fun is old => ⟨old, fun _ hf => absurd hf List.not_mem_nil⟩)
    (fun is fs js gs ks first second old =>
      have mid := first old
      have last := second mid.1
      ⟨last.1, fun f hf => (List.mem_append.1 hf).elim (mid.2 f) (last.2 f)⟩)
    (fun pass t is t' next _ run old => ⟨statics_pass laws run old, fun f hf => by
      cases pass with
      | merge => exact (merges_mergeTransforms t is).domain_of_mem laws.merging old f hf
      | dead | push | simplify | fuse => cases hf⟩)
    rfl ok
  exact (both statics).2

/-- A slot that is written once has no write that another one replaces. -/
theorem isLast_of_count_le_one {table : FoldTable} {is : List Instruction} {slot : UInt32}
    (once : (writtenSlots is).count slot ≤ 1) :
    ∀ f ∈ optimizeFolds config table is, f.slot = slot → f.isLast = true := by
  rintro f hf rfl
  have place := (place_of_mem_optimizeFolds config table is f hf).1
  have count := place.sublist.count_le f.slot
  rw [List.count_cons_self] at count
  exact isLast_iff.2 (List.count_eq_zero.1 (by omega))

/-- The slots of two journals that differ by folds. -/
theorem enter_recoverAll (value : Mat4 → M) (block : ParameterBlock) (limit : Nat)
    {folds : List Fold} {ws : List (UInt32 × M)}
    (place : ∀ f ∈ folds, (f.slot :: f.following) <:+ ws.map Prod.fst) (count : Nat)
    (slot : UInt32) :
    (enter (Array.replicate count 1)
        (recoverAll (.ofMonoid value block limit) folds ws))[slot.toNat]? =
      (enter (Array.replicate count 1) ws)[slot.toNat]?.map
        (· * factor value (lastFolds slot folds)) := by
  rw [enter_getElem?, enter_getElem?, lastWrite?_recoverAll place, Array.getElem?_replicate]
  split
  · cases hv : lastWrite? slot ws with
    | some last => rfl
    | none =>
        -- a slot that is not written has no folds
        have none : lastFolds slot folds = [] := by
          refine List.eq_nil_iff_forall_not_mem.2 fun f hf => ?_
          have found := List.mem_filter.1 hf
          have same : f.slot = slot := (of_decide_eq_true found.2).1
          have wrote : slot ∈ ws.map Prod.fst :=
            (place f found.1).subset (same ▸ List.mem_cons_self ..)
          rw [← isSome_lastWrite?, hv] at wrote
          cases wrote
        rw [none]
        exact congrArg some (mul_one (1 : M)).symm
  · rfl

/-- **A slot of the stream is the slot of the optimized stream times what was folded at its last
write**, while the table has the product of all that was folded into the slot.  So the slot of the
stream is recovered with the table if nothing was folded at another write to the slot. -/
theorem optimize_recovers_outputs (laws : LawfulFolds config domain value) {table : FoldTable}
    (fresh : ∀ slot, table.folded slot = .identity) {words : List UInt32} {is : List Instruction}
    (decoded : Instruction.decodeAll words = .ok is)
    (statics : ∀ t, .static t ∈ is → domain t) {count : Nat}
    (capacity : limit ≤ UInt32.size ∨ words.length < UInt32.size) {next : List UInt32}
    {stats : OptimizationStats} (ok : (optimize config table words).result = .ok (next, stats))
    {outputs : Array M}
    (run : (Stream.run (.ofMonoid value block limit) count words).result = .ok outputs) :
    ∃ outputs', (Stream.run (.ofMonoid value block limit) count next).result = .ok outputs' ∧
      ∀ slot : UInt32,
        outputs[slot.toNat]? = outputs'[slot.toNat]?.map
          (· * factor value (lastFolds slot (optimizeFolds config table is))) ∧
        value ((optimize config table words).table.folded slot) =
          factor value (slotFolds slot (optimizeFolds config table is)) ∧
        ((∀ f ∈ optimizeFolds config table is, f.slot = slot → f.isLast = true) →
          outputs[slot.toNat]? = outputs'[slot.toNat]?.map
            (· * value ((optimize config table words).table.folded slot))) := by
  obtain ⟨js, ok', rfl, decoded'⟩ := exists_list_of_optimize decoded ok
  have spec := place_of_mem_optimizeFolds config table is
  rw [Stream.run_eq_exec _ _ decoded, Program.result_eq_ok_iff] at run
  obtain ⟨ws, hws, rfl⟩ := run
  have short : limit ≤ UInt32.size ∨ is.length < UInt32.size :=
    capacity.imp_right fun h => Nat.lt_of_le_of_lt (Instruction.length_le_of_decodeAll decoded) h
  obtain ⟨ws', hws', rfl⟩ :=
    exists_journal_optimizeInstructions laws.toLawful short statics ok' hws
  -- the places of the folds are those in the stream, which the optimizer does not change
  have place : ∀ f ∈ optimizeFolds config table is,
      (f.slot :: f.following) <:+ ws'.map Prod.fst := by
    intro f hf
    rw [map_fst_of_journal hws', writtenSlots_of_observed_eq (observed_optimizeInstructions ok')]
    exact (spec f hf).1
  refine ⟨enter (Array.replicate count 1) ws', ?_, fun slot => ?_⟩
  · rw [Stream.run_eq_exec _ _ decoded', Program.result_eq_ok_iff]
    exact ⟨ws', hws', rfl⟩
  · have recovered := enter_recoverAll value block limit place count slot
    have took : value ((optimize config table words).table.folded slot) =
        factor value (slotFolds slot (optimizeFolds config table is)) := by
      rw [optimize_table, streamFolds, decoded,
        FoldTable.folded_takeAll fun f hf => (spec f hf).2, fresh,
        value_takeMatrices laws ?_ laws.identity_mem, laws.value_identity, mul_one]
      exact fun f hf => domain_of_mem_optimizeFolds laws.toLawful statics ok' f
        (List.mem_of_mem_filter hf)
    refine ⟨recovered, took, fun last => ?_⟩
    rw [took, ← lastFolds_eq_slotFolds last]
    exact recovered

end Factors

/-! ### A write that is replaced -/

/-- A new table has taken nothing. -/
theorem folded_uniform (count : Nat) (foldable : Bool) (slot : UInt32) :
    (FoldTable.uniform count foldable).folded slot = .identity := by
  rw [FoldTable.folded_eq, FoldTable.uniform, Array.getElem?_replicate]
  split <;> rfl

/-- Two frames are reflected and written, the second to a slot that is written again. -/
def replacedWrite : List Instruction :=
  [.push, .static (.uniformScale (-.one)), .write 0, .pop 1, .push,
    .static (.uniformScale (-.one)), .write 1, .pop 1, .write 1]

/-- The first slot of it is recovered with the table. -/
theorem optimize_recovers_outputs_reflecting :
    ∃ outputs : Array ℤ,
      (Stream.run (.ofMonoid orientation .empty maxStackDepth) 2
        (Instruction.encodeAll [.write 0, .write 1, .write 1])).result = .ok outputs ∧
      some (-1) = outputs[(0 : UInt32).toNat]?.map (· * orientation
        ((optimize .standard (.uniform 2 true)
          (Instruction.encodeAll replacedWrite)).table.folded 0)) := by
  have decoded : Instruction.decodeAll (Instruction.encodeAll replacedWrite) =
      .ok replacedWrite := Instruction.decodeAll_encodeAll (by decide)
  have statics : ∀ t, .static t ∈ replacedWrite → t ∈ reflections := by
    intro t ht
    simp only [replacedWrite, List.mem_cons, reduceCtorEq, Instruction.static.injEq, false_or,
      List.not_mem_nil, or_false, or_self] at ht
    rw [ht]
    decide
  have ok : (optimize .standard (.uniform 2 true) (Instruction.encodeAll replacedWrite)).result =
      .ok (Instruction.encodeAll [.write 0, .write 1, .write 1], ⟨9, 3, 16, 6⟩) := by
    decide +kernel
  have run : (Stream.run (.ofMonoid orientation .empty maxStackDepth) 2
      (Instruction.encodeAll replacedWrite)).result = .ok #[-1, 1] := by decide +kernel
  obtain ⟨outputs, run', slots⟩ := optimize_recovers_outputs lawfulFolds_reflections
    (folded_uniform 2 true) decoded statics (.inl (by decide)) ok run
  exact ⟨outputs, run', (slots 0).2.2 (isLast_of_count_le_one (by decide))⟩

/-- The second is not: the table has what was folded at the first write to it. -/
theorem optimize_table_of_replaced_write :
    ∃ next stats, (optimize .standard (.uniform 2 true)
        (Instruction.encodeAll replacedWrite)).result = .ok (next, stats) ∧
      ∃ outputs outputs' : Array ℤ,
        (Stream.run (.ofMonoid orientation .empty maxStackDepth) 2
          (Instruction.encodeAll replacedWrite)).result = .ok outputs ∧
        (Stream.run (.ofMonoid orientation .empty maxStackDepth) 2 next).result = .ok outputs' ∧
        outputs[1]? ≠ outputs'[1]?.map (· * orientation
          ((optimize .standard (.uniform 2 true)
            (Instruction.encodeAll replacedWrite)).table.folded 1)) :=
  ⟨Instruction.encodeAll [.write 0, .write 1, .write 1], ⟨9, 3, 16, 6⟩, by decide +kernel,
    #[-1, 1], #[1, 1], by decide +kernel, by decide +kernel, by decide +kernel⟩

end Armature
