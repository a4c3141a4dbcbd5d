/-
**Moving transforms keeps the path to every write.**

A transform that is moved to its first users turns up on the path to each write that it was on the
path to: merged with the next transform, or copied, or folded into the write, and nowhere else.  So
the product along the path to a write stays the same, except for what was folded at that very write;
and the writes themselves are the same instructions in the same order.

Main definitions:

* `writeInstructions` — the instructions that write;
* `foldFactor` — what was folded at the write with a given number of writes behind it.

Main results:

* `Merges.writeInstructions_eq` — a pass leaves the writes alone;
* `getElem?_recoverAll` — the value of one write without the folds;
* `mergeTransforms_keeps_paths` — **the product along each path, write by write**.
-/

import Armature.Proofs.Evaluate.Paths
import Armature.Proofs.Optimize.Merge
import Armature.Proofs.Optimize.Stored

set_option autoImplicit false

namespace Armature

/-! ### Writes stay -/

/-- The instructions that write. -/
def writeInstructions (is : List Instruction) : List Instruction :=
  is.filter fun i => i.output?.isSome

theorem writeInstructions_append (is js : List Instruction) :
    writeInstructions (is ++ js) = writeInstructions is ++ writeInstructions js :=
  List.filter_append ..

theorem writeInstructions_cons (i : Instruction) (is : List Instruction) :
    writeInstructions (i :: is) = writeInstructions [i] ++ writeInstructions is :=
  writeInstructions_append [i] is

/-- Each of them has one of the slots that are written. -/
theorem map_output?_writeInstructions (is : List Instruction) :
    (writeInstructions is).map Instruction.output? = (writtenSlots is).map some := by
  induction is with
  | nil => rfl
  | cons i is ih =>
      rw [writeInstructions, List.filter_cons, writtenSlots, List.filterMap_cons]
      cases slot : i.output? with
      | none => exact ih
      | some slot => exact congrArg₂ List.cons slot ih

theorem length_writeInstructions (is : List Instruction) :
    (writeInstructions is).length = (writtenSlots is).length := by
  have slots := congrArg List.length (map_output?_writeInstructions is)
  simpa only [List.length_map] using slots

theorem exists_slot_of_writeInstruction {is : List Instruction} {k : Nat} {w : Instruction}
    (there : (writeInstructions is)[k]? = some w) :
    ∃ slot, w.output? = some slot ∧ (writtenSlots is)[k]? = some slot := by
  have slots := congrArg (·[k]?) (map_output?_writeInstructions is)
  simp only [List.getElem?_map, there, Option.map_some] at slots
  obtain ⟨slot, found, same⟩ := Option.map_eq_some_iff.1 slots.symm
  exact ⟨slot, same.symm, found⟩

theorem writeInstructions_moveTo {s : Transform} {foldable : UInt32 → Bool} {i : Instruction} :
    writeInstructions (moveTo s foldable i) = writeInstructions [i] := by
  cases i with
  | write slot =>
      rw [moveTo]
      split
      · rfl
      · rfl
  | _ => rfl

/-- A move leaves the writes alone. -/
theorem writeInstructions_absorb (s : Transform) (foldable : UInt32 → Bool) (r : Reach)
    (is : List Instruction) :
    writeInstructions (absorb s foldable r is) = writeInstructions is :=
  read_absorb writeInstructions_append fun _ _ => writeInstructions_moveTo

/-- A pass leaves the writes alone. -/
theorem Merges.writeInstructions_eq {foldable : UInt32 → Bool} {taken : List UInt32}
    {is js : List Instruction} {folds : List Fold}
    {result : Except OptimizeFault (List Instruction)}
    (h : Merges foldable taken is folds result) (ok : result = .ok js) :
    writeInstructions js = writeInstructions is := by
  refine h.induction_of_ok (fun is js => writeInstructions js = writeInstructions is) rfl
    (fun _ _ _ same => same) (fun _ _ _ _ same => same.trans (writeInstructions_absorb ..)) ?_ ok
  intro i rest js same
  rw [writeInstructions_cons, same, ← writeInstructions_cons]

/-! ### Folds by their place -/

/-- The folds of a pass stand at different writes. -/
theorem Merges.nodup_places {foldable : UInt32 → Bool} {taken : List UInt32}
    {is : List Instruction} {folds : List Fold} {result : Except OptimizeFault (List Instruction)}
    (h : Merges foldable taken is folds result) :
    (folds.map fun f => f.following.length).Nodup := by
  have slots := h.nodup_slots.1
  rw [List.Nodup, List.pairwise_map] at slots ⊢
  refine slots.imp_of_mem fun {f g} hf hg different same => different ?_
  -- what stands at the same place has the same slot
  have long : (f.slot :: f.following).length = (g.slot :: g.following).length :=
    congrArg Nat.succ same
  have inside := List.suffix_of_suffix_length_le (h.fold_place hf) (h.fold_place hg)
    (Nat.le_of_eq long)
  exact (List.cons.inj (inside.eq_of_length long)).1

section Factors

variable {M : Type}

/-- A single write after one was changed. -/
theorem getElem?_rewriteAt (later : Nat) (g : M → M) (ws : List (UInt32 × M)) (k : Nat) :
    (rewriteAt later g ws)[k]? =
      ws[k]?.map fun w => if later + k + 1 = ws.length then (w.1, g w.2) else w := by
  induction ws generalizing k with
  | nil => rfl
  | cons w ws ih =>
      rw [rewriteAt]
      cases k with
      | zero =>
          by_cases here : ws.length = later
          · simp [here]
          · simp [here, Ne.symm here]
      | succ k =>
          by_cases here : ws.length = later
          · -- the write at this place is one of those behind
            have other : later + (k + 1) + 1 ≠ ws.length + 1 := by omega
            simp only [here, if_true, List.getElem?_cons_succ, List.length_cons]
            rw [← here] at other ⊢
            simp only [other, if_false, Option.map_id']
          · have shift : later + (k + 1) + 1 = ws.length + 1 ↔ later + k + 1 = ws.length := by omega
            simp only [here, if_false, List.getElem?_cons_succ, List.length_cons, ih, shift]

variable [Monoid M] {value : Mat4 → M}

/-- What was folded at the write that `later` others follow, if anything was. -/
def foldFactor (value : Mat4 → M) (folds : List Fold) (later : Nat) : M :=
  ((folds.find? fun f => f.following.length == later).map
    fun f => value f.transform.toMatrix).getD 1

@[simp] theorem foldFactor_nil (later : Nat) : foldFactor value [] later = 1 := rfl

theorem foldFactor_cons (f : Fold) (folds : List Fold) (later : Nat) :
    foldFactor value (f :: folds) later =
      if f.following.length = later then value f.transform.toMatrix
      else foldFactor value folds later := by
  rw [foldFactor, List.find?_cons]
  by_cases here : f.following.length = later
  · rw [if_pos here, beq_iff_eq.2 here]
    rfl
  · rw [if_neg here, beq_eq_false_iff_ne.2 here]
    rfl

theorem foldFactor_eq_one {folds : List Fold} {later : Nat}
    (none : later ∉ folds.map fun f => f.following.length) : foldFactor value folds later = 1 := by
  induction folds with
  | nil => rfl
  | cons f folds ih =>
      rw [List.map_cons, List.mem_cons, not_or] at none
      rw [foldFactor_cons, if_neg (Ne.symm none.1), ih none.2]

/-- **The value of one write without the folds**, if each stands at another write. -/
theorem getElem?_recoverAll {block : ParameterBlock} {limit : Nat} {folds : List Fold}
    (distinct : (folds.map fun f => f.following.length).Nodup) (ws : List (UInt32 × M)) (k : Nat) :
    (recoverAll (.ofMonoid value block limit) folds ws)[k]? =
      ws[k]?.map fun w => (w.1, w.2 * foldFactor value folds (ws.length - (k + 1))) := by
  induction folds with
  | nil => simp
  | cons f folds ih =>
      obtain ⟨alone, distinct⟩ := List.nodup_cons.1 distinct
      rw [recoverAll_cons, Fold.recover, getElem?_rewriteAt, length_recoverAll, ih distinct,
        Option.map_map]
      cases there : ws[k]? with
      | none => rfl
      | some w =>
          obtain ⟨inside, _⟩ := List.getElem?_eq_some_iff.1 there
          simp only [Option.map_some, Function.comp_apply, Option.some.injEq, foldFactor_cons]
          by_cases here : f.following.length = ws.length - (k + 1)
          · rw [if_pos (by omega), if_pos here, foldFactor_eq_one (here ▸ alone), mul_one]
            rfl
          · rw [if_neg (by omega), if_neg here]

/-- Where one list may stand for another up to folds, the products along the paths are the same up
to them, if each fold stands at another write. -/
theorem Recovers.exists_paths {block : ParameterBlock} {limit : Nat} {folds : List Fold}
    {is js : List Instruction} (recovers : Recovers (.ofMonoid value block limit) folds is js)
    (distinct : (folds.map fun f => f.following.length).Nodup)
    {before : List (UInt32 × List Transform)}
    (found : journal ⟨.paths, block, limit⟩ [[]] is = some before) :
    ∃ after, journal ⟨.paths, block, limit⟩ [[]] js = some after ∧
      ∀ k slot path, before[k]? = some (slot, path) →
        ∃ path', after[k]? = some (slot, path') ∧
          product value path =
            product value path' * foldFactor value folds (before.length - (k + 1)) := by
  -- the journal in the monoid is the image of the paths, before and after
  have image (ks : List Instruction) :
      journal (.ofMonoid value block limit) [1] ks =
        (journal ⟨.paths, block, limit⟩ [[]] ks).map
          (mapWrites (Interpretation.ofMonoid value).along) :=
    journal_map (Interpretation.ofMonoid value).hom_along [[]] ks
  have writes := image is
  rw [found, Option.map_some] at writes
  obtain ⟨ws, run, same⟩ := recovers (Nat.le_max_right ..) writes
  rw [image js] at run
  obtain ⟨after, found', rfl⟩ := Option.map_eq_some_iff.1 run
  have size := congrArg List.length same
  simp only [mapWrites, length_recoverAll, List.length_map] at size
  refine ⟨after, found', fun k slot path there => ?_⟩
  have value_k := congrArg (·[k]?) same
  simp only [getElem?_recoverAll distinct, mapWrites, List.getElem?_map, there, Option.map_some,
    List.length_map, ← size] at value_k
  cases there' : after[k]? with
  | none =>
      rw [there'] at value_k
      cases value_k
  | some p =>
      obtain ⟨slot', path'⟩ := p
      rw [there'] at value_k
      simp only [Option.map_some, Option.some.injEq, Prod.map_apply, id, Prod.mk.injEq,
        along_ofMonoid] at value_k
      obtain ⟨rfl, same⟩ := value_k
      exact ⟨path', rfl, same⟩

end Factors

/-! ### Paths -/

theorem static_mem_of_mem_map_stored {t : Transform} {is : List Instruction}
    (member : .static t ∈ is.map Instruction.stored) : .static t ∈ is := by
  obtain ⟨i, there, same⟩ := List.mem_map.1 member
  rw [← Instruction.stored_eq_static_iff.1 same]
  exact there

/-- **Moving transforms keeps the product along the path to every write**, up to what is folded at
that very write.  It is taken in any monoid in which merged transforms are products, for a class of
transforms that holds those of the list and that merging does not leave.  The writes are the same
instructions in the same order; the table takes the folds, each of which stands at a write of its
slot, and no two at the same. -/
theorem mergeTransforms_keeps_paths {M : Type} [Monoid M] {domain : Transform → Prop}
    {value : Mat4 → M} (laws : LawfulMerge domain value) {table table' : FoldTable}
    {is js : List Instruction} (statics : ∀ t, .static t ∈ is → domain t)
    (ok : mergeTransforms table is = (table', .ok js)) {folds : List Fold}
    (all : mergeFolds table.foldable [] is = folds) {limit count : Nat} {block : ParameterBlock}
    {outputs : Array Mat4}
    (run : (Stream.runMatrices limit block count (Instruction.encodeAll is)).result =
      .ok outputs) :
    writeInstructions js = writeInstructions is ∧
    table' = table.takeAll folds ∧
    (∀ f ∈ folds, (f.slot :: f.following) <:+ writtenSlots is) ∧
    (folds.map fun f => f.following.length).Nodup ∧
    ∃ before after,
      Stream.paths? limit block (Instruction.encodeAll is) = some before ∧
      Stream.paths? limit block (Instruction.encodeAll js) = some after ∧
      before.length = (writeInstructions is).length ∧
      after.length = (writeInstructions js).length ∧
      ∀ k w, (writeInstructions is)[k]? = some w →
        ∃ slot path path', w.output? = some slot ∧ before[k]? = some (slot, path) ∧
          after[k]? = some (slot, path') ∧
          product value path = product value path' *
            foldFactor value folds ((writeInstructions is).length - (k + 1)) := by
  have spec := merges_mergeTransforms table is
  have taken := mergeTransforms_fst table is
  rw [ok, all] at spec taken
  obtain ⟨before, found, -⟩ := Stream.result_eq_ok_iff_paths.1 run
  have paths (ks : List Instruction) : Stream.paths? limit block (Instruction.encodeAll ks) =
      journal ⟨.paths, block, limit⟩ [[]] (ks.map Instruction.stored) := by
    rw [Stream.paths?, Instruction.decodeAll_encodeAll_stored]
    rfl
  -- what is stored goes through the same moves
  have recovers : Recovers (.ofMonoid value block limit) folds (is.map Instruction.stored)
      (js.map Instruction.stored) :=
    spec.map_stored.recovers laws rfl fun t member =>
      statics t (static_mem_of_mem_map_stored member)
  have found' := (paths is).symm.trans found
  obtain ⟨after, moved, products⟩ := recovers.exists_paths spec.nodup_places found'
  have slots := map_fst_of_journal found'
  have slots' := map_fst_of_journal moved
  rw [writtenSlots_map_stored] at slots slots'
  have size : before.length = (writeInstructions is).length := by
    rw [length_writeInstructions, ← slots, List.length_map]
  have size' : after.length = (writeInstructions js).length := by
    rw [length_writeInstructions, ← slots', List.length_map]
  refine ⟨spec.writeInstructions_eq rfl, taken, fun f hf => spec.fold_place hf, spec.nodup_places,
    before, after, found, (paths js).trans moved, size, size', fun k w there => ?_⟩
  obtain ⟨_, output, listed⟩ := exists_slot_of_writeInstruction there
  rw [← slots, List.getElem?_map, Option.map_eq_some_iff] at listed
  obtain ⟨⟨slot, path⟩, here, rfl⟩ := listed
  obtain ⟨path', here', same⟩ := products k slot path here
  rw [size] at same
  exact ⟨slot, path, path', output, here, here', same⟩

/-- A transform with three users: a transform, a write that holds a matrix, and a plain write. -/
def sharedTransform : List Instruction :=
  [.static (.uniformScale (-.one)), .push, .static (.uniformScale (-.one)), .write 0, .pop 1,
    .push, .writeStatic 1 (.scaling (.splat (-.one))), .pop 1, .write 2]

/-- It is merged with the first and folded there, copied to the second, and folded into the
third. -/
theorem mergeTransforms_keeps_paths_sharedTransform :
    ∃ before after,
      Stream.paths? maxStackDepth .empty (Instruction.encodeAll sharedTransform) = some before ∧
      Stream.paths? maxStackDepth .empty (Instruction.encodeAll
        [.push, .write 0, .pop 1, .push, .static (.uniformScale (-.one)),
          .writeStatic 1 (.scaling (.splat (-.one))), .pop 1, .write 2]) = some after ∧
      ∃ path path', before[2]? = some (2, path) ∧ after[2]? = some (2, path') ∧
        product orientation path = product orientation path' * (-1) := by
  have statics : ∀ t, Instruction.static t ∈ sharedTransform → t ∈ reflections := by
    intro t member
    simp only [sharedTransform, List.mem_cons, Instruction.static.injEq, reduceCtorEq,
      List.not_mem_nil, or_false, false_or] at member
    rcases member with rfl | rfl
    · decide
    · decide
  have run : (Stream.runMatrices maxStackDepth .empty 3
      (Instruction.encodeAll sharedTransform)).result =
        .ok #[.identity, .identity, .scaling (.splat (-.one))] := by decide +kernel
  have ok : (mergeTransforms (.uniform 3 true) sharedTransform).2 =
      .ok [.push, .write 0, .pop 1, .push, .static (.uniformScale (-.one)),
        .writeStatic 1 (.scaling (.splat (-.one))), .pop 1, .write 2] := by decide +kernel
  obtain ⟨-, -, -, -, before, after, found, found', -, -, products⟩ :=
    mergeTransforms_keeps_paths lawful_reflections.merging statics (Prod.ext rfl ok) rfl run
  refine ⟨before, after, found, found', ?_⟩
  obtain ⟨slot, path, path', output, here, here', same⟩ := products 2 (.write 2) (by decide)
  cases output
  refine ⟨path, path', here, here', same.trans (congrArg (product orientation path' * ·) ?_)⟩
  decide +kernel

end Armature
