/-
**The folds of a merging pass.**

While transforms are moved, some are folded: they leave the list at a write, and the table takes
them for the slot of that write.  The table adds up what a slot takes and forgets where it came
from.  Here the folds are written down one by one, each with the place of its write, which is given
by the slots that are written after it; that place does not change when other transforms are moved.

Main definitions:

* `Fold`, `FoldTable.takeAll` — a fold, and a table that takes folds one after another;
* `absorbFolds`, `mergeFolds` — the folds of one move, and of all moves of a pass;
* `Merges` — how a pass goes, move by move.

Main results:

* `merges_mergeTransforms` — a pass goes as the relation says;
* `Merges.induction_of_ok` — what each step of a pass does to lists, a pass does;
* `mergeTransforms_fst` — **the table has taken exactly the folds, whether or not the pass fails**;
* `Merges.fold_place` — each fold stands at a write of its slot;
* `Merges.nodup_slots` — a slot takes at most one transform in a pass.
-/

import Armature.Proofs.Optimize.Observed

set_option autoImplicit false

namespace Armature

/-! ### Folds -/

/-- A transform that was folded at a write. -/
structure Fold where
  /-- The slot of the write. -/
  slot : UInt32
  /-- The transform. -/
  transform : Transform
  /-- The slots written after it. -/
  following : List UInt32
  deriving DecidableEq

namespace FoldTable

/-- The table after it has taken a fold. -/
def take (t : FoldTable) (f : Fold) : FoldTable := t.fold f.slot f.transform.toMatrix

/-- The table after it has taken folds in their order. -/
def takeAll (t : FoldTable) (folds : List Fold) : FoldTable := folds.foldl take t

theorem takeAll_append (t : FoldTable) (fs gs : List Fold) :
    t.takeAll (fs ++ gs) = (t.takeAll fs).takeAll gs := List.foldl_append

theorem foldable_eq (t : FoldTable) (slot : UInt32) :
    t.foldable slot = (t.slots[slot.toNat]?.map FoldSlot.foldable).getD false := by
  unfold foldable
  cases t.slots[slot.toNat]? <;> rfl

theorem folded_eq (t : FoldTable) (slot : UInt32) :
    t.folded slot = (t.slots[slot.toNat]?.map FoldSlot.folded).getD .identity := by
  unfold folded
  cases t.slots[slot.toNat]? <;> rfl

/-- Taking a fold does not change which slots take transforms. -/
@[simp] theorem foldable_fold (t : FoldTable) (slot : UInt32) (m : Mat4) :
    (t.fold slot m).foldable = t.foldable := by
  funext other
  rw [foldable_eq, foldable_eq, fold, Array.getElem?_modify]
  split
  · rw [Option.map_map]
    rfl
  · rfl

/-- The other slots keep what they took. -/
theorem folded_fold_of_ne {t : FoldTable} {slot other : UInt32} (h : slot ≠ other) (m : Mat4) :
    (t.fold slot m).folded other = t.folded other := by
  rw [folded_eq, folded_eq, fold, Array.getElem?_modify,
    if_neg fun e => h (UInt32.toNat_inj.1 e)]

@[simp] theorem foldable_takeAll (t : FoldTable) (folds : List Fold) :
    (t.takeAll folds).foldable = t.foldable := by
  induction folds generalizing t with
  | nil => rfl
  | cons f folds ih => exact (ih (t.take f)).trans (foldable_fold ..)

/-- A matrix that a slot takes comes before what it had. -/
theorem folded_fold_self {t : FoldTable} {slot : UInt32} (takes : t.foldable slot = true)
    (m : Mat4) : (t.fold slot m).folded slot = m * t.folded slot := by
  rw [foldable_eq] at takes
  rw [folded_eq, folded_eq, fold, Array.getElem?_modify, if_pos rfl]
  cases h : t.slots[slot.toNat]? with
  | none => rw [h] at takes; cases takes
  | some old => rfl

end FoldTable

/-- The folds for a slot. -/
def slotFolds (slot : UInt32) (folds : List Fold) : List Fold :=
  folds.filter fun f => f.slot = slot

theorem slotFolds_cons (slot : UInt32) (f : Fold) (folds : List Fold) :
    slotFolds slot (f :: folds) =
      if f.slot = slot then f :: slotFolds slot folds else slotFolds slot folds := by
  rw [slotFolds, List.filter_cons]
  by_cases same : f.slot = slot <;> simp [same, slotFolds]

/-- A matrix after it has taken folds, each of which comes before what was there. -/
def takeMatrices (folds : List Fold) (m : Mat4) : Mat4 :=
  folds.foldl (fun m f => f.transform.toMatrix * m) m

/-- What a slot has after folds. -/
theorem FoldTable.folded_takeAll {t : FoldTable} {folds : List Fold}
    (takes : ∀ f ∈ folds, t.foldable f.slot = true) (slot : UInt32) :
    (t.takeAll folds).folded slot = takeMatrices (slotFolds slot folds) (t.folded slot) := by
  induction folds generalizing t with
  | nil => rfl
  | cons f folds ih =>
      have later : ∀ g ∈ folds, (t.take f).foldable g.slot = true := by
        intro g hg
        rw [take, foldable_fold]
        exact takes g (List.mem_cons_of_mem _ hg)
      have rest := ih later
      rw [show t.takeAll (f :: folds) = (t.take f).takeAll folds from rfl, rest, slotFolds_cons]
      by_cases same : f.slot = slot
      · subst same
        rw [if_pos rfl, take, folded_fold_self (takes f (List.mem_cons_self ..))]
        rfl
      · rw [if_neg same, take, folded_fold_of_ne same]


/-! ### One move -/

/-- The fold at a user, if it is a write that is folded into; `rest` follows it. -/
def foldAt (s : Transform) (foldable : UInt32 → Bool) (rest : List Instruction) :
    Instruction → List Fold
  | .write slot => if foldable slot then [⟨slot, s, writtenSlots rest⟩] else []
  | _ => []

/-- The folds of a move. -/
def absorbFolds (s : Transform) (foldable : UInt32 → Bool) (r : Reach) :
    List Instruction → List Fold
  | [] => []
  | i :: rest =>
    (if r.marks i then foldAt s foldable rest i else []) ++ absorbFolds s foldable (r.step i) rest

/-- The folds of a move are for the slots that the pass checks. -/
theorem map_slot_absorbFolds (s : Transform) (foldable : UInt32 → Bool) (r : Reach)
    (is : List Instruction) :
    (absorbFolds s foldable r is).map Fold.slot = foldSlots foldable (r.influenced is) := by
  induction is generalizing r with
  | nil => rfl
  | cons i rest ih =>
      rw [absorbFolds, Reach.influenced, List.map_append, ih]
      split
      · rw [foldSlots, foldSlots, List.filterMap_cons]
        cases i with
        | write slot =>
            simp only [foldAt]
            cases foldable slot <;> rfl
        | _ => rfl
      · rfl

theorem transform_of_mem_absorbFolds {s : Transform} {foldable : UInt32 → Bool} {r : Reach}
    {is : List Instruction} {f : Fold} (h : f ∈ absorbFolds s foldable r is) :
    f.transform = s := by
  induction is generalizing r with
  | nil => cases h
  | cons i rest ih =>
      rw [absorbFolds, List.mem_append] at h
      rcases h with h | h
      · split at h
        · unfold foldAt at h
          split at h
          · split at h
            · rw [List.mem_singleton.1 h]
            · cases h
          · cases h
        · cases h
      · exact ih h

/-- A fold of a move stands at a write of its slot. -/
theorem place_of_mem_absorbFolds {s : Transform} {foldable : UInt32 → Bool} {r : Reach}
    {is : List Instruction} {f : Fold} (h : f ∈ absorbFolds s foldable r is) :
    (f.slot :: f.following) <:+ writtenSlots is := by
  induction is generalizing r with
  | nil => cases h
  | cons i rest ih =>
      rw [absorbFolds, List.mem_append] at h
      rcases h with h | h
      · split at h
        · unfold foldAt at h
          split at h
          · split at h
            · rw [List.mem_singleton.1 h]
              exact List.suffix_refl _
            · cases h
          · cases h
        · cases h
      · rw [writtenSlots, List.filterMap_cons]
        cases i.output? with
        | none => exact ih h
        | some slot => exact (ih h).trans (List.suffix_cons ..)

/-- Where there are no users a move does nothing. -/
theorem absorb_of_influenced_nil {s : Transform} {foldable : UInt32 → Bool} {r : Reach}
    {is : List Instruction} (none : r.influenced is = []) :
    absorb s foldable r is = is ∧ absorbFolds s foldable r is = [] := by
  induction is generalizing r with
  | nil => exact ⟨rfl, rfl⟩
  | cons i rest ih =>
      rw [Reach.influenced] at none
      split at none
      · cases none
      · rename_i unmarked
        obtain ⟨same, noFolds⟩ := ih none
        rw [absorb, absorbFolds, if_neg unmarked, if_neg unmarked, same, noFolds]
        exact ⟨rfl, rfl⟩

theorem foldable_of_mem_absorbFolds {s : Transform} {foldable : UInt32 → Bool} {r : Reach}
    {is : List Instruction} {f : Fold} (h : f ∈ absorbFolds s foldable r is) :
    foldable f.slot = true :=
  foldable_of_mem_foldSlots (map_slot_absorbFolds s foldable r is ▸ List.mem_map_of_mem h)

/-! ### All moves -/

/-- The folds of a pass, in the order in which the table takes them; none more after a failure. -/
def mergeFolds (foldable : UInt32 → Bool) (taken : List UInt32) : List Instruction → List Fold
  | [] => []
  | .static s :: rest =>
    let users := Reach.start.influenced rest
    if users.isEmpty then mergeFolds foldable taken rest
    else if h : shouldMove foldable s rest then
      have := weight_absorb_lt h
      let slots := foldSlots foldable users
      match firstRepeat? taken slots with
      | some _ => []
      | none =>
        absorbFolds s foldable .start rest ++
          mergeFolds foldable (slots ++ taken) (absorb s foldable .start rest)
    else mergeFolds foldable taken rest
  | _ :: rest => mergeFolds foldable taken rest
  termination_by is => weight is
  decreasing_by
    all_goals first
      | assumption
      | simp only [weight, looseStatics, List.length_cons]; omega

/-- How a pass goes: from a list and the slots that are taken, with folds, to a result. -/
inductive Merges (foldable : UInt32 → Bool) :
    List UInt32 → List Instruction → List Fold → Except OptimizeFault (List Instruction) → Prop
  /-- Nothing is left. -/
  | nil {taken : List UInt32} : Merges foldable taken [] [] (.ok [])
  /-- A transform without users goes. -/
  | unused {taken : List UInt32} {s : Transform} {rest : List Instruction} {folds : List Fold}
      {result : Except OptimizeFault (List Instruction)}
      (users : Reach.start.influenced rest = []) (next : Merges foldable taken rest folds result) :
      Merges foldable taken (.static s :: rest) folds result
  /-- A slot would be taken twice. -/
  | rejected {taken : List UInt32} {s : Transform} {rest : List Instruction} {slot : UInt32}
      (worth : shouldMove foldable s rest = true)
      (twice : firstRepeat? taken (foldSlots foldable (Reach.start.influenced rest)) = some slot) :
      Merges foldable taken (.static s :: rest) [] (.error (.duplicateFold slot))
  /-- A transform is moved to its users. -/
  | moved {taken : List UInt32} {s : Transform} {rest : List Instruction} {folds : List Fold}
      {result : Except OptimizeFault (List Instruction)}
      (worth : shouldMove foldable s rest = true)
      (once : firstRepeat? taken (foldSlots foldable (Reach.start.influenced rest)) = none)
      (next : Merges foldable (foldSlots foldable (Reach.start.influenced rest) ++ taken)
        (absorb s foldable .start rest) folds result) :
      Merges foldable taken (.static s :: rest) (absorbFolds s foldable .start rest ++ folds) result
  /-- An instruction stays where it is, a transform because it is not worth a move. -/
  | passed {taken : List UInt32} {i : Instruction} {rest : List Instruction} {folds : List Fold}
      {result : Except OptimizeFault (List Instruction)}
      (stays : ∀ s, i = .static s → shouldMove foldable s rest = false)
      (next : Merges foldable taken rest folds result) :
      Merges foldable taken (i :: rest) folds (result.map (i :: ·))

/-- The table after a move. -/
theorem foldl_fold_eq_takeAll (s : Transform) (table : FoldTable) (r : Reach)
    (is : List Instruction) :
    (foldSlots table.foldable (r.influenced is)).foldl (fun t slot => t.fold slot s.toMatrix)
      table = table.takeAll (absorbFolds s table.foldable r is) := by
  have same : ∀ folds : List Fold, (∀ f ∈ folds, f.transform = s) → ∀ t : FoldTable,
      (folds.map Fold.slot).foldl (fun t slot => t.fold slot s.toMatrix) t = t.takeAll folds := by
    intro folds
    induction folds with
    | nil => exact fun _ _ => rfl
    | cons f folds ih =>
        intro h t
        have head : f.transform = s := h f (List.mem_cons_self ..)
        have tail := ih (fun g hg => h g (List.mem_cons_of_mem _ hg)) (t.take f)
        rw [FoldTable.take, head] at tail
        rw [List.map_cons, List.foldl_cons, tail, FoldTable.takeAll, FoldTable.takeAll,
          List.foldl_cons, FoldTable.take, head]
  rw [← map_slot_absorbFolds s]
  exact same _ (fun f hf => transform_of_mem_absorbFolds hf) table

theorem mergeFolds_of_not_static {foldable : UInt32 → Bool} {taken : List UInt32}
    {i : Instruction} {rest : List Instruction} (h : ∀ s, i = .static s → False) :
    mergeFolds foldable taken (i :: rest) = mergeFolds foldable taken rest := by
  cases i with
  | static s => exact (h s rfl).elim
  | _ => rw [mergeFolds]; exact h

/-- A pass goes as the relation says, and the table takes its folds. -/
theorem mergeFrom_spec (table : FoldTable) (taken : List UInt32) (is : List Instruction) :
    Merges table.foldable taken is (mergeFolds table.foldable taken is)
        (mergeFrom table taken is).2 ∧
      (mergeFrom table taken is).1 = table.takeAll (mergeFolds table.foldable taken is) := by
  fun_induction mergeFrom table taken is with
  | case1 table taken =>
      rw [mergeFolds]
      exact ⟨.nil, rfl⟩
  | case2 table taken s rest users none ih =>
      rw [mergeFolds, if_pos none]
      exact ⟨.unused (List.isEmpty_iff.1 none) ih.1, ih.2⟩
  | case3 table taken s rest users some worth _ slots slot twice =>
      simp only [slots, users] at twice
      rw [mergeFolds, if_neg some, dif_pos worth]
      simp only [twice]
      exact ⟨.rejected worth twice, rfl⟩
  | case4 table taken s rest users some worth _ slots once ih =>
      simp only [slots, users] at once ih
      rw [foldl_fold_eq_takeAll, FoldTable.foldable_takeAll] at ih
      rw [mergeFolds, if_neg some, dif_pos worth]
      simp only [once, users, slots]
      rw [foldl_fold_eq_takeAll, FoldTable.takeAll_append]
      exact ⟨.moved worth once ih.1, ih.2⟩
  | case5 table taken s rest users some unworthy table' result run ih =>
      rw [mergeFolds, if_neg some, dif_neg unworthy]
      rw [run] at ih
      refine ⟨.passed ?_ ih.1, ih.2⟩
      rintro _ ⟨⟩
      exact Bool.eq_false_iff.2 unworthy
  | case6 table taken i rest other table' result run ih =>
      rw [mergeFolds_of_not_static other]
      rw [run] at ih
      exact ⟨.passed (fun s same => (other s same).elim) ih.1, ih.2⟩

/-- **A pass goes as the relation says.** -/
theorem merges_mergeTransforms (table : FoldTable) (is : List Instruction) :
    Merges table.foldable [] is (mergeFolds table.foldable [] is) (mergeTransforms table is).2 :=
  (mergeFrom_spec table [] is).1

/-- **The table has taken exactly the folds, whether or not the pass fails.** -/
theorem mergeTransforms_fst (table : FoldTable) (is : List Instruction) :
    (mergeTransforms table is).1 = table.takeAll (mergeFolds table.foldable [] is) :=
  (mergeFrom_spec table [] is).2

namespace Merges

variable {foldable : UInt32 → Bool} {taken : List UInt32} {is : List Instruction}
  {folds : List Fold} {result : Except OptimizeFault (List Instruction)}

/-- **What each step of a pass does to lists, a pass does** if it does not fail. -/
theorem induction_of_ok (does : List Instruction → List Instruction → Prop) (nil : does [] [])
    (unused : ∀ s rest js, does rest js → does (.static s :: rest) js)
    (moved : ∀ s rest js, shouldMove foldable s rest = true →
      does (absorb s foldable .start rest) js → does (.static s :: rest) js)
    (passed : ∀ i rest js, does rest js → does (i :: rest) (i :: js))
    (h : Merges foldable taken is folds result) {js : List Instruction} (ok : result = .ok js) :
    does is js := by
  induction h generalizing js with
  | nil => cases ok; exact nil
  | unused _ _ ih => exact unused _ _ _ (ih ok)
  | rejected => cases ok
  | moved worth _ _ ih => exact moved _ _ _ worth (ih ok)
  | @passed taken i rest folds result _ _ ih =>
      cases result with
      | error fault => cases ok
      | ok ks =>
          cases ok
          exact passed i rest ks (ih rfl)

/-- **A pass shows in no view**: a move that is worth it wraps no write. -/
theorem seen_eq {α : Type} (v : View α) (h : Merges foldable taken is folds result)
    {js : List Instruction} (ok : result = .ok js) : v.seen js = v.seen is := by
  refine h.induction_of_ok (fun is js => v.seen js = v.seen is) rfl ?_ ?_ ?_ ok
  · intro s rest js same
    rw [same, v.seen_static]
  · intro s rest js worth same
    rw [same, v.seen_absorb_of_cost (movingCost_le_of_shouldMove worth), v.seen_static]
  · intro i rest js same
    rw [v.seen_cons, same, v.seen_cons]

/-- A pass leaves alone what is not a transform, a push or a pop. -/
theorem observed_eq (h : Merges foldable taken is folds result) {js : List Instruction}
    (ok : result = .ok js) : observed js = observed is := h.seen_eq Observed.view ok

/-- **Each fold stands at a write of its slot.** -/
theorem fold_place (h : Merges foldable taken is folds result) {f : Fold} (hf : f ∈ folds) :
    (f.slot :: f.following) <:+ writtenSlots is := by
  induction h with
  | nil | rejected => cases hf
  | unused _ _ ih => exact ih hf
  | @moved taken s rest folds result worth once next ih =>
      -- the moved transform itself writes nothing
      show _ <:+ writtenSlots rest
      rcases List.mem_append.1 hf with hf | hf
      · exact place_of_mem_absorbFolds hf
      · have place := ih hf
        rw [writtenSlots_of_observed_eq (observed_absorb ..)] at place
        exact place
  | @passed taken i rest folds result _ next ih =>
      rw [writtenSlots, List.filterMap_cons]
      cases i.output? with
      | none => exact ih hf
      | some slot => exact (ih hf).trans (List.suffix_cons ..)

/-- **A slot takes at most one transform in a pass**, and none if it was taken before. -/
theorem nodup_slots (h : Merges foldable taken is folds result) :
    (folds.map Fold.slot).Nodup ∧ ∀ f ∈ folds, f.slot ∉ taken := by
  induction h with
  | nil | rejected => exact ⟨.nil, fun _ hf => absurd hf List.not_mem_nil⟩
  | unused _ _ ih | passed _ _ ih => exact ih
  | @moved taken s rest folds result worth once next ih =>
      obtain ⟨different, fresh⟩ := firstRepeat?_eq_none_iff.1 once
      rw [← map_slot_absorbFolds s] at different fresh ih
      refine ⟨?_, fun f hf => ?_⟩
      · rw [List.map_append, List.nodup_append]
        refine ⟨different, ih.1, ?_⟩
        rintro slot hs other ho rfl
        obtain ⟨f, hf, rfl⟩ := List.mem_map.1 ho
        exact ih.2 f hf (List.mem_append_left _ hs)
      · rcases List.mem_append.1 hf with hf | hf
        · exact fresh f.slot (List.mem_map_of_mem hf)
        · exact fun h => ih.2 f hf (List.mem_append_right _ h)

/-- Each fold is for a slot that takes transforms. -/
theorem foldable_of_mem (h : Merges foldable taken is folds result) {f : Fold} (hf : f ∈ folds) :
    foldable f.slot = true := by
  induction h with
  | nil | rejected => cases hf
  | unused _ _ ih | passed _ _ ih => exact ih hf
  | moved _ _ _ ih =>
      rcases List.mem_append.1 hf with hf | hf
      · exact foldable_of_mem_absorbFolds hf
      · exact ih hf

/-- A pass fails only because a slot that takes transforms would take two. -/
theorem exists_slot_of_fault (h : Merges foldable taken is folds result) {fault : OptimizeFault}
    (failed : result = .error fault) :
    ∃ slot, fault = .duplicateFold slot ∧ foldable slot = true := by
  induction h with
  | nil => cases failed
  | unused _ _ ih | moved _ _ _ ih => exact ih failed
  | rejected _ twice =>
      cases failed
      exact ⟨_, rfl, foldable_of_mem_foldSlots (mem_of_firstRepeat? twice)⟩
  | @passed taken i rest folds result _ next ih =>
      cases result with
      | error fault =>
          cases failed
          exact ih rfl
      | ok ks => cases failed

end Merges

end Armature
