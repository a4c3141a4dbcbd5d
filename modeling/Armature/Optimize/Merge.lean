/-
**Moving static transforms to their first users.**

A static transform is moved forward to all of its first users at once: a static transform among
them takes it up, a foldable write passes it to the fold table, and in front of anything else a copy
is put.  This is done where it is expected to make the list shorter.  A transform without users
goes.

After a move the scan goes on at the same place, and the list may be as long as before.  It ends
all the same, since a copy only ever lands right in front of a blocker, from where it is not moved
again: `weight` counts the instructions, and once more each static transform that is not right in
front of a blocker.

Main definitions:

* `OptimizeFault` — why optimizing fails;
* `absorb` — the list after a transform was moved to its users;
* `shouldMove` — whether it is moved;
* `mergeFrom`, `mergeTransforms` — all moves.

Main results:

* `read_absorb` — what a move leaves alone;
* `length_absorb`, `length_absorb_le` — what a move does to the length;
* `weight_absorb_lt` — a move makes `weight` smaller.
-/

import Armature.Optimize.FoldTable
import Armature.Optimize.Scan
import Armature.Transform.Merge

set_option autoImplicit false

namespace Armature

/-! ### Failure -/

/-- Why optimizing a stream fails. -/
inductive OptimizeFault where
  /-- The stream cannot be read. -/
  | stream (fault : Fault)
  /-- A second transform would be folded into a slot. -/
  | duplicateFold (slot : UInt32)
  deriving DecidableEq, Repr

/-- The text of a failure. -/
def OptimizeFault.message : OptimizeFault → String
  | stream fault => fault.message
  | duplicateFold slot =>
    String.join ["transform folded into output matrix ", toString slot, " more than once"]

/-! ### One move -/

/-- What becomes of a user to which the transform `s` is moved. -/
def moveTo (s : Transform) (foldable : UInt32 → Bool) : Instruction → List Instruction
  | .static t => [.static (s.merge t)]
  | .write slot =>
    if foldable slot then [.write slot] else [.push, .static s, .write slot, .pop 1]
  | i => [.static s, i]

/-- The list after the transform `s`, which reaches `r`, was moved to its users. -/
def absorb (s : Transform) (foldable : UInt32 → Bool) (r : Reach) :
    List Instruction → List Instruction
  | [] => []
  | i :: rest =>
    (if r.marks i then moveTo s foldable i else [i]) ++ absorb s foldable (r.step i) rest

/-- What is read of a list piece by piece stays if it stays at each user. -/
theorem read_absorb {α : Type} {read : List Instruction → List α}
    (append : ∀ is js, read (is ++ js) = read is ++ read js) {s : Transform}
    {foldable : UInt32 → Bool} {r : Reach} {is : List Instruction}
    (users : ∀ i ∈ r.influenced is, read (moveTo s foldable i) = read [i]) :
    read (absorb s foldable r is) = read is := by
  induction is generalizing r with
  | nil => rfl
  | cons i rest ih =>
    have tail := ih fun j later => users j (Reach.mem_influenced_of_mem later)
    have split : read (i :: rest) = read [i] ++ read rest := append [i] rest
    rw [absorb, append, tail, split]
    split
    · rename_i user
      rw [users i (Reach.mem_influenced_self user rest)]
    · rfl

/-- The slots of the users that pass the transform to the fold table, in order. -/
def foldSlots (foldable : UInt32 → Bool) (users : List Instruction) : List UInt32 :=
  users.filterMap fun
    | .write slot => if foldable slot then some slot else none
    | _ => none

/-- The first slot that was taken before, or occurs before in the list itself. -/
def firstRepeat? (taken : List UInt32) : List UInt32 → Option UInt32
  | [] => none
  | slot :: rest => if taken.contains slot then some slot else firstRepeat? (slot :: taken) rest

/-- What is folded into takes transforms. -/
theorem foldable_of_mem_foldSlots {foldable : UInt32 → Bool} {users : List Instruction}
    {slot : UInt32} (h : slot ∈ foldSlots foldable users) : foldable slot = true := by
  obtain ⟨i, _, hi⟩ := List.mem_filterMap.1 h
  cases i with
  | write other =>
      simp only at hi
      split at hi
      · rename_i takes
        cases hi
        exact takes
      · cases hi
  | _ => cases hi

/-- A repeated slot is one of the slots. -/
theorem mem_of_firstRepeat? {taken slots : List UInt32} {slot : UInt32}
    (h : firstRepeat? taken slots = some slot) : slot ∈ slots := by
  induction slots generalizing taken with
  | nil => cases h
  | cons first rest ih =>
      rw [firstRepeat?] at h
      split at h
      · cases h
        exact List.mem_cons_self ..
      · exact List.mem_cons_of_mem _ (ih h)

/-- No slot is repeated if the slots are different and none was taken before. -/
theorem firstRepeat?_eq_none_iff {taken slots : List UInt32} :
    firstRepeat? taken slots = none ↔ slots.Nodup ∧ ∀ slot ∈ slots, slot ∉ taken := by
  induction slots generalizing taken with
  | nil => simp [firstRepeat?]
  | cons first rest ih =>
      rw [firstRepeat?]
      split
      · rename_i before
        have before : first ∈ taken := List.contains_iff_mem.1 before
        simp [before]
      · rename_i before
        have before : first ∉ taken := fun h => before (List.contains_iff_mem.2 h)
        rw [ih, List.nodup_cons]
        constructor
        · rintro ⟨different, fresh⟩
          refine ⟨⟨fun h => fresh first h (List.mem_cons_self ..), different⟩, ?_⟩
          intro slot hs
          rcases List.mem_cons.1 hs with rfl | hs
          · exact before
          · exact fun h => fresh slot hs (List.mem_cons_of_mem _ h)
        · rintro ⟨⟨alone, different⟩, fresh⟩
          refine ⟨different, fun slot hs h => ?_⟩
          rcases List.mem_cons.1 h with rfl | h
          · exact alone hs
          · exact fresh slot (List.mem_cons_of_mem _ hs) h

/-- The transform `s` is moved to its users in the rest of the list.  If its only user is a static
transform that stays where it is, the two must join. -/
def shouldMove (foldable : UInt32 → Bool) (s : Transform) (rest : List Instruction) : Bool :=
  let users := Reach.start.influenced rest
  worthMerging foldable users &&
    match users with
    | [.static t] =>
      worthMerging foldable (Reach.start.influenced (Reach.start.afterFirst rest)) || s.joins t
    | _ => true

/-! ### Why the moves come to an end -/

/-- The list starts with a blocker. -/
def startsWithBlocker : List Instruction → Bool
  | [] => false
  | i :: _ => i.role == .blocker

/-- The number of static transforms that are not right in front of a blocker. -/
def looseStatics : List Instruction → Nat
  | [] => 0
  | i :: rest =>
    (if i.role == .static && !startsWithBlocker rest then 1 else 0) + looseStatics rest

/-- The number of instructions, loose static transforms counted twice. -/
def weight (is : List Instruction) : Nat := is.length + looseStatics is

theorem weight_lt_cons (i : Instruction) (is : List Instruction) :
    weight is < weight (i :: is) := by
  rw [weight, weight, looseStatics, List.length_cons]
  omega

theorem Reach.marks_eq_false {r : Reach} (h : r.isOpen = false) (i : Instruction) :
    r.marks i = false := by simp [marks, h]

theorem startsWithBlocker_absorb {r : Reach} (h : r.isOpen = false) (s : Transform)
    (foldable : UInt32 → Bool) (is : List Instruction) :
    startsWithBlocker (absorb s foldable r is) = startsWithBlocker is := by
  cases is with
  | nil => rfl
  | cons i rest => simp [absorb, Reach.marks_eq_false h, startsWithBlocker]

/-- After a static transform or a blocker its frame carries nothing unused. -/
theorem Reach.isOpen_step {r : Reach} {i : Instruction}
    (h : i.role = .static ∨ i.role = .blocker) : (r.step i).isOpen = false := by
  cases i <;> simp [Instruction.role] at h <;>
    (simp only [step]; split <;> simp_all [isOpen])

/-- The certain change of length is that of the users together. -/
theorem length_absorb (s : Transform) (foldable : UInt32 → Bool) (r : Reach)
    (is : List Instruction) :
    ((absorb s foldable r is).length : Int) =
      is.length + totalCost (((r.influenced is).map (movingCost foldable)).map Prod.snd) := by
  induction is generalizing r with
  | nil => rfl
  | cons i rest ih =>
    simp only [absorb, Reach.influenced, List.length_append, List.length_cons]
    split
    · have cost : ((moveTo s foldable i).length : Int) = 1 + (movingCost foldable i).2 := by
        cases i <;> simp [moveTo, movingCost]
        split <;> rfl
      simp only [List.map_cons, totalCost]
      push_cast
      rw [ih, cost]
      omega
    · push_cast
      rw [ih]
      simp only [List.length_cons, List.length_nil]
      omega

/-- Where no write is wrapped, a move leaves no more loose static transforms. -/
theorem looseStatics_absorb_le (s : Transform) (foldable : UInt32 → Bool) (r : Reach)
    (is : List Instruction)
    (h : ∀ i ∈ r.influenced is, (movingCost foldable i).2 ≤ 1) :
    looseStatics (absorb s foldable r is) ≤ looseStatics is := by
  induction is generalizing r with
  | nil => exact Nat.le_refl _
  | cons i rest ih =>
    have hrest : ∀ j ∈ (r.step i).influenced rest, (movingCost foldable j).2 ≤ 1 :=
      fun j hj => h j (Reach.mem_influenced_of_mem hj)
    have tail := ih (r.step i) hrest
    have head : i.role = .static ∨ i.role = .blocker →
        startsWithBlocker (absorb s foldable (r.step i) rest) = startsWithBlocker rest :=
      fun role => startsWithBlocker_absorb (Reach.isOpen_step role) s foldable rest
    by_cases hm : r.marks i
    · have cost : (movingCost foldable i).2 ≤ 1 := h i (Reach.mem_influenced_self hm rest)
      cases i with
      | static t =>
        simp only [absorb, hm, ↓reduceIte, moveTo, List.singleton_append, looseStatics,
          Instruction.role, head (.inl rfl)]
        exact Nat.add_le_add_left tail _
      | write slot =>
        have hf : foldable slot = true := foldable_of_movingCost_le cost
        simp only [absorb, hm, ↓reduceIte, moveTo, hf, List.singleton_append, looseStatics]
        simpa [Instruction.role] using tail
      | push | pop _ => simp [Reach.marks, Instruction.role] at hm
      | parameter _ _ | writeStatic _ _ | writeParameter _ _ | binding _ _ | comment _ =>
        simp only [absorb, hm, ↓reduceIte, moveTo, List.cons_append, List.nil_append, looseStatics,
          startsWithBlocker]
        simpa [Instruction.role] using tail
    · simp only [absorb, hm, Bool.false_eq_true, ↓reduceIte, List.singleton_append, looseStatics]
      by_cases role : i.role = .static
      · rw [head (.inl role)]
        exact Nat.add_le_add_left tail _
      · simp only [beq_iff_eq, role, Bool.and_eq_true, false_and, ↓reduceIte]
        omega

theorem movingCost_snd_nonneg (foldable : UInt32 → Bool) (i : Instruction) :
    0 ≤ (movingCost foldable i).2 := by
  cases i <;> simp [movingCost]
  split <;> simp

theorem le_totalCost_of_mem {costs : List Int} (h : ∀ c ∈ costs, 0 ≤ c) {c : Int}
    (hc : c ∈ costs) : 0 ≤ totalCost costs ∧ c ≤ totalCost costs := by
  induction costs generalizing c with
  | nil => cases hc
  | cons d costs ih =>
    have hd := h d (List.mem_cons_self ..)
    have rest : 0 ≤ totalCost costs := by
      cases costs with
      | nil => exact Int.le_refl _
      | cons e costs =>
        exact (ih (fun c hc => h c (List.mem_cons_of_mem _ hc)) (List.mem_cons_self ..)).1
    simp only [totalCost]
    rcases List.mem_cons.1 hc with rfl | hc
    · omega
    · have := (ih (fun c hc => h c (List.mem_cons_of_mem _ hc)) hc).2
      omega

/-- A blocker right behind a transform is its only user, and is not worth a move. -/
theorem startsWithBlocker_eq_false {foldable : UInt32 → Bool} {rest : List Instruction}
    (h : worthMerging foldable (Reach.start.influenced rest) = true) :
    startsWithBlocker rest = false := by
  cases rest with
  | nil => rfl
  | cons i rest =>
    simp only [startsWithBlocker, beq_eq_false_iff_ne, ne_eq]
    intro role
    have none : ∀ js, (Reach.influenced ⟨0, 1⟩ js = []) ∧ (Reach.influenced ⟨0, 0⟩ js = []) := by
      intro js
      have closed : ∀ shut (js : List Instruction), Reach.influenced ⟨0, shut⟩ js = [] := by
        intro shut js
        induction js generalizing shut with
        | nil => rfl
        | cons j js ih =>
          have hm : Reach.marks ⟨0, shut⟩ j = false :=
            Reach.marks_eq_false (by simp [Reach.isOpen]) j
          have hs : ∃ shut', Reach.step ⟨0, shut⟩ j = ⟨0, shut'⟩ := by
            cases j <;> simp [Reach.step, Reach.isOpen]
            split <;> simp_all
          obtain ⟨shut', hs⟩ := hs
          simp [Reach.influenced, hm, hs, ih]
      exact ⟨closed 1 js, closed 0 js⟩
    have users : Reach.start.influenced (i :: rest) = [i] := by
      cases i <;> simp_all [Instruction.role, Reach.influenced, Reach.marks, Reach.step,
        Reach.isOpen, Reach.start]
    rw [users] at h
    cases i <;> simp_all [Instruction.role, worthMerging, movingCost, totalCost]

theorem worthMerging_of_shouldMove {foldable : UInt32 → Bool} {s : Transform}
    {rest : List Instruction} (h : shouldMove foldable s rest = true) :
    worthMerging foldable (Reach.start.influenced rest) = true := by
  rw [shouldMove, Bool.and_eq_true] at h
  exact h.1

/-- All users of a transform that is moved cost at most one instruction. -/
theorem certainCost_le_of_shouldMove {foldable : UInt32 → Bool} {s : Transform}
    {rest : List Instruction} (h : shouldMove foldable s rest = true) :
    totalCost (((Reach.start.influenced rest).map (movingCost foldable)).map Prod.snd) ≤ 1 := by
  have worth := worthMerging_of_shouldMove h
  rw [worthMerging, Bool.and_eq_true, decide_eq_true_eq, decide_eq_true_eq] at worth
  exact worth.2

/-- So does each of them. -/
theorem movingCost_le_of_shouldMove {foldable : UInt32 → Bool} {s : Transform}
    {rest : List Instruction} (h : shouldMove foldable s rest = true) :
    ∀ i ∈ Reach.start.influenced rest, (movingCost foldable i).2 ≤ 1 := by
  intro i hi
  have costs : ∀ c ∈ ((Reach.start.influenced rest).map (movingCost foldable)).map Prod.snd,
      0 ≤ c := by
    intro c hc
    obtain ⟨p, hp, rfl⟩ := List.mem_map.1 hc
    obtain ⟨j, _, rfl⟩ := List.mem_map.1 hp
    exact movingCost_snd_nonneg foldable j
  have bound := (le_totalCost_of_mem costs
    (List.mem_map.2 ⟨movingCost foldable i, List.mem_map.2 ⟨i, hi, rfl⟩, rfl⟩)).2
  exact Int.le_trans bound (certainCost_le_of_shouldMove h)

/-- A move adds no more instructions than the moved transform. -/
theorem length_absorb_le {foldable : UInt32 → Bool} {s : Transform} {rest : List Instruction}
    (h : shouldMove foldable s rest = true) :
    (absorb s foldable .start rest).length ≤ rest.length + 1 := by
  have length := length_absorb s foldable .start rest
  have certain := certainCost_le_of_shouldMove h
  omega

/-- A move makes the weight smaller. -/
theorem weight_absorb_lt {foldable : UInt32 → Bool} {s : Transform} {rest : List Instruction}
    (h : shouldMove foldable s rest = true) :
    weight (absorb s foldable .start rest) < weight (.static s :: rest) := by
  have length := length_absorb_le h
  have loose := looseStatics_absorb_le s foldable .start rest (movingCost_le_of_shouldMove h)
  have head := startsWithBlocker_eq_false (worthMerging_of_shouldMove h)
  simp only [weight, looseStatics, Instruction.role, head, List.length_cons]
  simp
  omega

/-! ### All moves -/

/-- Move static transforms from left to right.  The slots in `taken` have been folded into before;
the table is returned as it is when the moves end or fail. -/
def mergeFrom (table : FoldTable) (taken : List UInt32) :
    List Instruction → FoldTable × Except OptimizeFault (List Instruction)
  | [] => (table, .ok [])
  | .static s :: rest =>
    let users := Reach.start.influenced rest
    if users.isEmpty then mergeFrom table taken rest
    else if h : shouldMove table.foldable s rest then
      have := weight_absorb_lt h
      let slots := foldSlots table.foldable users
      match firstRepeat? taken slots with
      | some slot => (table, .error (.duplicateFold slot))
      | none =>
        mergeFrom (slots.foldl (fun t slot => t.fold slot s.toMatrix) table) (slots ++ taken)
          (absorb s table.foldable .start rest)
    else
      let (table, result) := mergeFrom table taken rest
      (table, result.map (.static s :: ·))
  | i :: rest =>
    let (table, result) := mergeFrom table taken rest
    (table, result.map (i :: ·))
  termination_by is => weight is
  decreasing_by
    all_goals first
      | assumption
      | simp only [weight, looseStatics, List.length_cons]; omega

/-- Move static transforms to their first users, folding into the slots of the table. -/
def mergeTransforms (table : FoldTable) (is : List Instruction) :
    FoldTable × Except OptimizeFault (List Instruction) := mergeFrom table [] is

end Armature
