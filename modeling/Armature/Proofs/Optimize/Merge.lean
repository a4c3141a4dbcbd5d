/-
**Moving a transform to its users keeps every write, up to the folds.**

While the moved transform is on its way, the frames that carry it unused lack it in the new list;
all other frames are as before.  Its first users put it back, except the writes that are folded
into: these lack it for good, and the fold says so.

Main definitions:

* `Fold.recover`, `recoverAll` — the writes before one fold, and before several;
* `Recovers` — one list runs through wherever another does, and writes the same up to folds;
* `Reach.carries`, `carry` — which frames lack the transform, and the frames with it;
* `MoveKeeps` — a move keeps every write up to its folds, and the frames that lack the transform.

Main results:

* `moveKeeps` — **one move**, in which no write would have to be wrapped;
* `Merges.recovers` — **a pass of moves**.
-/

import Armature.Proofs.Interpretation
import Armature.Proofs.Optimize.Folds

set_option autoImplicit false

namespace Armature

variable {M : Type}

/-! ### Writes before folds -/

/-- Change the value of the write that is followed by `k` others. -/
def rewriteAt (k : Nat) (g : M → M) : List (UInt32 × M) → List (UInt32 × M)
  | [] => []
  | w :: ws => if ws.length = k then (w.1, g w.2) :: ws else w :: rewriteAt k g ws

@[simp] theorem map_fst_rewriteAt (k : Nat) (g : M → M) (ws : List (UInt32 × M)) :
    (rewriteAt k g ws).map Prod.fst = ws.map Prod.fst := by
  induction ws with
  | nil => rfl
  | cons w ws ih =>
      rw [rewriteAt]
      split
      · rfl
      · rw [List.map_cons, ih, List.map_cons]

@[simp] theorem length_rewriteAt (k : Nat) (g : M → M) (ws : List (UInt32 × M)) :
    (rewriteAt k g ws).length = ws.length := by
  have slots := congrArg List.length (map_fst_rewriteAt k g ws)
  simpa only [List.length_map] using slots

/-- Writes in front of the changed one stay. -/
theorem rewriteAt_append {k : Nat} (g : M → M) (vs : List (UInt32 × M))
    {ws : List (UInt32 × M)} (h : k < ws.length) :
    rewriteAt k g (vs ++ ws) = vs ++ rewriteAt k g ws := by
  induction vs with
  | nil => rfl
  | cons v vs ih =>
      rw [List.cons_append, rewriteAt, if_neg (by rw [List.length_append]; omega), ih]
      rfl

/-- The writes as they would be without the fold. -/
def Fold.recover (s : Setting M) (f : Fold) (ws : List (UInt32 × M)) : List (UInt32 × M) :=
  rewriteAt f.following.length
    (fun value => s.interpretation.compose value (s.interpretation.ofTransform f.transform)) ws

/-- The writes as they would be without the folds, the last of which is taken back first. -/
def recoverAll (s : Setting M) (folds : List Fold) (ws : List (UInt32 × M)) :
    List (UInt32 × M) := folds.foldr (Fold.recover s) ws

variable {s : Setting M}

@[simp] theorem recoverAll_nil (ws : List (UInt32 × M)) : recoverAll s [] ws = ws := rfl

theorem recoverAll_cons (f : Fold) (folds : List Fold) (ws : List (UInt32 × M)) :
    recoverAll s (f :: folds) ws = f.recover s (recoverAll s folds ws) := rfl

theorem recoverAll_append (fs gs : List Fold) (ws : List (UInt32 × M)) :
    recoverAll s (fs ++ gs) ws = recoverAll s fs (recoverAll s gs ws) := List.foldr_append

@[simp] theorem map_fst_recoverAll (folds : List Fold) (ws : List (UInt32 × M)) :
    (recoverAll s folds ws).map Prod.fst = ws.map Prod.fst := by
  induction folds with
  | nil => rfl
  | cons f folds ih => exact (map_fst_rewriteAt ..).trans ih

@[simp] theorem length_recoverAll (folds : List Fold) (ws : List (UInt32 × M)) :
    (recoverAll s folds ws).length = ws.length := by
  have slots := congrArg List.length (map_fst_recoverAll (s := s) folds ws)
  simpa only [List.length_map] using slots

/-- Writes in front of all folds stay. -/
theorem recoverAll_append_writes {folds : List Fold} {ws : List (UInt32 × M)}
    (h : ∀ f ∈ folds, f.following.length < ws.length) (vs : List (UInt32 × M)) :
    recoverAll s folds (vs ++ ws) = vs ++ recoverAll s folds ws := by
  induction folds with
  | nil => rfl
  | cons f folds ih =>
      have later := ih fun g hg => h g (List.mem_cons_of_mem _ hg)
      rw [recoverAll_cons, later, Fold.recover, rewriteAt_append]
      · rfl
      · rw [length_recoverAll]
        exact h f (List.mem_cons_self ..)

/-- A fold at the first of the writes gives it its factor back. -/
theorem recoverAll_first {folds : List Fold} {ws : List (UInt32 × M)}
    (h : ∀ f ∈ folds, f.following.length < ws.length) {following : List UInt32}
    (place : following.length = ws.length) (slot : UInt32) (m : Transform) (x : M) :
    recoverAll s (⟨slot, m, following⟩ :: folds) ((slot, x) :: ws) =
      (slot, s.interpretation.compose x (s.interpretation.ofTransform m)) ::
        recoverAll s folds ws := by
  have front := recoverAll_append_writes (s := s) h [(slot, x)]
  rw [List.singleton_append] at front
  rw [recoverAll_cons, front, Fold.recover, List.singleton_append, rewriteAt, length_recoverAll,
    if_pos place.symm]

/-- The list `js` may stand for `is` up to folds. -/
def Recovers (s : Setting M) (folds : List Fold) (is js : List Instruction) : Prop :=
  ∀ ⦃frames : List M⦄ ⦃ws : List (UInt32 × M)⦄, frames.length ≤ max s.limit 1 →
    journal s frames is = some ws →
      ∃ ws', journal s frames js = some ws' ∧ ws = recoverAll s folds ws'

/-- Without folds it is the same as standing for it. -/
theorem recovers_nil_iff {is js : List Instruction} : Recovers s [] is js ↔ Keeps s is js := by
  constructor
  · intro h frames ws bound run
    obtain ⟨_, run', rfl⟩ := h bound run
    exact run'
  · intro h frames ws bound run
    exact ⟨ws, h bound run, rfl⟩

namespace Recovers

theorem trans {fs gs : List Fold} {is js ks : List Instruction} (h : Recovers s fs is js)
    (h' : Recovers s gs js ks) : Recovers s (fs ++ gs) is ks := by
  intro frames ws bound run
  obtain ⟨ws', run', rfl⟩ := h bound run
  obtain ⟨ws'', run'', rfl⟩ := h' bound run'
  exact ⟨ws'', run'', (recoverAll_append ..).symm⟩

/-- An instruction may stand in front of all folds. -/
theorem cons {folds : List Fold} {is js : List Instruction} (i : Instruction)
    (place : ∀ f ∈ folds, f.following.length < (writtenSlots js).length)
    (h : Recovers s folds is js) : Recovers s folds (i :: is) (i :: js) := by
  intro frames ws bound run
  obtain ⟨top, below, rfl⟩ := ne_nil_of_journal run
  simp only [List.length_cons] at bound
  cases i using Instruction.bracketCases with
  | push =>
      obtain ⟨room, top, current, hj⟩ := journal_push_eq_some_iff.1 run
      simp only [List.length_cons] at room
      obtain ⟨ws', run', rfl⟩ := h (by simp only [List.length_cons]; omega) hj
      exact ⟨ws', journal_push_eq_some_iff.2 ⟨room, top, current, run'⟩, rfl⟩
  | pop count =>
      obtain ⟨opened, hj⟩ := journal_pop_eq_some_iff.1 run
      obtain ⟨ws', run', rfl⟩ := h (by simp only [List.length_drop, List.length_cons]; omega) hj
      exact ⟨ws', journal_pop_eq_some_iff.2 ⟨opened, run'⟩, rfl⟩
  | inside i hb =>
      obtain ⟨frame, written, later, he, hj, rfl⟩ := (journal_other_eq_some_iff hb).1 run
      obtain ⟨ws', run', rfl⟩ := h (show (frame :: below).length ≤ _ from bound) hj
      have place' : ∀ f ∈ folds, f.following.length < ws'.length := by
        intro f hf
        rw [← List.length_map (f := Prod.fst), map_fst_of_journal run']
        exact place f hf
      exact ⟨written ++ ws',
        (journal_other_eq_some_iff hb).2 ⟨frame, written, ws', he, run', rfl⟩,
        (recoverAll_append_writes place' written).symm⟩

end Recovers

/-- The place of a fold of a move is a place in the journal of the new list. -/
theorem following_lt_of_journal {m : Transform} {foldable : UInt32 → Bool} {r : Reach}
    {is : List Instruction} {frames : List M} {ws : List (UInt32 × M)}
    (run : journal s frames (absorb m foldable r is) = some ws) :
    ∀ f ∈ absorbFolds m foldable r is, f.following.length < ws.length := by
  intro f hf
  have place := (place_of_mem_absorbFolds hf).length_le
  rw [← writtenSlots_of_observed_eq (observed_absorb m foldable r is), ← map_fst_of_journal run,
    List.length_cons, List.length_map] at place
  exact place

/-! ### Frames on the way -/

namespace Reach

/-- The frame under `k` others carries the transform unused. -/
def carries (r : Reach) (k : Nat) : Bool := r.shut ≤ k && k < r.shut + r.carrying

theorem carries_iff {r : Reach} {k : Nat} :
    r.carries k = true ↔ r.shut ≤ k ∧ k < r.shut + r.carrying := by
  rw [carries, Bool.and_eq_true, decide_eq_true_eq, decide_eq_true_eq]

theorem isOpen_iff {r : Reach} : r.isOpen = true ↔ r.shut = 0 ∧ 0 < r.carrying := by
  rw [isOpen, Bool.and_eq_true, beq_iff_eq, bne_iff_ne, Nat.pos_iff_ne_zero]

theorem carries_zero (r : Reach) : r.carries 0 = r.isOpen := by
  rw [Bool.eq_iff_iff, carries_iff, isOpen_iff]
  omega

/-- An opened frame is a copy. -/
theorem carries_push_zero (r : Reach) : (r.step .push).carries 0 = r.carries 0 := by
  rw [Bool.eq_iff_iff, carries_iff, carries_iff, step]
  split
  · split
    · rfl
    · simp only
      omega
  · simp only
    omega

theorem carries_push_succ (r : Reach) (k : Nat) : (r.step .push).carries (k + 1) = r.carries k := by
  rw [Bool.eq_iff_iff, carries_iff, carries_iff, step]
  split
  · split
    · omega
    · simp only
      omega
  · simp only
    omega

theorem carries_pop (r : Reach) (count : UInt32) (k : Nat) :
    (r.step (.pop count)).carries k = r.carries (k + count.toNat) := by
  rw [Bool.eq_iff_iff, carries_iff, carries_iff, step]
  simp only
  omega

/-- What needs the frame as it is leaves nothing unused in it. -/
theorem carries_user_zero (r : Reach) {i : Instruction} (hb : i.isBracket = false)
    (hw : ∀ slot, i ≠ .write slot) : (r.step i).carries 0 = false := by
  rw [carries_zero]
  refine isOpen_step ?_
  cases i with
  | push | pop => cases hb
  | write slot => exact absurd rfl (hw slot)
  | static => exact .inl rfl
  | parameter | writeStatic | writeParameter | binding | comment => exact .inr rfl

theorem carries_user_succ (r : Reach) {i : Instruction} (hb : i.isBracket = false)
    (hw : ∀ slot, i ≠ .write slot) (k : Nat) : (r.step i).carries (k + 1) = r.carries (k + 1) := by
  have step : r.step i = if r.isOpen then ⟨r.carrying - 1, 1⟩ else r := by
    cases i with
    | push | pop => cases hb
    | write slot => exact absurd rfl (hw slot)
    | static | parameter | writeStatic | writeParameter | binding | comment => rfl
  rw [step]
  split
  · rename_i current
    rw [isOpen_iff] at current
    rw [Bool.eq_iff_iff, carries_iff, carries_iff]
    simp only
    omega
  · rfl

/-- Where nothing is carried in the current frame, an instruction inside it changes nothing. -/
theorem step_of_not_open {r : Reach} (h : r.isOpen = false) {i : Instruction}
    (hb : i.isBracket = false) : r.step i = r := by
  cases i with
  | push | pop => cases hb
  | write => rfl
  | _ => simp only [step, h, Bool.false_eq_true, if_false]

theorem marks_of_isBracket (r : Reach) {i : Instruction} (hb : i.isBracket = true) :
    r.marks i = false := by
  cases i with
  | push | pop => exact Bool.and_false _
  | _ => cases hb

/-- A user is marked if its frame carries the transform. -/
theorem marks_eq (r : Reach) {i : Instruction} (hb : i.isBracket = false) :
    r.marks i = r.carries 0 := by
  rw [carries_zero, marks]
  cases i with
  | push | pop => cases hb
  | _ => exact Bool.and_true _

end Reach

section Carry

variable [Monoid M]

/-- The frames with the factor `v` put back into those that lack it. -/
def carry (v : M) (lacks : Nat → Bool) : List M → List M
  | [] => []
  | x :: frames => (if lacks 0 then x * v else x) :: carry v (fun k => lacks (k + 1)) frames

theorem carry_cons_of_lacks {v : M} {lacks : Nat → Bool} (h : lacks 0 = true) (x : M)
    (below : List M) :
    carry v lacks (x :: below) = x * v :: carry v (fun k => lacks (k + 1)) below := by
  rw [carry, if_pos h]

theorem carry_cons_of_not_lacks {v : M} {lacks : Nat → Bool} (h : lacks 0 = false) (x : M)
    (below : List M) :
    carry v lacks (x :: below) = x :: carry v (fun k => lacks (k + 1)) below := by
  rw [carry, if_neg (by rw [h]; exact Bool.false_ne_true)]

@[simp] theorem length_carry (v : M) (lacks : Nat → Bool) (frames : List M) :
    (carry v lacks frames).length = frames.length := by
  induction frames generalizing lacks with
  | nil => rfl
  | cons x frames ih => exact congrArg (· + 1) (ih _)

theorem drop_carry (v : M) (lacks : Nat → Bool) (n : Nat) (frames : List M) :
    (carry v lacks frames).drop n = carry v (fun k => lacks (k + n)) (frames.drop n) := by
  induction n generalizing lacks frames with
  | zero => rfl
  | succ n ih =>
      cases frames with
      | nil => rfl
      | cons x frames => exact ih (fun k => lacks (k + 1)) frames

/-! ### One move -/

variable {domain : Transform → Prop} {value : Mat4 → M}
  {block : ParameterBlock} {limit : Nat} {m : Transform} {foldable : UInt32 → Bool}

/-- A user puts the moved transform back into its frame. -/
theorem journal_moveTo (laws : LawfulMerge domain value) (hm : domain m) {i : Instruction}
    (hw : ∀ slot, i ≠ .write slot) (hb : i.isBracket = false)
    (static : ∀ t, i = .static t → domain t) (x : M) (below : List M) (rest : List Instruction) :
    journal (.ofMonoid value block limit) (x :: below) (moveTo m foldable i ++ rest) =
      journal (.ofMonoid value block limit) (x * value m.toMatrix :: below) (i :: rest) := by
  cases i with
  | push | pop => cases hb
  | write slot => exact absurd rfl (hw slot)
  | static t =>
      rw [moveTo, List.singleton_append, journal_static, journal_static]
      show journal _ (x * value (m.merge t).toMatrix :: below) rest =
        journal _ (x * value m.toMatrix * value t.toMatrix :: below) rest
      rw [laws.value_merge hm (static t rfl), mul_assoc]
  | parameter | writeStatic | writeParameter | binding | comment =>
      rw [moveTo, List.cons_append, List.singleton_append, journal_static]
      · rfl
      all_goals intros; simp_all

/-- Moving a transform through the list keeps every write up to the folds, if the frames that lack
it had it in the old list. -/
def MoveKeeps (s : Setting M) (v : M) (m : Transform) (foldable : UInt32 → Bool) (r : Reach)
    (is : List Instruction) : Prop :=
  ∀ frames ws, journal s (carry v r.carries frames) is = some ws →
    ∃ ws', journal s frames (absorb m foldable r is) = some ws' ∧
      ws = recoverAll s (absorbFolds m foldable r is) ws'

namespace MoveKeeps

variable {s : Setting M} {v : M} {r : Reach} {i : Instruction} {rest : List Instruction}

theorem nil : MoveKeeps s v m foldable r [] := by
  intro frames ws run
  obtain ⟨some, rfl⟩ := journal_nil_eq_some_iff.1 run
  rw [length_carry] at some
  exact ⟨[], journal_nil_eq_some_iff.2 ⟨some, rfl⟩, rfl⟩

/-- The opened frame lacks the transform just as the one it is a copy of. -/
theorem push (later : MoveKeeps s v m foldable (r.step .push) rest) :
    MoveKeeps s v m foldable r (.push :: rest) := by
  intro frames ws run
  obtain ⟨room, top, current, run⟩ := journal_push_eq_some_iff.1 run
  rw [length_carry] at room
  rw [absorb, absorbFolds, r.marks_of_isBracket rfl]
  cases frames with
  | nil => cases current
  | cons x below =>
      have opened : top :: carry v r.carries (x :: below) =
          carry v (r.step .push).carries (x :: x :: below) := by
        cases current
        simp only [carry, r.carries_push_zero, r.carries_push_succ]
      rw [opened] at run
      obtain ⟨ws', run', rfl⟩ := later _ _ run
      exact ⟨ws', journal_push_eq_some_iff.2 ⟨room, x, rfl, run'⟩, rfl⟩

theorem pop {count : UInt32} (later : MoveKeeps s v m foldable (r.step (.pop count)) rest) :
    MoveKeeps s v m foldable r (.pop count :: rest) := by
  intro frames ws run
  obtain ⟨enough, run⟩ := journal_pop_eq_some_iff.1 run
  rw [length_carry] at enough
  rw [drop_carry, ← funext (r.carries_pop count)] at run
  rw [absorb, absorbFolds, r.marks_of_isBracket rfl]
  obtain ⟨ws', run', rfl⟩ := later _ _ run
  exact ⟨ws', journal_pop_eq_some_iff.2 ⟨enough, run'⟩, rfl⟩

/-- An instruction in a frame that has the transform, or never had it, is left alone. -/
theorem unmarked (hb : i.isBracket = false) (other : r.marks i = false)
    (later : MoveKeeps s v m foldable (r.step i) rest) :
    MoveKeeps s v m foldable r (i :: rest) := by
  intro frames ws run
  have current : r.carries 0 = false := by rw [← r.marks_eq hb, other]
  have same : r.step i = r := Reach.step_of_not_open (by rw [← r.carries_zero, current]) hb
  rw [absorb, absorbFolds, other]
  cases frames with
  | nil =>
      rw [carry, journal_no_frames] at run
      cases run
  | cons x below =>
      rw [carry_cons_of_not_lacks current] at run
      obtain ⟨frame, written, after, he, hj, rfl⟩ := (journal_other_eq_some_iff hb).1 run
      rw [← carry_cons_of_not_lacks current, ← same] at hj
      obtain ⟨ws', run', rfl⟩ := later _ _ hj
      exact ⟨written ++ ws',
        (journal_other_eq_some_iff hb).2 ⟨frame, written, ws', he, run', rfl⟩,
        (recoverAll_append_writes (following_lt_of_journal run') written).symm⟩

/-- A plain write that takes the transform stores the frame without it. -/
theorem write {slot : UInt32} (user : r.marks (.write slot) = true) (folded : foldable slot = true)
    (later : MoveKeeps (.ofMonoid value block limit) (value m.toMatrix) m foldable
      (r.step (.write slot)) rest) :
    MoveKeeps (.ofMonoid value block limit) (value m.toMatrix) m foldable r
      (.write slot :: rest) := by
  intro frames ws run
  have lacking : r.carries 0 = true := by rw [← r.marks_eq (i := .write slot) rfl, user]
  rw [absorb, absorbFolds, if_pos user, if_pos user]
  cases frames with
  | nil =>
      rw [carry, journal_no_frames] at run
      cases run
  | cons x below =>
      rw [carry_cons_of_lacks lacking] at run
      obtain ⟨frame, written, after, ⟨⟩, hj, rfl⟩ := (journal_other_eq_some_iff rfl).1 run
      rw [← carry_cons_of_lacks lacking] at hj
      obtain ⟨ws', run', rfl⟩ := later _ _ hj
      have place : (writtenSlots rest).length = ws'.length := by
        rw [← map_fst_of_journal hj, List.length_map, length_recoverAll]
      refine ⟨(slot, x) :: ws', ?_, ?_⟩
      · rw [moveTo, if_pos folded, List.singleton_append, journal_write]
        exact congrArg (Option.map _) run'
      · rw [foldAt, if_pos folded]
        exact (recoverAll_first (s := .ofMonoid value block limit) (following_lt_of_journal run')
          place slot m x).symm

/-- Any other user gets the transform, and its frame has it from there on. -/
theorem user (laws : LawfulMerge domain value) (hm : domain m)
    (static : ∀ t, i = .static t → domain t) (hb : i.isBracket = false)
    (hw : ∀ slot, i ≠ .write slot) (user : r.marks i = true)
    (later : MoveKeeps (.ofMonoid value block limit) (value m.toMatrix) m foldable (r.step i)
      rest) :
    MoveKeeps (.ofMonoid value block limit) (value m.toMatrix) m foldable r (i :: rest) := by
  intro frames ws run
  have lacking : r.carries 0 = true := by rw [← r.marks_eq hb, user]
  have folds : foldAt m foldable rest i = [] := by
    cases i with
    | write slot => exact absurd rfl (hw slot)
    | _ => rfl
  rw [absorb, absorbFolds, if_pos user, if_pos user]
  cases frames with
  | nil =>
      rw [carry, journal_no_frames] at run
      cases run
  | cons x below =>
      rw [carry_cons_of_lacks lacking] at run
      obtain ⟨frame, written, after, he, hj, rfl⟩ := (journal_other_eq_some_iff hb).1 run
      -- the outer frames still lack the transform, the current one does not
      have closed : frame :: carry (value m.toMatrix) (fun k => r.carries (k + 1)) below =
          carry (value m.toMatrix) (r.step i).carries (frame :: below) := by
        rw [carry_cons_of_not_lacks (r.carries_user_zero hb hw),
          funext (r.carries_user_succ hb hw)]
      rw [closed] at hj
      obtain ⟨ws', run', rfl⟩ := later _ _ hj
      refine ⟨written ++ ws', ?_, ?_⟩
      · rw [journal_moveTo laws hm hw hb static]
        exact (journal_other_eq_some_iff hb).2 ⟨frame, written, ws', he, run', rfl⟩
      · rw [folds, List.nil_append, recoverAll_append_writes (following_lt_of_journal run')]

end MoveKeeps

/-- **A transform is moved to its users**, if no write would have to be wrapped. -/
theorem moveKeeps (laws : LawfulMerge domain value) (hm : domain m) {r : Reach}
    {is : List Instruction} (statics : ∀ t, .static t ∈ is → domain t)
    (cheap : ∀ i ∈ r.influenced is, (movingCost foldable i).2 ≤ 1) :
    MoveKeeps (.ofMonoid value block limit) (value m.toMatrix) m foldable r is := by
  induction is generalizing r with
  | nil => exact .nil
  | cons i rest ih =>
      have later : MoveKeeps (.ofMonoid value block limit) (value m.toMatrix) m foldable (r.step i)
          rest :=
        ih (fun t ht => statics t (List.mem_cons_of_mem _ ht))
          fun j hj => cheap j (Reach.mem_influenced_of_mem hj)
      cases i using Instruction.bracketCases with
      | push => exact .push later
      | pop count => exact .pop later
      | inside i hb =>
          by_cases user : r.marks i = true
          · by_cases hw : ∃ slot, i = .write slot
            · obtain ⟨slot, rfl⟩ := hw
              -- a write that is not folded into would cost more than the move may
              have own := cheap (.write slot) (Reach.mem_influenced_self user rest)
              exact .write user (foldable_of_movingCost_le own) later
            · exact .user laws hm (fun t e => statics t (e ▸ List.mem_cons_self ..)) hb
                (fun slot e => hw ⟨slot, e⟩) user later
          · exact .unmarked hb (Bool.eq_false_iff.2 user) later

/-! ### A pass -/

theorem carry_of_lacks_none {v : M} {lacks : Nat → Bool} (h : ∀ k, lacks k = false)
    (frames : List M) : carry v lacks frames = frames := by
  induction frames generalizing lacks with
  | nil => rfl
  | cons x frames ih => rw [carry_cons_of_not_lacks (h 0), ih fun k => h (k + 1)]

/-- Just after the transform only its own frame has changed. -/
theorem carry_start (v x : M) (below : List M) :
    carry v Reach.start.carries (x :: below) = x * v :: below := by
  rw [carry_cons_of_lacks rfl, carry_of_lacks_none]
  intro k
  rw [Bool.eq_false_iff]
  intro h
  have := (Reach.carries_iff.1 h).2
  simp only [Reach.start] at this
  omega

/-- The transform at the head of the list is moved to its users. -/
theorem recovers_absorb (laws : LawfulMerge domain value) {rest : List Instruction}
    (statics : ∀ t, .static t ∈ Instruction.static m :: rest → domain t)
    (cheap : ∀ i ∈ Reach.start.influenced rest, (movingCost foldable i).2 ≤ 1) :
    Recovers (.ofMonoid value block limit) (absorbFolds m foldable .start rest)
      (.static m :: rest) (absorb m foldable .start rest) := by
  intro frames ws _ run
  obtain ⟨top, below, rfl⟩ := ne_nil_of_journal run
  rw [journal_static] at run
  refine moveKeeps laws (statics m (List.mem_cons_self ..))
    (fun t ht => statics t (List.mem_cons_of_mem _ ht)) cheap _ _ ?_
  rw [carry_start]
  exact run

/-- A move stays in the class of transforms. -/
theorem statics_absorb (laws : LawfulMerge domain value) (hm : domain m) {r : Reach}
    {is : List Instruction} (statics : ∀ t, .static t ∈ is → domain t) :
    ∀ t, .static t ∈ absorb m foldable r is → domain t := by
  induction is generalizing r with
  | nil => exact fun _ h => absurd h List.not_mem_nil
  | cons i rest ih =>
      intro t ht
      rw [absorb, List.mem_append] at ht
      rcases ht with ht | ht
      · split at ht
        · cases i with
          | static u =>
              rw [moveTo, List.mem_singleton] at ht
              cases ht
              exact laws.merge_mem hm (statics u (List.mem_cons_self ..))
          | write slot =>
              rw [moveTo] at ht
              split at ht
              · simp at ht
              · simp only [List.mem_cons, reduceCtorEq, Instruction.static.injEq,
                  List.not_mem_nil, or_false, false_or] at ht
                rw [ht]
                exact hm
          | push | pop | parameter | writeStatic | writeParameter | binding | comment =>
              simp only [moveTo, List.mem_cons, reduceCtorEq, Instruction.static.injEq,
                List.not_mem_nil, or_false] at ht
              rw [ht]
              exact hm
        · rw [List.mem_singleton] at ht
          exact statics t (ht ▸ List.mem_cons_self ..)
      · exact ih (fun u hu => statics u (List.mem_cons_of_mem _ hu)) t ht

namespace Merges

/-- A pass stays in the class of transforms. -/
theorem statics {taken : List UInt32} {is js : List Instruction} {folds : List Fold}
    {result : Except OptimizeFault (List Instruction)} (laws : LawfulMerge domain value)
    (h : Merges foldable taken is folds result) (ok : result = .ok js)
    (old : ∀ t, .static t ∈ is → domain t) : ∀ t, .static t ∈ js → domain t := by
  refine h.induction_of_ok
    (fun is js => (∀ t, .static t ∈ is → domain t) → ∀ t, .static t ∈ js → domain t)
    id ?_ ?_ ?_ ok old
  · intro s rest js ih old
    exact ih fun t ht => old t (List.mem_cons_of_mem _ ht)
  · intro m rest js _ ih old
    have tail : ∀ t, .static t ∈ rest → domain t := fun t ht =>
      old t (List.mem_cons_of_mem _ ht)
    exact ih (statics_absorb laws (old m (List.mem_cons_self ..)) tail)
  · intro i rest js ih old t ht
    rcases List.mem_cons.1 ht with rfl | ht
    · exact old t (List.mem_cons_self ..)
    · exact ih (fun u hu => old u (List.mem_cons_of_mem _ hu)) t ht

/-- **A pass keeps every write up to its folds.** -/
theorem recovers {taken : List UInt32} {is js : List Instruction} {folds : List Fold}
    {result : Except OptimizeFault (List Instruction)} (laws : LawfulMerge domain value)
    (h : Merges foldable taken is folds result) (ok : result = .ok js)
    (old : ∀ t, .static t ∈ is → domain t) :
    Recovers (.ofMonoid value block limit) folds is js := by
  induction h generalizing js with
  | nil =>
      cases ok
      exact recovers_nil_iff.2 (.refl [])
  | @unused taken m rest folds result none next ih =>
      have tail : ∀ t, .static t ∈ rest → domain t := fun t ht =>
        old t (List.mem_cons_of_mem _ ht)
      have head : Recovers (.ofMonoid value block limit) (absorbFolds m foldable .start rest)
          (.static m :: rest) (absorb m foldable .start rest) :=
        recovers_absorb laws old (by rw [none]; exact fun _ h => absurd h List.not_mem_nil)
      rw [(absorb_of_influenced_nil none).1, (absorb_of_influenced_nil none).2] at head
      exact head.trans (ih ok tail)
  | rejected => cases ok
  | @moved taken m rest folds result worth once next ih =>
      have tail : ∀ t, .static t ∈ rest → domain t := fun t ht =>
        old t (List.mem_cons_of_mem _ ht)
      exact (recovers_absorb laws old (movingCost_le_of_shouldMove worth)).trans
        (ih ok (statics_absorb laws (old m (List.mem_cons_self ..)) tail))
  | @passed taken i rest folds result _ next ih =>
      cases result with
      | error fault => cases ok
      | ok ks =>
          cases ok
          refine .cons i ?_ (ih rfl fun t ht => old t (List.mem_cons_of_mem _ ht))
          intro f hf
          rw [writtenSlots_of_observed_eq (next.observed_eq rfl)]
          exact (next.fold_place hf).length_le

end Merges

end Carry

end Armature
