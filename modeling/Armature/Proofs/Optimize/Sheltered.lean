/-
**A fold is rejected only at a slot that is written twice.**

A merging pass checks a fold against all folds made before in the pass, while transforms are moved,
copied and looked at again.  A transform that was folded into a write has met all others on its way:
one that stands in between either took it up, or was passed by in another frame, and reaches only
writes that the folded one does not.  A copy reaches nothing but the blocker in front of which it
was put.  So the write is out of reach for all transforms that are left, and later moves keep it so.

Main definitions:

* `Sheltered` — no static transform of a list reaches a plain write to a slot first;
* `Reach.ShareNoFrame` — two transforms are carried unused by different frames;
* `Gauge.writes` — the number of plain writes to a slot as a measure.

Main results:

* `Reach.ShareNoFrame.count_influenced_le` — no instruction is a first user of both;
* `sheltered_absorb` — **a move shelters the write it folds into**, and keeps it sheltered;
* `Merges.two_le_count` — a merging pass rejects a fold only at a slot that is written twice;
* `two_writes_of_duplicateFold` — **so does an optimization**, which succeeds if every slot that
  takes transforms is written once.
-/

import Armature.Optimize.Hook
import Armature.Proofs.Optimize.Growth
import Armature.Proofs.Optimize.Rejection
import Armature.Proofs.Optimize.Unwrapped

set_option autoImplicit false

namespace Armature

variable {foldable : UInt32 → Bool} {s t : Transform} {q r : Reach} {i : Instruction}
  {is js rest : List Instruction} {slot : UInt32}

/-! ### Two transforms on their way -/

namespace Reach

/-- The two transforms are carried unused by different frames. -/
def ShareNoFrame (q r : Reach) : Prop := ∀ k, q.carries k = true → r.carries k = false

namespace ShareNoFrame

/-- Frames that are opened are copies, so the transforms stay apart. -/
theorem step (apart : q.ShareNoFrame r) (i : Instruction) : (q.step i).ShareNoFrame (r.step i) := by
  intro k
  cases i using Instruction.bracketCases with
  | push =>
      cases k with
      | zero =>
          rw [carries_push_zero, carries_push_zero]
          exact apart 0
      | succ k =>
          rw [carries_push_succ, carries_push_succ]
          exact apart k
  | pop count =>
      rw [carries_pop, carries_pop]
      exact apart _
  | inside i hb =>
      by_cases write : ∃ slot, i = .write slot
      · obtain ⟨slot, rfl⟩ := write
        exact apart k
      · have hw : ∀ slot, i ≠ .write slot := fun slot same => write ⟨slot, same⟩
        cases k with
        | zero =>
            intro _
            exact r.carries_user_zero hb hw
        | succ k =>
            rw [carries_user_succ _ hb hw, carries_user_succ _ hb hw]
            exact apart _

theorem marks_eq_false (apart : q.ShareNoFrame r) (marked : q.marks i = true) :
    r.marks i = false := by
  have current : q.carries 0 = true := by
    rw [carries_zero]
    rw [marks, Bool.and_eq_true] at marked
    exact marked.1
  refine Reach.marks_eq_false ?_ i
  rw [← carries_zero]
  exact apart 0 current

/-- **No instruction is a first user of both.** -/
theorem count_influenced_le (apart : q.ShareNoFrame r) (is : List Instruction) (x : Instruction) :
    (q.influenced is).count x + (r.influenced is).count x ≤ is.count x := by
  induction is generalizing q r with
  | nil => exact Nat.le_refl 0
  | cons i rest ih =>
      have later := ih (apart.step i)
      rw [influenced, influenced, List.count_cons]
      by_cases first : q.marks i = true
      · rw [if_pos first, apart.marks_eq_false first, if_neg Bool.false_ne_true, List.count_cons]
        omega
      · rw [if_neg first]
        split
        · rw [List.count_cons]
          omega
        · omega

end ShareNoFrame

/-- A transform and one that met it have nothing in common. -/
theorem shareNoFrame_start_step (r : Reach) (t : Transform) :
    start.ShareNoFrame (r.step (.static t)) := by
  intro k carried
  obtain ⟨-, first⟩ := carries_iff.1 carried
  obtain rfl : k = 0 := Nat.lt_one_iff.1 first
  exact r.carries_user_zero rfl fun slot => Instruction.noConfusion

/-- The only write to a slot that is reached past a transform is out of reach for that one. -/
theorem not_mem_influenced_of_met (once : rest.count (.write slot) ≤ 1)
    (reached : .write slot ∈ r.influenced (.static t :: rest)) :
    .write slot ∉ start.influenced rest := by
  intro reaches
  rcases mem_influenced_cons.1 reached with ⟨-, same⟩ | later
  · cases same
  · have apart := (r.shareNoFrame_start_step t).count_influenced_le rest (.write slot)
    have first := List.count_pos_iff.2 reaches
    have second := List.count_pos_iff.2 later
    omega

/-- A blocker behind a transform does what it does without it. -/
theorem step_static_step (blocker : i.role = .blocker) :
    (q.step (.static s)).step i = q.step i := by
  have met : (q.step (.static s)).isOpen = false := isOpen_step (.inl rfl)
  cases i with
  | push | pop | static | write => cases blocker
  | parameter | writeStatic | writeParameter | binding | comment => exact step_of_not_open met rfl

/-- Behind a blocker a transform has no users. -/
theorem influenced_step_blocker (blocker : i.role = .blocker) (is : List Instruction) :
    (start.step i).influenced is = [] := by
  refine influenced_of_carrying_eq_zero ?_ is
  cases i with
  | push | pop | static | write => cases blocker
  | parameter | writeStatic | writeParameter | binding | comment => rfl

end Reach

/-! ### Sheltered writes -/

/-- No static transform of the list reaches a plain write to the slot first. -/
def Sheltered (slot : UInt32) : List Instruction → Prop
  | [] => True
  | i :: rest =>
    (i.role = .static → Instruction.write slot ∉ Reach.start.influenced rest) ∧
      Sheltered slot rest

theorem sheltered_static_iff :
    Sheltered slot (.static s :: rest) ↔
      Instruction.write slot ∉ Reach.start.influenced rest ∧ Sheltered slot rest :=
  and_congr_left' (imp_iff_right rfl)

/-- A slot that is not written is sheltered. -/
theorem sheltered_of_not_mem (unwritten : Instruction.write slot ∉ is) : Sheltered slot is := by
  induction is with
  | nil => exact trivial
  | cons i rest ih =>
      rw [List.mem_cons, not_or] at unwritten
      refine ⟨fun _ user => unwritten.2 ?_, ih unwritten.2⟩
      exact (Reach.influenced_sublist _ rest).subset user

/-! ### One move -/

/-- Where no write is wrapped, a user takes the transform up, passes it to the table, or gets it in
front. -/
theorem moveTo_cases (s : Transform) (user : r.marks i = true)
    (cheap : (movingCost foldable i).2 ≤ 1) :
    (∃ t, i = .static t ∧ moveTo s foldable i = [.static (s.merge t)]) ∨
      (∃ slot, i = .write slot ∧ moveTo s foldable i = [.write slot]) ∨
      i.role = .blocker ∧ moveTo s foldable i = [.static s, i] := by
  cases i with
  | push | pop => simp [Reach.marks, Instruction.role] at user
  | static t => exact .inl ⟨t, rfl, rfl⟩
  | write slot => exact .inr (.inl ⟨slot, rfl, if_pos (foldable_of_movingCost_le cheap)⟩)
  | parameter | writeStatic | writeParameter | binding | comment => exact .inr (.inr ⟨rfl, rfl⟩)

/-- What becomes of a user is passed by other transforms as the user is. -/
theorem mem_influenced_moveTo (user : r.marks i = true) (cheap : (movingCost foldable i).2 ≤ 1) :
    Instruction.write slot ∈ q.influenced (moveTo s foldable i ++ js) ↔
      Instruction.write slot ∈ q.influenced (i :: js) := by
  rcases moveTo_cases s user cheap with
    ⟨t, rfl, taken⟩ | ⟨other, rfl, passed⟩ | ⟨blocker, copied⟩
  · rw [taken, List.singleton_append, Reach.mem_influenced_cons, Reach.mem_influenced_cons]
    simp [Reach.step]
  · rw [passed]
    rfl
  · have other : Instruction.write slot ≠ i := by
      rintro rfl
      cases blocker
    rw [copied, List.cons_append, List.singleton_append, Reach.mem_influenced_cons,
      Reach.mem_influenced_cons, Reach.step_static_step blocker, Reach.mem_influenced_cons]
    simp [other]

/-- A move does not change which plain writes another transform reaches first. -/
theorem mem_influenced_absorb (cheap : ∀ i ∈ r.influenced is, (movingCost foldable i).2 ≤ 1) :
    Instruction.write slot ∈ q.influenced (absorb s foldable r is) ↔
      Instruction.write slot ∈ q.influenced is := by
  induction is generalizing q r with
  | nil => rfl
  | cons i rest ih =>
      have tail : ∀ {q : Reach}, Instruction.write slot ∈
          q.influenced (absorb s foldable (r.step i) rest) ↔
            Instruction.write slot ∈ q.influenced rest :=
        ih fun j later => cheap j (Reach.mem_influenced_of_mem later)
      rw [absorb]
      split
      · rename_i user
        have own := cheap i (Reach.mem_influenced_self user rest)
        rw [mem_influenced_moveTo user own, Reach.mem_influenced_cons, Reach.mem_influenced_cons,
          tail]
      · rw [List.singleton_append, Reach.mem_influenced_cons, Reach.mem_influenced_cons, tail]

/-- A slot that is sheltered stays so when a user is replaced by what becomes of it. -/
theorem sheltered_moveTo (user : r.marks i = true) (cheap : (movingCost foldable i).2 ≤ 1)
    (sheltered : Sheltered slot (i :: js)) : Sheltered slot (moveTo s foldable i ++ js) := by
  rcases moveTo_cases s user cheap with
    ⟨t, rfl, taken⟩ | ⟨other, rfl, passed⟩ | ⟨blocker, copied⟩
  · rw [taken]
    exact sheltered
  · rw [passed]
    exact sheltered
  · -- the copy reaches the blocker and nothing behind it
    rw [copied]
    refine sheltered_static_iff.2 ⟨fun reached => ?_, sheltered⟩
    rcases Reach.mem_influenced_cons.1 reached with ⟨-, rfl⟩ | behind
    · cases blocker
    · rw [Reach.influenced_step_blocker blocker] at behind
      cases behind

/-- **A move shelters the write it folds into**, if it is the only one to its slot, and keeps it
sheltered. -/
theorem sheltered_absorb (cheap : ∀ i ∈ r.influenced is, (movingCost foldable i).2 ≤ 1)
    (once : is.count (.write slot) ≤ 1)
    (met : Sheltered slot is ∨ Instruction.write slot ∈ r.influenced is) :
    Sheltered slot (absorb s foldable r is) := by
  induction is generalizing r with
  | nil => exact trivial
  | cons i rest ih =>
      have fewer : rest.count (.write slot) ≤ 1 :=
        Nat.le_trans (List.count_le_count_cons ..) once
      have ease : ∀ j ∈ (r.step i).influenced rest, (movingCost foldable j).2 ≤ 1 :=
        fun j later => cheap j (Reach.mem_influenced_of_mem later)
      have behind : Sheltered slot rest ∨ Instruction.write slot ∈ (r.step i).influenced rest := by
        rcases met with sheltered | reached
        · exact .inl sheltered.2
        · rcases Reach.mem_influenced_cons.1 reached with ⟨-, rfl⟩ | later
          · -- this is the write, and there is no other one
            refine .inl (sheltered_of_not_mem fun again => ?_)
            rw [List.count_cons_self] at once
            have := List.count_pos_iff.2 again
            omega
          · exact .inr later
      have stays : Sheltered slot (i :: absorb s foldable (r.step i) rest) := by
        refine ⟨fun role => ?_, ih ease fewer behind⟩
        rw [mem_influenced_absorb ease]
        rcases met with sheltered | reached
        · exact sheltered.1 role
        · cases i with
          | static t => exact Reach.not_mem_influenced_of_met fewer reached
          | _ => cases role
      rw [absorb]
      split
      · rename_i user
        exact sheltered_moveTo user (cheap i (Reach.mem_influenced_self user rest)) stays
      · exact stays

/-! ### A merging pass -/

/-- A repeated slot was taken before or occurs twice. -/
theorem mem_or_two_le_count_of_firstRepeat? {taken slots : List UInt32}
    (again : firstRepeat? taken slots = some slot) : slot ∈ taken ∨ 2 ≤ slots.count slot := by
  induction slots generalizing taken with
  | nil => cases again
  | cons first rest ih =>
      rw [firstRepeat?] at again
      split at again
      · rename_i before
        cases again
        exact .inl (List.contains_iff_mem.1 before)
      · rcases ih again with before | twice
        · rcases List.mem_cons.1 before with rfl | before
          · right
            have := List.count_pos_iff.2 (mem_of_firstRepeat? again)
            rw [List.count_cons_self]
            omega
          · exact .inl before
        · exact .inr (Nat.le_trans twice (List.count_le_count_cons ..))

/-- What is folded into are plain writes among the users. -/
theorem map_write_foldSlots_sublist (foldable : UInt32 → Bool) (users : List Instruction) :
    ((foldSlots foldable users).map Instruction.write).Sublist users := by
  induction users with
  | nil => exact .slnil
  | cons i users ih =>
      cases i with
      | write other =>
          cases takes : foldable other with
          | true => simpa [foldSlots, takes] using ih
          | false => simpa [foldSlots, takes] using ih.cons (.write other)
      | _ => exact ih.cons _

theorem count_foldSlots_le (foldable : UInt32 → Bool) (slot : UInt32) (users : List Instruction) :
    (foldSlots foldable users).count slot ≤ users.count (.write slot) :=
  Nat.le_trans (List.count_le_count_map ..)
    ((map_write_foldSlots_sublist foldable users).count_le (.write slot))

theorem count_write_eq (same : withoutStatics js = withoutStatics is) :
    js.count (.write slot) = is.count (.write slot) := by
  have kept : ∀ is, (withoutStatics is).count (.write slot) = is.count (.write slot) :=
    fun is => List.count_filter rfl
  rw [← kept js, ← kept is, same]

/-- **A merging pass rejects a fold only at a slot that is written twice.** -/
theorem Merges.two_le_count {taken : List UInt32} {folds : List Fold}
    {result : Except OptimizeFault (List Instruction)} (h : Merges foldable taken is folds result)
    (before : slot ∈ taken → Sheltered slot is)
    (failed : result = .error (.duplicateFold slot)) : 2 ≤ is.count (.write slot) := by
  induction h with
  | nil => cases failed
  | unused _ _ ih =>
      exact Nat.le_trans (ih (fun old => (before old).2) failed) (List.count_le_count_cons ..)
  | @rejected taken s rest other _ again =>
      cases failed
      have reached : (foldSlots foldable (Reach.start.influenced rest)).count slot ≤
          rest.count (.write slot) :=
        Nat.le_trans (count_foldSlots_le ..) ((Reach.influenced_sublist _ rest).count_le _)
      have found := List.count_pos_iff.2 (mem_of_firstRepeat? again)
      rcases mem_or_two_le_count_of_firstRepeat? again with old | twice
      · -- what was folded into before is out of reach
        have unreached := List.count_eq_zero.2 (sheltered_static_iff.1 (before old)).1
        have users := count_foldSlots_le foldable slot (Reach.start.influenced rest)
        omega
      · exact Nat.le_trans (Nat.le_trans twice reached) (List.count_le_count_cons ..)
  | @moved taken s rest folds result worth _ _ ih =>
      have cheap := movingCost_le_of_shouldMove worth
      have same : (absorb s foldable .start rest).count (.write slot) =
          rest.count (.write slot) := count_write_eq (withoutStatics_absorb cheap)
      refine Nat.le_trans ?_ (List.count_le_count_cons ..)
      by_contra few
      refine few (same ▸ ih (fun taken => sheltered_absorb cheap (by omega) ?_) failed)
      rcases List.mem_append.1 taken with new | old
      · refine .inr (List.count_pos_iff.1 ?_)
        exact Nat.lt_of_lt_of_le (List.count_pos_iff.2 new) (count_foldSlots_le ..)
      · exact .inl (before old).2
  | @passed taken i rest folds result _ _ ih =>
      have later : result = .error (.duplicateFold slot) := by
        cases result with
        | ok js => cases failed
        | error fault => exact failed
      exact Nat.le_trans (ih (fun old => (before old).2) later) (List.count_le_count_cons ..)

/-! ### All passes -/

/-- The number of plain writes to a slot as a measure. -/
def Gauge.writes (slot : UInt32) : Gauge where
  cost i := if i = .write slot then 1 else 0
  unit := 0
  cost_matrix _ := rfl
  cost_other _ := Nat.le_refl 0
  cost_scale _ _ := Nat.le_refl 0
  cost_pop _ _ := rfl
  cost_writeStatic _ _ := Nat.zero_le _
  cost_writeParameter _ _ := Nat.zero_le _

theorem Gauge.total_writes (slot : UInt32) (is : List Instruction) :
    (writes slot).total is = is.count (.write slot) := by
  induction is with
  | nil => rfl
  | cons i rest ih =>
      rw [total_cons, ih, List.count_cons, Nat.add_comm]
      simp only [writes, beq_iff_eq]

/-- A measure does not become greater. -/
theorem Gauge.Cheaper.count_write_le (cheaper : (Gauge.writes slot).Cheaper is js) :
    js.count (.write slot) ≤ is.count (.write slot) := by
  have total := cheaper.total
  rwa [total_writes, total_writes] at total

variable {config : OptimizerConfig}

/-- No pass adds a plain write. -/
theorem count_write_pass_le {pass : Pass} {table table' : FoldTable}
    (run : pass.run config table is = (table', .ok js)) :
    js.count (.write slot) ≤ is.count (.write slot) := by
  cases pass with
  | dead => cases run; exact (Gauge.cheaper_eliminateDead _ is).count_write_le
  | push => cases run; exact (Gauge.cheaper_removeRedundantPushes _ is).count_write_le
  | merge =>
      have spec := merges_mergeTransforms table is
      rw [show mergeTransforms table is = (table', .ok js) from run] at spec
      exact (count_write_eq (spec.withoutStatics_eq rfl)).le
  | simplify => cases run; exact (Gauge.cheaper_simplifyTransforms _ config is).count_write_le
  | fuse => cases run; exact (Gauge.cheaper_fuseWrites _ is).count_write_le

/-- A merging pass that fails found a slot that takes transforms and is written twice. -/
theorem exists_two_writes_of_mergeTransforms {table : FoldTable} {fault : OptimizeFault}
    (failed : (mergeTransforms table is).2 = .error fault) :
    ∃ slot, fault = .duplicateFold slot ∧ table.foldable slot = true ∧
      2 ≤ is.count (.write slot) := by
  have spec := merges_mergeTransforms table is
  obtain ⟨slot, rfl, takes⟩ := spec.exists_slot_of_fault failed
  have untaken : slot ∉ ([] : List UInt32) := List.not_mem_nil
  exact ⟨slot, rfl, takes, spec.two_le_count (absurd · untaken) failed⟩

/-- An optimization that fails found a slot that takes transforms and is written twice. -/
theorem exists_two_writes_of_optimizeInstructions {table : FoldTable} {fault : OptimizeFault}
    (failed : (optimizeInstructions config table is).result = .error fault) :
    ∃ slot, fault = .duplicateFold slot ∧ table.foldable slot = true ∧
      2 ≤ is.count (.write slot) := by
  obtain ⟨pass, table', is', same, fewer, failed⟩ := exists_pass_of_runRounds_of_kept
    (fun js => ∀ slot, js.count (.write slot) ≤ is.count (.write slot))
    (fun _ _ _ _ _ run few slot => Nat.le_trans (count_write_pass_le run) (few slot))
    (fun _ => Nat.le_refl _) failed
  cases pass with
  | merge =>
      obtain ⟨slot, rfl, takes, twice⟩ := exists_two_writes_of_mergeTransforms failed
      exact ⟨slot, rfl, same ▸ takes, Nat.le_trans twice (fewer slot)⟩
  | dead | push | simplify | fuse => cases failed

/-- The optimization of a stream that is decoded fails as that of the list does. -/
theorem optimize_eq_error_iff {table : FoldTable} {words : List UInt32} {fault : OptimizeFault}
    (decoded : Instruction.decodeAll words = .ok is) :
    (optimize config table words).result = .error fault ↔
      (optimizeInstructions config table is).result = .error fault := by
  simp only [optimize, decoded]
  cases (optimizeInstructions config table is).result with
  | ok js => simp
  | error fault' => simp

/-! ### Streams -/

/-- **A fold is rejected only at a slot that is written twice**, by a merging pass and by an
optimization.  So if every slot that takes transforms is written once, no fold is rejected, and the
optimization of a stream succeeds if it is decoded. -/
theorem two_writes_of_duplicateFold (config : OptimizerConfig) (table : FoldTable) :
    (∀ is slot, (mergeTransforms table is).2 = .error (.duplicateFold slot) →
      2 ≤ is.count (.write slot)) ∧
    (∀ words slot, (optimize config table words).result = .error (.duplicateFold slot) →
      ∃ is, Instruction.decodeAll words = .ok is ∧ 2 ≤ is.count (.write slot)) ∧
    ∀ is, (∀ slot, table.foldable slot = true → is.count (.write slot) ≤ 1) →
      (∃ js, (mergeTransforms table is).2 = .ok js) ∧
      ∀ words, Instruction.decodeAll words = .ok is →
        ∃ built, (optimize config table words).result = .ok built := by
  refine ⟨fun is slot failed => ?_, fun words slot failed => ?_, fun is once => ⟨?_, ?_⟩⟩
  · obtain ⟨_, ⟨⟩, -, twice⟩ := exists_two_writes_of_mergeTransforms failed
    exact twice
  · cases decoded : Instruction.decodeAll words with
    | error fault =>
        rw [optimize_eq_stream_error_iff.2 decoded] at failed
        cases failed
    | ok is =>
        obtain ⟨_, ⟨⟩, -, twice⟩ :=
          exists_two_writes_of_optimizeInstructions ((optimize_eq_error_iff decoded).1 failed)
        exact ⟨is, rfl, twice⟩
  · cases merged : (mergeTransforms table is).2 with
    | ok js => exact ⟨js, rfl⟩
    | error fault =>
        obtain ⟨slot, -, takes, twice⟩ := exists_two_writes_of_mergeTransforms merged
        have := once slot takes
        omega
  · intro words decoded
    cases result : (optimize config table words).result with
    | ok built => exact ⟨built, rfl⟩
    | error fault =>
        obtain ⟨slot, -, takes, twice⟩ :=
          exists_two_writes_of_optimizeInstructions ((optimize_eq_error_iff decoded).1 result)
        have := once slot takes
        omega

/-- A transform for a branch that has one already, and for a write behind the branch. -/
def reflectedBranch : List Instruction :=
  [.static (.uniformScale (-.one)), .push, .static (.uniformScale .one), .write 1, .pop 1, .write 0]

/-- Where a frame is written twice to one slot a fold is rejected; where both transforms reach
writes to different slots, both are folded. -/
theorem two_writes_of_duplicateFold_reflectedBranch :
    2 ≤ repeatedWrite.count (.write 0) ∧
    (∃ is, Instruction.decodeAll (Instruction.encodeAll repeatedWrite) = .ok is ∧
      2 ≤ is.count (.write 0)) ∧
    (∃ js, (mergeTransforms (.uniform 2 true) reflectedBranch).2 = .ok js) ∧
    ∃ built, (optimize .standard (.uniform 2 true)
      (Instruction.encodeAll reflectedBranch)).result = .ok built := by
  obtain ⟨lists, streams, succeeds⟩ := two_writes_of_duplicateFold .standard (.uniform 2 true)
  have different : reflectedBranch.Nodup := by decide +kernel
  obtain ⟨merged, optimized⟩ := succeeds reflectedBranch fun slot _ =>
    List.nodup_iff_count_le_one.1 different (.write slot)
  exact ⟨lists _ 0 (by decide +kernel), streams _ 0 (by decide +kernel), merged,
    optimized _ (by decide +kernel)⟩

end Armature
