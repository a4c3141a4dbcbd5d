/-
**Looking ahead finds exactly the first users.**

Looking ahead keeps two numbers: how many frames carry the transform unused, and how many on top of
them do not.  What it finds is described here without them, by counting frames between two
positions: a user stands where the frame of the transform is still open, and nothing before it has
used the transform up in a frame that is still open there.

The same positions are found by going down into every frame that is opened.  Such a descent comes
back from a frame with the position behind the pop that closes it, and with the number of frames
that this pop closes beyond it; where the transform has been used up, the rest of the frame is
skipped.  One pop may end several frames of the descent at once, each of which counts one off.

Main definitions:

* `Instruction.UsesUp` — nothing behind the instruction in its frame is a first user;
* `OpenAt`, `FirstUser` — a frame is open at a position, and the position of a first user;
* `Reach.after` — the reach behind a list;
* `Descent`, `skipFrame`, `descend` — the descent.

Main results:

* `Reach.carries_after` — **the two numbers say in which frames the transform is unused**;
* `mem_influences_iff` — looking ahead finds exactly the first users;
* `Reach.positions_ne_nil` — it finds one if a write follows;
* `Reach.positions_descend` — **the descent finds the same**, with any number of frames around it;
* `influences_exact` — **all of this**.
-/

import Armature.Proofs.Evaluate.Nesting
import Armature.Proofs.Optimize.Merge
import Armature.Proofs.Optimize.Turns
import Armature.Proofs.Optimize.Unseen
import Mathlib.Data.List.Induction

set_option autoImplicit false

namespace Armature

variable {i : Instruction} {is rest : List Instruction} {c k more : Nat}

/-! ### Users -/

/-- The instruction is a static transform, or needs the frame as it is. -/
def Instruction.UsesUp (i : Instruction) : Prop := i.role = .static ∨ i.role = .blocker

/-- The frame that is current in front of position `k` is still open in front of position `c`. -/
def OpenAt (is : List Instruction) (k c : Nat) : Prop := Outlasts 0 ((is.take c).drop k)

/-- The position `c` is that of a first user of a transform in front of `start`. -/
structure FirstUser (is : List Instruction) (start c : Nat) : Prop where
  /-- It is not in front of the transform. -/
  le : start ≤ c
  /-- A plain write stands there, or something that uses the transform up. -/
  user : ∃ i, is[c]? = some i ∧ (i.role = .output ∨ i.UsesUp)
  /-- The frame of the transform is still open there. -/
  inside : OpenAt is start c
  /-- Nothing in between has used the transform up in a frame that is still open there. -/
  first : ∀ k i, start ≤ k → k < c → is[k]? = some i → i.UsesUp → ¬ OpenAt is k c

namespace Instruction

theorem isBracket_eq_false_iff : i.isBracket = false ↔ i.role = .output ∨ i.UsesUp := by
  unfold UsesUp
  cases i <;> simp [isBracket, role]

theorem UsesUp.even (uses : i.UsesUp) : i.opens = 0 ∧ i.closes = 0 := by
  cases i with
  | push | pop => rcases uses with h | h <;> cases h
  | _ => exact ⟨rfl, rfl⟩

end Instruction

/-! ### Unused transforms by counting -/

/-- Of a transform in front of the list: its frame is still open behind the list, and nothing in a
frame that is still open has used it up, both also if `more` frames were closed there. -/
structure Unused (more : Nat) (is : List Instruction) : Prop where
  /-- The frame of the transform is open. -/
  inside : Outlasts more is
  /-- Nothing has used it up there. -/
  first : ¬ Stands Instruction.UsesUp more is

theorem unused_nil_iff : Unused more [] ↔ more = 0 :=
  ⟨fun h => outlasts_nil_iff.1 h.inside, fun h => ⟨outlasts_nil_iff.2 h, not_stands_nil _ _⟩⟩

/-- The last instruction uses the transform up in its own frame only. -/
theorem unused_append_singleton :
    Unused more (is ++ [i]) ↔ ¬ (more = 0 ∧ i.UsesUp) ∧ Unused (i.closingBefore more) is := by
  constructor
  · rintro ⟨inside, first⟩
    rw [outlasts_append_singleton] at inside
    rw [stands_append_singleton, not_or] at first
    exact ⟨first.1, inside, first.2⟩
  · rintro ⟨here, inside, first⟩
    refine ⟨outlasts_append_singleton.2 inside, ?_⟩
    rw [stands_append_singleton, not_or]
    exact ⟨here, first⟩

namespace Reach

variable {r : Reach}

/-- The reach behind a list. -/
def after (r : Reach) (is : List Instruction) : Reach := is.foldl step r

/-- The frames that carry the transform behind one more instruction. -/
theorem carries_step (r : Reach) (i : Instruction) (more : Nat) :
    (r.step i).carries more = true ↔
      ¬ (more = 0 ∧ i.UsesUp) ∧ r.carries (i.closingBefore more) = true := by
  cases i with
  | push =>
      cases more with
      | zero => simp [carries_push_zero, Instruction.UsesUp, Instruction.role,
          Instruction.closingBefore, Instruction.opens, Instruction.closes]
      | succ k => simp [carries_push_succ, Instruction.closingBefore, Instruction.opens,
          Instruction.closes]
  | pop count =>
      simp [carries_pop, Instruction.UsesUp, Instruction.role, Instruction.closingBefore,
        Instruction.opens, Instruction.closes]
  | write slot =>
      simp [step, Instruction.UsesUp, Instruction.role, Instruction.closingBefore,
        Instruction.opens, Instruction.closes]
  | static | parameter | writeStatic | writeParameter | binding | comment =>
      cases more with
      | zero =>
          rw [carries_user_zero r rfl fun slot => by simp]
          simp [Instruction.UsesUp, Instruction.role]
      | succ k =>
          rw [carries_user_succ r rfl fun slot => by simp]
          simp [Instruction.closingBefore, Instruction.opens, Instruction.closes]

/-- **The frames that carry the transform unused**, as the two numbers have it, are those in which
nothing has used it. -/
theorem carries_after (is : List Instruction) (more : Nat) :
    (start.after is).carries more = true ↔ Unused more is := by
  -- from the back, since the frames are counted from the one that is current behind the list
  induction is using List.reverseRecOn generalizing more with
  | nil =>
      rw [after, List.foldl_nil, carries_iff, unused_nil_iff, start]
      simp only
      omega
  | append_singleton is i ih =>
      rw [after, List.foldl_concat, carries_step, ← after, ih, unused_append_singleton]

theorem marks_eq_true_iff :
    r.marks i = true ↔ r.carries 0 = true ∧ (i.role = .output ∨ i.UsesUp) := by
  rw [← Instruction.isBracket_eq_false_iff]
  cases bracket : i.isBracket with
  | true => simp [marks_of_isBracket r bracket]
  | false => simp [marks_eq r bracket]

/-- A position is found if the reach that has come there marks what stands there. -/
theorem mem_positions_iff {k c : Nat} :
    c ∈ r.positions k is ↔
      ∃ n i, c = k + n ∧ is[n]? = some i ∧ (r.after (is.take n)).marks i = true := by
  induction is generalizing r k with
  | nil => simp [positions]
  | cons j rest ih =>
      have behind : c ∈ (r.step j).positions (k + 1) rest ↔
          ∃ n i, c = k + (n + 1) ∧ (j :: rest)[n + 1]? = some i ∧
            (r.after ((j :: rest).take (n + 1))).marks i = true := by
        simp only [ih, Nat.add_assoc, Nat.add_comm 1, List.getElem?_cons_succ, List.take_succ_cons,
          after, List.foldl_cons]
      have here : c ∈ r.positions k (j :: rest) ↔
          r.marks j = true ∧ c = k ∨ c ∈ (r.step j).positions (k + 1) rest := by
        rw [positions]
        split
        · rename_i marked
          simp [marked]
        · rename_i unmarked
          simp [unmarked]
      rw [here, behind]
      constructor
      · rintro (⟨marked, rfl⟩ | ⟨n, i, found⟩)
        · exact ⟨0, j, rfl, rfl, marked⟩
        · exact ⟨n + 1, i, found⟩
      · rintro ⟨n, i, rfl, there, marked⟩
        cases n with
        | zero =>
            cases there
            exact .inl ⟨marked, rfl⟩
        | succ n => exact .inr ⟨n, i, rfl, there, marked⟩

/-- The positions are found in increasing order. -/
theorem pairwise_positions (r : Reach) (k : Nat) (is : List Instruction) :
    (r.positions k is).Pairwise (· < ·) := by
  induction is generalizing r k with
  | nil => exact .nil
  | cons i rest ih =>
      rw [positions]
      split
      · refine List.pairwise_cons.2 ⟨fun c found => ?_, ih _ _⟩
        obtain ⟨n, -, rfl, -⟩ := mem_positions_iff.1 found
        omega
      · exact ih _ _

/-- If a write follows before the outermost frame that carries the transform is closed, a user is
found. -/
theorem positions_ne_nil {depth : Nat} (follows : writesBeforeClose depth is = true) :
    positions ⟨depth + 1, 0⟩ k is ≠ [] := by
  induction is generalizing depth k with
  | nil => cases follows
  | cons i rest ih =>
      rw [positions]
      cases i with
      | push => exact ih follows
      | pop count =>
          rw [writesBeforeClose] at follows
          split at follows
          · rename_i inside
            have reach : step ⟨depth + 1, 0⟩ (.pop count) = ⟨depth - count.toNat + 1, 0⟩ := by
              rw [step, Nat.sub_zero, Nat.zero_sub, Nat.sub_add_comm inside]
            rw [reach]
            exact ih follows
          · cases follows
      | _ => exact List.cons_ne_nil _ _

end Reach

/-! ### First users by counting -/

/-- What stands in a list between two positions of a longer one. -/
theorem stands_take_drop_iff {kind : Instruction → Prop}
    (even : ∀ i, kind i → i.opens = 0 ∧ i.closes = 0) {start : Nat} :
    Stands kind 0 ((is.take c).drop start) ↔
      ∃ k i, start ≤ k ∧ k < c ∧ is[k]? = some i ∧ kind i ∧ OpenAt is k c := by
  have there {k : Nat} (before : k < c) : is[k]? = (is.take c)[k]? :=
    (List.getElem?_take_of_lt before).symm
  constructor
  · rintro ⟨before, i, after, split, of, open_⟩
    have tail : (is.take c).drop (start + before.length) = i :: after := by
      rw [← List.drop_drop, split, List.drop_left]
    have found : (is.take c)[start + before.length]? = some i := by
      rw [← List.head?_drop, tail, List.head?_cons]
    have inside : start + before.length < c := by
      have := (List.getElem?_eq_some_iff.1 found).1
      rw [List.length_take] at this
      omega
    refine ⟨start + before.length, i, Nat.le_add_right .., inside, there inside ▸ found, of, ?_⟩
    rw [OpenAt, tail]
    exact (outlasts_cons_of_even (even i of)).2 open_
  · rintro ⟨k, i, after, inside, found, of, open_⟩
    rw [there inside] at found
    obtain ⟨bound, here⟩ := List.getElem?_eq_some_iff.1 found
    have tail : (is.take c).drop k = i :: (is.take c).drop (k + 1) := by
      rw [← here, List.drop_eq_getElem_cons bound]
    refine ⟨((is.take c).drop start).take (k - start), i, (is.take c).drop (k + 1), ?_, of, ?_⟩
    · rw [← tail, ← Nat.add_sub_cancel' after, ← List.drop_drop, Nat.add_sub_cancel',
        List.take_append_drop]
      exact after
    · rw [OpenAt, tail, outlasts_cons_of_even (even i of)] at open_
      exact open_

theorem unused_take_drop_iff {start : Nat} :
    Unused 0 ((is.take c).drop start) ↔
      OpenAt is start c ∧
        ∀ k i, start ≤ k → k < c → is[k]? = some i → i.UsesUp → ¬ OpenAt is k c := by
  have stands : Stands Instruction.UsesUp 0 ((is.take c).drop start) ↔ _ :=
    stands_take_drop_iff fun _ => Instruction.UsesUp.even
  constructor
  · rintro ⟨inside, first⟩
    exact ⟨inside, fun k i after before found uses open_ =>
      first (stands.2 ⟨k, i, after, before, found, uses, open_⟩)⟩
  · rintro ⟨inside, first⟩
    refine ⟨inside, fun used => ?_⟩
    obtain ⟨k, i, after, before, found, uses, open_⟩ := stands.1 used
    exact first k i after before found uses open_

/-- **Looking ahead finds exactly the first users.** -/
theorem mem_influences_iff {start : Nat} : c ∈ influences is start ↔ FirstUser is start c := by
  rw [influences_eq, Reach.mem_positions_iff]
  constructor
  · rintro ⟨n, i, rfl, found, marked⟩
    obtain ⟨carried, user⟩ := Reach.marks_eq_true_iff.1 marked
    have between : (is.take (start + n)).drop start = (is.drop start).take n := by
      rw [List.drop_take, Nat.add_sub_cancel_left]
    rw [Reach.carries_after, ← between] at carried
    obtain ⟨inside, first⟩ := unused_take_drop_iff.1 carried
    exact ⟨Nat.le_add_right .., ⟨i, by rw [← found, List.getElem?_drop], user⟩, inside, first⟩
  · rintro ⟨le, ⟨i, found, user⟩, inside, first⟩
    have place : start + (c - start) = c := Nat.add_sub_cancel' le
    refine ⟨c - start, i, place.symm, by rw [List.getElem?_drop, place, found], ?_⟩
    rw [Reach.marks_eq_true_iff, Reach.carries_after, ← List.drop_take]
    exact ⟨unused_take_drop_iff.2 ⟨inside, first⟩, user⟩

/-! ### Going down into frames -/

/-- What a descent into a frame comes back with. -/
structure Descent where
  /-- The positions found in the frame. -/
  found : List Nat
  /-- The position behind the pop that closes the frame, or the end. -/
  next : Nat
  /-- The number of frames around it that this pop closes too. -/
  beyond : Nat
  deriving DecidableEq, Repr

/-- Go on behind the pop that closes the outermost of `level` frames: the position behind it, and
the number of frames that it closes beyond. -/
def skipFrame (level position : Nat) : List Instruction → Nat × Nat
  | [] => (position, 0)
  | .push :: rest => skipFrame (level + 1) (position + 1) rest
  | .pop count :: rest =>
    if count.toNat < level then skipFrame (level - count.toNat) (position + 1) rest
    else (position + 1, count.toNat - level)
  | _ :: rest => skipFrame level (position + 1) rest

/-- Look for first users in the current frame and all that are opened in it, up to the pop that
closes it. -/
def descend (position : Nat) : List Instruction → Descent
  | [] => ⟨[], position, 0⟩
  | .push :: rest =>
    let inner := descend (position + 1) rest
    if inner.beyond = 0 then
      let outer := descend inner.next (rest.drop (inner.next - position - 1))
      ⟨inner.found ++ outer.found, outer.next, outer.beyond⟩
    else ⟨inner.found, inner.next, inner.beyond - 1⟩
  | .pop count :: rest =>
    if count.toNat = 0 then descend (position + 1) rest
    else ⟨[], position + 1, count.toNat - 1⟩
  | .write _ :: rest =>
    let d := descend (position + 1) rest
    ⟨position :: d.found, d.next, d.beyond⟩
  | _ :: rest =>
    let (next, beyond) := skipFrame 1 (position + 1) rest
    ⟨[position], next, beyond⟩
  termination_by is => is.length

namespace Reach

variable {whole : List Instruction} {position : Nat}

theorem positions_cons_of_not_open {r : Reach} (shut : r.isOpen = false) (position : Nat)
    (i : Instruction) (rest : List Instruction) :
    r.positions position (i :: rest) = (r.step i).positions (position + 1) rest := by
  rw [positions, marks_eq_false shut]
  rfl

/-- Where nothing is carried nothing is found. -/
theorem positions_of_carrying_zero (shut position : Nat) (is : List Instruction) :
    positions ⟨0, shut⟩ position is = [] := by
  induction is generalizing shut position with
  | nil => rfl
  | cons i rest ih =>
      have closed : isOpen ⟨0, shut⟩ = false := Bool.and_false _
      have step : ∃ shut', Reach.step ⟨0, shut⟩ i = ⟨0, shut'⟩ := by
        cases i using Instruction.bracketCases with
        | push =>
            rw [Reach.step]
            split
            · exact ⟨shut, rfl⟩
            · exact ⟨shut + 1, rfl⟩
        | pop count => exact ⟨shut - count.toNat, by rw [Reach.step, Nat.zero_sub]⟩
        | inside i hb => exact ⟨shut, step_of_not_open closed hb⟩
      obtain ⟨shut', step⟩ := step
      rw [positions_cons_of_not_open closed, step, ih]

/-- In a frame in which the transform has been used up nothing is found. -/
theorem positions_skipFrame {level : Nat} (used : 0 < level) (carrying : Nat)
    (tail : whole.drop position = is) :
    positions ⟨carrying, level⟩ position is =
      positions ⟨carrying - (skipFrame level position is).2, 0⟩ (skipFrame level position is).1
        (whole.drop (skipFrame level position is).1) := by
  have shut {level : Nat} (used : 0 < level) : isOpen ⟨carrying, level⟩ = false := by
    rw [isOpen, Bool.and_eq_false_iff]
    exact .inl (beq_false_of_ne (Nat.pos_iff_ne_zero.1 used))
  fun_induction skipFrame level position is with
  | case1 level position =>
      rw [tail]
      rfl
  | case2 level position rest ih =>
      have opened : step ⟨carrying, level⟩ .push = ⟨carrying, level + 1⟩ := by
        rw [step, if_neg (Nat.pos_iff_ne_zero.1 used)]
      rw [positions_cons_of_not_open (shut used), opened,
        ih (Nat.succ_pos level) (drop_succ_of_drop_eq_cons tail).2]
  | case3 level position count rest inside ih =>
      have left : step ⟨carrying, level⟩ (.pop count) = ⟨carrying, level - count.toNat⟩ := by
        rw [step, Nat.sub_eq_zero_of_le (Nat.le_of_lt inside), Nat.sub_zero]
      rw [positions_cons_of_not_open (shut used), left,
        ih (Nat.sub_pos_of_lt inside) (drop_succ_of_drop_eq_cons tail).2]
  | case4 level position count rest outside =>
      have left : step ⟨carrying, level⟩ (.pop count) =
          ⟨carrying - (count.toNat - level), 0⟩ := by
        rw [step, Nat.sub_eq_zero_of_le (Nat.le_of_not_lt outside)]
      rw [positions_cons_of_not_open (shut used), left, (drop_succ_of_drop_eq_cons tail).2]
  | case5 level position i rest notPush notPop ih =>
      have same := step_of_not_open (shut used) (Instruction.isBracket_eq_false notPush notPop)
      rw [positions_cons_of_not_open (shut used), same,
        ih used (drop_succ_of_drop_eq_cons tail).2]

end Reach

theorem le_skipFrame (level position : Nat) (is : List Instruction) :
    position ≤ (skipFrame level position is).1 := by
  fun_induction skipFrame level position is with
  | case1 => exact Nat.le_refl _
  | case4 => exact Nat.le_succ _
  | case2 _ _ _ ih | case3 _ _ _ _ _ ih | case5 _ _ _ _ _ _ ih =>
      exact Nat.le_of_succ_le ih

/-- A descent goes forward. -/
theorem le_descend (position : Nat) (is : List Instruction) :
    position ≤ (descend position is).next := by
  induction length : is.length using Nat.strongRecOn generalizing position is with
  | ind n ih =>
    cases is with
    | nil => exact Nat.le_of_eq (by rw [descend])
    | cons i rest =>
        subst length
        have behind := ih rest.length (Nat.lt_succ_self _) (position + 1) rest rfl
        cases i with
        | push =>
            rw [descend]
            simp only
            split
            · refine Nat.le_trans (Nat.le_of_succ_le behind) (ih _ ?_ _ _ rfl)
              rw [List.length_drop, List.length_cons]
              omega
            · exact Nat.le_of_succ_le behind
        | pop count =>
            rw [descend]
            split
            · exact Nat.le_of_succ_le behind
            · exact Nat.le_succ _
        | write slot =>
            rw [descend]
            exact Nat.le_of_succ_le behind
        | _ =>
            rw [descend]
            · exact Nat.le_of_succ_le (le_skipFrame 1 (position + 1) rest)
            all_goals simp

namespace Reach

variable {whole : List Instruction} {position : Nat}

theorem positions_push (outer position : Nat) (rest : List Instruction) :
    positions ⟨outer + 1, 0⟩ position (.push :: rest) =
      positions ⟨outer + 1 + 1, 0⟩ (position + 1) rest := rfl

theorem positions_pop (outer position : Nat) (count : UInt32) (rest : List Instruction) :
    positions ⟨outer + 1, 0⟩ position (.pop count :: rest) =
      positions ⟨outer + 1 - count.toNat, 0⟩ (position + 1) rest := by
  rw [positions, marks_of_isBracket _ rfl, step, Nat.sub_zero, Nat.zero_sub]
  rfl

theorem positions_write (outer position : Nat) (slot : UInt32) (rest : List Instruction) :
    positions ⟨outer + 1, 0⟩ position (.write slot :: rest) =
      position :: positions ⟨outer + 1, 0⟩ (position + 1) rest := rfl

/-- **A descent finds what looking ahead finds in the frame**, and looking ahead goes on behind the
frame as the descent says, with any number of frames around it that carry the transform too. -/
theorem positions_descend (outer : Nat) (tail : whole.drop position = is) :
    positions ⟨outer + 1, 0⟩ position is =
      (descend position is).found ++
        positions ⟨outer - (descend position is).beyond, 0⟩ (descend position is).next
          (whole.drop (descend position is).next) := by
  induction length : is.length using Nat.strongRecOn generalizing outer position is with
  | ind n ih =>
    cases is with
    | nil =>
        rw [descend, tail]
        rfl
    | cons i rest =>
        subst length
        have next := (drop_succ_of_drop_eq_cons tail).2
        have behind := fun outer => ih rest.length (Nat.lt_succ_self _) outer next rfl
        cases i with
        | push =>
            have forward := le_descend (position + 1) rest
            rw [positions_push, behind, descend]
            generalize descend (position + 1) rest = inner at forward
            simp only
            split
            · rename_i own
              -- the pop closes this frame only, and the search goes on behind it
              have skip : rest.drop (inner.next - position - 1) = whole.drop inner.next := by
                rw [← next, List.drop_drop]
                congr 1
                omega
              have shorter :
                  (whole.drop inner.next).length < (Instruction.push :: rest).length := by
                rw [← skip, List.length_drop, List.length_cons]
                omega
              rw [own, Nat.sub_zero, skip, ih _ shorter outer rfl rfl]
              simp only [List.append_assoc]
            · rename_i more
              rw [show outer + 1 - inner.beyond = outer - (inner.beyond - 1) by omega]
        | pop count =>
            rw [positions_pop, descend]
            split
            · rename_i none
              rw [none, Nat.sub_zero, behind]
            · rename_i some
              simp only [List.nil_append, next]
              rw [show outer + 1 - count.toNat = outer - (count.toNat - 1) by omega]
        | write slot =>
            rw [positions_write, behind, descend]
            rfl
        | _ =>
            rw [descend]
            · exact congrArg (position :: ·) (positions_skipFrame Nat.one_pos outer next)
            all_goals simp

end Reach

theorem found_descend (is : List Instruction) (start : Nat) :
    (descend start (is.drop start)).found = influences is start := by
  rw [influences_eq, Reach.start, Reach.positions_descend 0 rfl, Nat.zero_sub,
    Reach.positions_of_carrying_zero, List.append_nil]

/-- **Looking ahead is exact.**  Going down into frames finds the same positions; they are found in
increasing order; they are exactly those of the first users; and none is found only if no write
follows in the frame. -/
theorem influences_exact (is : List Instruction) (start : Nat) :
    (descend start (is.drop start)).found = influences is start ∧
    (influences is start).Pairwise (· < ·) ∧
    (∀ c, c ∈ influences is start ↔ FirstUser is start c) ∧
    (influences is start = [] → hasFollowingOutput is start = false) := by
  refine ⟨found_descend is start, ?_, fun c => mem_influences_iff, fun none => ?_⟩
  · rw [influences_eq]
    exact Reach.pairwise_positions ..
  · rw [influences_eq] at none
    rw [hasFollowingOutput, ← Bool.not_eq_true]
    exact fun follows => Reach.positions_ne_nil follows none

/-- A transform that is used in a branch of two frames, used up and shut off in it, and used again
behind the pop that closes the branch together with a frame opened later. -/
def branchedUse : List Instruction :=
  [.static (.uniformScale .two), .push, .push, .write 0, .static (.uniformScale .two), .push,
    .write 1, .pop 3, .write 2, .parameter .rotateX 0, .write 3]

/-- Four of the six instructions behind it that could use it are first users. -/
theorem influences_exact_branchedUse :
    influences branchedUse 1 = [3, 4, 8, 9] ∧ hasFollowingOutput branchedUse 1 = true ∧
      (descend 1 (branchedUse.drop 1)).found = [3, 4, 8, 9] ∧ FirstUser branchedUse 1 8 ∧
      ¬ FirstUser branchedUse 1 6 ∧ ¬ FirstUser branchedUse 1 10 := by
  obtain ⟨same, -, exact_, -⟩ := influences_exact branchedUse 1
  have found : influences branchedUse 1 = [3, 4, 8, 9] := by decide
  rw [found] at same
  simp only [found] at exact_
  refine ⟨found, by decide, same, (exact_ 8).1 (by decide), fun user => ?_, fun user => ?_⟩
  · exact absurd ((exact_ 6).2 user) (by decide)
  · exact absurd ((exact_ 10).2 user) (by decide)

end Armature
