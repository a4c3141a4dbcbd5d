/-
**A parent is the latest write that can be seen.**

`Armature/Proofs/Evaluate/Parents.lean` says which slots can become parents at all.  Which of them is
the parent of a slot is a matter of frames: a write is seen from behind as long as the frame that it
was made in is open, and the parent is the latest write that is seen from the write of the slot.

The search knows nothing of this.  It keeps one slot for each frame, copies it where a frame is
opened and drops it where the frame is closed.  The link is an invariant of the whole stack: the frame
with `k` frames on top of it keeps the latest write that would be seen if these were closed.

Main definitions:

* `Visible`, `Latest` — a write that is seen from the end of a list, and the latest of them;
* `Kept` — what the search is to keep for a frame;
* `Lineage.Traces` — it keeps this for every frame;
* `ParentIn` — one slot is the parent of another.

Main results:

* `visible_append_singleton`, `Kept.append_singleton` — what is seen behind one more instruction;
* `Lineage.Traces.act`, `Lineage.Traces.exec` — the invariant, for one instruction and for a list;
* `parents_eq_latest` — **the parent of a slot is the latest write seen from its own**; so parents
  are written earlier, and following them never leads back.
-/

import Armature.Proofs.Evaluate.Nesting
import Mathlib.Data.List.NodupEquivFin
import Mathlib.Logic.Relation

set_option autoImplicit false

namespace Armature

/-! ### Writes that are seen -/

/-- The list writes the slot in a frame that is still open behind it, and would be if `more` frames
were closed there. -/
def Visible (more : Nat) (is : List Instruction) (slot : UInt32) : Prop :=
  ∃ before i after, is = before ++ i :: after ∧ i.output? = some slot ∧ Outlasts more after

/-- The slot is that of the latest of these writes. -/
def Latest (more : Nat) (is : List Instruction) (slot : UInt32) : Prop :=
  ∃ before i after, is = before ++ i :: after ∧ i.output? = some slot ∧ Outlasts more after ∧
    ∀ other, ¬ Visible more after other

/-- The slot is that of the latest of these writes, or says that there are none. -/
def Kept (more : Nat) (is : List Instruction) (slot : UInt32) : Prop :=
  Latest more is slot ∨ slot = noParent ∧ ∀ other, ¬ Visible more is other

section Seen

variable {more : Nat} {is : List Instruction} {i : Instruction} {slot : UInt32}

theorem not_visible_nil (more : Nat) (slot : UInt32) : ¬ Visible more [] slot :=
  not_stands_nil (·.output? = some slot) more

/-- **The last instruction writes itself, or lets through what is seen from in front of it.** -/
theorem visible_append_singleton :
    Visible more (is ++ [i]) slot ↔
      more = 0 ∧ i.output? = some slot ∨ Visible (i.closingBefore more) is slot :=
  stands_append_singleton (·.output? = some slot)

/-- A write is the latest one behind itself. -/
theorem kept_of_output? (is : List Instruction) (write : i.output? = some slot) :
    Kept 0 (is ++ [i]) slot :=
  .inl ⟨is, i, [], rfl, write, outlasts_nil_iff.2 rfl, not_visible_nil 0⟩

/-- Where the last instruction does not write, or its frame is closed, the latest write is that seen
from in front of it. -/
theorem Kept.append_singleton (kept : Kept (i.closingBefore more) is slot)
    (passes : more = 0 → i.output? = none) : Kept more (is ++ [i]) slot := by
  have hidden {js : List Instruction} (none : ∀ other, ¬ Visible (i.closingBefore more) js other)
      (other : UInt32) : ¬ Visible more (js ++ [i]) other := by
    intro seen
    rcases visible_append_singleton.1 seen with ⟨last, write⟩ | earlier
    · rw [passes last] at write
      cases write
    · exact none other earlier
  rcases kept with ⟨before, j, after, rfl, write, open_, none⟩ | ⟨rfl, none⟩
  · exact .inl ⟨before, j, after ++ [i], by simp, write, outlasts_append_singleton.2 open_,
      hidden none⟩
  · exact .inr ⟨rfl, hidden none⟩

end Seen

/-! ### The search -/

namespace Lineage

variable {limit : Nat} {l l' : Lineage} {front is js : List Instruction}

/-- The search keeps for every frame the latest write that would be seen if the frames inside it were
closed. -/
def Traces (front : List Instruction) (l : Lineage) : Prop :=
  ∀ k slot, (l.frames.top :: l.frames.below)[k]? = some slot → Kept k front slot

theorem traces_start (count : Nat) : Traces [] (start count) := by
  intro k slot found
  cases k with
  | zero =>
      cases found
      exact .inr ⟨rfl, not_visible_nil 0⟩
  | succ k => simp [start, Frames.root] at found

/-- What an instruction does to the parents: it gives its slot the one kept for the frame. -/
theorem parents_act {i : Instruction} (acted : l.act limit i = .ok l') :
    l'.parents = match i.output? with
      | some slot => l.parents.setIfInBounds slot.toNat l.frames.top
      | none => l.parents := by
  cases i with
  | push =>
      obtain ⟨frames, _, rfl⟩ := exists_frames_of_act_push acted
      rfl
  | pop count =>
      obtain ⟨frames, _, rfl⟩ := exists_frames_of_act_pop acted
      rfl
  | write slot =>
      cases acted
      rw [write]
      split
      · rfl
      · rename_i outside
        exact (Array.setIfInBounds_eq_of_size_le (Nat.le_of_not_lt outside)).symm
  | writeStatic slot _ | writeParameter slot _ =>
      cases acted
      rw [writeTimes]
      split
      · rfl
      · rename_i outside
        exact (Array.setIfInBounds_eq_of_size_le (Nat.le_of_not_lt outside)).symm
  | static | parameter | binding | comment =>
      cases acted
      rfl

/-- What an instruction that writes a slot does to the frames: the slot is kept for the current
one. -/
theorem frames_act_of_output? {i : Instruction} {slot : UInt32} (write : i.output? = some slot)
    (inside : slot.toNat < l.parents.size) (acted : l.act limit i = .ok l') :
    l'.frames = l.frames.setTop slot := by
  cases i with
  | write other =>
      cases write
      cases acted
      rw [Lineage.write, if_pos inside]
      rfl
  | writeStatic other _ | writeParameter other _ =>
      cases write
      cases acted
      rw [writeTimes, if_pos inside]
      rfl
  | push | pop | static | parameter | binding | comment => cases write

/-- **An instruction keeps for every frame what is to be kept.** -/
theorem Traces.act (traces : Traces front l) {i : Instruction}
    (inside : ∀ slot ∈ i.output?, slot.toNat < l.parents.size) (acted : l.act limit i = .ok l') :
    Traces (front ++ [i]) l' := by
  intro k slot found
  cases i with
  | push =>
      obtain ⟨frames, opened, rfl⟩ := exists_frames_of_act_push acted
      obtain ⟨_, rfl⟩ := Frames.push?_eq_ok_iff.1 opened
      -- the new frame and the one around it keep the same slot
      cases k with
      | zero => exact .append_singleton (traces 0 slot found) fun _ => rfl
      | succ k => exact .append_singleton (traces k slot found) fun _ => rfl
  | pop count =>
      obtain ⟨frames, closed, rfl⟩ := exists_frames_of_act_pop acted
      rw [← Frames.pop?_eq_ok_iff.1 closed, List.getElem?_drop] at found
      have kept := traces _ slot found
      rw [Nat.add_comm] at kept
      exact .append_singleton kept fun _ => rfl
  | write other | writeStatic other _ | writeParameter other _ =>
      rw [frames_act_of_output? rfl (inside other rfl) acted] at found
      cases k with
      | zero =>
          cases found
          exact kept_of_output? front rfl
      | succ k => exact .append_singleton (traces (k + 1) slot found) fun zero => by cases zero
  | static | parameter | binding | comment =>
      cases acted
      exact .append_singleton (traces k slot found) fun _ => rfl

/-- A list that is searched to its end is searched piece by piece. -/
theorem exec_append (goes : (l.exec limit (is ++ js)).2 = .ok ()) :
    (l.exec limit is).2 = .ok () ∧
      l.exec limit (is ++ js) = (l.exec limit is).1.exec limit js := by
  induction is generalizing l with
  | nil => exact ⟨rfl, rfl⟩
  | cons i is ih =>
      rw [List.cons_append, exec] at goes ⊢
      rw [exec]
      cases acted : l.act limit i with
      | error fault =>
          rw [acted] at goes
          cases goes
      | ok next =>
          rw [acted] at goes
          exact ih goes

/-- **A search keeps for every frame what is to be kept**, if the slots that are written exist. -/
theorem Traces.exec (traces : Traces front l)
    (inside : ∀ slot ∈ writtenSlots is, slot.toNat < l.parents.size)
    (goes : (l.exec limit is).2 = .ok ()) : Traces (front ++ is) (l.exec limit is).1 := by
  induction is generalizing l front with
  | nil =>
      rw [List.append_nil]
      exact traces
  | cons i is ih =>
      rw [Lineage.exec] at goes ⊢
      cases acted : l.act limit i with
      | error fault =>
          rw [acted] at goes
          cases goes
      | ok next =>
          rw [acted] at goes
          have size := size_act acted
          have here : ∀ slot ∈ i.output?, slot.toNat < l.parents.size := by
            intro slot write
            exact inside slot (List.mem_filterMap.2 ⟨i, List.mem_cons_self .., write⟩)
          have later : ∀ slot ∈ writtenSlots is, slot.toNat < next.parents.size := by
            intro slot member
            obtain ⟨j, hj, write⟩ := List.mem_filterMap.1 member
            rw [size]
            exact inside slot (List.mem_filterMap.2 ⟨j, List.mem_cons_of_mem _ hj, write⟩)
          have rest := ih (traces.act here acted) later goes
          rw [List.append_assoc] at rest
          exact rest

theorem size_exec (limit : Nat) (l : Lineage) (is : List Instruction) :
    (l.exec limit is).1.parents.size = l.parents.size := by
  induction is generalizing l with
  | nil => rfl
  | cons i is ih =>
      rw [exec]
      cases acted : l.act limit i with
      | error fault => rfl
      | ok next => exact (ih next).trans (size_act acted)

/-- A place that is not written keeps its parent. -/
theorem parents_exec_of_unwritten {place : Nat}
    (unwritten : ∀ slot ∈ writtenSlots is, slot.toNat ≠ place) :
    (l.exec limit is).1.parents[place]? = l.parents[place]? := by
  induction is generalizing l with
  | nil => rfl
  | cons i is ih =>
      rw [exec]
      cases acted : l.act limit i with
      | error fault => rfl
      | ok next =>
          have later : ∀ slot ∈ writtenSlots is, slot.toNat ≠ place := by
            intro slot member
            obtain ⟨j, hj, write⟩ := List.mem_filterMap.1 member
            exact unwritten slot (List.mem_filterMap.2 ⟨j, List.mem_cons_of_mem _ hj, write⟩)
          refine (ih later).trans ?_
          rw [parents_act acted]
          cases write : i.output? with
          | none => rfl
          | some slot =>
              have elsewhere : slot.toNat ≠ place :=
                unwritten slot (List.mem_filterMap.2 ⟨i, List.mem_cons_self .., write⟩)
              exact Array.getElem?_setIfInBounds_ne elsewhere

/-- **The parent of a slot is what is kept at its last write.** -/
theorem kept_of_exec {count : Nat} {before after : List Instruction} {i : Instruction}
    {slot : UInt32} (goes : ((start count).exec limit (before ++ i :: after)).2 = .ok ())
    (inside : ∀ slot ∈ writtenSlots (before ++ i :: after), slot.toNat < count)
    (write : i.output? = some slot) (last : slot ∉ writtenSlots after) :
    ∃ parent, ((start count).exec limit (before ++ i :: after)).1.parents[slot.toNat]? =
        some parent ∧ Kept 0 before parent := by
  obtain ⟨first, split⟩ := exec_append goes
  have size : ((start count).exec limit before).1.parents.size = count := by
    rw [size_exec]
    exact Array.size_replicate
  have traces : Traces before ((start count).exec limit before).1 := by
    refine (traces_start count).exec (fun other member => ?_) first
    rw [show (start count).parents.size = count from Array.size_replicate]
    refine inside other ?_
    rw [writtenSlots, List.filterMap_append]
    exact List.mem_append_left _ member
  have exists_ : slot.toNat < count := by
    refine inside slot (List.mem_filterMap.2 ⟨i, ?_, write⟩)
    exact List.mem_append_right _ (List.mem_cons_self ..)
  rw [split] at goes ⊢
  generalize ((start count).exec limit before).1 = l at size traces goes ⊢
  rw [exec] at goes ⊢
  cases acted : l.act limit i with
  | error fault =>
      rw [acted] at goes
      cases goes
  | ok next =>
      -- behind its last write the slot keeps the parent that it got there
      have unwritten : ∀ other ∈ writtenSlots after, other.toNat ≠ slot.toNat := by
        intro other member same
        rw [UInt32.toNat_inj] at same
        exact last (same ▸ member)
      refine ⟨l.frames.top, ?_, traces 0 _ rfl⟩
      rw [parents_exec_of_unwritten unwritten, parents_act acted, write,
        Array.getElem?_setIfInBounds_self_of_lt (by rw [size]; exact exists_)]

end Lineage

/-! ### Following parents -/

/-- The slot `child` has the parent `parent`. -/
def ParentIn (parents : Array UInt32) (child parent : UInt32) : Prop :=
  parents[child.toNat]? = some parent ∧ parent ≠ noParent

/-- Where no slot is written twice, the slots are in the order of their places. -/
theorem pairwise_idxOf {slots : List UInt32} (once : slots.Nodup) :
    slots.Pairwise fun a b => slots.idxOf a < slots.idxOf b := by
  rw [List.pairwise_iff_getElem]
  intro a b ha hb before
  rw [once.idxOf_getElem, once.idxOf_getElem]
  exact before

/-- Following parents that are written earlier never leads back. -/
theorem not_transGen_parentIn {parents : Array UInt32} {slots : List UInt32} (once : slots.Nodup)
    (earlier : ∀ child parent, ParentIn parents child parent → [parent, child].Sublist slots)
    (slot : UInt32) : ¬ Relation.TransGen (ParentIn parents) slot slot := by
  have step {child parent : UInt32} (link : ParentIn parents child parent) :
      slots.idxOf parent < slots.idxOf child := by
    have pair := (pairwise_idxOf once).sublist (earlier child parent link)
    exact List.rel_of_pairwise_cons pair (List.mem_singleton.2 rfl)
  have descends {child ancestor : UInt32} (path : Relation.TransGen (ParentIn parents) child ancestor) :
      slots.idxOf ancestor < slots.idxOf child := by
    induction path with
    | single link => exact step link
    | tail _ link ih => exact Nat.lt_trans (step link) ih
  intro cycle
  exact Nat.lt_irrefl _ (descends cycle)

/-- **The parent of a slot is the latest write seen from its own.**  Where the search for parents
succeeds, the slots that are written exist and none is written twice, the parent of a slot is the
latest slot written in front of it in a frame that is still open at its write, and there is none if
no such write is seen, or if the slot is never written.  So a parent is written earlier than its
child, and following parents never leads back. -/
theorem parents_eq_latest {words : List UInt32} {count : Nat} {parents : Array UInt32}
    (found : (Stream.parents words count).value = .ok parents) :
    ∃ is, Instruction.decodeAll words = .ok is ∧
      ((∀ slot ∈ writtenSlots is, slot.toNat < count) → (writtenSlots is).Nodup →
        parents.size = count ∧
        (∀ before i after slot, is = before ++ i :: after → i.output? = some slot →
          ∃ parent, parents[slot.toNat]? = some parent ∧
            (Latest 0 before parent ∨ parent = noParent ∧ ∀ other, ¬ Visible 0 before other)) ∧
        (∀ place < count, (∀ slot ∈ writtenSlots is, slot.toNat ≠ place) →
          parents[place]? = some noParent) ∧
        (∀ child parent, ParentIn parents child parent →
          [parent, child].Sublist (writtenSlots is)) ∧
        ∀ slot, ¬ Relation.TransGen (ParentIn parents) slot slot) := by
  obtain ⟨is, decoded, goes, rfl⟩ := Stream.parents_eq_ok_iff.1 found
  refine ⟨is, decoded, fun inside once => ?_⟩
  have size : ((Lineage.start count).exec maxStackDepth is).1.parents.size = count := by
    rw [Lineage.size_exec]
    exact Array.size_replicate
  have kept : ∀ before i after slot, is = before ++ i :: after → i.output? = some slot →
      ∃ parent, ((Lineage.start count).exec maxStackDepth is).1.parents[slot.toNat]? =
        some parent ∧ Kept 0 before parent := by
    rintro before i after slot rfl write
    refine Lineage.kept_of_exec goes inside write fun again => ?_
    rw [writtenSlots, List.filterMap_append, List.filterMap_cons, write] at once
    exact (List.nodup_cons.1 once.of_append_right).1 again
  have none : ∀ place < count, (∀ slot ∈ writtenSlots is, slot.toNat ≠ place) →
      ((Lineage.start count).exec maxStackDepth is).1.parents[place]? = some noParent := by
    intro place small unwritten
    rw [Lineage.parents_exec_of_unwritten unwritten]
    exact Array.getElem?_replicate.trans (if_pos small)
  have earlier : ∀ child parent,
      ParentIn ((Lineage.start count).exec maxStackDepth is).1.parents child parent →
        [parent, child].Sublist (writtenSlots is) := by
    rintro child parent ⟨link, real⟩
    by_cases written : child ∈ writtenSlots is
    · obtain ⟨i, member, write⟩ := List.mem_filterMap.1 written
      obtain ⟨before, after, rfl⟩ := List.append_of_mem member
      obtain ⟨parent', link', seen⟩ := kept before i after child rfl write
      obtain rfl := Option.some.inj (link.symm.trans link')
      obtain ⟨front, j, rest, rfl, write', -, -⟩ := seen.resolve_right fun none => real none.1
      have front : [parent].Sublist (writtenSlots (front ++ j :: rest)) :=
        List.singleton_sublist.2 (List.mem_filterMap.2 ⟨j, by simp, write'⟩)
      have back : [child].Sublist (writtenSlots (i :: after)) :=
        List.singleton_sublist.2 (List.mem_filterMap.2 ⟨i, List.mem_cons_self .., write⟩)
      rw [writtenSlots, List.filterMap_append]
      exact front.append back
    · have small : child.toNat < count := by
        obtain ⟨there, -⟩ := Array.getElem?_eq_some_iff.1 link
        exact size ▸ there
      have unwritten : ∀ slot ∈ writtenSlots is, slot.toNat ≠ child.toNat := by
        intro slot member same
        rw [UInt32.toNat_inj] at same
        exact written (same ▸ member)
      rw [none _ small unwritten] at link
      exact absurd (Option.some.inj link).symm real
  exact ⟨size, kept, none, earlier, not_transGen_parentIn once earlier⟩

/-- A frame with two branches, of which the first has a branch of its own, and a write behind both. -/
def branchedWrites : List Instruction :=
  [.write 3, .push, .write 1, .push, .writeStatic 4 .identity, .pop 2, .push, .write 0, .pop 1,
    .write 2]

/-- The second branch does not see the first one, only what the frame around both wrote. -/
theorem parents_eq_latest_branched :
    (Stream.parents (Instruction.encodeAll branchedWrites) 6).value =
        .ok #[3, 3, 3, noParent, 1, noParent] ∧
      Latest 0 [.write 3, .push, .write 1, .push, .writeStatic 4 .identity, .pop 2, .push] 3 ∧
      ∀ slot, ¬ Relation.TransGen (ParentIn #[3, 3, 3, noParent, 1, noParent]) slot slot := by
  have found : (Stream.parents (Instruction.encodeAll branchedWrites) 6).value =
      .ok #[3, 3, 3, noParent, 1, noParent] := by decide +kernel
  obtain ⟨is, decoded, latest⟩ := parents_eq_latest found
  obtain rfl : branchedWrites = is :=
    Except.ok.inj ((Instruction.decodeAll_encodeAll (by decide +kernel)).symm.trans decoded)
  have inside : ∀ slot ∈ writtenSlots branchedWrites, slot.toNat < 6 := by
    show ∀ slot ∈ [(3 : UInt32), 1, 4, 0, 2], slot.toNat < 6
    simp
  obtain ⟨-, kept, -, -, acyclic⟩ := latest inside (by decide)
  obtain ⟨parent, link, seen⟩ := kept
    [.write 3, .push, .write 1, .push, .writeStatic 4 .identity, .pop 2, .push] (.write 0)
    [.pop 1, .write 2] 0 rfl rfl
  obtain rfl : (3 : UInt32) = parent := Option.some.inj link
  exact ⟨found, seen.resolve_right fun none => absurd none.1 (by decide), acyclic⟩

end Armature
