/-
**Which slots become parents.**

The search for parents keeps, for each open frame, the slot last written in it, and the next write in
that frame takes this slot for its parent.  The slots kept are those of the writes of the stream.  A
write through a matrix is kept only if its slot exists, a plain write in any case: behind a plain
write to a slot that does not exist, that slot becomes a parent.

Main definitions:

* `Lineage.act`, `Lineage.exec` — the search over decoded instructions;
* `Instruction.entered?` — the slot that is kept for a frame;
* `Lineage.Only` — all slots that a search has to do with are of a kind.

Main results:

* `Lineage.walk_eq_exec` — **the search over words is the search over the readable part**;
* `Lineage.only_act`, `Lineage.only_exec` — a search has to do only with the slots that it enters;
* `parents_are_written` — **a parent is a slot that the stream writes, and one that exists unless a
  plain write names it**;
* `parent_of_missing_slot` — it may be a slot that does not exist.
-/

import Armature.Evaluate.Parents
import Armature.Proofs.Codec.Bijection
import Armature.Proofs.Evaluate.Journal
import Armature.Proofs.Evaluate.Reference

set_option autoImplicit false

namespace Armature

/-! ### Decoded instructions -/

namespace Lineage

/-- What an instruction does to a search. -/
def act (limit : Nat) (l : Lineage) : Instruction → Except Fault Lineage
  | .push => (l.frames.push? limit).map fun frames => { l with frames }
  | .pop count => (l.frames.pop? count).map fun frames => { l with frames }
  | .write slot => .ok (l.write slot)
  | .writeStatic slot _ => .ok (l.writeTimes .writeStatic slot)
  | .writeParameter slot _ => .ok (l.writeTimes .writeParameter slot)
  | .static _ | .parameter _ _ | .binding _ _ | .comment _ => .ok l

/-- Search a list of instructions.  Where the search fails, what was found up to there remains. -/
def exec (limit : Nat) (l : Lineage) : List Instruction → Lineage × Except Fault Unit
  | [] => (l, .ok ())
  | i :: is =>
    match l.act limit i with
    | .error fault => (l, .error fault)
    | .ok l => l.exec limit is

/-- What a search becomes where decoding ends, with a fault or without. -/
def close (found : Lineage × Except Fault Unit) (fault? : Option Fault) :
    Lineage × Except Fault Unit :=
  match found, fault? with
  | (l, .ok ()), some fault => (l, .error fault)
  | found, _ => found

/-- An instruction in words acts as the decoded one. -/
theorem actOn_eq_act (limit : Nat) (l : Lineage) {length offset next : Nat} {w : UInt32}
    {rest : List UInt32} {i : Instruction}
    (decoded : Instruction.decodeFrom length offset (w :: rest) = .ok (i, next)) :
    l.actOn limit i.opcode rest = l.act limit i := by
  have front := Instruction.encode_append_drop_of_decodeFrom decoded
  cases i with
  | push | comment => rfl
  | static t | parameter shape offset => rfl
  | pop count =>
      rw [← (List.cons.inj front).2]
      rfl
  | write slot | writeStatic slot matrix | writeParameter slot offset =>
      rw [← (List.cons.inj front).2]
      rfl
  | binding name defaults =>
      rw [Instruction.opcode, Opcode.ofDefaults?]
      split <;> rfl

/-- **The search over words is the search over the readable part**, up to the fault that ends it. -/
theorem walk_eq_exec (limit length offset : Nat) (l : Lineage) (words : List UInt32) :
    l.walk limit length offset words =
      close (l.exec limit (Program.readablePart length offset words).1)
        (Program.readablePart length offset words).2 := by
  fun_induction Program.readablePart length offset words generalizing l with
  | case1 =>
      rw [walk]
      rfl
  | case2 offset w rest fault failed =>
      rw [walk, Stream.measure_of_decodeFrom_error failed]
      rfl
  | case3 offset w rest i next decoded is fault? part ih =>
      rw [walk, Stream.measure_of_decodeFrom decoded]
      simp only [Instruction.read_of_decodeFrom decoded, actOn_eq_act limit l decoded, exec]
      cases l.act limit i with
      | error fault => cases fault? <;> rfl
      | ok l' =>
          rw [part] at ih
          exact ih l'

end Lineage

/-- The slot that is kept for the current frame: that of a plain write, and that of a write through a
matrix if it exists. -/
def Instruction.entered? (count : Nat) : Instruction → Option UInt32
  | write slot => some slot
  | writeStatic slot _ | writeParameter slot _ => if slot.toNat < count then some slot else none
  | push | pop _ | static _ | parameter _ _ | binding _ _ | comment _ => none

/-! ### Slots of a kind -/

namespace Lineage

/-- All slots that are kept for a frame or are the parent of one are of a kind. -/
structure Only (P : UInt32 → Prop) (l : Lineage) : Prop where
  /-- Those kept for frames are. -/
  frames : ∀ slot ∈ l.frames.top :: l.frames.below, P slot
  /-- The parents are. -/
  parents : ∀ slot ∈ l.parents, P slot

variable {P : UInt32 → Prop} {limit : Nat} {l l' : Lineage}

theorem only_start (none : P noParent) (count : Nat) : Only P (start count) := by
  constructor
  · intro slot member
    rw [List.mem_singleton.1 member]
    exact none
  · intro slot member
    rw [Array.eq_of_mem_replicate member]
    exact none

namespace Only

/-- The slot kept for the current frame becomes a parent. -/
theorem record (only : Only P l) (slot : UInt32) : Only P (l.record slot) := by
  refine ⟨only.frames, fun parent member => ?_⟩
  rcases Array.mem_or_eq_of_mem_setIfInBounds member with old | rfl
  · exact only.parents parent old
  · exact only.frames _ (List.mem_cons_self ..)

theorem enter (only : Only P l) {slot : UInt32} (kind : P slot) : Only P (l.enter slot) := by
  refine ⟨fun other member => ?_, only.parents⟩
  rcases List.mem_cons.1 member with rfl | old
  · exact kind
  · exact only.frames other (List.mem_cons_of_mem _ old)

theorem report (only : Only P l) (e : Event) : Only P (l.report e) :=
  ⟨only.frames, only.parents⟩

/-- Frames that were kept before are of the kind. -/
theorem withFrames (only : Only P l) {frames : Frames UInt32}
    (kept : ∀ slot ∈ frames.top :: frames.below, slot ∈ l.frames.top :: l.frames.below) :
    Only P { l with frames } :=
  ⟨fun slot member => only.frames slot (kept slot member), only.parents⟩

end Only

theorem exists_frames_of_act_push (acted : l.act limit .push = .ok l') :
    ∃ frames, l.frames.push? limit = .ok frames ∧ l' = { l with frames } := by
  rw [act] at acted
  cases opened : l.frames.push? limit with
  | error fault => rw [opened] at acted; cases acted
  | ok frames => rw [opened] at acted; cases acted; exact ⟨frames, rfl, rfl⟩

theorem exists_frames_of_act_pop {count : UInt32} (acted : l.act limit (.pop count) = .ok l') :
    ∃ frames, l.frames.pop? count = .ok frames ∧ l' = { l with frames } := by
  rw [act] at acted
  cases closed : l.frames.pop? count with
  | error fault => rw [closed] at acted; cases acted
  | ok frames => rw [closed] at acted; cases acted; exact ⟨frames, rfl, rfl⟩

/-- An instruction leaves the number of parents alone. -/
theorem size_act {i : Instruction} (acted : l.act limit i = .ok l') :
    l'.parents.size = l.parents.size := by
  cases i with
  | push =>
      obtain ⟨frames, _, rfl⟩ := exists_frames_of_act_push acted
      rfl
  | pop count =>
      obtain ⟨frames, _, rfl⟩ := exists_frames_of_act_pop acted
      rfl
  | write slot =>
      cases acted
      rw [write]
      split
      · exact Array.size_setIfInBounds ..
      · rfl
  | writeStatic slot _ | writeParameter slot _ =>
      cases acted
      rw [writeTimes]
      split
      · exact Array.size_setIfInBounds ..
      · rfl
  | static | parameter | binding | comment =>
      cases acted
      rfl

/-- A write through a matrix has to do only with a slot that exists. -/
theorem only_writeTimes (only : Only P l) (op : Opcode) {slot : UInt32}
    (kind : slot.toNat < l.parents.size → P slot) : Only P (l.writeTimes op slot) := by
  rw [writeTimes]
  split
  · rename_i inside
    exact (only.record slot).enter (kind inside)
  · exact only.report _

/-- **An instruction has to do only with the slot that it enters** and those before. -/
theorem only_act (only : Only P l) {i : Instruction}
    (entered : ∀ slot ∈ i.entered? l.parents.size, P slot) (acted : l.act limit i = .ok l') :
    Only P l' := by
  cases i with
  | push =>
      obtain ⟨frames, opened, rfl⟩ := exists_frames_of_act_push acted
      obtain ⟨_, rfl⟩ := Frames.push?_eq_ok_iff.1 opened
      refine only.withFrames fun slot member => ?_
      rcases List.mem_cons.1 member with rfl | old
      · exact List.mem_cons_self ..
      · exact old
  | pop count =>
      obtain ⟨frames, closed, rfl⟩ := exists_frames_of_act_pop acted
      refine only.withFrames fun slot member => ?_
      rw [← Frames.pop?_eq_ok_iff.1 closed] at member
      exact List.mem_of_mem_drop member
  | write slot =>
      cases acted
      have kind : P slot := entered slot rfl
      rw [write]
      split
      · exact (only.record slot).enter kind
      · exact (only.report _).enter kind
  | writeStatic slot _ | writeParameter slot _ =>
      cases acted
      refine only_writeTimes only _ fun inside => entered slot ?_
      rw [Instruction.entered?, if_pos inside]
      rfl
  | static | parameter | binding | comment =>
      cases acted
      exact only

/-- **A search has to do only with the slots that its instructions enter.** -/
theorem only_exec (limit : Nat) (only : Only P l) {is : List Instruction}
    (entered : ∀ i ∈ is, ∀ slot ∈ i.entered? l.parents.size, P slot) :
    Only P (l.exec limit is).1 ∧ (l.exec limit is).1.parents.size = l.parents.size := by
  induction is generalizing l with
  | nil => exact ⟨only, rfl⟩
  | cons i is ih =>
      rw [exec]
      cases acted : l.act limit i with
      | error fault => exact ⟨only, rfl⟩
      | ok next =>
          have same := size_act acted
          have first := only_act only (entered i (List.mem_cons_self ..)) acted
          have later : ∀ j ∈ is, ∀ slot ∈ j.entered? next.parents.size, P slot := by
            rw [same]
            exact fun j member => entered j (List.mem_cons_of_mem _ member)
          obtain ⟨rest, size⟩ := ih first later
          exact ⟨rest, size.trans same⟩

end Lineage

/-! ### Streams -/

/-- The parents of a stream that can be searched to its end. -/
theorem Stream.parents_eq_ok_iff {words : List UInt32} {count : Nat} {parents : Array UInt32} :
    (Stream.parents words count).value = .ok parents ↔
      ∃ is, Instruction.decodeAll words = .ok is ∧
        ((Lineage.start count).exec maxStackDepth is).2 = .ok () ∧
        ((Lineage.start count).exec maxStackDepth is).1.parents = parents := by
  rw [Stream.parents, Lineage.walk_eq_exec, Instruction.decodeAll,
    Program.decodeRest_eq_readablePart]
  generalize Program.readablePart words.length 0 words = part
  obtain ⟨is, fault?⟩ := part
  rcases found : (Lineage.start count).exec maxStackDepth is with ⟨l, fault | ⟨⟩⟩
  · cases fault? <;> simp [Lineage.close, found, Except.map]
  · cases fault? <;> simp [Lineage.close, found, Except.map]

/-- A slot that an instruction enters is written, and exists unless a plain write names it. -/
theorem Instruction.written_of_entered {is : List Instruction} {i : Instruction} (member : i ∈ is)
    {count : Nat} {slot : UInt32} (entered : slot ∈ i.entered? count) :
    slot ∈ writtenSlots is ∧ (slot.toNat < count ∨ .write slot ∈ is) := by
  have written : slot ∈ i.output? → slot ∈ writtenSlots is := fun output =>
    List.mem_filterMap.2 ⟨i, member, output⟩
  cases i with
  | write other =>
      cases entered
      exact ⟨written rfl, .inr member⟩
  | writeStatic other _ | writeParameter other _ =>
      rw [entered?] at entered
      split at entered
      · rename_i inside
        cases entered
        exact ⟨written rfl, .inl inside⟩
      · cases entered
  | push | pop | static | parameter | binding | comment => cases entered

/-- **A parent is a slot that the stream writes, and one that exists unless a plain write names
it.** -/
theorem parents_are_written {words : List UInt32} {count : Nat} {parents : Array UInt32}
    (found : (Stream.parents words count).value = .ok parents) :
    ∃ is, Instruction.decodeAll words = .ok is ∧ parents.size = count ∧
      ∀ parent ∈ parents, parent = noParent ∨
        parent ∈ writtenSlots is ∧ (parent.toNat < count ∨ .write parent ∈ is) := by
  obtain ⟨is, decoded, _, rfl⟩ := Stream.parents_eq_ok_iff.1 found
  have size : (Lineage.start count).parents.size = count := Array.size_replicate
  have none : Lineage.Only (fun slot => slot = noParent ∨
      slot ∈ writtenSlots is ∧ (slot.toNat < count ∨ .write slot ∈ is)) (.start count) :=
    Lineage.only_start (.inl rfl) count
  obtain ⟨only, same⟩ := Lineage.only_exec maxStackDepth none fun i member slot entered =>
    .inr (Instruction.written_of_entered member (size ▸ entered))
  exact ⟨is, decoded, same.trans size, only.parents⟩

/-- A frame in which slots are written plainly and through a matrix, where one slot does not exist
and is passed over. -/
def branchingList : List Instruction :=
  [.write 1, .push, .writeStatic 7 .identity, .write 0, .push, .writeStatic 2 .identity, .pop 2,
    .write 3]

/-- All of its parents exist. -/
theorem parents_are_written_branching :
    (Stream.parents (Instruction.encodeAll branchingList) 4).value = .ok #[1, noParent, 0, 1] ∧
      ∃ is, Instruction.decodeAll (Instruction.encodeAll branchingList) = .ok is ∧
        ∀ parent ∈ #[1, noParent, 0, 1], parent = noParent ∨
          parent ∈ writtenSlots is ∧ (parent.toNat < 4 ∨ .write parent ∈ is) := by
  have found : (Stream.parents (Instruction.encodeAll branchingList) 4).value =
      .ok #[1, noParent, 0, 1] := by decide +kernel
  obtain ⟨is, decoded, _, written⟩ := parents_are_written found
  exact ⟨found, is, decoded, written⟩

/-- **A parent may be a slot that does not exist**: behind a plain write of such a slot, it is the
parent of the slot that is written next. -/
theorem parent_of_missing_slot :
    (Stream.parents (Instruction.encodeAll [.write 5, .write 0]) 1).value = .ok #[5] ∧
      ¬ ∀ parent ∈ #[(5 : UInt32)], parent = noParent ∨ parent.toNat < 1 := by
  refine ⟨by decide +kernel, fun inside => ?_⟩
  exact absurd (inside 5 (Array.mem_singleton.2 rfl)) (by decide)

end Armature
