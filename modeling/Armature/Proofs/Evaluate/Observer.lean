/-
**What an observer sees.**

An evaluation may be observed, so that the skeleton can be drawn while it is computed.  The observer
is shown pairs of a parent and a child: one before each frame that is opened, also if there is no
room for it, and one for each write to a slot that exists.  A plain write shows the frames as they
stand; a write through a matrix shows the current frame and what was written instead.

The observer is only shown the run.  Status and slots are those of the run of the decoded
instructions on a list of frames, in which no observer occurs, and what is shown is read off the
snapshots of that run.  Conversely the slots can be read off what is shown: each holds the child
that was shown with the last write to it.

Main definitions:

* `Sight`, `Instruction.sight?` — what an observer is shown at once, and by an instruction;
* `Snapshot.reached` — the instructions that are reached, with what they act on;
* `Snapshot.sights` — what an observer of a list is shown.

Main results:

* `Snapshot.reached_getElem?_eq_some_iff` — an instruction is reached if those before it go through;
* `Run.visits_act`, `Run.visits_exec` — what an instruction and a list of them show;
* `Snapshot.outputs_through` — the slots are what the writes that were shown make of them;
* `observer_sees_run` — **the observer sees exactly the run, and the slots in it**.
-/

import Armature.Proofs.Evaluate.Refinement

set_option autoImplicit false

namespace Armature

variable {M : Type} {s : Setting M}

/-! ### Sights -/

/-- What an observer is shown at once. -/
structure Sight (M : Type) where
  /-- The slot that is written, if it is a write that is shown. -/
  slot? : Option UInt32
  /-- The parent. -/
  parent : M
  /-- The child. -/
  child : M

namespace Sight

/-- What reaches the observer. -/
def pair (v : Sight M) : M × M := (v.parent, v.child)

/-- The write that is shown: it enters the child. -/
def write? (v : Sight M) : Option (UInt32 × M) := v.slot?.map fun slot => (slot, v.child)

end Sight

namespace Snapshot

/-- The frame under the current one, or the identity. -/
def parent (I : Interpretation M) (x : Snapshot M) : M := x.below.headD I.identity

/-- What is shown by a write of the child: nothing if there is no such slot. -/
def shown (x : Snapshot M) (slot : UInt32) (parent child : M) : Option (Sight M) :=
  if slot.toNat < x.outputs.size then some ⟨some slot, parent, child⟩ else none

end Snapshot

/-- What is shown by an instruction that is reached.  A push shows the frames as they stand, whether
or not there is room for one more, and so does a plain write.  A write through a matrix shows the
current frame and what is written. -/
def Instruction.sight? (s : Setting M) (x : Snapshot M) : Instruction → Option (Sight M)
  | push => some ⟨none, x.parent s.interpretation, x.top⟩
  | write slot => x.shown slot (x.parent s.interpretation) x.top
  | writeStatic slot matrix =>
    let product := s.interpretation.compose x.top (s.interpretation.ofTransform (.float4x4 matrix))
    x.shown slot x.top product
  | writeParameter slot offset =>
    (s.parameter .float4x4 offset).toOption.bind fun value =>
      x.shown slot x.top (s.interpretation.compose x.top value)
  | pop _ | static _ | parameter _ _ | binding _ _ | comment _ => none

namespace Snapshot

/-- The instructions of a list that are reached, each with the snapshot that it acts on.  One that
fails is reached, those behind it are not. -/
def reached (s : Setting M) (x : Snapshot M) : List Instruction → List (Instruction × Snapshot M)
  | [] => []
  | i :: is =>
    (i, x) :: match i.perform s x with
      | .error _ => []
      | .ok y => y.reached s is

/-- What an observer of a list is shown, in order. -/
def sights (s : Setting M) (x : Snapshot M) (is : List Instruction) : List (Sight M) :=
  (x.reached s is).filterMap fun (i, y) => i.sight? s y

/-- **An instruction is reached if those before it go through**, and it acts on what they make. -/
theorem reached_getElem?_eq_some_iff {x y : Snapshot M} {is : List Instruction} {k : Nat}
    {i : Instruction} :
    (x.reached s is)[k]? = some (i, y) ↔
      is[k]? = some i ∧ x.through s (is.take k) = (.ok (), y) := by
  induction is generalizing x k with
  | nil => simp [reached]
  | cons j is ih =>
      cases k with
      | zero => simp [reached, through]
      | succ k =>
          rw [reached, List.getElem?_cons_succ, List.getElem?_cons_succ, List.take_succ_cons]
          cases performed : j.perform s x with
          | error fault => simp [through_cons_error performed]
          | ok z => rw [through_cons_ok performed, ih]

theorem sights_cons_ok {x y : Snapshot M} {i : Instruction} (performed : i.perform s x = .ok y)
    (is : List Instruction) :
    x.sights s (i :: is) = (i.sight? s x).toList ++ y.sights s is := by
  rw [sights, reached, performed]
  cases shows : i.sight? s x with
  | none => exact List.filterMap_cons_none shows
  | some v => exact List.filterMap_cons_some shows

theorem sights_cons_error {x : Snapshot M} {i : Instruction} {fault : Fault}
    (performed : i.perform s x = .error fault) (is : List Instruction) :
    x.sights s (i :: is) = (i.sight? s x).toList := by
  rw [sights, reached, performed]
  cases shows : i.sight? s x with
  | none => exact List.filterMap_cons_none shows
  | some v => exact List.filterMap_cons_some shows

end Snapshot

/-! ### What is shown -/

namespace Run

/-- The frames that are shown are those of the snapshot. -/
theorem visits_visitTop (I : Interpretation M) (r : Run M) :
    (r.visitTop I).visits.toList = r.visits.toList ++ [(r.snapshot.parent I, r.frames.top)] := by
  rw [visitTop, visit, Array.toList_push, Snapshot.parent, List.headD_eq_head?_getD]
  rfl

/-- A store shows the frames as they stand. -/
theorem visits_store (I : Interpretation M) (r : Run M) (slot : UInt32) :
    (r.store I slot).visits.toList = r.visits.toList ++
      (r.snapshot.shown slot (r.snapshot.parent I) r.frames.top).toList.map Sight.pair := by
  rw [store, Snapshot.shown]
  by_cases inside : slot.toNat < r.outputs.size
  · rw [if_pos inside, if_pos (show slot.toNat < r.snapshot.outputs.size from inside),
      visits_visitTop]
    rfl
  · rw [if_neg inside, if_neg (show ¬ slot.toNat < r.snapshot.outputs.size from inside)]
    exact (List.append_nil _).symm

/-- A store of a product shows the current frame and the product. -/
theorem visits_storeTimes (I : Interpretation M) (r : Run M) (op : Opcode) (slot : UInt32)
    (value : M) :
    (r.storeTimes I op slot value).visits.toList = r.visits.toList ++
      (r.snapshot.shown slot r.frames.top (I.compose r.frames.top value)).toList.map
        Sight.pair := by
  rw [storeTimes, Snapshot.shown]
  by_cases inside : slot.toNat < r.outputs.size
  · rw [if_pos inside, if_pos (show slot.toNat < r.snapshot.outputs.size from inside), visit,
      Array.toList_push]
    rfl
  · rw [if_neg inside, if_neg (show ¬ slot.toNat < r.snapshot.outputs.size from inside)]
    exact (List.append_nil _).symm

/-- Opening and closing frames shows nothing by itself. -/
theorem visits_continue? (r : Run M) (frames : Except Fault (Frames M)) :
    (r.continue? frames).visits = r.visits := by
  cases frames <;> rfl

/-- **An instruction shows what it is said to show**, also one that fails. -/
theorem visits_act (r : Run M) (i : Instruction) :
    (r.act s i).visits.toList =
      r.visits.toList ++ (i.sight? s r.snapshot).toList.map Sight.pair := by
  cases i with
  | push =>
      rw [act, push, visits_continue?, visits_visitTop]
      rfl
  | pop count =>
      rw [act, pop, visits_continue?]
      exact (List.append_nil _).symm
  | binding name defaults =>
      rw [act, foldl_multiply]
      exact (List.append_nil _).symm
  | parameter shape offset =>
      rw [act]
      cases s.parameter shape offset <;> exact (List.append_nil _).symm
  | write slot => exact visits_store ..
  | writeStatic slot matrix => exact visits_storeTimes ..
  | writeParameter slot offset =>
      rw [act, Instruction.sight?]
      cases s.parameter .float4x4 offset with
      | error fault => exact (List.append_nil _).symm
      | ok value => exact visits_storeTimes ..
  | static | comment => exact (List.append_nil _).symm

/-- **A run shows what its snapshots say**, behind what was shown before. -/
theorem visits_exec {r : Run M} (running : r.fault? = none) (is : List Instruction) :
    (r.exec s is).visits.toList =
      r.visits.toList ++ (r.snapshot.sights s is).map Sight.pair := by
  induction is generalizing r with
  | nil => exact (List.append_nil _).symm
  | cons i is ih =>
      have acted := act_eq_perform (s := s) running i
      rw [exec_cons, step_of_running s running]
      cases performed : i.perform s r.snapshot with
      | error fault =>
          -- the run has stopped, but the instruction that stopped it was reached
          rw [performed] at acted
          rw [exec_of_stopped s (Option.isSome_iff_exists.2 ⟨fault, acted.1⟩), visits_act,
            Snapshot.sights_cons_error performed]
      | ok y =>
          rw [performed] at acted
          obtain ⟨goes, rfl⟩ := acted
          rw [ih goes, visits_act, Snapshot.sights_cons_ok performed, List.map_append,
            List.append_assoc]

/-- A fault of decoding is not shown. -/
theorem visits_close (r : Run M) (fault? : Option Fault) :
    (r.close fault?).visits = r.visits := by
  cases fault? with
  | none => rfl
  | some fault =>
      rw [close]
      split <;> rfl

end Run

/-! ### The slots in it -/

namespace Snapshot

/-- A write that is shown enters its child, and one that is not leaves the slots alone. -/
theorem enter_shown (x : Snapshot M) (slot : UInt32) (parent child : M) :
    enter x.outputs ((x.shown slot parent child).toList.filterMap Sight.write?) =
      x.outputs.setIfInBounds slot.toNat child := by
  rw [shown]
  by_cases inside : slot.toNat < x.outputs.size
  · rw [if_pos inside]
    rfl
  · rw [if_neg inside]
    exact (Array.setIfInBounds_eq_of_size_le (Nat.le_of_not_lt inside)).symm

/-- **An instruction that goes through changes the slots as it shows.** -/
theorem outputs_perform {x y : Snapshot M} {i : Instruction} (performed : i.perform s x = .ok y) :
    y.outputs = enter x.outputs ((i.sight? s x).toList.filterMap Sight.write?) := by
  cases i with
  | push =>
      rw [Instruction.perform] at performed
      split at performed <;> cases performed
      rfl
  | pop count =>
      rw [Instruction.perform] at performed
      split at performed <;> cases performed
      rfl
  | parameter shape offset =>
      obtain ⟨value, _, rfl⟩ := map_eq_ok_iff.1 performed
      rfl
  | writeParameter slot offset =>
      obtain ⟨value, supplied, rfl⟩ := map_eq_ok_iff.1 performed
      rw [Instruction.sight?, supplied]
      exact (enter_shown ..).symm
  | write slot | writeStatic slot matrix =>
      cases performed
      exact (enter_shown ..).symm
  | static | binding | comment =>
      cases performed
      rfl

/-- An instruction that fails shows no write. -/
theorem writes_of_error {x : Snapshot M} {i : Instruction} {fault : Fault}
    (performed : i.perform s x = .error fault) :
    (i.sight? s x).toList.filterMap Sight.write? = [] := by
  cases i with
  | push | pop | parameter => rfl
  | writeParameter slot offset =>
      rw [Instruction.sight?, map_eq_error_iff.1 performed]
      rfl
  | static | write | writeStatic | binding | comment => cases performed

/-- **The slots are what the writes that were shown make of them.** -/
theorem outputs_through (x : Snapshot M) (is : List Instruction) :
    (x.through s is).2.outputs = enter x.outputs ((x.sights s is).filterMap Sight.write?) := by
  induction is generalizing x with
  | nil => rfl
  | cons i is ih =>
      cases performed : i.perform s x with
      | error fault =>
          rw [through_cons_error performed, sights_cons_error performed, writes_of_error performed,
            enter_nil]
      | ok y =>
          rw [through_cons_ok performed, sights_cons_ok performed, List.filterMap_append,
            enter_append, ← outputs_perform performed]
          exact ih y

end Snapshot

/-! ### Streams -/

namespace Stream

/-- What the run of a stream shows. -/
theorem visits_run (s : Setting M) (count : Nat) (words : List UInt32) :
    (run s count words).visits.toList =
      ((Snapshot.start s.interpretation count).sights s
        (Program.readablePart words.length 0 words).1).map Sight.pair := by
  have walked : run s count words = _ :=
    Run.walk_eq_exec s words.length 0 (r := Run.start s.interpretation count) rfl words
  have execd := Run.visits_exec (s := s) (r := Run.start s.interpretation count) rfl
    (Program.readablePart words.length 0 words).1
  rw [Run.snapshot_start] at execd
  rw [walked, Run.visits_close, execd]
  rfl

end Stream

/-- Each place holds what was written to it last, or what was there. -/
theorem enter_replicate (count : Nat) (value : M) (ws : List (UInt32 × M)) :
    enter (Array.replicate count value) ws =
      Array.ofFn fun place : Fin count => (lastWriteTo? (·.toNat = place.val) ws).getD value := by
  apply Array.ext_getElem?
  intro place
  rw [enter_getElem?_place, Array.getElem?_replicate, Array.getElem?_ofFn]
  by_cases inside : place < count
  · simp [inside]
  · simp [inside]

/-- **The observer sees exactly the run.**  The status and the slots of an evaluation are those of
the longest part of the stream that decodes, acting on a list of frames that no observer sees.  The
pairs that the observer is shown are those of this run, in its order: one for each push that is
reached, and one for each write to a slot that there is, by an instruction that is reached.  So each
slot holds the child that was shown with the last write to it, or the identity if there was none. -/
theorem observer_sees_run (block : ParameterBlock) (count : Nat) (words : List UInt32) :
    (Stream.evaluate words block count).value =
        ((Stream.runMatrices maxStackDepth block count words).status.map fun _ =>
          (Stream.runMatrices maxStackDepth block count words).outputs) ∧
      ∀ limit, ∃ is, DecodablePart words is ∧
        let s : Setting Mat4 := ⟨.matrices, block, limit⟩
        let r := Stream.runMatrices limit block count words
        let x := Snapshot.start Interpretation.matrices count
        r.status =
            ((x.through s is).1.bind fun _ => (Instruction.decodeAll words).map fun _ => ()) ∧
          r.outputs = (x.through s is).2.outputs ∧
          r.visits.toList = (x.sights s is).map Sight.pair ∧
          r.outputs = Array.ofFn fun place : Fin count =>
            (lastWriteTo? (·.toNat = place.val)
              ((x.sights s is).filterMap Sight.write?)).getD .identity := by
  constructor
  · rw [Stream.evaluate, Run.result, Run.status]
    cases (Stream.runMatrices maxStackDepth block count words).fault? <;> rfl
  · intro limit
    have run := Stream.run_eq_through ⟨.matrices, block, limit⟩ count words
    refine ⟨_, Program.decodablePart_readablePart words, run.1, run.2,
      Stream.visits_run ⟨.matrices, block, limit⟩ count words, run.2.trans ?_⟩
    rw [Snapshot.outputs_through]
    exact enter_replicate count Mat4.identity _

/-- The push that finds no room is shown, and the write to a slot that there is not is passed over.
The plain write is shown under the frame below, the write through a matrix under its own frame. -/
example :
    let flip : Mat4 := .scaling (.splat (-.one))
    let r := Stream.runMatrices 2 .empty 2 (Instruction.encodeAll
      [.write 7, .push, .static (.uniformScale (-.one)), .write 0, .writeStatic 1 flip, .push,
        .write 1])
    r.visits.toList =
        [(.identity, .identity), (.identity, flip), (flip, .identity), (.identity, flip)] ∧
      r.outputs = #[flip, .identity] ∧ r.fault? = some (.stackOverflow 2) := by
  decide +kernel

end Armature
