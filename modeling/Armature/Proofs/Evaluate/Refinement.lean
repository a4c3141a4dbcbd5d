/-
**Evaluation on a list of frames.**

What a stream computes can be said without words, positions and reports: decode as much of it as can
be decoded, and let the instructions act one after the other on a list of frames and on the slots.
The first instruction that fails ends this and leaves the slots as they are; a fault of decoding
counts only if no instruction in front of it failed.  This module proves that the evaluator, which
never builds an instruction, computes the same status and the same slots.

Main definitions:

* `Snapshot` — the open frames and the slots;
* `Instruction.perform`, `Snapshot.through` — what an instruction and a list of them make of them;
* `DecodablePart` — the longest part of a stream that decodes.

Main results:

* `Run.act_eq_perform`, `Run.exec_eq_through` — a run is described by its snapshots;
* `decodablePart_readablePart` — the readable part is the longest part that decodes;
* `evaluation_refines_decoding` — **the evaluator computes what the decoded instructions compute**.
-/

import Armature.Proofs.Codec.Walks
import Armature.Proofs.Evaluate.Depth

set_option autoImplicit false

namespace Armature

variable {M : Type} {s : Setting M}

/-! ### Snapshots -/

/-- The open frames, of which there is always one, and the slots. -/
structure Snapshot (M : Type) where
  /-- The current frame. -/
  top : M
  /-- The frames under it, the nearest first. -/
  below : List M
  /-- The slots. -/
  outputs : Array M

/-- What an instruction makes of the frames and the slots.  A push copies the current frame and a
pop drops frames; transforms multiply the current frame on the right, the defaults of a binding
point one after the other; a plain write stores the current frame, and a write through a matrix
stores the product and leaves the frame alone.  A slot that does not exist is passed over. -/
def Instruction.perform (s : Setting M) (x : Snapshot M) :
    Instruction → Except Fault (Snapshot M)
  | push =>
    if x.below.length + 1 < s.limit then .ok { x with below := x.top :: x.below }
    else .error (.stackOverflow s.limit)
  | pop count =>
    match (x.top :: x.below).drop count.toNat with
    | [] => .error (.stackUnderflow count x.below.length)
    | top :: below => .ok { x with top, below }
  | static t => .ok { x with top := s.interpretation.compose x.top (s.interpretation.ofTransform t) }
  | parameter shape offset =>
    (s.parameter shape offset).map fun value =>
      { x with top := s.interpretation.compose x.top value }
  | write slot => .ok { x with outputs := x.outputs.setIfInBounds slot.toNat x.top }
  | writeStatic slot matrix =>
    let product := s.interpretation.compose x.top (s.interpretation.ofTransform (.float4x4 matrix))
    .ok { x with outputs := x.outputs.setIfInBounds slot.toNat product }
  | writeParameter slot offset =>
    (s.parameter .float4x4 offset).map fun value =>
      { x with
        outputs := x.outputs.setIfInBounds slot.toNat (s.interpretation.compose x.top value) }
  | binding _ defaults =>
    let values := defaults.map s.interpretation.ofTransform
    .ok { x with top := values.foldl s.interpretation.compose x.top }
  | comment _ => .ok x

namespace Snapshot

/-- One frame, and `count` slots that are not written. -/
def start (I : Interpretation M) (count : Nat) : Snapshot M :=
  ⟨I.identity, [], Array.replicate count I.identity⟩

/-- Let instructions act one after the other.  The first that fails is the last one, and what the
instructions before it made is left. -/
def through (s : Setting M) (x : Snapshot M) : List Instruction → Except Fault Unit × Snapshot M
  | [] => (.ok (), x)
  | i :: is =>
    match i.perform s x with
    | .error fault => (.error fault, x)
    | .ok y => y.through s is

theorem through_cons_ok {x y : Snapshot M} {i : Instruction} (h : i.perform s x = .ok y)
    (is : List Instruction) : x.through s (i :: is) = y.through s is := by
  rw [through, h]

theorem through_cons_error {x : Snapshot M} {i : Instruction} {fault : Fault}
    (h : i.perform s x = .error fault) (is : List Instruction) :
    x.through s (i :: is) = (.error fault, x) := by
  rw [through, h]

end Snapshot

/-! ### Runs -/

namespace Run

/-- What is left of a run without visits and reports. -/
def snapshot (r : Run M) : Snapshot M := ⟨r.frames.top, r.frames.below, r.outputs⟩

theorem snapshot_start (I : Interpretation M) (count : Nat) :
    (start I count).snapshot = .start I count := rfl

/-- A store changes at most its slot. -/
theorem snapshot_store (I : Interpretation M) (r : Run M) (slot : UInt32) :
    (r.store I slot).snapshot =
      { r.snapshot with outputs := r.outputs.setIfInBounds slot.toNat r.frames.top } := by
  obtain ⟨_, frames, outputs⟩ := store_spec I r slot
  rw [snapshot, frames, outputs]
  rfl

theorem snapshot_storeTimes (I : Interpretation M) (r : Run M) (op : Opcode) (slot : UInt32)
    (value : M) :
    (r.storeTimes I op slot value).snapshot =
      { r.snapshot with
        outputs := r.outputs.setIfInBounds slot.toNat (I.compose r.frames.top value) } := by
  obtain ⟨_, frames, outputs⟩ := storeTimes_spec I r op slot value
  rw [snapshot, frames, outputs]
  rfl

/-- **An instruction does to a run what it makes of its snapshot**; where it fails the slots are as
before. -/
theorem act_eq_perform {r : Run M} (running : r.fault? = none) (i : Instruction) :
    match i.perform s r.snapshot with
    | .ok y => (r.act s i).fault? = none ∧ (r.act s i).snapshot = y
    | .error fault => (r.act s i).fault? = some fault ∧ (r.act s i).outputs = r.outputs := by
  cases i with
  | push =>
      rw [Instruction.perform, act, push, Frames.push?]
      by_cases room : r.frames.below.length + 1 < s.limit
      · rw [if_pos (show r.snapshot.below.length + 1 < s.limit from room),
          if_pos (show r.frames.depth + 1 < s.limit from room)]
        exact ⟨running, rfl⟩
      · rw [if_neg (show ¬ r.snapshot.below.length + 1 < s.limit from room),
          if_neg (show ¬ r.frames.depth + 1 < s.limit from room)]
        exact ⟨rfl, rfl⟩
  | pop count =>
      have same : r.snapshot.top :: r.snapshot.below = r.frames.top :: r.frames.below := rfl
      rw [Instruction.perform, same, act, pop, Frames.pop?]
      cases (r.frames.top :: r.frames.below).drop count.toNat with
      | nil => exact ⟨rfl, rfl⟩
      | cons top below => exact ⟨running, rfl⟩
  | static t => exact ⟨running, rfl⟩
  | parameter shape offset =>
      rw [Instruction.perform, act]
      cases s.parameter shape offset with
      | error fault => exact ⟨rfl, rfl⟩
      | ok value => exact ⟨running, rfl⟩
  | write slot =>
      exact ⟨(store_spec s.interpretation r slot).1.trans running, snapshot_store ..⟩
  | writeStatic slot matrix =>
      exact ⟨(storeTimes_spec s.interpretation r .writeStatic slot _).1.trans running,
        snapshot_storeTimes ..⟩
  | writeParameter slot offset =>
      rw [Instruction.perform, act]
      cases s.parameter .float4x4 offset with
      | error fault => exact ⟨rfl, rfl⟩
      | ok value =>
          exact ⟨(storeTimes_spec s.interpretation r .writeParameter slot value).1.trans running,
            snapshot_storeTimes ..⟩
  | binding name defaults =>
      rw [Instruction.perform, act, foldl_multiply]
      exact ⟨running, rfl⟩
  | comment text => exact ⟨running, rfl⟩

/-- **A run of a list has the status and the slots of its snapshots.** -/
theorem exec_eq_through {r : Run M} (running : r.fault? = none) (is : List Instruction) :
    (r.exec s is).status = (r.snapshot.through s is).1 ∧
      (r.exec s is).outputs = (r.snapshot.through s is).2.outputs := by
  induction is generalizing r with
  | nil => exact ⟨status_eq_ok_iff.2 running, rfl⟩
  | cons i is ih =>
      have acted := act_eq_perform (s := s) running i
      rw [exec_cons, step_of_running s running]
      cases performed : i.perform s r.snapshot with
      | error fault =>
          rw [performed] at acted
          obtain ⟨stopped, outputs⟩ := acted
          rw [Snapshot.through_cons_error performed,
            exec_of_stopped s (Option.isSome_iff_exists.2 ⟨fault, stopped⟩)]
          exact ⟨by rw [status, stopped], outputs⟩
      | ok y =>
          rw [performed] at acted
          obtain ⟨goes, rfl⟩ := acted
          rw [Snapshot.through_cons_ok performed]
          exact ih goes

/-- A fault of decoding counts if the run has not stopped before. -/
theorem close_spec (r : Run M) (fault? : Option Fault) :
    (r.close fault?).outputs = r.outputs ∧
      (r.close fault?).status = r.status.bind fun _ =>
        match fault? with
        | none => .ok ()
        | some fault => .error fault := by
  cases fault? with
  | none =>
      refine ⟨rfl, ?_⟩
      rw [close, status]
      cases r.fault? <;> rfl
  | some fault =>
      rw [close]
      cases stopped : r.fault? with
      | none => simp [fail, status, stopped, Except.bind]
      | some earlier => simp [status, stopped, Except.bind]

end Run

/-! ### The part that decodes -/

/-- The list is what the longest part of the stream, from its front on, that decodes decodes to. -/
structure DecodablePart (words : List UInt32) (is : List Instruction) : Prop where
  /-- It is decoded from the front of the stream. -/
  decoded : ∃ front, front <+: words ∧ Instruction.decodeAll front = .ok is
  /-- Whatever else is decoded from the front of the stream is a part of it. -/
  longest : ∀ front js, front <+: words → Instruction.decodeAll front = .ok js → js <+: is

namespace Program

/-- Instructions that can be stored are readable wherever their words stand, and reading goes on
behind them. -/
theorem readablePart_encodeAll_append (length offset : Nat) {js : List Instruction}
    (stored : ∀ j ∈ js, j.Storable) (rest : List UInt32) :
    readablePart length offset (Instruction.encodeAll js ++ rest) =
      (js ++ (readablePart length (offset + (Instruction.encodeAll js).length) rest).1,
        (readablePart length (offset + (Instruction.encodeAll js).length) rest).2) := by
  induction js generalizing offset with
  | nil => rfl
  | cons j js ih =>
      have others := ih (offset + j.wordLength) fun i hi => stored i (List.mem_cons_of_mem _ hi)
      have decoded := Instruction.decodeFrom_encode length offset
        (stored j (List.mem_cons_self ..)) (Instruction.encodeAll js ++ rest)
      have split : Instruction.encodeAll (j :: js) ++ rest =
          j.encode ++ (Instruction.encodeAll js ++ rest) := List.append_assoc ..
      obtain ⟨operands, head⟩ := j.exists_encode_eq_cons
      have count : operands.length + 1 = j.wordLength := by
        rw [← Instruction.length_encode, head, List.length_cons]
      have total : offset + (Instruction.encodeAll (j :: js)).length =
          offset + j.wordLength + (Instruction.encodeAll js).length := by
        rw [Instruction.encodeAll, List.flatMap_cons, List.length_append, Instruction.length_encode,
          Nat.add_assoc]
        rfl
      rw [head, List.cons_append] at decoded split
      have behind : offset + j.wordLength - offset - 1 = operands.length := by omega
      -- reading goes on behind the words of the first instruction
      rw [total, split, Run.readablePart_cons decoded, behind, List.drop_left, others]
      rfl

/-- What is readable can be stored. -/
theorem storable_of_readablePart (length offset : Nat) (words : List UInt32) :
    ∀ i ∈ (readablePart length offset words).1, i.Storable := by
  fun_induction readablePart length offset words with
  | case1 | case2 => exact fun _ none => absurd none List.not_mem_nil
  | case3 offset w rest i next decoded is fault? part ih =>
      rw [part] at ih
      intro j hj
      rcases List.mem_cons.1 hj with rfl | hj
      · exact Instruction.storable_of_decodeFrom decoded
      · exact ih j hj

/-- **The readable part is the longest part that decodes.** -/
theorem decodablePart_readablePart (words : List UInt32) :
    DecodablePart words (readablePart words.length 0 words).1 := by
  constructor
  · cases decoded : Instruction.decodeAll words with
    | ok is =>
        rw [readablePart_eq_of_decodeRest decoded]
        exact ⟨words, List.prefix_rfl, decoded⟩
    | error fault =>
        obtain ⟨is, part⟩ := exists_readablePart_of_error decoded
        obtain ⟨rest, split, _⟩ := words_of_readablePart part
        have stored := storable_of_readablePart words.length 0 words
        rw [part] at stored ⊢
        exact ⟨Instruction.encodeAll is, ⟨rest, split.symm⟩,
          Instruction.decodeAll_encodeAll stored⟩
  · rintro front js ⟨rest, rfl⟩ decoded
    obtain ⟨rfl, stored⟩ := Instruction.decodeAll_eq_ok_iff.1 decoded
    rw [readablePart_encodeAll_append _ 0 stored rest]
    exact List.prefix_append ..

end Program

/-! ### Streams -/

namespace Stream

/-- The status and the slots of the run of a stream, by its readable part. -/
theorem run_eq_through (s : Setting M) (count : Nat) (words : List UInt32) :
    let last := (Snapshot.start s.interpretation count).through s
      (Program.readablePart words.length 0 words).1
    (run s count words).status =
        (last.1.bind fun _ => (Instruction.decodeAll words).map fun _ => ()) ∧
      (run s count words).outputs = last.2.outputs := by
  have walked : run s count words = _ :=
    Run.walk_eq_exec s words.length 0 (r := Run.start s.interpretation count) rfl words
  have execd := Run.exec_eq_through (s := s) (r := Run.start s.interpretation count) rfl
    (Program.readablePart words.length 0 words).1
  obtain ⟨outputs, status⟩ := Run.close_spec
    ((Run.start s.interpretation count).exec s (Program.readablePart words.length 0 words).1)
    (Program.readablePart words.length 0 words).2
  rw [execd.1, Run.snapshot_start] at status
  rw [execd.2, Run.snapshot_start] at outputs
  rw [walked]
  refine ⟨status.trans ?_, outputs⟩
  rw [Instruction.decodeAll, Program.decodeRest_eq_readablePart]
  cases (Program.readablePart words.length 0 words).2 <;> rfl

end Stream

/-- **The evaluator computes what the decoded instructions compute.**  For every stream, block of
parameters, limit and number of slots, the longest part of the stream that decodes acts on a list of
frames and on the slots: the slots that this leaves are those of the evaluation, bit by bit, also
after a failure.  The status is that of the instructions, and only if none of them fails that of
decoding. -/
theorem evaluation_refines_decoding (limit : Nat) (block : ParameterBlock) (count : Nat)
    (words : List UInt32) :
    ∃ is, DecodablePart words is ∧
      let last := (Snapshot.start Interpretation.matrices count).through
        ⟨.matrices, block, limit⟩ is
      (Stream.runMatrices limit block count words).status =
          (last.1.bind fun _ => (Instruction.decodeAll words).map fun _ => ()) ∧
        (Stream.runMatrices limit block count words).outputs = last.2.outputs :=
  ⟨_, Program.decodablePart_readablePart words,
    Stream.run_eq_through ⟨.matrices, block, limit⟩ count words⟩

end Armature
