/-
**The limit of the stack.**

A run never has more frames than its limit allows, the first frame included, and it stops for want
of room at one kind of place only: at a push, where as many frames are there as the limit allows.
Nothing else in a run depends on the limit.  So a run that does not stop for want of room is the same
under every greater limit, whatever else may have stopped it.

A limit of zero or one leaves the first frame and no other.

Main results:

* `Run.count_frames_exec_le` — a run keeps the number of frames within the limit;
* `Snapshot.through_eq_overflow_iff` — **a list runs out of room exactly where it comes to a push and
  all frames are used**; `Stream.status_eq_overflow_iff` is the same for a stream;
* `Snapshot.through_withLimit` — **more room does not change what had room enough**;
* `Stream.run_append` — a stream is run piece by piece;
* `limit_is_exact` — the three for the evaluation of a stream.
-/

import Armature.Proofs.Evaluate.Nesting

set_option autoImplicit false

namespace Armature

variable {M : Type} {s : Setting M}

/-! ### The number of frames -/

namespace Run

/-- **An instruction keeps the number of frames within the limit**, whether or not it stops the
run. -/
theorem count_frames_act_le {r : Run M} (bound : r.frames.depth + 1 ≤ max s.limit 1)
    (i : Instruction) : (r.act s i).frames.depth + 1 ≤ max s.limit 1 := by
  cases i with
  | push =>
      rw [act, push]
      cases opened : r.frames.push? s.limit with
      | error fault => exact bound
      | ok frames =>
          obtain ⟨room, rfl⟩ := Frames.push?_eq_ok_iff.1 opened
          have fits : r.frames.depth + 1 + 1 ≤ s.limit := room
          exact Nat.le_trans fits (Nat.le_max_left ..)
  | pop count =>
      rw [act, pop]
      cases closed : r.frames.pop? count with
      | error fault => exact bound
      | ok frames =>
          have left := congrArg List.length (Frames.pop?_eq_ok_iff.1 closed)
          simp only [List.length_drop, List.length_cons] at left
          simp only [Frames.depth] at bound
          show frames.below.length + 1 ≤ max s.limit 1
          omega
  | static t => exact bound
  | parameter shape offset =>
      rw [act]
      cases s.parameter shape offset with
      | error fault => exact bound
      | ok value => exact bound
  | write slot =>
      rw [act, (store_spec s.interpretation r slot).2.1]
      exact bound
  | writeStatic slot matrix =>
      rw [act, (storeTimes_spec s.interpretation r .writeStatic slot _).2.1]
      exact bound
  | writeParameter slot offset =>
      rw [act]
      cases s.parameter .float4x4 offset with
      | error fault => exact bound
      | ok value =>
          rw [storeTimes?, (storeTimes_spec s.interpretation r .writeParameter slot value).2.1]
          exact bound
  | binding name defaults =>
      rw [act, foldl_multiply]
      exact bound
  | comment text => exact bound

/-- **A run keeps the number of frames within the limit.** -/
theorem count_frames_exec_le {r : Run M} (bound : r.frames.depth + 1 ≤ max s.limit 1)
    (is : List Instruction) : (r.exec s is).frames.depth + 1 ≤ max s.limit 1 := by
  induction is generalizing r with
  | nil => exact bound
  | cons i is ih =>
      rw [exec_cons]
      refine ih ?_
      rw [step]
      split
      · exact bound
      · exact count_frames_act_le bound i

/-- Where decoding ends the frames stay. -/
theorem frames_close (r : Run M) (fault? : Option Fault) : (r.close fault?).frames = r.frames := by
  cases fault? with
  | none => rfl
  | some fault =>
      rw [close]
      split <;> rfl

end Run

/-- A stream keeps the number of frames within the limit. -/
theorem Stream.count_frames_run_le (s : Setting M) (count : Nat) (words : List UInt32) :
    (run s count words).frames.depth + 1 ≤ max s.limit 1 := by
  rw [run, Run.walk_eq_exec s _ _ rfl, Run.frames_close]
  exact Run.count_frames_exec_le (Nat.le_max_right ..) _

/-! ### Running out of room -/

/-- **Only a push runs out of room**, and only where all frames are used. -/
theorem Instruction.perform_eq_overflow_iff {x : Snapshot M} {i : Instruction} {n : Nat} :
    i.perform s x = .error (.stackOverflow n) ↔
      n = s.limit ∧ i = .push ∧ s.limit ≤ x.below.length + 1 := by
  have missing {shape : Shape} {offset : UInt32} (result : M → Snapshot M) :
      (s.parameter shape offset).map result ≠ .error (.stackOverflow n) := by
    intro failed
    obtain ⟨_, _, _, same⟩ := Setting.outOfRange_of_parameter (map_eq_error_iff.1 failed)
    cases same
  cases i with
  | push =>
      rw [perform]
      by_cases room : x.below.length + 1 < s.limit
      · simp [room]
      · simp only [room, if_false, Except.error.injEq, Fault.stackOverflow.injEq, true_and]
        constructor
        · rintro rfl
          exact ⟨rfl, Nat.le_of_not_lt room⟩
        · rintro ⟨rfl, -⟩
          rfl
  | pop count =>
      rw [perform]
      split <;> simp
  | parameter shape offset => simp [perform, missing]
  | writeParameter slot offset => simp [perform, missing]
  | static | write | writeStatic | binding | comment => simp [perform]

/-- With more room an instruction does the same, if it had room enough. -/
theorem Instruction.perform_withLimit {x : Snapshot M} {i : Instruction} {limit : Nat}
    (more : s.limit ≤ limit) (room : ∀ n, i.perform s x ≠ .error (.stackOverflow n)) :
    i.perform { s with limit } x = i.perform s x := by
  cases i with
  | push =>
      have fits : x.below.length + 1 < s.limit := by
        by_contra full
        exact room s.limit (perform_eq_overflow_iff.2 ⟨rfl, rfl, Nat.le_of_not_lt full⟩)
      rw [perform, perform, if_pos fits, if_pos (Nat.lt_of_lt_of_le fits more)]
  | pop | static | parameter | write | writeStatic | writeParameter | binding | comment => rfl

namespace Snapshot

/-- **A list runs out of room exactly where it comes to a push and all frames are used.** -/
theorem through_eq_overflow_iff {x : Snapshot M} {is : List Instruction} {n : Nat} :
    (x.through s is).1 = .error (.stackOverflow n) ↔
      n = s.limit ∧ ∃ front rest, is = front ++ .push :: rest ∧
        (x.through s front).1 = .ok () ∧
        s.limit ≤ (x.through s front).2.below.length + 1 := by
  induction is generalizing x with
  | nil => simp [through]
  | cons i is ih =>
      cases performed : i.perform s x with
      | error fault =>
          rw [through_cons_error performed]
          constructor
          · intro failed
            obtain rfl := Except.error.inj failed
            obtain ⟨rfl, rfl, full⟩ := Instruction.perform_eq_overflow_iff.1 performed
            exact ⟨rfl, [], is, rfl, rfl, full⟩
          · rintro ⟨rfl, front, rest, split, goes, full⟩
            cases front with
            | nil =>
                obtain ⟨rfl, rfl⟩ := List.cons.inj split
                have failed : Instruction.push.perform s x = .error (.stackOverflow s.limit) :=
                  Instruction.perform_eq_overflow_iff.2 ⟨rfl, rfl, full⟩
                exact congrArg Except.error (Except.error.inj (performed.symm.trans failed))
            | cons j front =>
                obtain ⟨rfl, rfl⟩ := List.cons.inj split
                rw [through_cons_error performed] at goes
                cases goes
      | ok y =>
          rw [through_cons_ok performed, ih]
          refine and_congr_right fun same => ?_
          constructor
          · rintro ⟨front, rest, rfl, goes, full⟩
            refine ⟨i :: front, rest, rfl, ?_⟩
            rw [through_cons_ok performed]
            exact ⟨goes, full⟩
          · rintro ⟨front, rest, split, goes, full⟩
            cases front with
            | nil =>
                obtain ⟨rfl, rfl⟩ := List.cons.inj split
                have failed : Instruction.push.perform s x = .error (.stackOverflow n) :=
                  Instruction.perform_eq_overflow_iff.2 ⟨same, rfl, full⟩
                cases performed.symm.trans failed
            | cons j front =>
                obtain ⟨rfl, rfl⟩ := List.cons.inj split
                rw [through_cons_ok performed] at goes full
                exact ⟨front, rest, rfl, goes, full⟩

/-- **More room does not change what had room enough.** -/
theorem through_withLimit {x : Snapshot M} {is : List Instruction} {limit : Nat}
    (more : s.limit ≤ limit) (room : ∀ n, (x.through s is).1 ≠ .error (.stackOverflow n)) :
    x.through { s with limit } is = x.through s is := by
  induction is generalizing x with
  | nil => rfl
  | cons i is ih =>
      have here : ∀ n, i.perform s x ≠ .error (.stackOverflow n) := by
        intro n failed
        refine room n ?_
        rw [through_cons_error failed]
      have same := Instruction.perform_withLimit more here
      cases performed : i.perform s x with
      | error fault =>
          rw [performed] at same
          rw [through_cons_error performed, through_cons_error same]
      | ok y =>
          rw [performed] at same
          rw [through_cons_ok performed] at room ⊢
          rw [through_cons_ok same]
          exact ih room

/-- Behind a list that runs through there are as many frames as it opens and does not close. -/
theorem length_below_of_through {x : Snapshot M} {is : List Instruction}
    (goes : (x.through s is).1 = .ok ()) :
    (x.through s is).2.below.length + closed is = x.below.length + opened is := by
  induction is generalizing x with
  | nil => rfl
  | cons i is ih =>
      have counted := i.depthAfter_of_perform (s := s) x
      cases performed : i.perform s x with
      | error fault =>
          rw [through_cons_error performed] at goes
          cases goes
      | ok y =>
          rw [performed] at counted
          rw [through_cons_ok performed] at goes ⊢
          obtain ⟨enough, after⟩ := Instruction.depthAfter_eq_ok_iff.1 counted
          have later := ih goes
          rw [opened_cons, closed_cons]
          omega

end Snapshot

/-! ### Streams -/

namespace Stream

/-- **A stream is run piece by piece**: behind a front that is run to its end the evaluation is in the
state that this has reached. -/
theorem run_append {count : Nat} {front : List UInt32} (rest : List UInt32)
    (goes : (run s count front).status = .ok ()) :
    run s count (front ++ rest) =
      (run s count front).walk s (front ++ rest).length front.length rest := by
  have running := Run.status_eq_ok_iff.1 goes
  obtain ⟨is, decoded⟩ := exists_decodeAll_of_run running
  obtain ⟨rfl, stored⟩ := Instruction.decodeAll_eq_ok_iff.1 decoded
  rw [Run.walk_eq_exec s _ _ running, run_eq_exec s count decoded, run, Run.walk_eq_exec s _ _ rfl,
    Program.readablePart_encodeAll_append _ 0 stored rest, Nat.zero_add, Run.exec_append]
  rfl

/-- Only the frames can run out of room, not the words. -/
theorem bind_decodeAll_eq_overflow_iff {through : Except Fault Unit} {words : List UInt32}
    {n : Nat} :
    (through.bind fun _ => (Instruction.decodeAll words).map fun _ => ()) =
        .error (.stackOverflow n) ↔ through = .error (.stackOverflow n) := by
  cases through with
  | error fault => exact Iff.rfl
  | ok _ =>
      simp only [reduceCtorEq, iff_false]
      intro failed
      cases decoded : Instruction.decodeAll words with
      | ok is =>
          rw [decoded] at failed
          cases failed
      | error fault =>
          have words := ofWords_of_readablePart (Program.decodeAll_eq_error_iff.1 decoded)
          rw [decoded] at failed
          cases failed
          cases words

/-- **A stream runs out of room exactly where it comes to a push and all frames are used**: the words
in front of the push are run to their end, and with the frames that they leave open the limit is
reached. -/
theorem status_eq_overflow_iff {count : Nat} {words : List UInt32} {n : Nat} :
    (run s count words).status = .error (.stackOverflow n) ↔
      n = s.limit ∧ ∃ front is rest, words = front ++ Opcode.push.toWord :: rest ∧
        Instruction.decodeAll front = .ok is ∧ (run s count front).status = .ok () ∧
        s.limit ≤ opened is - closed is + 1 := by
  -- a front that is decoded is run as its list is
  have front_iff {is : List Instruction} (stored : ∀ i ∈ is, i.Storable) :
      (run s count (Instruction.encodeAll is)).status =
        ((Snapshot.start s.interpretation count).through s is).1 := by
    have decoded := Instruction.decodeAll_encodeAll stored
    rw [(run_eq_through s count _).1, decoded, Program.readablePart_eq_of_decodeRest decoded]
    cases ((Snapshot.start s.interpretation count).through s is).1 <;> rfl
  have depth {is : List Instruction}
      (goes : ((Snapshot.start s.interpretation count).through s is).1 = .ok ()) :
      ((Snapshot.start s.interpretation count).through s is).2.below.length =
        opened is - closed is := by
    have frames := Snapshot.length_below_of_through goes
    have first : (Snapshot.start s.interpretation count).below.length = 0 := rfl
    omega
  rw [(run_eq_through s count words).1, bind_decodeAll_eq_overflow_iff,
    Snapshot.through_eq_overflow_iff]
  refine and_congr_right fun _ => ?_
  constructor
  · rintro ⟨is, js, split, goes, full⟩
    obtain ⟨⟨part, ⟨rest, rfl⟩, decoded⟩, -⟩ := Program.decodablePart_readablePart words
    rw [split] at decoded
    obtain ⟨rfl, stored⟩ := Instruction.decodeAll_eq_ok_iff.1 decoded
    have stored : ∀ i ∈ is, i.Storable := fun i member =>
      stored i (List.mem_append_left _ member)
    refine ⟨Instruction.encodeAll is, is, Instruction.encodeAll js ++ rest, ?_,
      Instruction.decodeAll_encodeAll stored, (front_iff stored).trans goes, depth goes ▸ full⟩
    simp [Instruction.encodeAll, Instruction.encode]
  · rintro ⟨front, is, rest, rfl, decoded, goes, full⟩
    obtain ⟨rfl, stored⟩ := Instruction.decodeAll_eq_ok_iff.1 decoded
    have goes := (front_iff stored).symm.trans goes
    have pushed : ∀ i ∈ is ++ [.push], i.Storable := by
      intro i member
      rcases List.mem_append.1 member with old | new
      · exact stored i old
      · rw [List.mem_singleton.1 new]
        trivial
    have split : Instruction.encodeAll is ++ Opcode.push.toWord :: rest =
        Instruction.encodeAll (is ++ [.push]) ++ rest := by
      simp [Instruction.encodeAll, Instruction.encode]
    rw [split, Program.readablePart_encodeAll_append _ 0 pushed rest, List.append_assoc]
    exact ⟨is, _, rfl, goes, depth goes ▸ full⟩

/-- **More room does not change a run that had room enough.** -/
theorem run_withLimit {count : Nat} {words : List UInt32} {limit : Nat} (more : s.limit ≤ limit)
    (room : ∀ n, (run s count words).status ≠ .error (.stackOverflow n)) :
    (run { s with limit } count words).status = (run s count words).status ∧
      (run { s with limit } count words).outputs = (run s count words).outputs := by
  obtain ⟨status, outputs⟩ := run_eq_through s count words
  obtain ⟨status', outputs'⟩ := run_eq_through { s with limit } count words
  have room : ∀ n, ((Snapshot.start s.interpretation count).through s
      (Program.readablePart words.length 0 words).1).1 ≠ .error (.stackOverflow n) := by
    intro n failed
    refine room n (status.trans ?_)
    exact bind_decodeAll_eq_overflow_iff.2 failed
  have same := Snapshot.through_withLimit more room
  refine ⟨status'.trans (Eq.trans ?_ status.symm), outputs'.trans (Eq.trans ?_ outputs.symm)⟩
  · rw [same]
  · rw [same]

end Stream

/-- **The limit of the stack is exact, and more room changes nothing.**  In the course of an
evaluation there is always a frame, and never more than the limit allows, which the first frame is
allowed in any case: this holds behind every front of the stream, and where a front is run to its end,
the evaluation of the whole goes on from what this has reached.  The stack overflows exactly where a
front is run to its end, a push follows, and the frames that the front leaves open reach the limit
together with the first one.  If it does not overflow, then under a greater limit the status is the
same, and so are all outputs, whatever the status is. -/
theorem limit_is_exact (limit : Nat) (block : ParameterBlock) (count : Nat) (words : List UInt32) :
    (∀ front rest, words = front ++ rest →
      let r := Stream.runMatrices limit block count front
      1 ≤ (r.frames.top :: r.frames.below).length ∧
        (r.frames.top :: r.frames.below).length ≤ max limit 1 ∧
        (r.status = .ok () → Stream.runMatrices limit block count words =
          r.walk ⟨.matrices, block, limit⟩ words.length front.length rest)) ∧
    (∀ n, (Stream.runMatrices limit block count words).status = .error (.stackOverflow n) ↔
      n = limit ∧ ∃ front is rest, words = front ++ Opcode.push.toWord :: rest ∧
        Instruction.decodeAll front = .ok is ∧
        (Stream.runMatrices limit block count front).status = .ok () ∧
        limit ≤ opened is - closed is + 1) ∧
    ∀ limit', limit ≤ limit' →
      (∀ n, (Stream.runMatrices limit block count words).status ≠ .error (.stackOverflow n)) →
      (Stream.runMatrices limit' block count words).status =
          (Stream.runMatrices limit block count words).status ∧
        (Stream.runMatrices limit' block count words).outputs =
          (Stream.runMatrices limit block count words).outputs := by
  refine ⟨?_, fun n => Stream.status_eq_overflow_iff, ?_⟩
  · rintro front rest rfl r
    exact ⟨Nat.le_add_left .., Stream.count_frames_run_le _ count front,
      fun goes => Stream.run_append rest goes⟩
  · intro limit' more room
    exact Stream.run_withLimit (s := ⟨.matrices, block, limit⟩) more room

/-- A limit of two leaves one frame besides the first, again and again; a limit of zero leaves
none. -/
example :
    let status (limit : Nat) (is : List Instruction) :=
      (Stream.runMatrices limit .empty 0 (Instruction.encodeAll is)).status
    status 2 [.push, .pop 1, .push] = .ok () ∧
      status 2 [.push, .push, .pop 3] = .error (.stackOverflow 2) ∧
      status 0 [.push] = .error (.stackOverflow 0) := by
  decide +kernel

end Armature
