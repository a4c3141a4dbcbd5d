/-
**Running words is running what they decode to.**

The evaluator takes operands straight from the words, with a loop of its own over the defaults of a
binding point.  The reference decodes a stream first, as far as that goes, and runs the list of
instructions.  This module proves that the two are the same function of the stream, so that
everything else may speak of lists of instructions.

Main results:

* `Run.actOn_eq_act` — an instruction in words acts as the decoded one;
* `Stream.run_eq_program` — **the run of a stream is the reference run**, whether or not the stream
  can be decoded to its end;
* `Stream.run_eq_exec` — the same for a stream that can;
* `Stream.exists_decodeAll_of_run` — no other stream is run to its end.
-/

import Armature.Evaluate.Words
import Armature.Proofs.Codec.Boundaries

set_option autoImplicit false

namespace Armature

namespace Run

variable {M : Type}

/-! ### Stopped runs -/

theorem step_of_stopped (s : Setting M) {r : Run M} (h : r.fault?.isSome) (i : Instruction) :
    r.step s i = r := if_pos h

/-- A run that has stopped stays as it is. -/
theorem exec_of_stopped (s : Setting M) {r : Run M} (h : r.fault?.isSome) (is : List Instruction) :
    r.exec s is = r := by
  induction is with
  | nil => rfl
  | cons i is ih => rw [exec_cons, step_of_stopped s h, ih]

theorem step_of_running (s : Setting M) {r : Run M} (h : r.fault? = none) (i : Instruction) :
    r.step s i = r.act s i := by
  rw [step, h]
  rfl

/-! ### One instruction -/

/-- The operands of a static transform hold its value. -/
theorem inlineValue_static (I : Interpretation M) (shape : Shape) (operands : List UInt32)
    (offset : Nat) :
    inlineValue I (.static shape) operands offset =
      .ok (I.ofTransform (.ofPayload shape ((operands.take shape.size).map Scalar.mk))) := by
  rw [inlineValue, if_neg (by simp), Transform.decode?]

/-- Stepping over a static transform is stepping over its payload. -/
theorem measure_static {length offset : Nat} {w : UInt32} {rest : List UInt32} {shape : Shape}
    (hop : Opcode.ofWord? w = some (.static shape)) (enough : shape.size ≤ rest.length) :
    Stream.measure length offset (w :: rest) = .ok (offset + 1 + shape.size) := by
  rw [Stream.measure, Opcode.read, hop]
  simp only [bind, Except.bind]
  have skipped : Stream.skip length offset (.static shape) rest = .ok (offset + 1 + shape.size) :=
    Stream.skip_of_le enough
  rw [skipped]
  rfl

/-- The inline defaults of a binding point multiply the frame in their order: none of the faults of
the loop over them arises where they can be decoded. -/
theorem multiplyInline_eq_foldl (I : Interpretation M) {length start n offset next : Nat}
    {words : List UInt32} {defaults : List Transform}
    (h : Instruction.decodeDefaults length start n offset words = .ok (defaults, next))
    {r : Run M} (running : r.fault? = none) :
    r.multiplyInline I length next offset words =
      (defaults.map I.ofTransform).foldl (multiply I) r := by
  induction n generalizing offset words defaults r with
  | zero =>
      cases h
      cases words with
      | nil => rw [multiplyInline]; rfl
      | cons w rest => rw [multiplyInline, if_neg (Nat.lt_irrefl _)]; rfl
  | succ n ih =>
      cases words with
      | nil => cases h
      | cons w rest =>
          simp only [Instruction.decodeDefaults] at h
          split at h
          · cases h
          · rename_i shape hop
            split at h
            · cases h
            · rename_i operands after htake
              obtain ⟨enough, rfl, rfl⟩ := Instruction.takeWords?_eq_some_iff.1 htake
              simp only [bind, Except.bind] at h
              split at h
              · cases h
              · rename_i found hfound
                cases h
                -- the defaults that follow end behind this one
                have measured := Stream.skipDefaults_eq_map_decodeDefaults length start n
                  (offset + 1 + shape.size) (rest.drop shape.size)
                rw [hfound] at measured
                have bounds := Stream.bounds_of_skipDefaults measured
                have size : offset + 1 + shape.size - offset - 1 = shape.size := by omega
                rw [multiplyInline, if_pos (by omega), measure_static hop enough]
                simp only [Opcode.read, hop, size, inlineValue_static, multiply?]
                rw [List.take_take, Nat.min_self, if_neg (by simp [multiply, running])]
                exact ih hfound running
          · cases h

/-- **An instruction in words acts as the decoded one.** -/
theorem actOn_eq_act (s : Setting M) {r : Run M} (running : r.fault? = none)
    {length offset next : Nat} {w : UInt32} {rest : List UInt32} {i : Instruction} {op : Opcode}
    (hop : Opcode.ofWord? w = some op)
    (h : Instruction.decodeFrom length offset (w :: rest) = .ok (i, next)) :
    r.actOn s length offset next op rest = r.act s i := by
  simp only [Instruction.decodeFrom, hop] at h
  split at h
  · cases h
  · rename_i operands after htake
    obtain ⟨enough, rfl, rfl⟩ := Instruction.takeWords?_eq_some_iff.1 htake
    cases op with
    | static shape =>
        cases h
        simp only [actOn, act, inlineValue_static, multiply?, Opcode.operandCount]
    | writeStatic =>
        obtain ⟨slot, components, rfl⟩ : ∃ slot components, rest = slot :: components := by
          cases rest with
          | nil => cases enough
          | cons slot components => exact ⟨slot, components, rfl⟩
        simp only [Instruction.ofOperands] at h
        split at h
        · rename_i matrix hmatrix
          cases h
          -- the slot stands in front of the matrix
          have payload : Transform.ofPayload .float4x4
              ((components.take Shape.float4x4.size).map Scalar.mk) = .float4x4 matrix := by
            rw [← hmatrix]
            simp only [Opcode.operandCount, Nat.add_comm 1, List.take_succ_cons, List.tail_cons]
          simp only [actOn, act, inlineValue, if_true, Transform.decode?, List.tail_cons, payload,
            storeTimes?, List.getD_cons_zero, Opcode.operandCount, Nat.add_comm 1,
            List.take_succ_cons]
        · rename_i other
          exact absurd rfl (other _)
    | binding n =>
        simp only [Instruction.ofOperands, bind, Except.bind] at h
        split at h
        · cases h
        · rename_i found hfound
          cases h
          -- what is left behind the name are the defaults
          rw [actOn, act]
          exact multiplyInline_eq_foldl s.interpretation hfound running
    | push | comment =>
        cases h
        rfl
    | pop | parameter _ | write =>
        obtain ⟨operand, others, rfl⟩ : ∃ operand others, rest = operand :: others := by
          cases rest with
          | nil => cases enough
          | cons operand others => exact ⟨operand, others, rfl⟩
        cases h
        rfl
    | writeParameter =>
        obtain ⟨slot, place, others, rfl⟩ : ∃ slot place others, rest = slot :: place :: others := by
          cases rest with
          | nil => cases enough
          | cons slot rest =>
              cases rest with
              | nil => exact absurd enough (Nat.lt_irrefl 1)
              | cons place others => exact ⟨slot, place, others, rfl⟩
        cases h
        rfl

end Run

/-! ### Whole streams -/

namespace Run

variable {M : Type}

/-- What a run of decoded instructions becomes where decoding ends, with a fault or without. -/
def close (r : Run M) (fault? : Option Fault) : Run M :=
  match fault? with
  | none => r
  | some fault => if r.fault?.isSome then r else r.fail fault

/-- The first instruction of the readable part. -/
theorem readablePart_cons {length offset next : Nat} {w : UInt32} {rest : List UInt32}
    {i : Instruction} (h : Instruction.decodeFrom length offset (w :: rest) = .ok (i, next)) :
    Program.readablePart length offset (w :: rest) =
      (i :: (Program.readablePart length next (rest.drop (next - offset - 1))).1,
        (Program.readablePart length next (rest.drop (next - offset - 1))).2) := by
  rw [Program.readablePart, h]

/-- Where stepping succeeds there is an instruction. -/
theorem exists_decodeFrom {length offset next : Nat} {words : List UInt32}
    (h : Stream.measure length offset words = .ok next) :
    ∃ i, Instruction.decodeFrom length offset words = .ok (i, next) := by
  rw [Stream.measure_eq_map_decodeFrom] at h
  cases hi : Instruction.decodeFrom length offset words with
  | error fault => rw [hi] at h; cases h
  | ok p =>
      rw [hi] at h
      cases h
      exact ⟨p.1, rfl⟩

theorem ofWord?_of_read {w : UInt32} {offset : Nat} {op : Opcode}
    (h : Opcode.read w offset = .ok op) : Opcode.ofWord? w = some op := by
  simp only [Opcode.read] at h
  split at h
  · rename_i found hfound
    cases h
    exact hfound
  · cases h

/-- The walk over the rest of a stream runs what can be decoded of it. -/
theorem walk_eq_exec (s : Setting M) (length offset : Nat) {r : Run M} (h : r.fault? = none)
    (words : List UInt32) :
    r.walk s length offset words =
      (r.exec s (Program.readablePart length offset words).1).close
        (Program.readablePart length offset words).2 := by
  -- the walk steps by lengths, the reference by decoding; both find the same next instruction
  fun_induction walk s length offset r words with
  | case1 => simp [Program.readablePart, close]
  | case2 offset r w rest fault hmeasure =>
      rw [Stream.measure_eq_map_decodeFrom] at hmeasure
      cases hi : Instruction.decodeFrom length offset (w :: rest) with
      | ok p => rw [hi] at hmeasure; cases hmeasure
      | error fault' =>
          rw [hi] at hmeasure
          cases hmeasure
          simp [Program.readablePart, hi, close, h]
  | case3 offset r w rest next hmeasure fault hread =>
      simp only [Stream.measure, hread, bind, Except.bind] at hmeasure
      cases hmeasure
  | case4 offset r w rest next hmeasure op hread r' hstop =>
      -- the walk ends where the run stops, and the run of the rest changes nothing
      obtain ⟨i, hi⟩ := exists_decodeFrom hmeasure
      have act := actOn_eq_act s h (ofWord?_of_read hread) hi
      rw [readablePart_cons hi, exec_cons, step_of_running s h, ← act]
      rw [exec_of_stopped s hstop]
      cases (Program.readablePart length next (rest.drop (next - offset - 1))).2 with
      | none => rfl
      | some fault => exact (if_pos hstop).symm
  | case5 offset r w rest next hmeasure op hread r' hgo ih =>
      obtain ⟨i, hi⟩ := exists_decodeFrom hmeasure
      have act := actOn_eq_act s h (ofWord?_of_read hread) hi
      rw [readablePart_cons hi, exec_cons, step_of_running s h, ← act]
      exact ih (by simpa using hgo)

end Run

namespace Stream

variable {M : Type}

/-- **The run of a stream is the reference run of what it decodes to.** -/
theorem run_eq_program (s : Setting M) (count : Nat) (words : List UInt32) :
    run s count words = Program.run s count words := by
  rw [run, Run.walk_eq_exec s _ _ rfl, Program.run]
  cases Program.readablePart words.length 0 words with
  | mk is fault? => cases fault? <;> rfl

/-- The run of a stream that can be decoded is the run of its instructions. -/
theorem run_eq_exec (s : Setting M) (count : Nat) {words : List UInt32} {is : List Instruction}
    (h : Instruction.decodeAll words = .ok is) :
    run s count words = Program.exec s count is := by
  rw [run_eq_program, Program.run, Program.readablePart_eq_of_decodeRest h]

/-- Only a stream that can be decoded is run to its end. -/
theorem exists_decodeAll_of_run {s : Setting M} {count : Nat} {words : List UInt32}
    (ends : (run s count words).fault? = none) : ∃ is, Instruction.decodeAll words = .ok is := by
  cases decoded : Instruction.decodeAll words with
  | ok is => exact ⟨is, rfl⟩
  | error fault =>
      obtain ⟨is, part⟩ := Program.exists_readablePart_of_error decoded
      rw [run_eq_program, Program.run, part] at ends
      simp only at ends
      split at ends
      · rename_i stopped
        rw [ends] at stopped
        cases stopped
      · cases ends

end Stream

end Armature
