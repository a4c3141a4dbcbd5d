/-
**Walking over a stream and decoding it agree.**

`Stream.measure` steps over an instruction without building it, `Instruction.decodeFrom` builds it.
Both know the lengths of instructions on their own, and binding points bring inline defaults that
may themselves be cut off, unknown or of a kind that is not allowed.  This module shows that the
two never differ: they go on at the same position, or they report the same fault.

Main results:

* `Stream.measure_eq_map_decodeFrom` — **stepping is decoding without the instruction**;
* `Program.decodeRest_eq_readablePart` — **decoding gives the readable part**, if that is all;
* `Program.readablePart_eq_of_decodeRest` — a stream that can be decoded is readable to its end.
-/

import Armature.Evaluate.Program
import Armature.Stream

set_option autoImplicit false

namespace Armature

/-! ### One instruction -/

namespace Instruction

/-- Operands can be split off exactly when there are enough words. -/
theorem takeWords?_eq_some_iff {n : Nat} {words operands rest : List UInt32} :
    takeWords? n words = some (operands, rest) ↔
      n ≤ words.length ∧ operands = words.take n ∧ rest = words.drop n := by
  simp only [takeWords?, List.length_take]
  split
  · rename_i h
    simp only [Option.some.injEq, Prod.mk.injEq, eq_comm]
    constructor
    · rintro ⟨rfl, rfl⟩
      exact ⟨by omega, rfl, rfl⟩
    · rintro ⟨_, rfl, rfl⟩
      exact ⟨rfl, rfl⟩
  · rename_i h
    simp only [reduceCtorEq, false_iff]
    omega

theorem takeWords?_eq_none_iff {n : Nat} {words : List UInt32} :
    takeWords? n words = none ↔ words.length < n := by
  simp only [takeWords?, List.length_take]
  split
  · simp only [reduceCtorEq, false_iff]; omega
  · simp only [true_iff]; omega

end Instruction

namespace Stream

/-- Operands that are there are stepped over. -/
theorem skip_of_le {length offset : Nat} {op : Opcode} {rest : List UInt32}
    (h : op.operandCount ≤ rest.length) :
    skip length offset op rest = .ok (offset + 1 + op.operandCount) :=
  skip_eq_ok_iff.2 ⟨h, rfl⟩

/-- Operands that are missing are reported. -/
theorem skip_of_lt {length offset : Nat} {op : Opcode} {rest : List UInt32}
    (h : rest.length < op.operandCount) :
    skip length offset op rest = .error (.truncated offset (1 + op.operandCount) length) := by
  simp only [skip, List.length_take]
  rw [if_pos (by omega)]

/-- Stepping over inline defaults is decoding them without building them. -/
theorem skipDefaults_eq_map_decodeDefaults (length start n offset : Nat) (words : List UInt32) :
    skipDefaults length start n offset words =
      (Instruction.decodeDefaults length start n offset words).map Prod.snd := by
  induction n generalizing offset words with
  | zero => rfl
  | succ n ih =>
      cases words with
      | nil => rfl
      | cons w rest =>
          simp only [skipDefaults, Instruction.decodeDefaults, Opcode.read]
          cases hop : Opcode.ofWord? w with
          | none => rfl
          | some op =>
              cases op with
              | static shape =>
                  simp only [bind, Except.bind, Opcode.isStatic, if_true]
                  rcases Nat.lt_or_ge rest.length (Opcode.static shape).operandCount with h | h
                  · have cut : Instruction.takeWords? shape.size rest = none :=
                      Instruction.takeWords?_eq_none_iff.2 h
                    rw [skip_of_lt h, cut]
                    rfl
                  · have operands : Instruction.takeWords? shape.size rest =
                        some (rest.take shape.size, rest.drop shape.size) :=
                      Instruction.takeWords?_eq_some_iff.2 ⟨h, rfl, rfl⟩
                    rw [skip_of_le h, operands]
                    simp only [ih, Opcode.operandCount]
                    cases Instruction.decodeDefaults length start n (offset + 1 + shape.size)
                      (rest.drop shape.size) <;> rfl
              | _ => rfl

/-- Building an instruction from enough operands fails only in the defaults of a binding point. -/
theorem map_snd_ofOperands (length offset : Nat) (op : Opcode) (operands rest : List UInt32) :
    (Instruction.ofOperands length offset op operands rest).map Prod.snd =
      skipDefaults length offset (op.defaults?.getD 0) (offset + 1 + op.operandCount) rest := by
  cases op with
  | writeStatic =>
      simp only [Instruction.ofOperands]
      split <;> rfl
  | binding n =>
      simp only [Instruction.ofOperands, Opcode.defaults?, Option.getD_some,
        skipDefaults_eq_map_decodeDefaults, bind, Except.bind, Opcode.operandCount]
      cases Instruction.decodeDefaults length offset n.val (offset + 1 + 2) rest <;> rfl
  | _ => rfl

/-- **Stepping over an instruction is decoding it without building it**, faults included. -/
theorem measure_eq_map_decodeFrom (length offset : Nat) (words : List UInt32) :
    measure length offset words =
      (Instruction.decodeFrom length offset words).map Prod.snd := by
  cases words with
  | nil => rfl
  | cons w rest =>
      simp only [measure, Instruction.decodeFrom, Opcode.read]
      cases Opcode.ofWord? w with
      | none => rfl
      | some op =>
          simp only [bind, Except.bind]
          rcases Nat.lt_or_ge rest.length op.operandCount with h | h
          · rw [skip_of_lt h, Instruction.takeWords?_eq_none_iff.2 h]
            rfl
          · rw [skip_of_le h, Instruction.takeWords?_eq_some_iff.2 ⟨h, rfl, rfl⟩]
            exact (map_snd_ofOperands ..).symm

theorem measure_of_decodeFrom {length offset next : Nat} {words : List UInt32} {i : Instruction}
    (h : Instruction.decodeFrom length offset words = .ok (i, next)) :
    measure length offset words = .ok next := by
  rw [measure_eq_map_decodeFrom, h]
  rfl

theorem measure_of_decodeFrom_error {length offset : Nat} {words : List UInt32} {fault : Fault}
    (h : Instruction.decodeFrom length offset words = .error fault) :
    measure length offset words = .error fault := by
  rw [measure_eq_map_decodeFrom, h]
  rfl

end Stream

/-! ### Whole streams -/

namespace Program

/-- **Decoding gives the readable part if that is all**, and else its fault. -/
theorem decodeRest_eq_readablePart (length offset : Nat) (words : List UInt32) :
    Instruction.decodeRest length offset words =
      match (readablePart length offset words).2 with
      | none => .ok (readablePart length offset words).1
      | some fault => .error fault := by
  fun_induction readablePart length offset words with
  | case1 => rw [Instruction.decodeRest]
  | case2 offset w rest fault failed => rw [Instruction.decodeRest, failed]
  | case3 offset w rest i next decoded is fault? part ih =>
      rw [Instruction.decodeRest, decoded]
      simp only [ih, part]
      cases fault? <;> rfl

/-- A stream that can be decoded is readable to its end. -/
theorem readablePart_eq_of_decodeRest {length offset : Nat} {words : List UInt32}
    {is : List Instruction} (h : Instruction.decodeRest length offset words = .ok is) :
    readablePart length offset words = (is, none) := by
  rw [decodeRest_eq_readablePart] at h
  split at h
  · rename_i whole
    cases h
    exact Prod.ext rfl whole
  · cases h

theorem decodeAll_eq_error_iff {words : List UInt32} {fault : Fault} :
    Instruction.decodeAll words = .error fault ↔
      (readablePart words.length 0 words).2 = some fault := by
  rw [Instruction.decodeAll, decodeRest_eq_readablePart]
  cases (readablePart words.length 0 words).2 <;> simp

theorem exists_readablePart_of_error {words : List UInt32} {fault : Fault}
    (failed : Instruction.decodeAll words = .error fault) :
    ∃ is, readablePart words.length 0 words = (is, some fault) :=
  ⟨_, Prod.ext rfl (decodeAll_eq_error_iff.1 failed)⟩

end Program

end Armature
