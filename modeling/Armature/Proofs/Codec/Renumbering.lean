/-
**Renumbering, instruction by instruction.**

Slots are renumbered in the words of a stream, which is walked without being decoded.  The stream
that results is the one of the renumbered instructions: those whose slot is dropped go, the others
keep everything but their slot.

Main definitions:

* `Instruction.renumber?`, `renumbered` — one instruction, and a list, after renumbering.

Main results:

* `Stream.remapFrom_of_decodeRest` — renumbering words is renumbering instructions;
* `Stream.remap_of_decodeAll` — **a stream that is decoded is renumbered, and decodes to the
  renumbered list**;
* `writtenSlots_renumbered` — the slots written are the new numbers of those written before.
-/

import Armature.Remap
import Armature.Proofs.Codec.Bijection
import Armature.Proofs.Evaluate.Journal

set_option autoImplicit false

namespace Armature

/-! ### Instructions -/

/-- The instruction with the new number of its slot, if it keeps one. -/
def Instruction.renumber? (table : Array UInt32) : Instruction → Option Instruction
  | write slot => (Stream.renumber? table slot).map write
  | writeStatic slot matrix => (Stream.renumber? table slot).map fun new => writeStatic new matrix
  | writeParameter slot offset =>
    (Stream.renumber? table slot).map fun new => writeParameter new offset
  | i => some i

/-- The list with new numbers for the slots. -/
def renumbered (table : Array UInt32) (is : List Instruction) : List Instruction :=
  is.filterMap (Instruction.renumber? table)

/-- Renumbering can be stored where the list can. -/
theorem storable_renumbered {table : Array UInt32} {is : List Instruction}
    (stored : ∀ i ∈ is, i.Storable) : ∀ j ∈ renumbered table is, j.Storable := by
  intro j member
  obtain ⟨i, hi, same⟩ := List.mem_filterMap.1 member
  cases i with
  | write slot | writeStatic slot _ | writeParameter slot _ =>
      obtain ⟨new, _, rfl⟩ := Option.map_eq_some_iff.1 same
      trivial
  | push | pop | static | parameter | binding | comment =>
      cases same
      exact stored _ hi

/-- An instruction that is renumbered writes the new number of its slot. -/
theorem Instruction.output?_bind_renumber? (table : Array UInt32) (i : Instruction) :
    (i.renumber? table).bind output? = i.output?.bind (Stream.renumber? table) := by
  cases i with
  | write slot | writeStatic slot _ | writeParameter slot _ =>
      show (Option.map _ _).bind _ = Stream.renumber? table slot
      cases Stream.renumber? table slot <;> rfl
  | push | pop | static | parameter | binding | comment => rfl

/-- **The slots written are the new numbers of those written before**, in the same order. -/
theorem writtenSlots_renumbered (table : Array UInt32) (is : List Instruction) :
    writtenSlots (renumbered table is) =
      (writtenSlots is).filterMap (Stream.renumber? table) := by
  rw [writtenSlots, writtenSlots, renumbered, List.filterMap_filterMap, List.filterMap_filterMap]
  exact congrArg (List.filterMap · is) (funext (Instruction.output?_bind_renumber? table))

/-! ### Words -/

namespace Stream

/-- Renumbering the words of an instruction is renumbering the instruction. -/
theorem renumberInstruction_eq {table : Array UInt32} {w : UInt32} {operands : List UInt32}
    {i : Instruction} (words : i.encode = w :: operands) :
    renumberInstruction table w i.opcode operands =
      ((i.renumber? table).map Instruction.encode).getD [] := by
  rw [renumberInstruction]
  cases i with
  | write slot | writeStatic slot _ | writeParameter slot _ =>
      obtain ⟨rfl, rfl⟩ := List.cons.inj words
      simp only [Instruction.opcode, Opcode.isOutput, if_true, List.headD_cons, Instruction.renumber?]
      cases renumber? table slot <;> rfl
  | binding name defaults =>
      have reads : (Instruction.binding name defaults).opcode.isOutput = false := by
        rw [Instruction.opcode, Opcode.ofDefaults?]
        split <;> rfl
      rw [reads, if_neg Bool.false_ne_true]
      exact words.symm
  | push | pop | static | parameter | comment => exact words.symm

theorem encode_of_decodeFrom {length offset next : Nat} {w : UInt32} {rest : List UInt32}
    {i : Instruction} (decoded : Instruction.decodeFrom length offset (w :: rest) = .ok (i, next)) :
    i.encode = w :: rest.take (next - offset - 1) := by
  have front := Instruction.encode_append_drop_of_decodeFrom decoded
  have whole : w :: rest.take (next - offset - 1) ++ rest.drop (next - offset - 1) = w :: rest :=
    congrArg (w :: ·) (List.take_append_drop ..)
  exact List.append_cancel_right (front.trans whole.symm)

/-- Renumbering words is renumbering instructions, one piece for each. -/
theorem remapFrom_of_decodeRest {length offset : Nat} {words : List UInt32}
    {is : List Instruction} (table : Array UInt32)
    (decoded : Instruction.decodeRest length offset words = .ok is) :
    remapFrom table length offset words =
      .ok (is.map fun i => ((i.renumber? table).map Instruction.encode).getD []) := by
  fun_induction Instruction.decodeRest length offset words generalizing is with
  | case1 =>
      cases decoded
      rw [remapFrom]
      rfl
  | case2 | case3 => cases decoded
  | case4 offset w rest i next first js later ih =>
      cases decoded
      rw [remapFrom, measure_of_decodeFrom first]
      simp only [Instruction.read_of_decodeFrom first, ih later,
        renumberInstruction_eq (encode_of_decodeFrom first), List.map_cons]

theorem flatten_map_encode (table : Array UInt32) (is : List Instruction) :
    (is.map fun i => ((i.renumber? table).map Instruction.encode).getD []).flatten =
      Instruction.encodeAll (renumbered table is) := by
  induction is with
  | nil => rfl
  | cons i is ih =>
      rw [List.map_cons, List.flatten_cons, ih, renumbered, renumbered, List.filterMap_cons]
      cases i.renumber? table <;> rfl

/-- **A stream that is decoded is renumbered, and decodes to the renumbered list.** -/
theorem remap_of_decodeAll {words : List UInt32} {is : List Instruction} (table : Array UInt32)
    (decoded : Instruction.decodeAll words = .ok is) :
    (remap words table).value = .ok (Instruction.encodeAll (renumbered table is)) ∧
      Instruction.decodeAll (Instruction.encodeAll (renumbered table is)) =
        .ok (renumbered table is) := by
  refine ⟨?_, Instruction.decodeAll_encodeAll
    (storable_renumbered (Instruction.storable_of_decodeAll decoded))⟩
  rw [remap, remapFrom_of_decodeRest table decoded, ← flatten_map_encode]

end Stream

end Armature
