/-
**Renumbering twice.**

A stream whose slots were renumbered may be renumbered again.  What the second walk finds are the
instructions that the first one left, with their new slots, and so the two together do what one walk
does by the composed table.  A slot is dropped there if either table drops it, or if the first gives
it a number that the second table does not reach.

Main definitions:

* `Stream.composed` — the table that does what two tables do one after the other.

Main results:

* `Stream.renumber?_composed` — one slot; `Instruction.renumber?_bind_renumber?` — one instruction;
* `renumbered_renumbered` — a list;
* `Stream.remap_remap` — **a stream: renumbering twice is renumbering once, by the composed table**.
-/

import Armature.Proofs.Codec.Walks
import Armature.Proofs.Codec.Renumbering

set_option autoImplicit false

namespace Armature

namespace Stream

/-- The entries of the first table, with the numbers that the second table gives to them. -/
def composed (first second : Array UInt32) : Array UInt32 :=
  first.map fun slot => if slot = unmapped then unmapped else second[slot.toNat]?.getD unmapped

/-- A slot keeps a number under both tables exactly if it does under the composed one. -/
theorem renumber?_composed (first second : Array UInt32) (slot : UInt32) :
    renumber? (composed first second) slot = (renumber? first slot).bind (renumber? second) := by
  rw [renumber?, composed, Array.getElem?_map, renumber?]
  cases first[slot.toNat]? with
  | none => rfl
  | some between =>
      by_cases dropped : between = unmapped
      · simp [dropped]
      · simp only [Option.map_some, if_neg dropped, Option.bind_some, renumber?]
        cases second[between.toNat]? with
        | none => exact if_pos rfl
        | some new => rfl

end Stream

/-! ### Instructions -/

/-- An instruction is renumbered twice as it is once, by the composed table. -/
theorem Instruction.renumber?_bind_renumber? (first second : Array UInt32) (i : Instruction) :
    (i.renumber? first).bind (renumber? second) = i.renumber? (Stream.composed first second) := by
  cases i with
  | write slot | writeStatic slot _ | writeParameter slot _ =>
      rw [renumber?, renumber?, Stream.renumber?_composed, Option.map_bind, Option.bind_map]
      rfl
  | push | pop | static | parameter | binding | comment => rfl

/-- A list is renumbered twice as it is once, by the composed table. -/
theorem renumbered_renumbered (first second : Array UInt32) (is : List Instruction) :
    renumbered second (renumbered first is) = renumbered (Stream.composed first second) is := by
  rw [renumbered, renumbered, List.filterMap_filterMap]
  exact congrArg (List.filterMap · is)
    (funext (Instruction.renumber?_bind_renumber? first second))

/-! ### Streams -/

namespace Stream

/-- Renumbering fails with the fault of decoding, if there is one. -/
theorem remap_of_decodeAll_error {words : List UInt32} {fault : Fault} (table : Array UInt32)
    (failed : Instruction.decodeAll words = .error fault) :
    (remap words table).value = .error fault := remap_eq_error_iff.2 failed

/-- **Renumbering twice is renumbering once, by the composed table.**  The words are the same, or
the fault is.  It succeeds exactly if the stream can be decoded, and then the stream in between can
be decoded as well: to the instructions that the first table leaves. -/
theorem remap_remap (words : List UInt32) (first second : Array UInt32) :
    let twice := (remap words first).value.bind fun between => (remap between second).value
    twice = (remap words (composed first second)).value ∧
      ((∃ after, twice = .ok after) ↔ ∃ is, Instruction.decodeAll words = .ok is) ∧
      ∀ between, (remap words first).value = .ok between →
        ∃ is, Instruction.decodeAll words = .ok is ∧
          Instruction.decodeAll between = .ok (renumbered first is) := by
  intro twice
  cases decoded : Instruction.decodeAll words with
  | error fault =>
      have failed := remap_of_decodeAll_error first decoded
      have stops : twice = .error fault := by simp only [twice, failed, Except.bind]
      refine ⟨stops.trans (remap_of_decodeAll_error _ decoded).symm, ?_,
        fun between renumbers => ?_⟩
      · simp [stops]
      · cases failed.symm.trans renumbers
  | ok is =>
      obtain ⟨leaves, decoded'⟩ := remap_of_decodeAll first decoded
      have goes : twice =
          .ok (Instruction.encodeAll (renumbered second (renumbered first is))) := by
        simp only [twice, leaves, Except.bind, (remap_of_decodeAll second decoded').1]
      refine ⟨?_, ⟨fun _ => ⟨is, rfl⟩, fun _ => ⟨_, goes⟩⟩, fun between renumbers => ?_⟩
      · rw [goes, renumbered_renumbered, (remap_of_decodeAll _ decoded).1]
      · obtain rfl := Except.ok.inj (leaves.symm.trans renumbers)
        exact ⟨is, rfl, decoded'⟩

/-- Four slots, with a named place between the writes. -/
def crossedSlots : List UInt32 :=
  Instruction.encodeAll [.push, .write 0, .binding 7 [.rotateX .one, .translate .zero],
    .writeStatic 1 .identity, .pop 1, .writeParameter 2 12, .write 3]

/-- One slot is dropped at first, one gets a number that the second table does not reach, and two
cross; what stands between the writes stays. -/
theorem remap_remap_crossedSlots :
    ((remap crossedSlots #[2, unmapped, 5, 0]).value.bind fun between =>
        (remap between #[7, 1, 4]).value) =
      .ok (Instruction.encodeAll [.push, .write 4, .binding 7 [.rotateX .one, .translate .zero],
        .pop 1, .write 7]) := by
  obtain ⟨once, -, -⟩ := remap_remap crossedSlots #[2, unmapped, 5, 0] #[7, 1, 4]
  refine once.trans ?_
  have table : composed #[2, unmapped, 5, 0] #[7, 1, 4] = #[4, unmapped, unmapped, 7] := by
    decide +kernel
  rw [table]
  decide +kernel

end Stream

end Armature
