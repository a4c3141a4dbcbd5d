/-
**All walks over a stream agree.**

Several functions walk over a stream, each in its own way: the positions of the instructions are
listed, the instructions are decoded, slots are renumbered, and the optimizer decodes the stream
before it works on the list.  They all go through the same instructions and, where the stream is
malformed, stop at the same one with the same fault.

What a stream consists of is said once, by `Program.readablePart`: the instructions up to the first
that cannot be read, and its fault.  Every walk is compared with that.

Main definitions:

* `Instruction.starts` — the positions of instructions that follow each other.

Main results:

* `Stream.advance_eq_map_decodeAt` — stepping over an instruction is decoding it;
* `Stream.offsetsFrom_eq_readablePart`, `Stream.remapFrom_eq_error_iff`,
  `optimize_eq_stream_error_iff` — each walk by the readable part;
* `Program.words_of_readablePart` — the readable part stands in front, and the fault right after it;
* `walks_agree` — **all walks agree on boundaries and faults**.
-/

import Armature.Remap
import Armature.Proofs.Codec.Bijection
import Armature.Proofs.Optimize.Equivalence

set_option autoImplicit false

namespace Armature

/-! ### Positions -/

namespace Instruction

/-- The positions of instructions that follow each other, the first of them at `offset`. -/
def starts (offset : Nat) : List Instruction → List Nat
  | [] => []
  | i :: is => offset :: starts (offset + i.wordLength) is

/-- The number of words of a list of instructions. -/
def wordCount : List Instruction → Nat
  | [] => 0
  | i :: is => i.wordLength + wordCount is

theorem length_encodeAll (is : List Instruction) : (encodeAll is).length = wordCount is := by
  induction is with
  | nil => rfl
  | cons i is ih =>
      rw [wordCount, ← ih, ← length_encode]
      exact List.length_append

end Instruction

/-! ### One instruction -/

namespace Stream

/-- **Stepping over an instruction is decoding it**, faults included. -/
theorem advance_eq_map_decodeAt (words : List UInt32) (offset : Nat) :
    advance words offset = (Instruction.decodeAt words offset).map Prod.snd :=
  measure_eq_map_decodeFrom ..

theorem decodeAt_of_advance_error {words : List UInt32} {offset : Nat} {fault : Fault}
    (failed : advance words offset = .error fault) :
    Instruction.decodeAt words offset = .error fault := by
  rw [advance_eq_map_decodeAt] at failed
  cases decoded : Instruction.decodeAt words offset with
  | error fault' => rw [decoded] at failed; cases failed; rfl
  | ok found => rw [decoded] at failed; cases failed

end Stream

/-! ### Walks -/

namespace Program

/-- **The readable part stands in front, and the fault arises right after it.** -/
theorem words_of_readablePart {length offset : Nat} {words : List UInt32}
    {is : List Instruction} {fault : Fault}
    (part : readablePart length offset words = (is, some fault)) :
    ∃ rest, words = Instruction.encodeAll is ++ rest ∧
      Instruction.decodeFrom length (offset + Instruction.wordCount is) rest = .error fault := by
  fun_induction readablePart length offset words generalizing is with
  | case1 => cases part
  | case2 offset w rest fault' failed =>
      cases part
      exact ⟨w :: rest, rfl, failed⟩
  | case3 offset w rest i next decoded js fault? _ ih =>
      cases part
      have front := Instruction.encode_append_drop_of_decodeFrom decoded
      obtain ⟨_, rfl⟩ := Instruction.words_of_decodeFrom decoded
      obtain ⟨tail, follows, failed⟩ := ih ‹_›
      refine ⟨tail, ?_, ?_⟩
      · rw [← front, follows, ← List.append_assoc]
        rfl
      · rw [Instruction.wordCount, ← Nat.add_assoc]
        exact failed

end Program

namespace Stream

/-- The positions of the readable part are listed, and then its fault. -/
theorem offsetsFrom_eq_readablePart (length offset : Nat) (words : List UInt32) :
    offsetsFrom length offset words =
      (Instruction.starts offset (Program.readablePart length offset words).1).map .ok ++
        (Program.readablePart length offset words).2.toList.map .error := by
  fun_induction Program.readablePart length offset words with
  | case1 => rw [offsetsFrom]; rfl
  | case2 offset w rest fault failed =>
      rw [offsetsFrom, measure_of_decodeFrom_error failed]
      rfl
  | case3 offset w rest i next decoded is fault? part ih =>
      obtain ⟨_, rfl⟩ := Instruction.words_of_decodeFrom decoded
      rw [offsetsFrom, measure_of_decodeFrom decoded]
      simp only [ih, part]
      rfl

/-- The positions listed are those of the instructions that are decoded. -/
theorem offsets_of_decodeAll {words : List UInt32} {is : List Instruction}
    (decoded : Instruction.decodeAll words = .ok is) :
    offsets words = (Instruction.starts 0 is).map .ok ∧
      Instruction.wordCount is = words.length := by
  have part := Program.readablePart_eq_of_decodeRest decoded
  rw [← Instruction.length_encodeAll, (Instruction.decodeAll_eq_ok_iff.1 decoded).1, offsets,
    offsetsFrom_eq_readablePart, part]
  exact ⟨List.append_nil _, rfl⟩

/-- Where decoding fails, the positions listed are those of the instructions in front, and the fault
comes last. -/
theorem exists_offsets_of_error {words : List UInt32} {fault : Fault}
    (failed : Instruction.decodeAll words = .error fault) :
    ∃ is, Program.readablePart words.length 0 words = (is, some fault) ∧
      offsets words = (Instruction.starts 0 is).map .ok ++ [.error fault] ∧
      Instruction.encodeAll is <+: words ∧
      Instruction.decodeAt words (Instruction.wordCount is) = .error fault := by
  obtain ⟨is, part⟩ := Program.exists_readablePart_of_error failed
  obtain ⟨rest, split, stuck⟩ := Program.words_of_readablePart part
  refine ⟨is, part, ?_, ⟨rest, split.symm⟩, ?_⟩
  · rw [offsets, offsetsFrom_eq_readablePart, part]
    rfl
  · have after : words.drop (Instruction.wordCount is) = rest := by
      rw [split, ← Instruction.length_encodeAll, List.drop_left]
    rw [Nat.zero_add] at stuck
    rw [Instruction.decodeAt, after, stuck]

/-- A fault is listed exactly if decoding fails with it. -/
theorem error_mem_offsets_iff {words : List UInt32} {fault : Fault} :
    .error fault ∈ offsets words ↔ Instruction.decodeAll words = .error fault := by
  rw [Program.decodeAll_eq_error_iff, offsets, offsetsFrom_eq_readablePart]
  simp [eq_comm]

/-- Renumbering fails exactly with the fault of the readable part. -/
theorem remapFrom_eq_error_iff (table : Array UInt32) (length offset : Nat) (words : List UInt32)
    (fault : Fault) :
    remapFrom table length offset words = .error fault ↔
      (Program.readablePart length offset words).2 = some fault := by
  fun_induction Program.readablePart length offset words with
  | case1 => rw [remapFrom]; simp
  | case2 offset w rest fault' failed =>
      rw [remapFrom, measure_of_decodeFrom_error failed]
      simp
  | case3 offset w rest i next decoded is fault? part ih =>
      rw [remapFrom, measure_of_decodeFrom decoded]
      simp only [Instruction.read_of_decodeFrom decoded]
      rw [part] at ih
      rw [← ih]
      split <;> simp [*]

theorem remap_eq_error_iff {words : List UInt32} {table : Array UInt32} {fault : Fault} :
    (remap words table).value = .error fault ↔ Instruction.decodeAll words = .error fault := by
  rw [Program.decodeAll_eq_error_iff, ← remapFrom_eq_error_iff table, remap]
  cases remapFrom table words.length 0 words <;> simp

end Stream

/-- An optimization fails with a fault of the stream exactly if decoding does. -/
theorem optimize_eq_stream_error_iff {config : OptimizerConfig} {table : FoldTable}
    {words : List UInt32} {fault : Fault} :
    (optimize config table words).result = .error (.stream fault) ↔
      Instruction.decodeAll words = .error fault := by
  rw [optimize]
  cases Instruction.decodeAll words with
  | error fault' => simp
  | ok is =>
      simp only [reduceCtorEq, iff_false]
      cases result : (optimizeInstructions config table is).result with
      | ok js => simp
      | error fault' =>
          -- what passes report is never a fault of the stream
          obtain ⟨pass, table', is', _, failed⟩ := exists_pass_of_runRounds result
          obtain ⟨slot, rfl, _⟩ := Pass.exists_slot_of_fault failed
          simp

/-- Without folding an optimization fails only where decoding does. -/
theorem exists_optimize_none_iff {config : OptimizerConfig} {words : List UInt32} :
    (∃ next, (optimize config .none words).result = .ok next) ↔
      ∀ fault, Instruction.decodeAll words ≠ .error fault := by
  cases decoded : Instruction.decodeAll words with
  | error fault =>
      have result : (optimize config .none words).result = .error (.stream fault) :=
        optimize_eq_stream_error_iff.2 decoded
      simp [result]
  | ok is =>
      obtain ⟨js, ok⟩ := exists_optimizeInstructions config FoldTable.foldable_none is
      obtain ⟨stats, result, _⟩ := optimize_eq_ok decoded ok
      simp [result]

/-! ### All of them -/

/-- **All walks agree on boundaries and faults.**  Stepping and decoding go on at the same position
or fail with the same fault.  The positions listed are those of the instructions that are decoded,
up to the end or up to the one fault that is listed last, and it is this fault with which decoding,
renumbering and optimizing fail.  Where slots take no transforms, optimizing fails for no other
reason. -/
theorem walks_agree (words : List UInt32) :
    (∀ offset next, Stream.advance words offset = .ok next →
      offset < next ∧ next ≤ words.length ∧
        ∃ i, Instruction.decodeAt words offset = .ok (i, next)) ∧
    (∀ offset fault, Stream.advance words offset = .error fault →
      Instruction.decodeAt words offset = .error fault) ∧
    (∀ is, Instruction.decodeAll words = .ok is →
      Stream.offsets words = (Instruction.starts 0 is).map .ok ∧
        Instruction.wordCount is = words.length) ∧
    (∀ fault, Instruction.decodeAll words = .error fault →
      ∃ is, Program.readablePart words.length 0 words = (is, some fault) ∧
        Stream.offsets words = (Instruction.starts 0 is).map .ok ++ [.error fault] ∧
        Instruction.encodeAll is <+: words ∧
        Instruction.decodeAt words (Instruction.wordCount is) = .error fault) ∧
    (∀ fault, .error fault ∈ Stream.offsets words ↔ Instruction.decodeAll words = .error fault) ∧
    (∀ table fault, (Stream.remap words table).value = .error fault ↔
      .error fault ∈ Stream.offsets words) ∧
    (∀ config table fault, (optimize config table words).result = .error (.stream fault) ↔
      .error fault ∈ Stream.offsets words) ∧
    ∀ config, (∃ next, (optimize config .none words).result = .ok next) ↔
      ∀ fault, .error fault ∉ Stream.offsets words := by
  refine ⟨fun offset next advanced => ?_, fun _ _ => Stream.decodeAt_of_advance_error,
    fun _ => Stream.offsets_of_decodeAll, fun _ => Stream.exists_offsets_of_error,
    fun _ => Stream.error_mem_offsets_iff, fun table fault => ?_, fun config table fault => ?_,
    fun config => ?_⟩
  · obtain ⟨forward, inside⟩ := Stream.bounds_of_advance advanced
    exact ⟨forward, inside, Run.exists_decodeFrom advanced⟩
  · rw [Stream.remap_eq_error_iff, Stream.error_mem_offsets_iff]
  · rw [optimize_eq_stream_error_iff, Stream.error_mem_offsets_iff]
  · rw [exists_optimize_none_iff]
    exact forall_congr' fun fault => not_congr Stream.error_mem_offsets_iff.symm

/-- A binding point whose first default is a push, behind two other instructions. -/
def misplacedDefault : List UInt32 :=
  Instruction.encodeAll [.push, .write 3] ++
    [(Opcode.binding (Fin.last 3)).toWord, 7, 0, Opcode.push.toWord]

/-- All walks go through the two instructions and stop at the push; all go through the place with
defaults of different lengths to its end. -/
theorem walks_agree_misplacedDefault :
    (∃ i, Instruction.decodeAt misplacedDefault 1 = .ok (i, 3)) ∧
      Instruction.decodeAt misplacedDefault 3 =
        .error (.invalidBindingDefault Opcode.push.toWord 6) ∧
      (∃ is, Program.readablePart misplacedDefault.length 0 misplacedDefault =
          (is, some (.invalidBindingDefault Opcode.push.toWord 6)) ∧
        Stream.offsets misplacedDefault = (Instruction.starts 0 is).map .ok ++
          [.error (.invalidBindingDefault Opcode.push.toWord 6)] ∧
        Instruction.encodeAll is <+: misplacedDefault ∧
        Instruction.decodeAt misplacedDefault (Instruction.wordCount is) =
          .error (.invalidBindingDefault Opcode.push.toWord 6)) ∧
      (∀ table, (Stream.remap misplacedDefault table).value =
        .error (.invalidBindingDefault Opcode.push.toWord 6)) ∧
      (∀ config table, (optimize config table misplacedDefault).result =
        .error (.stream (.invalidBindingDefault Opcode.push.toWord 6))) ∧
      Stream.offsets (Instruction.encodeAll namedPlace) =
        (Instruction.starts 0 namedPlace).map .ok := by
  have failed : Instruction.decodeAll misplacedDefault =
      .error (.invalidBindingDefault Opcode.push.toWord 6) := by decide +kernel
  have decoded : Instruction.decodeAll (Instruction.encodeAll namedPlace) = .ok namedPlace :=
    Instruction.decodeAll_encodeAll (by decide)
  obtain ⟨goes, stops, _, broken, listed, renumbered, optimized, _⟩ := walks_agree misplacedDefault
  obtain ⟨_, _, whole, _⟩ := walks_agree (Instruction.encodeAll namedPlace)
  have named := (listed _).2 failed
  exact ⟨(goes 1 3 (by decide +kernel)).2.2, stops 3 _ (by decide +kernel), broken _ failed,
    fun table => (renumbered table _).2 named, fun config table => (optimized config table _).2 named,
    (whole _ decoded).1⟩

end Armature
