/-
**Payloads may lie in the parameter block.**

The payload of a local transform is given in one of four ways: inline behind its opcode, inline
behind the slot of a write, inline with a binding point, or at an offset of the parameter block.
Each is decoded by its own path.  Here the first three are turned into the last: the payloads inside
a list are appended to the block, one after another, and read from there by parameters.  The run
does not notice.

What a list reads from the block already stays where it is, since payloads are only appended.  The
offset of a payload is the size of the block before it, so that all of them are found as long as the
whole block has fewer bytes than there are offsets.

Main definitions:

* `ParameterBlock.pushAll` — a block with several payloads more;
* `Instruction.payloads` — the transforms that an instruction holds;
* `Instruction.asParameters`, `Instruction.asParametersAll` — the instructions that read them from
  the end of a block instead, for one instruction and for a list.

Main results:

* `ParameterBlock.readTransform_of_isPrefix` — appending does not change what is read;
* `ParameterBlock.readTransform_of_bytes` — a transform is read where its payload stands;
* `ParameterBlock.readTransform_push` — what was appended is read back;
* `journal_asParameters`, `journal_asParametersAll` — an instruction and its parameters do the same,
  and a list and its parameters write the same;
* `asParameters_keeps_outputs` — **a stream is run to the same outputs if its payloads are moved to
  the block**.
-/

import Armature.Proofs.Codec.RoundTrip
import Armature.Proofs.Evaluate.Journal
import Mathlib.Data.List.Basic

set_option autoImplicit false

namespace Armature

/-! ### Blocks -/

namespace ParameterBlock

/-- The block with the payloads of the transforms behind it, one after another. -/
def pushAll (b : ParameterBlock) (ts : List Transform) : ParameterBlock := ts.foldl push b

theorem pushAll_append (b : ParameterBlock) (ts us : List Transform) :
    b.pushAll (ts ++ us) = (b.pushAll ts).pushAll us := List.foldl_append

theorem isPrefix_push (b : ParameterBlock) (t : Transform) : b.bytes <+: (b.push t).bytes :=
  List.prefix_append ..

/-- Payloads are only appended. -/
theorem isPrefix_pushAll (b : ParameterBlock) (ts : List Transform) :
    b.bytes <+: (b.pushAll ts).bytes := by
  induction ts generalizing b with
  | nil => exact List.prefix_rfl
  | cons t ts ih => exact (b.isPrefix_push t).trans (ih (b.push t))

variable {b c : ParameterBlock}

theorem size_le_of_isPrefix (longer : b.bytes <+: c.bytes) : b.size ≤ c.size := longer.length_le

/-- Appending does not change numbers that can be read. -/
theorem readScalars_of_isPrefix (longer : b.bytes <+: c.bytes) {offset : UInt32} {count : Nat}
    {values : List Scalar} (read : b.readScalars offset count = .ok values) :
    c.readScalars offset count = .ok values := by
  obtain ⟨rest, split⟩ := longer
  have larger : c.size = b.size + rest.length := by rw [size, size, ← split, List.length_append]
  rw [readScalars] at read ⊢
  by_cases inside : offset.toNat + count * 4 ≤ b.size
  · have same : (c.bytes.drop offset.toNat).take (count * 4) =
        (b.bytes.drop offset.toNat).take (count * 4) := by
      rw [← split, List.drop_append_of_le_length, List.take_append_of_le_length]
      · rw [List.length_drop]
        exact Nat.le_sub_of_add_le' inside
      · exact Nat.le_trans (Nat.le_add_right ..) inside
    rw [if_pos inside] at read
    rw [if_pos (by omega), same]
    exact read
  · rw [if_neg inside] at read
    cases read

/-- **Appending does not change what is read.** -/
theorem readTransform_of_isPrefix (longer : b.bytes <+: c.bytes) {shape : Shape}
    {offset : UInt32} {t : Transform} (read : b.readTransform shape offset = .ok t) :
    c.readTransform shape offset = .ok t := by
  obtain ⟨values, found, same⟩ := map_eq_ok_iff.1 read
  exact map_eq_ok_iff.2 ⟨values, readScalars_of_isPrefix longer found, same⟩

/-- Numbers are read where their bytes stand. -/
theorem readScalars_of_bytes {front rest : List UInt8} {words : List UInt32} {offset : UInt32}
    (split : b.bytes = front ++ (Word.image words ++ rest)) (place : offset.toNat = front.length) :
    b.readScalars offset words.length = .ok (words.map Scalar.mk) := by
  have count : (Word.image words).length = words.length * 4 := by
    rw [Word.length_image, Nat.mul_comm]
  have inside : offset.toNat + words.length * 4 ≤ b.size := by
    rw [place, size, split, List.length_append, List.length_append, count]
    omega
  rw [readScalars, if_pos inside, split, place, List.drop_left, List.take_left' count,
    Word.parse_image]

/-- **A transform is read where its payload stands.** -/
theorem readTransform_of_bytes {front rest : List UInt8} {t : Transform} {offset : UInt32}
    (split : b.bytes = front ++ (payloadBytes t ++ rest)) (place : offset.toNat = front.length) :
    b.readTransform t.shape offset = .ok t := by
  have found := readScalars_of_bytes split place
  rw [List.length_map, Transform.length_payload, Instruction.map_mk_map_bits] at found
  rw [readTransform, found]
  exact congrArg Except.ok t.ofPayload_payload

theorem toNat_nextOffset (small : b.size < UInt32.size) : b.nextOffset.toNat = b.size :=
  UInt32.toNat_ofNat_of_lt' small

/-- **What was appended is read back**, also if more is appended. -/
theorem readTransform_push {t : Transform} (small : b.size < UInt32.size)
    (longer : (b.push t).bytes <+: c.bytes) :
    c.readTransform t.shape b.nextOffset = .ok t := by
  have split : (b.push t).bytes = b.bytes ++ (payloadBytes t ++ []) := by
    rw [List.append_nil]
    rfl
  exact readTransform_of_isPrefix longer (readTransform_of_bytes split (toNat_nextOffset small))

end ParameterBlock

/-! ### Payloads as parameters -/

/-- The parameters that read the transforms, if these are appended to the block. -/
def parametersOf (b : ParameterBlock) : List Transform → List Instruction
  | [] => []
  | t :: ts => .parameter t.shape b.nextOffset :: parametersOf (b.push t) ts

namespace Instruction

/-- The transforms that an instruction holds, in the order in which they are stored. -/
def payloads : Instruction → List Transform
  | static t => [t]
  | writeStatic _ matrix => [.float4x4 matrix]
  | i => i.storedDefaults

/-- What an instruction becomes if its payloads are appended to the block: it reads them from
there. -/
def asParameters (b : ParameterBlock) : Instruction → List Instruction
  | static t => parametersOf b [t]
  | writeStatic slot _ => [writeParameter slot b.nextOffset]
  | binding name defaults => parametersOf b (storedDefaults (binding name defaults))
  | i => [i]

/-- What a list becomes if its payloads are appended to the block, one after another. -/
def asParametersAll (b : ParameterBlock) : List Instruction → List Instruction
  | [] => []
  | i :: is => i.asParameters b ++ asParametersAll (b.pushAll i.payloads) is

theorem storable_of_mem_parametersOf {b : ParameterBlock} {ts : List Transform} {i : Instruction}
    (member : i ∈ parametersOf b ts) : i.Storable := by
  induction ts generalizing b with
  | nil => cases member
  | cons t ts ih =>
      rcases List.mem_cons.1 member with rfl | later
      · trivial
      · exact ih later

/-- No defaults are left, so that all can be stored. -/
theorem storable_of_mem_asParametersAll {b : ParameterBlock} {is : List Instruction}
    {j : Instruction} (member : j ∈ asParametersAll b is) : j.Storable := by
  induction is generalizing b with
  | nil => cases member
  | cons i is ih =>
      rcases List.mem_append.1 member with here | later
      · cases i with
        | static | binding => exact storable_of_mem_parametersOf here
        | push | pop | parameter | write | writeStatic | writeParameter | comment =>
            rw [List.mem_singleton.1 here]
            trivial
      · exact ih later

end Instruction

/-! ### Runs -/

section Runs

variable {M : Type} {I : Interpretation M} {limit : Nat} {b c : ParameterBlock}

/-- A parameter that is there stays where it is. -/
theorem parameter_of_isPrefix (longer : b.bytes <+: c.bytes) {shape : Shape} {offset : UInt32}
    {value : M} (supplied : Setting.parameter ⟨I, b, limit⟩ shape offset = .ok value) :
    Setting.parameter ⟨I, c, limit⟩ shape offset = .ok value := by
  obtain ⟨t, read, same⟩ := map_eq_ok_iff.1 supplied
  exact map_eq_ok_iff.2 ⟨t, ParameterBlock.readTransform_of_isPrefix longer read, same⟩

/-- The parameter that was appended is there. -/
theorem parameter_push {t : Transform} (small : b.size < UInt32.size)
    (longer : (b.push t).bytes <+: c.bytes) :
    Setting.parameter ⟨I, c, limit⟩ t.shape b.nextOffset = .ok (I.ofTransform t) := by
  rw [Setting.parameter, ParameterBlock.readTransform_push small longer]
  rfl

theorem eq_ok_of_toOption {result : Except Fault M} {value : M}
    (found : result.toOption = some value) : result = .ok value := by
  cases result with
  | error fault => cases found
  | ok other => exact congrArg Except.ok (Option.some.inj found)

/-- An instruction that has an effect has the same with more parameters. -/
theorem effect?_of_isPrefix (longer : b.bytes <+: c.bytes) {i : Instruction} {top : M}
    {after : M × List (UInt32 × M)} (effect : i.effect? ⟨I, b, limit⟩ top = some after) :
    i.effect? ⟨I, c, limit⟩ top = some after := by
  cases i with
  | parameter shape offset | writeParameter slot offset =>
      obtain ⟨value, supplied, same⟩ := Option.map_eq_some_iff.1 effect
      rw [Instruction.effect?, parameter_of_isPrefix longer (eq_ok_of_toOption supplied)]
      exact congrArg some same
  | push | pop | static | write | writeStatic | binding | comment => exact effect

/-- The parameters for appended transforms multiply the frame by them, one after another. -/
theorem journal_parametersOf {ts : List Transform} (small : (b.pushAll ts).size < UInt32.size)
    (longer : (b.pushAll ts).bytes <+: c.bytes) (top : M) (below : List M)
    (is : List Instruction) :
    journal ⟨I, c, limit⟩ (top :: below) (parametersOf b ts ++ is) =
      journal ⟨I, c, limit⟩ ((ts.map I.ofTransform).foldl I.compose top :: below) is := by
  induction ts generalizing b top with
  | nil => rfl
  | cons t ts ih =>
      have first : (b.push t).bytes <+: ((b.push t).pushAll ts).bytes :=
        (b.push t).isPrefix_pushAll ts
      have fits : b.size < UInt32.size := by
        have sizes := ParameterBlock.size_le_of_isPrefix ((b.isPrefix_push t).trans first)
        exact Nat.lt_of_le_of_lt sizes small
      have found : Setting.parameter ⟨I, c, limit⟩ t.shape b.nextOffset =
          .ok (I.ofTransform t) := parameter_push fits (first.trans longer)
      rw [parametersOf, List.cons_append, journal_of_not_bracket rfl, Instruction.effect?, found]
      simp only [Except.toOption, Option.map_some, Option.bind_some, List.nil_append,
        Option.map_id']
      exact ih small longer _

/-- **An instruction and its parameters do the same**, if what follows does. -/
theorem journal_asParameters {block : ParameterBlock} {i : Instruction}
    (kept : block.bytes <+: b.bytes) (small : (b.pushAll i.payloads).size < UInt32.size)
    (longer : (b.pushAll i.payloads).bytes <+: c.bytes) {is js : List Instruction}
    (later : ∀ {frames : List M} {ws : List (UInt32 × M)},
      journal ⟨I, block, limit⟩ frames is = some ws → journal ⟨I, c, limit⟩ frames js = some ws)
    {frames : List M} {ws : List (UInt32 × M)}
    (run : journal ⟨I, block, limit⟩ frames (i.stored :: is) = some ws) :
    journal ⟨I, c, limit⟩ frames (i.asParameters b ++ js) = some ws := by
  obtain ⟨top, below, rfl⟩ := ne_nil_of_journal run
  cases i with
  | push =>
      obtain ⟨room, top, current, rest⟩ := journal_push_eq_some_iff.1 run
      exact journal_push_eq_some_iff.2 ⟨room, top, current, later rest⟩
  | pop count =>
      obtain ⟨opened, rest⟩ := journal_pop_eq_some_iff.1 run
      exact journal_pop_eq_some_iff.2 ⟨opened, later rest⟩
  | static t =>
      refine (journal_parametersOf small longer top below _).trans ?_
      exact later ((journal_static ..).symm.trans run)
  | binding name defaults =>
      obtain ⟨frame, written, rest, effect, hrest, rfl⟩ := (journal_other_eq_some_iff rfl).1 run
      cases effect
      exact (journal_parametersOf small longer top below _).trans (later hrest)
  | writeStatic slot matrix =>
      obtain ⟨frame, written, rest, effect, hrest, rfl⟩ := (journal_other_eq_some_iff rfl).1 run
      cases effect
      have fits : b.size < UInt32.size :=
        Nat.lt_of_le_of_lt (ParameterBlock.size_le_of_isPrefix (b.isPrefix_pushAll _)) small
      have found : Setting.parameter ⟨I, c, limit⟩ .float4x4 b.nextOffset =
          .ok (I.ofTransform (.float4x4 matrix)) := parameter_push fits longer
      refine (journal_other_eq_some_iff rfl).2 ⟨_, _, rest, ?_, later hrest, rfl⟩
      rw [Instruction.effect?, found]
      rfl
  | parameter | write | writeParameter | comment =>
      have there : block.bytes <+: c.bytes := (kept.trans (b.isPrefix_pushAll _)).trans longer
      obtain ⟨frame, written, rest, effect, hrest, rfl⟩ := (journal_other_eq_some_iff rfl).1 run
      exact (journal_other_eq_some_iff rfl).2
        ⟨frame, written, rest, effect?_of_isPrefix there effect, later hrest, rfl⟩

/-- **A list and its parameters write the same.** -/
theorem journal_asParametersAll {block : ParameterBlock} {frames : List M}
    {is : List Instruction} {ws : List (UInt32 × M)} (kept : block.bytes <+: b.bytes)
    (small : (b.pushAll (is.flatMap Instruction.payloads)).size < UInt32.size)
    (longer : (b.pushAll (is.flatMap Instruction.payloads)).bytes <+: c.bytes)
    (run : journal ⟨I, block, limit⟩ frames (is.map Instruction.stored) = some ws) :
    journal ⟨I, c, limit⟩ frames (Instruction.asParametersAll b is) = some ws := by
  -- `b` grows by the payloads of one instruction after another, and never beyond `c`
  induction is generalizing b frames ws with
  | nil =>
      obtain ⟨opened, rfl⟩ := journal_nil_eq_some_iff.1 run
      exact journal_nil_eq_some_iff.2 ⟨opened, rfl⟩
  | cons i is ih =>
      rw [List.flatMap_cons, ParameterBlock.pushAll_append] at small longer
      have grown : (b.pushAll i.payloads).bytes <+:
          ((b.pushAll i.payloads).pushAll (is.flatMap Instruction.payloads)).bytes :=
        (b.pushAll i.payloads).isPrefix_pushAll _
      have fits : (b.pushAll i.payloads).size < UInt32.size :=
        Nat.lt_of_le_of_lt (ParameterBlock.size_le_of_isPrefix grown) small
      exact journal_asParameters kept fits (grown.trans longer)
        (ih (kept.trans (b.isPrefix_pushAll i.payloads)) small longer) run

end Runs

/-- **A local transform may be given in any form.**  Where a list is evaluated with a block, take
the payloads inside it, the defaults of its binding points among them, append them to the block, and
read them from there: the result is evaluated with the longer block, and to the same outputs.  The
block must have fewer bytes than there are offsets. -/
theorem asParameters_keeps_outputs {limit count : Nat} {block : ParameterBlock}
    {is : List Instruction} {outputs : Array Mat4}
    (small : (block.pushAll (is.flatMap Instruction.payloads)).size < UInt32.size)
    (run : (Stream.runMatrices limit block count (Instruction.encodeAll is)).result =
      .ok outputs) :
    (Stream.runMatrices limit (block.pushAll (is.flatMap Instruction.payloads)) count
      (Instruction.encodeAll (Instruction.asParametersAll block is))).result = .ok outputs := by
  obtain ⟨js, ws, decoded, writes, entered⟩ := Stream.result_eq_ok_iff.1 run
  rw [Instruction.decodeAll_encodeAll_stored] at decoded
  obtain rfl := Except.ok.inj decoded
  exact Stream.result_eq_ok_iff.2 ⟨_, ws,
    Instruction.decodeAll_encodeAll fun _ => Instruction.storable_of_mem_asParametersAll,
    journal_asParametersAll List.prefix_rfl small List.prefix_rfl writes, entered⟩

/-- A frame is reflected by an inline transform, by a parameter and by a default, and once more
where it is written. -/
def reflectedInAllForms : List Instruction :=
  [.static (.uniformScale (-.one)), .parameter .uniformScale 0, .binding 7 [.uniformScale (-.one)],
    .writeStatic 0 (.scaling (.splat (-.one))), .write 1]

/-- What was inline is read behind the parameter that was there before. -/
theorem asParameters_keeps_outputs_reflected :
    ∃ block : ParameterBlock, block.size = 76 ∧
      (Stream.runMatrices maxStackDepth block 2 (Instruction.encodeAll
        [.parameter .uniformScale 4, .parameter .uniformScale 0, .parameter .uniformScale 8,
          .writeParameter 0 12, .write 1])).result =
        .ok #[.identity, .scaling (.splat (-.one))] := by
  have run : (Stream.runMatrices maxStackDepth (ParameterBlock.empty.push (.uniformScale (-.one))) 2
      (Instruction.encodeAll reflectedInAllForms)).result =
        .ok #[.identity, .scaling (.splat (-.one))] := by
    decide +kernel
  have moved : Instruction.asParametersAll (ParameterBlock.empty.push (.uniformScale (-.one)))
      reflectedInAllForms =
        [.parameter .uniformScale 4, .parameter .uniformScale 0, .parameter .uniformScale 8,
          .writeParameter 0 12, .write 1] := by
    decide +kernel
  have size : ((ParameterBlock.empty.push (.uniformScale (-.one))).pushAll
      (reflectedInAllForms.flatMap Instruction.payloads)).size = 76 := by
    decide +kernel
  have outputs := asParameters_keeps_outputs (size ▸ by decide) run
  rw [moved] at outputs
  exact ⟨_, size, outputs⟩

end Armature
