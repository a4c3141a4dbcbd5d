/-
**Streams and lists of instructions correspond one to one.**

Decoding gives back what was encoded.  The other way round, an instruction is decoded only from its
own words: no second spelling of it is accepted, since an opcode has one number, a payload is kept
bit by bit, and the opcode of a binding point counts its defaults.  So encoding what was decoded
gives back the stream, and the same holds for a stream and its bytes.

Main results:

* `Transform.payload_ofPayload` — a payload of the right length is kept;
* `Instruction.decodeFrom_eq_ok_iff` — **an instruction is decoded exactly where its words stand**;
* `Instruction.decodeAll_eq_ok_iff` — the same for a whole stream;
* `Stream.ofBytes_eq_ok_iff` — the same for a stream and its bytes;
* `stored_forms_correspond` — **instructions, words and bytes correspond**.
-/

import Armature.Proofs.Codec.RoundTrip
import Mathlib.Data.List.Basic

set_option autoImplicit false

namespace Armature

/-! ### Payloads -/

/-- A list of known length is given by its elements. -/
theorem map_getD_range {α : Type} {values : List α} {n : Nat} (h : values.length = n) (d : α) :
    (List.range n).map (fun k => values.getD k d) = values := by
  subst h
  refine List.ext_getElem (by simp) fun k hk hk' => ?_
  simp [hk']

/-- **A payload of the right length is kept.** -/
theorem Transform.payload_ofPayload {shape : Shape} {values : List Scalar}
    (h : values.length = shape.size) : (ofPayload shape values).payload = values := by
  have components : (ofPayload shape values).payload =
      (List.range shape.size).map fun k => values.getD k .zero := by
    cases shape <;> rfl
  rw [components, map_getD_range h]

namespace Instruction

/-- The words of a payload are kept. -/
theorem map_bits_map_mk (words : List UInt32) : (words.map Scalar.mk).map Scalar.bits = words := by
  rw [List.map_map]
  exact List.map_id words

/-- The words of a transform that was read from words. -/
theorem encode_ofPayload {shape : Shape} {operands : List UInt32}
    (h : operands.length = shape.size) :
    (Transform.ofPayload shape (operands.map Scalar.mk)).encode =
      (Opcode.static shape).toWord :: operands := by
  rw [Transform.encode, Transform.opcode, Transform.shape_ofPayload,
    Transform.payload_ofPayload (by rw [List.length_map, h]), map_bits_map_mk]

/-- Operands that were split off stand in front. -/
theorem append_of_takeWords? {n : Nat} {words operands rest : List UInt32}
    (h : takeWords? n words = some (operands, rest)) :
    operands.length = n ∧ words = operands ++ rest := by
  obtain ⟨enough, rfl, rfl⟩ := takeWords?_eq_some_iff.1 h
  exact ⟨List.length_take_of_le enough, (List.take_append_drop n words).symm⟩

/-! ### One instruction -/

/-- Defaults are decoded only from their words. -/
theorem words_of_decodeDefaults {length start n offset next : Nat} {words : List UInt32}
    {defaults : List Transform}
    (h : decodeDefaults length start n offset words = .ok (defaults, next)) :
    defaults.flatMap Transform.encode <+: words ∧
      next = offset + Transform.wordLengths defaults := by
  induction n generalizing offset words defaults next with
  | zero =>
      cases h
      exact ⟨List.nil_prefix, rfl⟩
  | succ n ih =>
      cases words with
      | nil => cases h
      | cons w rest =>
          simp only [decodeDefaults] at h
          split at h
          · cases h
          · rename_i shape hop
            split at h
            · cases h
            · rename_i operands after htake
              obtain ⟨count, rfl⟩ := append_of_takeWords? htake
              simp only [bind, Except.bind] at h
              split at h
              · cases h
              · rename_i found hfound
                cases h
                obtain ⟨others, hnext⟩ := ih hfound
                rw [List.flatMap_cons, encode_ofPayload count, Opcode.toWord_of_ofWord? hop,
                  List.cons_append]
                refine ⟨List.cons_prefix_cons.2 ⟨rfl, (List.prefix_append_right_inj _).2 others⟩, ?_⟩
                rw [hnext, Transform.wordLengths, Transform.shape_ofPayload]
                omega
          · cases h

/-- The two words of a name are its halves. -/
theorem halves_of_name (low high : UInt32) :
    (low.toUInt64 ||| high.toUInt64 <<< 32).toUInt32 = low ∧
      ((low.toUInt64 ||| high.toUInt64 <<< 32) >>> 32).toUInt32 = high := by
  have boundLow := low.toNat_lt
  have boundHigh := high.toNat_lt
  -- the halves do not overlap, so that joining their bits adds them
  have name : (low.toUInt64 ||| high.toUInt64 <<< 32).toNat =
      high.toNat * 4294967296 + low.toNat := by
    simp only [UInt64.toNat_or, UInt64.toNat_shiftLeft, UInt32.toNat_toUInt64, UInt64.toNat_ofNat,
      Nat.reducePow, Nat.reduceMod]
    rw [Nat.mod_eq_of_lt (a := _ <<< 32) (by rw [Nat.shiftLeft_eq]; omega), Nat.or_comm,
      ← Nat.shiftLeft_add_eq_or_of_lt (by omega), Nat.shiftLeft_eq]
  constructor
  · rw [← UInt32.toNat_inj, UInt64.toNat_toUInt32, name]
    omega
  · rw [← UInt32.toNat_inj, UInt64.toNat_toUInt32, UInt64.toNat_shiftRight, name]
    simp only [UInt64.toNat_ofNat, Nat.reducePow, Nat.reduceMod, Nat.shiftRight_eq_div_pow]
    omega

/-- The words of a comment are kept. -/
theorem encode_comment_decode {operands : List UInt32} (h : operands.length = commentWords) :
    (comment (.decode operands)).encode = Opcode.comment.toWord :: operands := by
  have size : (Word.image operands).length = commentBytes := by
    rw [Word.length_image, h]
    rfl
  rw [encode, CommentText.encode, CommentText.decode, CommentText.ofBytes]
  simp only [List.take_left' size, Word.parse_image]

/-- How a binding point is stored whose defaults the opcode counts. -/
theorem stored_binding (name : UInt64) {defaults : List Transform} {n : Fin 4}
    (h : defaults.length = n.val) :
    (binding name defaults).opcode = .binding n ∧
      (binding name defaults).storedDefaults = defaults := by
  refine ⟨by simp [opcode, Opcode.ofDefaults?, h], List.take_of_length_le ?_⟩
  rw [h, maxBindingDefaults]
  exact Nat.le_of_lt_succ n.isLt

/-- A binding point is decoded only from its words: its opcode counts the defaults, which follow the
halves of the name. -/
theorem words_of_binding {length offset next : Nat} {n : Fin 4} {low high : UInt32}
    {rest : List UInt32} {i : Instruction}
    (h : ofOperands length offset (.binding n) [low, high] rest = .ok (i, next)) :
    i.encode <+: (Opcode.binding n).toWord :: low :: high :: rest ∧
      next = offset + i.wordLength := by
  simp only [ofOperands, bind, Except.bind] at h
  split at h
  · cases h
  · rename_i found hfound
    cases h
    obtain ⟨stored, hnext⟩ := words_of_decodeDefaults hfound
    have number := length_of_decodeDefaults hfound
    obtain ⟨op, whole⟩ := stored_binding (low.toUInt64 ||| high.toUInt64 <<< 32) number
    obtain ⟨hlow, hhigh⟩ := halves_of_name low high
    simp only [List.getD_cons_zero, List.getD_cons_succ]
    constructor
    · rw [encode, op, whole, hlow, hhigh]
      exact (List.prefix_append_right_inj [(Opcode.binding n).toWord, low, high]).2 stored
    · rw [hnext, wordLength, op, whole]
      simp only [Opcode.operandCount]
      omega

/-- A fused write is decoded only from its words. -/
theorem words_of_writeStatic {length offset next : Nat} {slot : UInt32}
    {components rest : List UInt32} {i : Instruction}
    (count : components.length = Shape.float4x4.size)
    (h : ofOperands length offset .writeStatic (slot :: components) rest = .ok (i, next)) :
    i.encode = Opcode.writeStatic.toWord :: slot :: components ∧ next = offset + i.wordLength := by
  simp only [ofOperands, List.tail_cons] at h
  split at h
  · rename_i matrix hmatrix
    cases h
    have whole : (components.map Scalar.mk).length = Shape.float4x4.size := by
      rw [List.length_map, count]
    have payload := Transform.payload_ofPayload whole
    rw [hmatrix, Transform.payload] at payload
    refine ⟨?_, rfl⟩
    rw [encode, payload, map_bits_map_mk]
    rfl
  · rename_i other
    exact absurd rfl (other _)

/-- What an opcode and its operands make is encoded by them, and by what is read behind them. -/
theorem words_of_ofOperands {length offset next : Nat} {op : Opcode} {operands rest : List UInt32}
    {i : Instruction} (count : operands.length = op.operandCount)
    (h : ofOperands length offset op operands rest = .ok (i, next)) :
    i.encode <+: op.toWord :: (operands ++ rest) ∧ next = offset + i.wordLength := by
  cases op with
  | push =>
      cases h
      rw [List.eq_nil_of_length_eq_zero count]
      exact ⟨List.prefix_append .., rfl⟩
  | pop | parameter _ | write =>
      cases h
      obtain ⟨operand, rfl⟩ := List.length_eq_one_iff.1 count
      exact ⟨List.prefix_append .., rfl⟩
  | writeParameter =>
      cases h
      obtain ⟨slot, place, rfl⟩ := List.length_eq_two.1 count
      exact ⟨List.prefix_append .., rfl⟩
  | static shape =>
      cases h
      rw [encode, encode_ofPayload count]
      refine ⟨List.prefix_append .., ?_⟩
      simp [wordLength, opcode, Transform.opcode, storedDefaults, Opcode.operandCount,
        Nat.add_assoc]
  | writeStatic =>
      obtain ⟨slot, components, rfl⟩ :=
        List.exists_cons_of_length_eq_add_one (count.trans (Nat.add_comm 1 16))
      obtain ⟨words, hnext⟩ := words_of_writeStatic (Nat.succ.inj count) h
      rw [words]
      exact ⟨List.prefix_append .., hnext⟩
  | binding n =>
      obtain ⟨low, high, rfl⟩ := List.length_eq_two.1 count
      exact words_of_binding h
  | comment =>
      cases h
      rw [encode_comment_decode count]
      exact ⟨List.prefix_append .., rfl⟩

/-- An instruction is decoded only from its words. -/
theorem words_of_decodeFrom {length offset next : Nat} {words : List UInt32} {i : Instruction}
    (h : decodeFrom length offset words = .ok (i, next)) :
    i.encode <+: words ∧ next = offset + i.wordLength := by
  cases words with
  | nil => cases h
  | cons w rest =>
      simp only [decodeFrom] at h
      split at h
      · cases h
      · rename_i op hop
        split at h
        · cases h
        · rename_i operands after htake
          obtain ⟨count, rfl⟩ := append_of_takeWords? htake
          rw [← Opcode.toWord_of_ofWord? hop]
          exact words_of_ofOperands count h

/-- **An instruction is decoded exactly where its words stand.** -/
theorem decodeFrom_eq_ok_iff {length offset next : Nat} {words : List UInt32} {i : Instruction} :
    decodeFrom length offset words = .ok (i, next) ↔
      i.Storable ∧ i.encode <+: words ∧ next = offset + i.wordLength := by
  constructor
  · intro h
    exact ⟨storable_of_decodeFrom h, words_of_decodeFrom h⟩
  · rintro ⟨stored, ⟨rest, rfl⟩, rfl⟩
    exact decodeFrom_encode length offset stored rest

/-! ### Whole streams -/

/-- Decoding goes on behind the words of an instruction. -/
theorem encode_append_drop_of_decodeFrom {length offset next : Nat} {w : UInt32}
    {rest : List UInt32} {i : Instruction}
    (h : decodeFrom length offset (w :: rest) = .ok (i, next)) :
    i.encode ++ rest.drop (next - offset - 1) = w :: rest := by
  obtain ⟨-, ⟨after, words⟩, rfl⟩ := decodeFrom_eq_ok_iff.1 h
  have skip : offset + i.wordLength - offset - 1 + 1 = i.encode.length := by
    rw [length_encode, wordLength]
    omega
  rw [← List.drop_succ_cons (a := w), skip, ← words, List.drop_left]

/-- A decoded instruction starts with its opcode. -/
theorem read_of_decodeFrom {length offset next : Nat} {w : UInt32} {rest : List UInt32}
    {i : Instruction} (h : decodeFrom length offset (w :: rest) = .ok (i, next)) :
    Opcode.read w offset = .ok i.opcode := by
  have front := encode_append_drop_of_decodeFrom h
  obtain ⟨operands, head⟩ := i.exists_encode_eq_cons
  rw [head] at front
  rw [← (List.cons.inj front).1, Opcode.read, Opcode.ofWord?_toWord]

/-- Encoding gives back what was decoded. -/
theorem encodeAll_of_decodeRest {length offset : Nat} {words : List UInt32}
    {is : List Instruction} (h : decodeRest length offset words = .ok is) :
    encodeAll is = words := by
  fun_induction decodeRest length offset words generalizing is with
  | case1 => cases h; rfl
  | case2 | case3 => cases h
  | case4 offset w rest i next hi js hjs ih =>
      cases h
      rw [← encode_append_drop_of_decodeFrom hi, ← ih hjs]
      rfl

/-- **A stream decodes to a list exactly if it is what the list encodes to**, and the list can be
stored. -/
theorem decodeAll_eq_ok_iff {words : List UInt32} {is : List Instruction} :
    decodeAll words = .ok is ↔ encodeAll is = words ∧ ∀ i ∈ is, i.Storable := by
  constructor
  · intro h
    exact ⟨encodeAll_of_decodeRest h, storable_of_decodeAll h⟩
  · rintro ⟨rfl, stored⟩
    exact decodeAll_encodeAll stored

end Instruction

/-! ### Bytes -/

namespace Stream

/-- **Bytes are those of a stream exactly if they are whole words**, which stream it is they tell. -/
theorem ofBytes_eq_ok_iff {bytes : List UInt8} {words : List UInt32} :
    ofBytes bytes = .ok words ↔ bytes.length % 4 = 0 ∧ toBytes words = bytes := by
  rw [ofBytes, toBytes]
  constructor
  · intro h
    split at h
    · rename_i whole
      cases h
      exact ⟨whole, Word.image_parse whole⟩
    · cases h
  · rintro ⟨whole, rfl⟩
    rw [if_pos whole, Word.parse_image]

theorem ofBytes_eq_error_iff {bytes : List UInt8} {fault : Fault} :
    ofBytes bytes = .error fault ↔
      bytes.length % 4 ≠ 0 ∧ fault = .misaligned bytes.length := by
  rw [ofBytes]
  split
  · rename_i whole
    simp only [reduceCtorEq, whole, ne_eq, not_true_eq_false, false_and]
  · rename_i broken
    simp only [Except.error.injEq, ne_eq, broken, not_false_eq_true, true_and, eq_comm]

end Stream

/-- **Instructions, words and bytes correspond.**  What can be stored is given back by decoding, also
in front of other words; what can be decoded is given back by encoding; and bytes that are whole
words are those of one stream. -/
theorem stored_forms_correspond :
    (∀ is : List Instruction, (∀ i ∈ is, i.Storable) →
      Instruction.decodeAll (Instruction.encodeAll is) = .ok is) ∧
    (∀ i : Instruction, i.Storable → ∀ rest : List UInt32,
      Instruction.decodeAt (i.encode ++ rest) 0 = .ok (i, i.wordLength)) ∧
    (∀ (words : List UInt32) (is : List Instruction), Instruction.decodeAll words = .ok is →
      Instruction.encodeAll is = words ∧ ∀ i ∈ is, i.Storable) ∧
    (∀ words : List UInt32, Stream.ofBytes (Stream.toBytes words) = .ok words) ∧
    ∀ bytes : List UInt8,
      ((∃ fault, Stream.ofBytes bytes = .error fault) ↔ bytes.length % 4 ≠ 0) ∧
      ∀ words, Stream.ofBytes bytes = .ok words → Stream.toBytes words = bytes := by
  refine ⟨fun is => Instruction.decodeAll_encodeAll, fun i stored rest => ?_,
    fun words is => Instruction.decodeAll_eq_ok_iff.1, fun words => ?_, fun bytes => ⟨?_, ?_⟩⟩
  · exact Instruction.decodeFrom_eq_ok_iff.2
      ⟨stored, List.prefix_append .., (Nat.zero_add _).symm⟩
  · refine Stream.ofBytes_eq_ok_iff.2 ⟨?_, rfl⟩
    rw [Stream.toBytes, Word.length_image, Nat.mul_mod_right]
  · constructor
    · rintro ⟨fault, failed⟩
      exact (Stream.ofBytes_eq_error_iff.1 failed).1
    · exact fun broken => ⟨_, Stream.ofBytes_eq_error_iff.2 ⟨broken, rfl⟩⟩
  · exact fun words read => (Stream.ofBytes_eq_ok_iff.1 read).2

/-- A frame with a named place that has defaults of different lengths, and a comment. -/
def namedPlace : List Instruction :=
  [.push, .binding 0xdeadbeef00000001 [.rotateX .one, .translate .zero, .float4x4 .identity],
    .comment (.ofText "hip"), .writeStatic 3 .identity, .pop 1]

/-- It is given back from its words, each instruction also in front of the others, and from its
bytes. -/
theorem stored_forms_correspond_namedPlace :
    Instruction.decodeAll (Instruction.encodeAll namedPlace) = .ok namedPlace ∧
      (∀ i ∈ namedPlace, Instruction.decodeAt (i.encode ++ Instruction.encodeAll namedPlace) 0 =
        .ok (i, i.wordLength)) ∧
      Stream.ofBytes (Stream.toBytes (Instruction.encodeAll namedPlace)) =
        .ok (Instruction.encodeAll namedPlace) := by
  have stored : ∀ i ∈ namedPlace, i.Storable := by decide
  obtain ⟨lists, front, _, streams, _⟩ := stored_forms_correspond
  exact ⟨lists namedPlace stored, fun i hi => front i (stored i hi) _, streams _⟩

end Armature
