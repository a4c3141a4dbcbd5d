/-
**Decoding what was encoded.**

An instruction that can be stored is given back by decoding its words, whatever words follow, and so
is a list of instructions.  The one thing that cannot be stored is a fourth default of a binding
point; it leaves no trace in the words, and decoding never yields one.

Main definitions:

* `Instruction.Storable` — the instruction fits the format;
* `Instruction.stored` — the instruction without the defaults that are not stored.

Main results:

* `Instruction.decodeFrom_encode` — one instruction in front of other words;
* `Instruction.decodeAll_encodeAll` — **a list of instructions**;
* `Instruction.decodeAll_encodeAll_stored` — a list with any number of defaults;
* `Instruction.storable_of_decodeAll` — what is decoded can be stored.
-/

import Armature.Proofs.Codec.Boundaries

set_option autoImplicit false

namespace Armature

namespace Instruction

/-! ### What can be stored -/

/-- The instruction fits the format: a binding point has at most three defaults. -/
def Storable : Instruction → Prop
  | binding _ defaults => defaults.length ≤ maxBindingDefaults
  | _ => True

instance : DecidablePred Storable := fun i => by
  cases i <;> unfold Storable <;> infer_instance

/-! ### Operands -/

/-- Exactly the operands are split off. -/
theorem takeWords?_append {n : Nat} {operands : List UInt32} (h : operands.length = n)
    (rest : List UInt32) : takeWords? n (operands ++ rest) = some (operands, rest) := by
  subst h
  refine takeWords?_eq_some_iff.2 ⟨?_, ?_, ?_⟩
  · simp only [List.length_append]; omega
  · rw [List.take_left]
  · rw [List.drop_left]

/-- Payloads survive being written as words. -/
theorem map_mk_map_bits (values : List Scalar) :
    (values.map Scalar.bits).map Scalar.mk = values := by
  rw [List.map_map]
  exact List.map_id values

/-- The two halves of a name. -/
theorem name_of_halves (name : UInt64) :
    name.toUInt32.toUInt64 ||| (name >>> 32).toUInt32.toUInt64 <<< 32 = name := by
  have bound := name.toNat_lt
  rw [← UInt64.toNat_inj]
  simp only [UInt64.toNat_or, UInt64.toNat_shiftLeft, UInt32.toNat_toUInt64, UInt64.toNat_toUInt32,
    UInt64.toNat_shiftRight, UInt64.toNat_ofNat, Nat.reducePow, Nat.reduceMod]
  -- the halves do not overlap, so that joining their bits adds them
  have high : name.toNat >>> 32 % 4294967296 = name.toNat / 4294967296 := by
    rw [Nat.shiftRight_eq_div_pow]
    omega
  rw [high, Nat.mod_eq_of_lt (a := _ <<< 32) (by rw [Nat.shiftLeft_eq]; omega), Nat.or_comm,
    ← Nat.shiftLeft_add_eq_or_of_lt (by omega), Nat.shiftLeft_eq]
  omega

/-! ### One instruction -/

/-- The defaults of a binding point are given back. -/
theorem decodeDefaults_encode (length start offset : Nat) (defaults : List Transform)
    (rest : List UInt32) :
    decodeDefaults length start defaults.length offset
        (defaults.flatMap Transform.encode ++ rest) =
      .ok (defaults, offset + Transform.wordLengths defaults) := by
  induction defaults generalizing offset with
  | nil => rfl
  | cons t defaults ih =>
      simp only [List.length_cons, List.flatMap_cons, Transform.encode, List.cons_append,
        List.append_assoc, decodeDefaults, Opcode.ofWord?_toWord, Transform.opcode]
      rw [takeWords?_append (by simp)]
      simp only [ih, bind, Except.bind, map_mk_map_bits, Transform.ofPayload_payload,
        Transform.wordLengths]
      simp only [Nat.add_assoc]

/-- The opcode of a binding point that can be stored tells the number of its defaults. -/
theorem opcode_binding {name : UInt64} {defaults : List Transform}
    (h : (binding name defaults).Storable) :
    ∃ n : Fin 4, (binding name defaults).opcode = .binding n ∧ n.val = defaults.length := by
  have bound : defaults.length < 4 := Nat.lt_succ_of_le h
  exact ⟨⟨defaults.length, bound⟩, by simp [opcode, Opcode.ofDefaults?, bound], rfl⟩

/-- **An instruction is given back by decoding its words**, whatever follows them. -/
theorem decodeFrom_encode (length offset : Nat) {i : Instruction} (h : i.Storable)
    (rest : List UInt32) :
    decodeFrom length offset (i.encode ++ rest) = .ok (i, offset + i.wordLength) := by
  cases i with
  | static t =>
      simp only [encode, Transform.encode, List.cons_append, decodeFrom, Opcode.ofWord?_toWord]
      rw [takeWords?_append (by simp [Transform.opcode, Opcode.operandCount])]
      simp only [ofOperands, Transform.opcode, map_mk_map_bits, Transform.ofPayload_payload]
      simp [wordLength, opcode, Transform.opcode, storedDefaults, Nat.add_assoc]
  | writeStatic slot matrix =>
      simp only [encode, List.cons_append, decodeFrom, Opcode.ofWord?_toWord]
      rw [← List.cons_append, takeWords?_append (by rfl)]
      rfl
  | binding name defaults =>
      obtain ⟨n, hop, hn⟩ := opcode_binding h
      have whole : (binding name defaults).storedDefaults = defaults := List.take_of_length_le h
      simp only [encode, hop, whole, List.cons_append, decodeFrom, Opcode.ofWord?_toWord]
      have two : [name.toUInt32, (name >>> 32).toUInt32].length =
          (Opcode.binding n).operandCount := rfl
      have operands := takeWords?_append two (defaults.flatMap Transform.encode ++ rest)
      simp only [List.cons_append, List.nil_append] at operands
      rw [operands]
      simp only [ofOperands, hn, decodeDefaults_encode, bind, Except.bind, List.getD_cons_zero,
        List.getD_cons_succ, name_of_halves, wordLength, hop, whole]
      congr 2
      omega
  | comment text =>
      simp only [encode, List.cons_append, decodeFrom, Opcode.ofWord?_toWord]
      have operands : takeWords? Opcode.comment.operandCount (text.encode ++ rest) =
          some (text.encode, rest) := takeWords?_append text.length_encode rest
      rw [operands]
      have bytes : CommentText.decode text.encode = text := by
        cases text with
        | mk bytes length =>
            simp only [CommentText.decode, CommentText.encode, CommentText.ofBytes,
              Word.image_parse (show bytes.length % 4 = 0 by rw [length]; rfl)]
            congr 1
            rw [← length, List.take_left]
      simp [ofOperands, bytes, wordLength, opcode, storedDefaults, Nat.add_assoc]
  | push | pop _ | parameter _ _ | write _ | writeParameter _ _ =>
      simp only [encode, List.cons_append, List.nil_append, decodeFrom, Opcode.ofWord?_toWord]
      rfl

/-! ### Lists of instructions -/

/-- The words of an instruction start with its opcode. -/
theorem exists_encode_eq_cons (i : Instruction) :
    ∃ operands, i.encode = i.opcode.toWord :: operands := by
  cases i <;> exact ⟨_, rfl⟩

/-- The words of a list are decoded wherever they stand. -/
theorem decodeRest_encodeAll (length offset : Nat) {is : List Instruction}
    (h : ∀ i ∈ is, i.Storable) : decodeRest length offset (encodeAll is) = .ok is := by
  induction is generalizing offset with
  | nil => simp [encodeAll, decodeRest]
  | cons i is ih =>
      have head := decodeFrom_encode length offset (h i (List.mem_cons_self ..)) (encodeAll is)
      have rest := ih (offset + i.wordLength) fun j hj => h j (List.mem_cons_of_mem _ hj)
      obtain ⟨words, hw⟩ := i.exists_encode_eq_cons
      have count : words.length + 1 = i.wordLength := by rw [← length_encode, hw]; rfl
      -- decoding goes on behind the words of the first instruction
      have split : encodeAll (i :: is) = i.opcode.toWord :: (words ++ encodeAll is) := by
        rw [encodeAll, List.flatMap_cons, hw]; rfl
      rw [hw] at head
      rw [split, decodeRest,
        show i.opcode.toWord :: (words ++ encodeAll is) =
          i.opcode.toWord :: words ++ encodeAll is from rfl, head]
      have skip : offset + i.wordLength - offset - 1 = words.length := by omega
      simp only [skip, List.drop_left, rest]

/-- **Decoding gives back what was encoded.** -/
theorem decodeAll_encodeAll {is : List Instruction} (h : ∀ i ∈ is, i.Storable) :
    decodeAll (encodeAll is) = .ok is :=
  decodeRest_encodeAll _ 0 h

/-! ### Stored defaults -/

theorem storedDefaults_binding (name : UInt64) (defaults : List Transform) :
    storedDefaults (binding name defaults) = defaults.take maxBindingDefaults := rfl

/-- The instruction without the defaults that are not stored. -/
def stored : Instruction → Instruction
  | binding name defaults => binding name (storedDefaults (binding name defaults))
  | i => i

theorem storable_stored (i : Instruction) : i.stored.Storable := by
  cases i with
  | binding name defaults => exact List.length_take_le ..
  | push | pop | static | parameter | write | writeStatic | writeParameter | comment => trivial

/-- Defaults that are not stored leave no trace in the words. -/
theorem encode_stored (i : Instruction) : i.stored.encode = i.encode := by
  cases i with
  | binding name defaults =>
      rw [stored]
      by_cases few : defaults.length ≤ maxBindingDefaults
      · rw [storedDefaults_binding, List.take_of_length_le few]
      · have many : maxBindingDefaults < defaults.length := Nat.lt_of_not_le few
        have full : (defaults.take maxBindingDefaults).length = maxBindingDefaults :=
          List.length_take_of_le (Nat.le_of_lt many)
        have opcodes : opcode (binding name (defaults.take maxBindingDefaults)) =
            opcode (binding name defaults) := by
          rw [opcode, opcode, full, Opcode.ofDefaults?, Opcode.ofDefaults?,
            dif_neg (show ¬ defaults.length < 4 from Nat.not_lt.2 many)]
          rfl
        simp only [encode, storedDefaults_binding, opcodes, List.take_take, Nat.min_self]
  | push | pop | static | parameter | write | writeStatic | writeParameter | comment => rfl

/-- The words of a list are decoded to the list without the defaults that are not stored. -/
theorem decodeAll_encodeAll_stored (is : List Instruction) :
    decodeAll (encodeAll is) = .ok (is.map stored) := by
  have same : encodeAll (is.map stored) = encodeAll is := by
    simp only [encodeAll, List.flatMap_map, encode_stored]
  rw [← same]
  refine decodeAll_encodeAll fun j member => ?_
  obtain ⟨i, _, rfl⟩ := List.mem_map.1 member
  exact i.storable_stored

/-! ### What decoding yields -/

theorem length_of_decodeDefaults {length start n offset next : Nat} {words : List UInt32}
    {defaults : List Transform}
    (h : decodeDefaults length start n offset words = .ok (defaults, next)) :
    defaults.length = n := by
  induction n generalizing offset words defaults next with
  | zero => cases h; rfl
  | succ n ih =>
      cases words with
      | nil => cases h
      | cons w rest =>
          simp only [decodeDefaults] at h
          split at h
          · cases h
          · split at h
            · cases h
            · simp only [bind, Except.bind] at h
              split at h
              · cases h
              · rename_i found hfound
                cases h
                rw [List.length_cons, ih hfound]
          · cases h

/-- A decoded instruction can be stored. -/
theorem storable_of_decodeFrom {length offset next : Nat} {words : List UInt32} {i : Instruction}
    (h : decodeFrom length offset words = .ok (i, next)) : i.Storable := by
  cases words with
  | nil => cases h
  | cons w rest =>
      simp only [decodeFrom] at h
      split at h
      · cases h
      · rename_i op _
        split at h
        · cases h
        · cases op with
          | writeStatic =>
              simp only [ofOperands] at h
              split at h <;> cases h <;> trivial
          | binding n =>
              simp only [ofOperands, bind, Except.bind] at h
              split at h
              · cases h
              · rename_i found hfound
                cases h
                have count := length_of_decodeDefaults hfound
                have := n.isLt
                simp only [Storable, count, maxBindingDefaults]
                omega
          | _ => cases h; trivial

theorem storable_of_decodeRest {length offset : Nat} {words : List UInt32} {is : List Instruction}
    (h : decodeRest length offset words = .ok is) : ∀ i ∈ is, i.Storable := by
  fun_induction decodeRest length offset words generalizing is with
  | case1 => cases h; exact fun _ hi => absurd hi List.not_mem_nil
  | case2 | case3 => cases h
  | case4 offset w rest i next hi js hjs ih =>
      cases h
      intro j hj
      rcases List.mem_cons.1 hj with rfl | hj
      · exact storable_of_decodeFrom hi
      · exact ih hjs j hj

/-- **What is decoded can be stored.** -/
theorem storable_of_decodeAll {words : List UInt32} {is : List Instruction}
    (h : decodeAll words = .ok is) : ∀ i ∈ is, i.Storable := storable_of_decodeRest h

theorem length_le_of_decodeRest {length offset : Nat} {words : List UInt32} {is : List Instruction}
    (h : decodeRest length offset words = .ok is) : is.length ≤ words.length := by
  fun_induction decodeRest length offset words generalizing is with
  | case1 => cases h; exact Nat.le_refl _
  | case2 | case3 => cases h
  | case4 offset w rest i next hi js hjs ih =>
      cases h
      have tail := ih hjs
      simp only [List.length_drop, List.length_cons] at tail ⊢
      omega

/-- A stream has at least as many words as instructions. -/
theorem length_le_of_decodeAll {words : List UInt32} {is : List Instruction}
    (h : decodeAll words = .ok is) : is.length ≤ words.length := length_le_of_decodeRest h

end Instruction

end Armature
