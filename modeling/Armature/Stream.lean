/-
**Streams of words.**

A stream is a list of words in which instructions follow each other without separators.  The length
of an instruction follows from its opcode, and for a binding point from those of its defaults; all
that walks over a stream without decoding it steps by `Stream.advance`.

Main definitions:

* `Stream.advance` — the position of the next instruction;
* `Stream.offsets` — the positions of all instructions, and the fault that ends them;
* `Stream.validate` — whether every instruction can be read and pushes and pops balance;
* `Stream.toBytes`, `Stream.ofBytes` — the byte image.

Main results:

* `Stream.bounds_of_advance` — stepping goes forward and stays inside the stream.
-/

import Armature.Opcode
import Armature.Word

set_option autoImplicit false

namespace Armature.Stream

/-! ### Instruction boundaries -/

/-- Step over the operands of the opcode at `offset`; `rest` are the words after it. -/
def skip (length offset : Nat) (op : Opcode) (rest : List UInt32) : Except Fault Nat :=
  if (rest.take op.operandCount).length < op.operandCount then
    .error (.truncated offset (1 + op.operandCount) length)
  else .ok (offset + 1 + op.operandCount)

/-- Step over `n` inline defaults of the binding point at `start`, the first of them at `offset`. -/
def skipDefaults (length start : Nat) : Nat → Nat → List UInt32 → Except Fault Nat
  | 0, offset, _ => .ok offset
  | _ + 1, offset, [] => .error (.truncated start (offset + 1 - start) length)
  | n + 1, offset, w :: rest => do
    let op ← Opcode.read w offset
    if op.isStatic then
      let next ← skip length offset op rest
      skipDefaults length start n next (rest.drop op.operandCount)
    else .error (.invalidBindingDefault w offset)

/-- The position after the instruction at the front of `words`, which are the rest of a stream of
the given length from `offset` on. -/
def measure (length offset : Nat) : List UInt32 → Except Fault Nat
  | [] => .error (.truncated offset 1 length)
  | w :: rest => do
    let op ← Opcode.read w offset
    let next ← skip length offset op rest
    skipDefaults length offset (op.defaults?.getD 0) next (rest.drop op.operandCount)

/-- The position after the instruction at a position. -/
def advance (words : List UInt32) (offset : Nat) : Except Fault Nat :=
  measure words.length offset (words.drop offset)

/-- The operands of an opcode are there, and the next position is behind them. -/
theorem skip_eq_ok_iff {length offset next : Nat} {op : Opcode} {rest : List UInt32} :
    skip length offset op rest = .ok next ↔
      op.operandCount ≤ rest.length ∧ next = offset + 1 + op.operandCount := by
  simp only [skip, List.length_take]
  split
  · simp only [reduceCtorEq, false_iff]; omega
  · simp only [Except.ok.injEq, eq_comm]; omega

/-- Defaults are stepped over within the words that are there. -/
theorem bounds_of_skipDefaults {length start n offset next : Nat} {words : List UInt32}
    (h : skipDefaults length start n offset words = .ok next) :
    offset ≤ next ∧ next ≤ offset + words.length := by
  induction n generalizing offset words with
  | zero => cases h; exact ⟨Nat.le_refl _, Nat.le_add_right _ _⟩
  | succ n ih =>
    cases words with
    | nil => cases h
    | cons w rest =>
      simp only [skipDefaults, bind, Except.bind] at h
      split at h
      · cases h
      · rename_i op _
        split at h
        · split at h
          · cases h
          · rename_i after hskip
            have := skip_eq_ok_iff.1 hskip
            have := ih h
            simp only [List.length_drop, List.length_cons] at this ⊢
            omega
        · cases h

/-- An instruction has at least one word, and none past the end of the stream. -/
theorem bounds_of_measure {length offset next : Nat} {words : List UInt32}
    (h : measure length offset words = .ok next) :
    offset < next ∧ next ≤ offset + words.length := by
  cases words with
  | nil => cases h
  | cons w rest =>
    simp only [measure, bind, Except.bind] at h
    split at h
    · cases h
    · split at h
      · cases h
      · rename_i after hskip
        have := skip_eq_ok_iff.1 hskip
        have := bounds_of_skipDefaults h
        simp only [List.length_drop, List.length_cons] at this ⊢
        omega

/-- Stepping goes forward and stays inside the stream. -/
theorem bounds_of_advance {words : List UInt32} {offset next : Nat}
    (h : advance words offset = .ok next) : offset < next ∧ next ≤ words.length := by
  have := bounds_of_measure h
  simp only [List.length_drop] at this
  omega

/-- The positions of the instructions in the rest of a stream; a fault is the last item. -/
def offsetsFrom (length offset : Nat) : List UInt32 → List (Except Fault Nat)
  | [] => []
  | w :: rest =>
    match measure length offset (w :: rest) with
    | .error fault => [.error fault]
    | .ok next => .ok offset :: offsetsFrom length next (rest.drop (next - offset - 1))
  termination_by words => words.length
  decreasing_by simp only [List.length_drop, List.length_cons]; omega

/-- The positions of the instructions of a stream; a fault is the last item. -/
def offsets (words : List UInt32) : List (Except Fault Nat) :=
  offsetsFrom words.length 0 words

/-! ### Balance -/

/-- The number of open frames after the instruction `op` with the given operands. -/
def depthAfter (depth : Nat) (op : Opcode) (operands : List UInt32) : Except Fault Nat :=
  match op with
  | .push => .ok (depth + 1)
  | .pop =>
    let count := operands.headD 0
    if count.toNat ≤ depth then .ok (depth - count.toNat)
    else .error (.stackUnderflow count depth)
  | _ => .ok depth

/-- Check the rest of a stream, where `depth` frames are open. -/
def validateFrom (length offset depth : Nat) : List UInt32 → Except Fault Unit
  | [] => if depth = 0 then .ok () else .error (.unbalanced depth)
  | w :: rest =>
    match measure length offset (w :: rest) with
    | .error fault => .error fault
    | .ok next =>
      match Opcode.read w offset with
      | .error fault => .error fault
      | .ok op =>
        match depthAfter depth op rest with
        | .error fault => .error fault
        | .ok depth => validateFrom length next depth (rest.drop (next - offset - 1))
  termination_by words => words.length
  decreasing_by simp only [List.length_drop, List.length_cons]; omega

/-- Every instruction can be read, no pop closes more frames than are open, and none is open at the
end. -/
def validate (words : List UInt32) : Except Fault Unit := validateFrom words.length 0 0 words

/-! ### Byte image -/

/-- The bytes of a stream. -/
def toBytes (words : List UInt32) : List UInt8 := Word.image words

/-- The stream with the given bytes, which must be whole words. -/
def ofBytes (bytes : List UInt8) : Except Fault (List UInt32) :=
  if bytes.length % 4 = 0 then .ok (Word.parse bytes) else .error (.misaligned bytes.length)

end Armature.Stream
