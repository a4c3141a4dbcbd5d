/-
**Updates of a parameter block.**

A block is built by appending values and replacing values that are there.  Offsets are bytes, and
nothing keeps values from lying across each other: a replaced payload may cut into several that were
appended, of any shapes.  What is certain is that an update changes the bytes of its own range only.
So a value is read back from where it was put until an update meets its bytes.

Main definitions:

* `ParameterBlock.Update`, `ParameterBlock.perform`, `ParameterBlock.performAll` — an update with
  its answer, and a history;
* `ParameterBlock.ShareNoByte` — two ranges share no byte;
* `ParameterBlock.SameOutside` — two blocks differ at most inside a range;
* `ParameterBlock.SameReads` — hence they give the same to every read of other bytes;
* `ParameterBlock.ReadsInside` — reads fail exactly where they leave the block.

Main results:

* `ParameterBlock.readScalars_of_sameOutside` — **only the bytes of its range matter to a read**;
* `ParameterBlock.sameOutside_of_set?` — a replaced payload changes no other bytes;
* `ParameterBlock.readScalars_performAll` — **what can be read stays, as long as updates spare it**;
* `ParameterBlock.updates_are_local` — after any history updates are local, and read back.
-/

import Armature.Proofs.Evaluate.Payloads

set_option autoImplicit false

namespace Armature.ParameterBlock

/-! ### Updates -/

/-- What a caller does while a block is built. -/
inductive Update where
  /-- Append the payload of a transform. -/
  | push (t : Transform)
  /-- Append a number. -/
  | pushScalar (a : Scalar)
  /-- Replace the bytes at an offset by the payload of a transform. -/
  | set (offset : UInt32) (t : Transform)
  deriving DecidableEq

/-- What the caller is told. -/
inductive Answer where
  /-- Where the value lies. -/
  | offset (offset : UInt32)
  /-- Whether the bytes were replaced. -/
  | replaced (done : Bool)
  deriving DecidableEq

/-- An update, and its answer. -/
def perform (b : ParameterBlock) : Update → ParameterBlock × Answer
  | .push t => (b.push t, .offset b.nextOffset)
  | .pushScalar a => (b.pushScalar a, .offset b.nextOffset)
  | .set offset t =>
    match b.set? offset t with
    | some after => (after, .replaced true)
    | none => (b, .replaced false)

/-- A history of updates. -/
def performAll (b : ParameterBlock) (updates : List Update) : ParameterBlock :=
  updates.foldl (fun b u => (b.perform u).1) b

/-! ### Ranges -/

/-- The two ranges, each given by its first byte and its length, share no byte. -/
def ShareNoByte (start length start' length' : Nat) : Prop :=
  start' + length' ≤ start ∨ start + length ≤ start'

/-- The update replaces no byte of the range. -/
def Update.Spares (start length : Nat) : Update → Prop
  | .set offset t => ShareNoByte offset.toNat t.shape.byteSize start length
  | .push _ | .pushScalar _ => True

/-- The two blocks have the same number of bytes, and differ at most inside the range. -/
structure SameOutside (start length : Nat) (b c : ParameterBlock) : Prop where
  /-- There are as many bytes. -/
  size : c.size = b.size
  /-- Bytes outside the range are the same. -/
  outside : ∀ place, place < start ∨ start + length ≤ place → c.bytes[place]? = b.bytes[place]?

/-- The two blocks give the same to every read of bytes outside the range. -/
structure SameReads (start length : Nat) (b c : ParameterBlock) : Prop where
  /-- Transforms are the same. -/
  transform : ∀ shape offset, ShareNoByte start length offset.toNat shape.byteSize →
    c.readTransform shape offset = b.readTransform shape offset
  /-- Matrices are the same. -/
  matrix : ∀ shape offset, ShareNoByte start length offset.toNat shape.byteSize →
    c.readMatrix shape offset = b.readMatrix shape offset
  /-- Numbers are the same. -/
  scalar : ∀ offset, ShareNoByte start length offset.toNat 4 →
    c.readScalar offset = b.readScalar offset

/-- Reads fail exactly where they leave the block, and say so. -/
structure ReadsInside (b : ParameterBlock) : Prop where
  /-- A transform. -/
  transform : ∀ shape offset fault, b.readTransform shape offset = .error fault ↔
    b.size < offset.toNat + shape.byteSize ∧
      fault = .parameterOutOfRange offset shape.byteSize b.size
  /-- A matrix. -/
  matrix : ∀ shape offset fault, b.readMatrix shape offset = .error fault ↔
    b.size < offset.toNat + shape.byteSize ∧
      fault = .parameterOutOfRange offset shape.byteSize b.size
  /-- A number. -/
  scalar : ∀ offset fault, b.readScalar offset = .error fault ↔
    b.size < offset.toNat + 4 ∧ fault = .parameterOutOfRange offset 4 b.size

/-! ### Reads -/

section Reads

variable {b c : ParameterBlock} {start length : Nat}

/-- **Only the bytes of its range matter to a read**, and the number of all. -/
theorem readScalars_of_sameOutside (same : SameOutside start length b c) {offset : UInt32}
    {count : Nat} (apart : ShareNoByte start length offset.toNat (count * 4)) :
    c.readScalars offset count = b.readScalars offset count := by
  have bytes : (c.bytes.drop offset.toNat).take (count * 4) =
      (b.bytes.drop offset.toNat).take (count * 4) := by
    refine List.ext_getElem? fun k => ?_
    rw [List.getElem?_take, List.getElem?_take, List.getElem?_drop, List.getElem?_drop]
    by_cases inside : k < count * 4
    · rw [if_pos inside, if_pos inside]
      refine same.outside _ ?_
      rcases apart with before | behind
      · exact .inl (by omega)
      · exact .inr (by omega)
    · rw [if_neg inside, if_neg inside]
  rw [readScalars, readScalars, same.size, bytes]

theorem readTransform_of_sameOutside (same : SameOutside start length b c) {shape : Shape}
    {offset : UInt32} (apart : ShareNoByte start length offset.toNat shape.byteSize) :
    c.readTransform shape offset = b.readTransform shape offset := by
  rw [readTransform, readTransform, readScalars_of_sameOutside same apart]

theorem sameReads_of_sameOutside (same : SameOutside start length b c) :
    SameReads start length b c where
  transform _ _ := readTransform_of_sameOutside same
  matrix shape offset apart := by
    rw [readMatrix, readMatrix, readTransform_of_sameOutside same apart]
  scalar offset apart := by
    have values : c.readScalars offset 1 = b.readScalars offset 1 :=
      readScalars_of_sameOutside same apart
    rw [readScalar, readScalar, values]

/-- Numbers cannot be read exactly where the range leaves the block. -/
theorem readScalars_eq_error_iff {offset : UInt32} {count : Nat} {fault : Fault} :
    b.readScalars offset count = .error fault ↔
      b.size < offset.toNat + count * 4 ∧
        fault = .parameterOutOfRange offset (count * 4) b.size := by
  rw [readScalars]
  by_cases inside : offset.toNat + count * 4 ≤ b.size
  · simp [Nat.not_lt_of_le inside, inside]
  · simp only [inside, if_false, Except.error.injEq, Nat.lt_of_not_le inside, true_and, eq_comm]

theorem readsInside (b : ParameterBlock) : ReadsInside b where
  transform _ _ _ := map_eq_error_iff.trans readScalars_eq_error_iff
  matrix _ _ _ := map_eq_error_iff.trans (map_eq_error_iff.trans readScalars_eq_error_iff)
  scalar _ _ := map_eq_error_iff.trans readScalars_eq_error_iff

end Reads

/-! ### One update -/

section Update

variable {b c : ParameterBlock} {offset : UInt32} {t : Transform}

theorem length_payloadBytes (t : Transform) : (payloadBytes t).length = t.shape.byteSize := by
  rw [payloadBytes, Word.length_image, List.length_map, Transform.length_payload, Nat.mul_comm]
  rfl

theorem set?_eq_some_iff : b.set? offset t = some c ↔
    offset.toNat + t.shape.byteSize ≤ b.size ∧
      c = ⟨b.bytes.take offset.toNat ++ payloadBytes t ++
        b.bytes.drop (offset.toNat + t.shape.byteSize)⟩ := by
  rw [set?]
  by_cases inside : offset.toNat + t.shape.byteSize ≤ b.size
  · simp only [inside, if_true, Option.some.injEq, true_and, eq_comm]
  · simp [inside]

/-- **A replaced payload changes no other bytes.** -/
theorem sameOutside_of_set? (replaced : b.set? offset t = some c) :
    SameOutside offset.toNat t.shape.byteSize b c := by
  obtain ⟨inside, rfl⟩ := set?_eq_some_iff.1 replaced
  have front : (b.bytes.take offset.toNat).length = offset.toNat :=
    List.length_take_of_le (Nat.le_trans (Nat.le_add_right ..) inside)
  have middle : (b.bytes.take offset.toNat ++ payloadBytes t).length =
      offset.toNat + t.shape.byteSize := by
    rw [List.length_append, front, length_payloadBytes]
  constructor
  · rw [size] at inside ⊢
    rw [List.length_append, middle, List.length_drop, size]
    omega
  · rintro place (before | behind)
    · rw [List.getElem?_append_left (by omega), List.getElem?_append_left (by omega),
        List.getElem?_take_of_lt before]
    · rw [List.getElem?_append_right (by omega), middle, List.getElem?_drop,
        Nat.add_sub_cancel' behind]

/-- **A replaced payload is read back.** -/
theorem readTransform_of_set? (replaced : b.set? offset t = some c) :
    c.readTransform t.shape offset = .ok t := by
  obtain ⟨inside, rfl⟩ := set?_eq_some_iff.1 replaced
  exact readTransform_of_bytes (List.append_assoc ..)
    (List.length_take_of_le (Nat.le_trans (Nat.le_add_right ..) inside)).symm

/-- **An appended number is read back.** -/
theorem readScalar_pushScalar (small : b.size < UInt32.size) (a : Scalar) :
    (b.pushScalar a).readScalar b.nextOffset = .ok a := by
  have split : (b.pushScalar a).bytes = b.bytes ++ (Word.image [a.bits] ++ []) := by
    simp [pushScalar, Word.image]
  have found : (b.pushScalar a).readScalars b.nextOffset 1 = .ok [a] :=
    readScalars_of_bytes split (toNat_nextOffset small)
  rw [readScalar, found]
  rfl

/-- What can be read stays if an update spares it. -/
theorem readScalars_perform {count : Nat} {values : List Scalar} {u : Update}
    (read : b.readScalars offset count = .ok values) (spares : u.Spares offset.toNat (count * 4)) :
    (b.perform u).1.readScalars offset count = .ok values := by
  cases u with
  | push t => exact readScalars_of_isPrefix (List.prefix_append ..) read
  | pushScalar a => exact readScalars_of_isPrefix (List.prefix_append ..) read
  | set place t =>
      rw [perform]
      cases replaced : b.set? place t with
      | none => exact read
      | some after =>
          exact (readScalars_of_sameOutside (sameOutside_of_set? replaced) spares).trans read

end Update

/-! ### Histories -/

variable {b : ParameterBlock} {offset : UInt32}

/-- **What can be read stays, as long as updates spare it.** -/
theorem readScalars_performAll {count : Nat} {values : List Scalar} {updates : List Update}
    (read : b.readScalars offset count = .ok values)
    (spare : ∀ u ∈ updates, u.Spares offset.toNat (count * 4)) :
    (b.performAll updates).readScalars offset count = .ok values := by
  induction updates generalizing b with
  | nil => exact read
  | cons u updates ih =>
      obtain ⟨here, later⟩ := List.forall_mem_cons.1 spare
      exact ih (readScalars_perform read here) later

theorem readTransform_performAll {t : Transform} {shape : Shape} {updates : List Update}
    (read : b.readTransform shape offset = .ok t)
    (spare : ∀ u ∈ updates, u.Spares offset.toNat shape.byteSize) :
    (b.performAll updates).readTransform shape offset = .ok t := by
  obtain ⟨values, found, same⟩ := map_eq_ok_iff.1 read
  exact map_eq_ok_iff.2 ⟨values, readScalars_performAll found spare, same⟩

theorem readScalar_performAll {a : Scalar} {updates : List Update}
    (read : b.readScalar offset = .ok a) (spare : ∀ u ∈ updates, u.Spares offset.toNat 4) :
    (b.performAll updates).readScalar offset = .ok a := by
  obtain ⟨values, found, same⟩ := map_eq_ok_iff.1 read
  exact map_eq_ok_iff.2 ⟨values, readScalars_performAll found spare, same⟩

/-- **After any history updates are local, and read back.**  A value that is appended gets an offset
where it is read back bit by bit.  Bytes are replaced exactly if the block reaches as far as the
payload; then the payload is read back, and reads of other bytes give the same as before, as does
the number of bytes.  Otherwise nothing changes.  What was put into the block is read from there
after any more updates, as long as they replace none of its bytes, and reads fail exactly where they
leave the block. -/
theorem updates_are_local {updates : List Update}
    (small : (empty.performAll updates).size < UInt32.size) :
    let b := empty.performAll updates
    (∀ t, ∃ offset, (b.perform (.push t)).2 = .offset offset ∧ offset.toNat = b.size ∧
      ∀ more : List Update, (∀ u ∈ more, u.Spares offset.toNat t.shape.byteSize) →
        ((b.perform (.push t)).1.performAll more).readTransform t.shape offset = .ok t) ∧
    (∀ a, ∃ offset, (b.perform (.pushScalar a)).2 = .offset offset ∧ offset.toNat = b.size ∧
      ∀ more : List Update, (∀ u ∈ more, u.Spares offset.toNat 4) →
        ((b.perform (.pushScalar a)).1.performAll more).readScalar offset = .ok a) ∧
    (∀ offset t, let after := b.perform (.set offset t)
      (after.2 = .replaced true ↔ offset.toNat + t.shape.byteSize ≤ b.size) ∧
      (after.2 = .replaced true → after.1.size = b.size ∧
        SameReads offset.toNat t.shape.byteSize b after.1 ∧
        ∀ more : List Update, (∀ u ∈ more, u.Spares offset.toNat t.shape.byteSize) →
          (after.1.performAll more).readTransform t.shape offset = .ok t) ∧
      (after.2 ≠ .replaced true → after.2 = .replaced false ∧ after.1 = b)) ∧
    ReadsInside b := by
  intro b
  refine ⟨fun t => ⟨_, rfl, toNat_nextOffset small, fun more spare => ?_⟩,
    fun a => ⟨_, rfl, toNat_nextOffset small, fun more spare => ?_⟩, fun offset t => ?_,
    readsInside b⟩
  · exact readTransform_performAll (readTransform_push small List.prefix_rfl) spare
  · exact readScalar_performAll (readScalar_pushScalar small a) spare
  · rw [perform]
    cases replaced : b.set? offset t with
    | none =>
        refine ⟨⟨nofun, fun inside => ?_⟩, nofun, fun _ => ⟨rfl, rfl⟩⟩
        cases replaced.symm.trans (set?_eq_some_iff.2 ⟨inside, rfl⟩)
    | some after =>
        have same := sameOutside_of_set? replaced
        refine ⟨⟨fun _ => (set?_eq_some_iff.1 replaced).1, fun _ => rfl⟩,
          fun _ => ⟨same.size, sameReads_of_sameOutside same, fun more spare => ?_⟩,
          fun kept => absurd rfl kept⟩
        exact readTransform_performAll (readTransform_of_set? replaced) spare

/-- A factor lies across two components of a move, and another does not fit behind them. -/
def crossingUpdates : List Update :=
  [.push (.translate .zero), .pushScalar .one, .set 2 (.uniformScale (-.one)),
    .set 13 (.uniformScale .two)]

/-- An angle that is appended then is found although a move is put right in front of it; the number
may be replaced, and the factor is as before; and the factor that did not fit still does not. -/
theorem updates_are_local_crossing :
    let b := empty.performAll crossingUpdates
    (∃ offset, (b.perform (.push (.rotateX .two))).2 = .offset offset ∧ offset.toNat = 16 ∧
      ((b.perform (.push (.rotateX .two))).1.performAll [.set 4 (.translate .zero)]).readTransform
        .rotateX offset = .ok (.rotateX .two)) ∧
    (b.perform (.set 12 (.rotateX .half))).1.readScalar 2 = .ok (-.one) ∧
    (b.perform (.set 13 (.uniformScale .two))).1 = b ∧
    b.readTransform .translate 5 = .error (.parameterOutOfRange 5 12 16) := by
  intro b
  have total : b.size = 16 := by decide +kernel
  have small : b.size < UInt32.size := by rw [total]; decide
  obtain ⟨appended, -, replaced, inside⟩ := updates_are_local small
  obtain ⟨offset, told, place, stays⟩ := appended (.rotateX .two)
  rw [total] at place
  refine ⟨⟨offset, told, place, stays _ ?_⟩, ?_, ?_, ?_⟩
  · rintro u member
    rw [List.mem_singleton.1 member]
    exact .inr (by rw [place]; decide)
  · obtain ⟨fits, done, -⟩ := replaced 12 (.rotateX .half)
    obtain ⟨-, same, -⟩ := done (fits.2 (by decide +kernel))
    exact (same.scalar 2 (.inl (by decide))).trans (by decide +kernel)
  · obtain ⟨fits, -, kept⟩ := replaced 13 (.uniformScale .two)
    exact (kept fun done => absurd (fits.1 done) (by decide +kernel)).2
  · exact (inside.transform .translate 5 _).2 ⟨by decide +kernel, by decide +kernel⟩

end Armature.ParameterBlock
