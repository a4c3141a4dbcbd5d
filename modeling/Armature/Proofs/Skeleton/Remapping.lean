/-
**Renumbering keeps names and values together.**

When the slots of a builder are renumbered, the stream, the number of slots and the names are
computed one by one from the same table.  A table may be shorter than the interface or longer, drop
slots, and leave new slots out.  Entries past the interface count neither for the number of slots
nor for the names, but the stream is renumbered by them as well.  They do no harm, since the stream
of a builder writes only slots that exist (`Builder.Sound`).

Main definitions:

* `Builder.Moves` — the table gives a number to a slot that exists.

Main results:

* `Builder.lt_newCount_of_moves`, `Builder.exists_moves_of_newCount` — the number of slots is one
  past the greatest new number;
* `Builder.newJoint_of_first` — a new slot is named after the first old one that gets its number;
* `Builder.moves_toArray_iff` — **of the slots that are written, the stream moves those that the
  interface moves**;
* `Builder.remap_keeps_values` — **after any history, names and values move together under a table
  that gives no number twice**.
-/

import Armature.Proofs.Skeleton.Interface
import Mathlib.Tactic.IntervalCases

set_option autoImplicit false

namespace Armature.Builder

/-- The table gives the number `new` to the slot `old`, which exists. -/
def Moves (b : Builder) (table : List UInt32) (old new : Nat) : Prop :=
  old < b.outputCount ∧ ∃ entry, table[old]? = some entry ∧ entry ≠ unmapped ∧ entry.toNat = new

section Table

variable {b : Builder} {table : List UInt32} {old new : Nat}

theorem moves_iff_entries : b.Moves table old new ↔
    ∃ entry, (b.entries table)[old]? = some entry ∧ entry ≠ unmapped ∧ entry.toNat = new := by
  rw [Moves, entries, List.getElem?_take]
  by_cases inside : old < b.outputCount
  · simp [inside]
  · simp [inside]

/-- **Of the slots that exist, the stream moves those that the interface moves.** -/
theorem moves_toArray_iff {slot : UInt32} (inside : slot.toNat < b.outputCount) :
    Stream.Moves table.toArray slot new ↔ b.Moves table slot.toNat new := by
  constructor
  · rintro ⟨there, kept, same⟩
    exact ⟨inside, _, List.getElem?_eq_getElem there, kept, same⟩
  · rintro ⟨-, entry, found, kept, same⟩
    obtain ⟨there, rfl⟩ := List.getElem?_eq_some_iff.1 found
    exact ⟨there, kept, same⟩

/-! ### The number of slots -/

/-- Each new number counts. -/
theorem lt_newCount_of_moves (moves : b.Moves table old new) :
    new < newCount (b.entries table) := by
  obtain ⟨entry, found, kept, rfl⟩ := moves_iff_entries.1 moves
  exact lt_newCount (List.mem_of_getElem? found) kept

/-- The count is one past one of the new numbers. -/
theorem exists_mem_of_newCount {entries : List UInt32} (count : newCount entries = new + 1) :
    ∃ entry ∈ entries, entry ≠ unmapped ∧ entry.toNat = new := by
  induction entries using List.reverseRecOn with
  | nil => cases count
  | append_singleton entries last ih =>
      rw [newCount_append_singleton] at count
      by_cases dropped : last = unmapped
      · rw [if_pos dropped] at count
        obtain ⟨entry, member, found⟩ := ih count
        exact ⟨entry, List.mem_append_left _ member, found⟩
      · rw [if_neg dropped] at count
        rcases Nat.le_total (newCount entries) (last.toNat + 1) with larger | smaller
        · rw [Nat.max_eq_right larger] at count
          exact ⟨last, List.mem_append_right _ List.mem_cons_self, dropped, Nat.succ.inj count⟩
        · rw [Nat.max_eq_left smaller] at count
          obtain ⟨entry, member, found⟩ := ih count
          exact ⟨entry, List.mem_append_left _ member, found⟩

/-- Some slot gets the greatest number. -/
theorem exists_moves_of_newCount (count : newCount (b.entries table) = new + 1) :
    ∃ old, b.Moves table old new := by
  obtain ⟨entry, member, found⟩ := exists_mem_of_newCount count
  obtain ⟨old, here⟩ := List.getElem?_of_mem member
  exact ⟨old, moves_iff_entries.2 ⟨entry, here, found⟩⟩

/-! ### Names -/

/-- A new slot that no old one gets has no name. -/
theorem newJoint_of_not_moves (none : ∀ old, ¬ b.Moves table old new) :
    newJoint b.joints (b.entries table) new = .unnamed := by
  rw [newJoint, List.find?_eq_none.2 ?absent]
  rintro ⟨tag, entry⟩ member numbered
  obtain ⟨old, here⟩ := List.getElem?_of_mem member
  obtain ⟨-, found⟩ := List.getElem?_zip_eq_some.1 here
  exact none old (moves_iff_entries.2 ⟨entry, found, by simpa using numbered⟩)

/-- **A new slot is named after the first old one that gets its number.** -/
theorem newJoint_of_first {tag : Tag} (named : b.joints[old]? = some tag)
    (moves : b.Moves table old new) (first : ∀ before < old, ¬ b.Moves table before new) :
    newJoint b.joints (b.entries table) new = tag := by
  obtain ⟨entry, found, numbered⟩ := moves_iff_entries.1 moves
  have paired : (b.joints.zip (b.entries table))[old]? = some (tag, entry) :=
    List.getElem?_zip_eq_some.2 ⟨named, found⟩
  obtain ⟨inside, here⟩ := List.getElem?_eq_some_iff.1 paired
  rw [newJoint, List.find?_eq_some_iff_getElem.2
    ⟨by simpa using numbered, old, inside, here, ?earlier⟩]
  intro before earlier
  have there := List.getElem?_eq_getElem (Nat.lt_trans earlier inside)
  obtain ⟨-, found⟩ := List.getElem?_zip_eq_some.1 there
  have other := first before earlier
  rw [moves_iff_entries, found] at other
  simpa [or_iff_not_imp_left] using other

end Table

/-! ### Values -/

section Values

variable {M : Type} {b : Builder} {table : List UInt32} {new : Nat} {ws : List (UInt32 × M)}

/-- Nothing is written to a new slot that no old one gets. -/
theorem lastWriteTo?_of_not_moves (inside : ∀ slot ∈ ws.map Prod.fst, slot.toNat < b.outputCount)
    (none : ∀ old, ¬ b.Moves table old new) :
    lastWriteTo? (Stream.Moves table.toArray · new) ws = Option.none := by
  refine (lastWriteTo?_eq_none_iff _ ws).2 fun slot written moves => ?_
  exact none _ ((moves_toArray_iff (inside slot written)).1 moves)

/-- What is written to a new slot that only one old one gets was written to the old one. -/
theorem lastWriteTo?_of_moves (inside : ∀ slot ∈ ws.map Prod.fst, slot.toNat < b.outputCount)
    {old : Nat} (moves : b.Moves table old new)
    (only : ∀ other, b.Moves table other new → other = old) :
    lastWriteTo? (Stream.Moves table.toArray · new) ws = lastWriteTo? (·.toNat = old) ws := by
  refine lastWriteTo?_congr_of_mem fun slot written => ?_
  rw [moves_toArray_iff (inside slot written)]
  exact ⟨only _, fun same => same ▸ moves⟩

end Values

/-- Where the machine is evaluated, the renumbered one is, and writes the same under the new
numbers. -/
theorem Sound.generate_remap {b : Builder} (sound : Sound b) (table : List UInt32)
    {block : ParameterBlock} {outputs : Array Mat4}
    (run : (b.finish.generate block).value = .ok outputs) :
    ∃ ws, (∀ slot ∈ ws.map Prod.fst, slot.toNat < b.outputCount) ∧
      outputs = enter (Array.replicate b.outputCount .identity) ws ∧
      ((b.remap table).1.finish.generate block).value =
        .ok (enter (Array.replicate (newCount (b.entries table)) .identity)
          (movedWrites table.toArray ws)) := by
  obtain ⟨is, decoded, inside⟩ := sound.stream
  obtain ⟨is', ws, decoded', writes, rfl⟩ := Stream.result_eq_ok_iff.1 run
  obtain rfl := Except.ok.inj (decoded.symm.trans decoded')
  refine ⟨ws, ?_, rfl, ?_⟩
  · rw [map_fst_of_journal writes]
    exact inside
  · rw [(remap_eq decoded table).2]
    exact Stream.run_renumbered _ (Instruction.storable_of_decodeAll decoded) writes _

/-- **Renumbering keeps names and values together.**  After any history renumbering by a table that
gives no number to two slots succeeds, and there is one more slot than the greatest new number; none
if there is no new number.  Each old slot with a number has its name under the new number.  Where
the machine was evaluated before, it still is, and each old slot with a number has its value under
the new number.  The slots between are unnamed and hold the identity. -/
theorem remap_keeps_values (ops : List Operation) (table : List UInt32)
    (injective : ∀ old old' new, (empty.performAll ops).Moves table old new →
      (empty.performAll ops).Moves table old' new → old = old') :
    let b := empty.performAll ops
    let b' := (b.remap table).1
    (b.remap table).2.value = .ok () ∧
    b'.outputCount = b'.joints.length ∧
    (∀ old new, b.Moves table old new → new < b'.outputCount) ∧
    (∀ last, b'.outputCount = last + 1 → ∃ old, b.Moves table old last) ∧
    (∀ old new, b.Moves table old new → b'.joints[new]? = b.joints[old]?) ∧
    (∀ new < b'.outputCount, (∀ old, ¬ b.Moves table old new) →
      b'.joints[new]? = some .unnamed) ∧
    ∀ block outputs, (b.finish.generate block).value = .ok outputs →
      ∃ outputs', (b'.finish.generate block).value = .ok outputs' ∧
        outputs'.size = b'.outputCount ∧
        (∀ old new, b.Moves table old new → outputs'[new]? = outputs[old]?) ∧
        ∀ new < b'.outputCount, (∀ old, ¬ b.Moves table old new) →
          outputs'[new]? = some .identity := by
  intro b b'
  have sound : Sound b := sound_performAll sound_empty ops
  have sound' : Sound b' := sound.remap table
  obtain ⟨is, decoded, _⟩ := sound.stream
  obtain ⟨succeeds, leaves⟩ := remap_eq decoded table
  have count : b'.outputCount = newCount (b.entries table) := congrArg Builder.outputCount leaves
  have joint : ∀ new < b'.outputCount,
      b'.joints[new]? = some (newJoint b.joints (b.entries table) new) := by
    intro new inside
    rw [count] at inside
    rw [show b'.joints = _ from congrArg Builder.joints leaves, List.getElem?_map,
      List.getElem?_range inside]
    rfl
  have bounded : ∀ old new, b.Moves table old new → new < b'.outputCount :=
    fun old new moves => count ▸ lt_newCount_of_moves moves
  refine ⟨succeeds, sound'.joints, bounded, fun last one => exists_moves_of_newCount
    (count.symm.trans one), fun old new moves => ?_, fun new inside none => ?_,
    fun block outputs run => ?_⟩
  · have named := List.getElem?_eq_getElem (sound.joints ▸ moves.1 : old < b.joints.length)
    rw [joint new (bounded old new moves), named, newJoint_of_first named moves]
    exact fun before earlier other =>
      Nat.ne_of_lt earlier (injective before old new other moves)
  · rw [joint new inside, newJoint_of_not_moves none]
  · obtain ⟨ws, written, rfl, run'⟩ := sound.generate_remap table run
    rw [← count] at run'
    refine ⟨_, run', by rw [size_enter, Array.size_replicate], fun old new moves => ?_,
      fun new inside none => ?_⟩
    · rw [enter_identities_getElem? (bounded old new moves), enter_identities_getElem? moves.1,
        lastWriteTo?_movedWrites, lastWriteTo?_of_moves written moves
          fun other same => injective other old new same moves]
    · rw [enter_identities_getElem? inside, lastWriteTo?_movedWrites,
        lastWriteTo?_of_not_moves written none]
      rfl

/-- An elbow that is reflected moves behind a slot without a name, and a foot is dropped. -/
def elbowMoved : List Operation :=
  [.marker ⟨"arm", "hand"⟩, .push, .static (.uniformScale (-.one)), .marker ⟨"arm", "elbow"⟩,
    .pop 1, .marker ⟨"leg", "foot"⟩, .remap [0, 2, unmapped]]

/-- The elbow moves again, with its value, and its number is given to a slot that does not exist as
well; the slot without a name gets the last number. -/
theorem remap_keeps_values_elbowMoved :
    let b' := ((empty.performAll elbowMoved).remap [unmapped, 5, 3, 3]).1
    b'.outputCount = 6 ∧ b'.joints[3]? = some ⟨"arm", "elbow"⟩ ∧ b'.joints[0]? = some .unnamed ∧
      ∃ outputs', (b'.finish.generate .empty).value = .ok outputs' ∧
        outputs'[3]? = some (.scaling (.splat (-.one))) ∧ outputs'[0]? = some .identity := by
  intro b'
  have three : (empty.performAll elbowMoved).outputCount = 3 := by decide +kernel
  have moves : (empty.performAll elbowMoved).Moves [unmapped, 5, 3, 3] 2 3 :=
    ⟨by rw [three]; decide, 3, rfl, by decide, rfl⟩
  have gets : ∀ {old new}, (empty.performAll elbowMoved).Moves [unmapped, 5, 3, 3] old new →
      old = 1 ∧ new = 5 ∨ old = 2 ∧ new = 3 := by
    rintro old new ⟨inside, entry, found, kept, rfl⟩
    rw [three] at inside
    interval_cases old <;> cases found
    · exact absurd rfl kept
    · exact .inl ⟨rfl, rfl⟩
    · exact .inr ⟨rfl, rfl⟩
  have injective : ∀ old old' new,
      (empty.performAll elbowMoved).Moves [unmapped, 5, 3, 3] old new →
      (empty.performAll elbowMoved).Moves [unmapped, 5, 3, 3] old' new → old = old' := by
    intro old old' new here there
    have := gets here
    have := gets there
    omega
  have none : ∀ old, ¬ (empty.performAll elbowMoved).Moves [unmapped, 5, 3, 3] old 0 := by
    intro old here
    have := gets here
    omega
  have run : ((empty.performAll elbowMoved).finish.generate .empty).value =
      .ok #[.identity, .identity, .scaling (.splat (-.one))] := by decide +kernel
  have joints : (empty.performAll elbowMoved).joints[2]? = some ⟨"arm", "elbow"⟩ := by
    decide +kernel
  obtain ⟨_, _, bounded, _, names, unnamed, values⟩ :=
    remap_keeps_values elbowMoved [unmapped, 5, 3, 3] injective
  obtain ⟨outputs', run', _, moved, identities⟩ := values .empty _ run
  have first := Nat.zero_lt_of_lt (bounded 2 3 moves)
  exact ⟨by decide +kernel, (names 2 3 moves).trans joints, unnamed 0 first none, outputs', run',
    moved 2 3 moves, identities 0 first none⟩

end Armature.Builder
