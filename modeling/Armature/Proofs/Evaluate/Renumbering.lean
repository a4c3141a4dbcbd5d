/-
**Renumbering moves values.**

`Armature/Proofs/Codec/Renumbering.lean` says which instructions are left when slots are renumbered.
Nothing there says what they compute.  Here the run of the renumbered stream is compared with the
run before: it opens and closes the same frames with the same values, so that it makes the same
writes under the new numbers, and leaves out those whose slot is dropped.

A table may give one number to several slots, leave slots out, or speak of slots that are never
written.  Which value a slot holds in the end is therefore said by the writes before: it is the last
one to any of the slots that get its number.

Main definitions:

* `movedWrites` — the writes that are left, under their new numbers;
* `Stream.Moves` — the table gives a slot a number.

Main results:

* `journal_renumbered` — **the renumbered list writes what the list wrote**, under the new numbers;
* `lastWriteTo?_movedWrites` — the last write to a number is the last one to a slot that gets it;
* `remap_moves_outputs` — **a renumbered stream is run to its end where the stream is, and each slot
  holds the last value written to a slot that gets its number**.
-/

import Armature.Proofs.Codec.Renumbering
import Armature.Proofs.Evaluate.Journal

set_option autoImplicit false

namespace Armature

variable {M : Type} {s : Setting M} {table : Array UInt32}

/-! ### One instruction -/

/-- The writes whose slots keep a number, under the new numbers. -/
def movedWrites (table : Array UInt32) (ws : List (UInt32 × M)) : List (UInt32 × M) :=
  ws.filterMap fun w => (Stream.renumber? table w.1).map fun new => (new, w.2)

theorem movedWrites_append (ws vs : List (UInt32 × M)) :
    movedWrites table (ws ++ vs) = movedWrites table ws ++ movedWrites table vs :=
  List.filterMap_append

/-- A single write is dropped, or gets the new number. -/
theorem movedWrites_singleton (slot : UInt32) (value : M) :
    movedWrites table [(slot, value)] =
      match Stream.renumber? table slot with
      | none => []
      | some new => [(new, value)] := by
  rw [movedWrites, List.filterMap_cons]
  cases Stream.renumber? table slot <;> rfl

namespace Instruction

/-- Renumbering keeps the frames that are opened and closed. -/
theorem isBracket_of_renumber? {i j : Instruction} (renumbers : i.renumber? table = some j) :
    j.isBracket = i.isBracket := by
  cases i with
  | write slot | writeStatic slot _ | writeParameter slot _ =>
      obtain ⟨new, _, rfl⟩ := Option.map_eq_some_iff.1 renumbers
      rfl
  | push | pop | static | parameter | binding | comment =>
      cases renumbers
      rfl

/-- **An instruction that keeps its slot does what it did**, and writes under the new number. -/
theorem effect?_of_renumber? {i j : Instruction} (renumbers : i.renumber? table = some j)
    {top frame : M} {written : List (UInt32 × M)}
    (effect : i.effect? s top = some (frame, written)) :
    j.effect? s top = some (frame, movedWrites table written) := by
  cases i with
  | write slot | writeStatic slot matrix =>
      obtain ⟨new, moved, rfl⟩ := Option.map_eq_some_iff.1 renumbers
      cases effect
      rw [movedWrites_singleton, moved]
      rfl
  | writeParameter slot offset =>
      obtain ⟨new, moved, rfl⟩ := Option.map_eq_some_iff.1 renumbers
      obtain ⟨value, supplied, same⟩ := Option.map_eq_some_iff.1 effect
      cases same
      rw [movedWrites_singleton, moved, effect?, supplied]
      rfl
  | parameter shape offset =>
      cases renumbers
      obtain ⟨value, _, same⟩ := Option.map_eq_some_iff.1 effect
      cases same
      exact effect
  | push | pop | static | binding | comment =>
      cases renumbers
      cases effect
      rfl

/-- An instruction that is dropped leaves the frame alone, and its writes are dropped. -/
theorem effect?_of_renumber?_eq_none {i : Instruction} (drops : i.renumber? table = none)
    {top frame : M} {written : List (UInt32 × M)}
    (effect : i.effect? s top = some (frame, written)) :
    frame = top ∧ movedWrites table written = [] := by
  cases i with
  | write slot | writeStatic slot matrix =>
      cases effect
      refine ⟨rfl, ?_⟩
      rw [movedWrites_singleton, Option.map_eq_none_iff.1 drops]
  | writeParameter slot offset =>
      obtain ⟨value, supplied, same⟩ := Option.map_eq_some_iff.1 effect
      cases same
      refine ⟨rfl, ?_⟩
      rw [movedWrites_singleton, Option.map_eq_none_iff.1 drops]
  | push | pop | static | parameter | binding | comment => cases drops

end Instruction

/-! ### Lists -/

theorem renumbered_cons_of_some {i j : Instruction} (renumbers : i.renumber? table = some j)
    (is : List Instruction) : renumbered table (i :: is) = j :: renumbered table is :=
  List.filterMap_cons_some renumbers

theorem renumbered_cons_of_none {i : Instruction} (drops : i.renumber? table = none)
    (is : List Instruction) : renumbered table (i :: is) = renumbered table is :=
  List.filterMap_cons_none drops

/-- **The renumbered list writes what the list wrote**, under the new numbers. -/
theorem journal_renumbered (table : Array UInt32) {frames : List M} {is : List Instruction}
    {ws : List (UInt32 × M)} (run : journal s frames is = some ws) :
    journal s frames (renumbered table is) = some (movedWrites table ws) := by
  -- both lists are in the same frames throughout
  induction is generalizing frames ws with
  | nil =>
      obtain ⟨top, below, rfl⟩ := ne_nil_of_journal run
      cases run
      rfl
  | cons i is ih =>
      obtain ⟨top, below, rfl⟩ := ne_nil_of_journal run
      cases i using Instruction.bracketCases with
      | push =>
          obtain ⟨room, top, current, later⟩ := journal_push_eq_some_iff.1 run
          rw [renumbered_cons_of_some rfl]
          exact journal_push_eq_some_iff.2 ⟨room, top, current, ih later⟩
      | pop count =>
          obtain ⟨opened, later⟩ := journal_pop_eq_some_iff.1 run
          rw [renumbered_cons_of_some rfl]
          exact journal_pop_eq_some_iff.2 ⟨opened, ih later⟩
      | inside i hb =>
          obtain ⟨frame, written, rest, effect, later, rfl⟩ := (journal_other_eq_some_iff hb).1 run
          rw [movedWrites_append]
          cases renumbers : i.renumber? table with
          | none =>
              obtain ⟨rfl, silent⟩ := Instruction.effect?_of_renumber?_eq_none renumbers effect
              rw [renumbered_cons_of_none renumbers, silent]
              exact ih later
          | some j =>
              rw [renumbered_cons_of_some renumbers]
              have hb' : j.isBracket = false :=
                (Instruction.isBracket_of_renumber? renumbers).trans hb
              exact (journal_other_eq_some_iff hb').2 ⟨frame, _, _,
                Instruction.effect?_of_renumber? renumbers effect, ih later, rfl⟩

/-! ### Slots -/

namespace Stream

/-- The table gives the slot `old` the number `new`.  The entry of a slot that is dropped is no
number. -/
def Moves (table : Array UInt32) (old : UInt32) (new : Nat) : Prop :=
  ∃ inside : old.toNat < table.size,
    table[old.toNat] ≠ unmapped ∧ table[old.toNat].toNat = new

instance (table : Array UInt32) (old : UInt32) (new : Nat) : Decidable (Moves table old new) :=
  inferInstanceAs (Decidable (∃ _ : _, _))

theorem renumber?_eq_some_iff {old new : UInt32} :
    renumber? table old = some new ↔
      ∃ inside : old.toNat < table.size, table[old.toNat] ≠ unmapped ∧ table[old.toNat] = new := by
  rw [renumber?]
  by_cases inside : old.toNat < table.size
  · simp only [inside, Array.getElem?_eq_getElem, exists_true_left]
    by_cases dropped : table[old.toNat] = unmapped
    · simp [dropped]
    · simp [dropped]
  · simp only [inside, Array.getElem?_eq_none_iff.2 (Nat.le_of_not_lt inside), reduceCtorEq,
      IsEmpty.exists_iff]

theorem moves_iff {old : UInt32} {new : Nat} :
    Moves table old new ↔ ∃ slot, renumber? table old = some slot ∧ slot.toNat = new := by
  constructor
  · rintro ⟨inside, kept, same⟩
    exact ⟨_, renumber?_eq_some_iff.2 ⟨inside, kept, rfl⟩, same⟩
  · rintro ⟨slot, renumbers, same⟩
    obtain ⟨inside, kept, rfl⟩ := renumber?_eq_some_iff.1 renumbers
    exact ⟨inside, kept, same⟩

/-- Where no two slots get one number, only the slot itself gets its number. -/
theorem moves_entry_iff (injective : ∀ (a b : Nat) (ha : a < table.size) (hb : b < table.size),
      table[a] ≠ unmapped → table[a] = table[b] → a = b)
    {old : Nat} (inside : old < table.size) (kept : table[old] ≠ unmapped) (slot : UInt32) :
    Moves table slot table[old].toNat ↔ slot.toNat = old := by
  constructor
  · rintro ⟨inside', kept', same⟩
    exact injective _ _ inside' inside kept' (UInt32.toNat_inj.1 same)
  · rintro rfl
    exact ⟨inside, kept, rfl⟩

end Stream

/-- **The last write to a number is the last one to a slot that gets it.** -/
theorem lastWriteTo?_movedWrites (new : Nat) (ws : List (UInt32 × M)) :
    lastWriteTo? (·.toNat = new) (movedWrites table ws) =
      lastWriteTo? (Stream.Moves table · new) ws := by
  induction ws with
  | nil => rfl
  | cons w ws ih =>
      rw [lastWriteTo?_cons, ← ih, movedWrites, List.filterMap_cons]
      cases renumbers : Stream.renumber? table w.1 with
      | none =>
          have stays : ¬ Stream.Moves table w.1 new := by
            rw [Stream.moves_iff, renumbers]
            simp
          rw [if_neg stays, Option.or_none]
          rfl
      | some slot =>
          have moves : Stream.Moves table w.1 new ↔ slot.toNat = new := by
            rw [Stream.moves_iff, renumbers]
            simp
          simp only [Option.map_some, lastWriteTo?_cons, moves]
          rfl

/-! ### Streams -/

/-- A slot that exists holds the last value written to it, or the identity. -/
theorem enter_identities_getElem? {count place : Nat} (inside : place < count) (value : M)
    (ws : List (UInt32 × M)) :
    (enter (Array.replicate count value) ws)[place]? =
      some ((lastWriteTo? (·.toNat = place) ws).getD value) := by
  rw [enter_getElem?_place, Array.getElem?_replicate, if_pos inside]
  rfl

/-- The stream of a renumbered list is run to its end where the list is, for any number of slots. -/
theorem Stream.run_renumbered (table : Array UInt32) {is : List Instruction}
    {ws : List (UInt32 × M)} (stored : ∀ i ∈ is, i.Storable)
    (run : journal s [s.interpretation.identity] is = some ws) (count : Nat) :
    (Stream.run s count (Instruction.encodeAll (renumbered table is))).result =
      .ok (enter (Array.replicate count s.interpretation.identity) (movedWrites table ws)) :=
  Stream.result_eq_ok_iff.2 ⟨_, _, Instruction.decodeAll_encodeAll (storable_renumbered stored),
    journal_renumbered table run, rfl⟩

/-- **Renumbering moves values and nothing else.**  Where a stream is run to its end, with the
writes `ws`, it is renumbered, and the renumbered stream is run to its end for any number of slots.
Each of its slots holds the last value written to a slot that gets its number, and the identity if
there is none.  So where no two slots get one number, each slot that keeps one has its value under
the new number. -/
theorem remap_moves_outputs {limit : Nat} {block : ParameterBlock} {count : Nat}
    {words : List UInt32} {outputs : Array Mat4}
    (run : (Stream.runMatrices limit block count words).result = .ok outputs)
    (table : Array UInt32) :
    ∃ is ws next, Instruction.decodeAll words = .ok is ∧
      journal ⟨.matrices, block, limit⟩ [.identity] is = some ws ∧
      ws.map Prod.fst = writtenSlots is ∧
      (Stream.remap words table).value = .ok next ∧
      ∀ count', ∃ outputs', (Stream.runMatrices limit block count' next).result = .ok outputs' ∧
        outputs'.size = count' ∧
        (∀ slot < count', outputs'[slot]? =
          some ((lastWriteTo? (Stream.Moves table · slot) ws).getD .identity)) ∧
        ((∀ (a b : Nat) (ha : a < table.size) (hb : b < table.size),
            table[a] ≠ unmapped → table[a] = table[b] → a = b) →
          table.size ≤ count →
          ∀ (old : Nat) (inside : old < table.size), table[old] ≠ unmapped →
            table[old].toNat < count' → outputs'[table[old].toNat]? = outputs[old]?) := by
  obtain ⟨is, ws, decoded, writes, rfl⟩ := Stream.result_eq_ok_iff.1 run
  have stored := Instruction.storable_of_decodeAll decoded
  refine ⟨is, ws, _, decoded, writes, map_fst_of_journal writes,
    (Stream.remap_of_decodeAll table decoded).1, fun count' => ?_⟩
  have holds : ∀ slot < count', (enter (Array.replicate count' .identity)
      (movedWrites table ws))[slot]? =
        some ((lastWriteTo? (Stream.Moves table · slot) ws).getD .identity) := by
    intro slot inside
    rw [enter_identities_getElem? inside, lastWriteTo?_movedWrites]
  refine ⟨_, Stream.run_renumbered table stored writes count', ?_, holds, ?_⟩
  · rw [size_enter, Array.size_replicate]
  · intro injective large old inside kept room
    have before : (enter (Array.replicate count .identity) ws)[old]? =
        some ((lastWriteTo? (·.toNat = old) ws).getD .identity) :=
      enter_identities_getElem? (Nat.lt_of_lt_of_le inside large) _ ws
    refine (holds _ room).trans (Eq.trans ?_ before.symm)
    rw [lastWriteTo?_congr (Stream.moves_entry_iff injective inside kept)]

/-- A frame that is reflected is written to three slots, the last of which there is not. -/
def reflectedWrites : List Instruction :=
  [.write 0, .static (.uniformScale (-.one)), .write 1, .writeStatic 2 .identity]

/-- The first slot and the last become one, and the one between goes. -/
theorem remap_moves_outputs_reflected :
    ∃ next outputs',
      (Stream.remap (Instruction.encodeAll reflectedWrites) #[1, unmapped, 1]).value = .ok next ∧
      (Stream.runMatrices maxStackDepth .empty 2 next).result = .ok outputs' ∧
      outputs'[0]? = some .identity ∧ outputs'[1]? = some (.scaling (.splat (-.one))) := by
  have run : (Stream.runMatrices maxStackDepth .empty 2
      (Instruction.encodeAll reflectedWrites)).result =
        .ok #[.identity, .scaling (.splat (-.one))] := by
    decide +kernel
  obtain ⟨is, ws, next, decoded, writes, _, remapped, runs⟩ :=
    remap_moves_outputs run #[1, unmapped, 1]
  obtain rfl : reflectedWrites = is :=
    Except.ok.inj ((Instruction.decodeAll_encodeAll (by decide +kernel)).symm.trans decoded)
  have written : journal ⟨.matrices, .empty, maxStackDepth⟩ [.identity] reflectedWrites =
      some [(0, .identity), (1, .scaling (.splat (-.one))), (2, .scaling (.splat (-.one)))] := by
    decide +kernel
  obtain rfl := Option.some.inj (written.symm.trans writes)
  obtain ⟨outputs', run', _, holds, _⟩ := runs 2
  exact ⟨next, outputs', remapped, run', (holds 0 (by decide)).trans (by decide +kernel),
    (holds 1 (by decide)).trans (by decide +kernel)⟩

end Armature
