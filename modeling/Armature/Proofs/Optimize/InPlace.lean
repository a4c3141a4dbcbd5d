/-
**Edits in place.**

`Optimize/Edits` carries out all edits together, so that no edit moves the place of another.  The
other way is to edit the list itself, one position after another.  An insertion or a removal then
moves everything behind it, which does no harm as long as the positions that are still to be edited
lie in front: so the positions are taken from the last one down.  At a position, too, one edit moves
the place of the next one, and a `Region` keeps account of it.  Of the edits at a position only the
last one that replaces or removes the item is performed, and it is performed first.

The third way is to go through the edits once and to enter each of them in a table with an entry for
every item, from which the list is written in the end.

Main definitions:

* `Edit.Kind`, `Edit.kind` — where the items of an edit go;
* `Edits.Entry`, `Edits.table`, `Edits.inOnePass` — the table of the edits, and the list written
  from it;
* `splice`, `Edits.Region` — the one change that is made to a list, and the place of an item in a
  list that is being changed;
* `Edits.commands`, `Edits.editIn`, `Edits.inPlace` — what is performed at a position, and the list
  edited in place;
* `Edits.Reordered` — the same edits in another order of recording.

Main results:

* `Edits.apply_eq_inOnePass` — going through the edits once makes the list that the edits make
  together;
* `Edits.Region.perform_around` — **an edit in place does to the list what it does to the entry of
  its item**;
* `Edits.foldl_editIn` — **from the last position down, what lies behind is done and stays**;
* `Edits.apply_of_reordered` — edits at different positions or of different kinds may be recorded in
  any order;
* `Edits.apply_eq_inPlace` — **edits carried out together and edits in place make the same list**,
  and only edits of one kind at one position depend on the order of recording.
-/

import Armature.Instruction.Basic
import Armature.Optimize.Edits
import Mathlib.Data.List.Induction

set_option autoImplicit false

namespace Armature

variable {α : Type}

/-! ### Kinds of edits -/

namespace Edit

/-- Where the items of an edit go. -/
inductive Kind where
  /-- In front of the item. -/
  | inFront
  /-- In its place. -/
  | inPlace
  /-- Behind it. -/
  | behind
  deriving DecidableEq

/-- Where the items of the edit go. -/
def kind : Edit α → Kind
  | replace _ => .inPlace
  | before _ => .inFront
  | after _ => .behind

/-- What edits contribute that come from those of one kind alone. -/
theorem flatMap_filter_kind {f : Edit α → List α} {kind : Kind}
    (only : ∀ e, e.kind ≠ kind → f e = []) (es : List (Edit α)) :
    (es.filter (·.kind = kind)).flatMap f = es.flatMap f := by
  induction es with
  | nil => rfl
  | cons e es ih =>
      by_cases same : e.kind = kind
      · simp [same, ih]
      · simp [same, ih, only e same]

theorem flatMap_inFront (es : List (Edit α)) :
    (es.filter (·.kind = .inFront)).flatMap inFront = es.flatMap inFront := by
  refine flatMap_filter_kind (fun e other => ?_) es
  cases e with
  | before _ => exact absurd rfl other
  | _ => rfl

theorem flatMap_behind (es : List (Edit α)) :
    (es.filter (·.kind = .behind)).flatMap behind = es.flatMap behind := by
  refine flatMap_filter_kind (fun e other => ?_) es
  cases e with
  | after _ => exact absurd rfl other
  | _ => rfl

/-- The last of the replacements is that of the last edit that replaces. -/
theorem getLast?_filterMap_inPlace? (es : List (Edit α)) :
    (es.filterMap inPlace?).getLast? =
      (es.filter (·.kind = .inPlace)).getLast?.bind inPlace? := by
  induction es using List.reverseRecOn with
  | nil => rfl
  | append_singleton es e ih => cases e <;> simp [kind, inPlace?, ih]

end Edit

/-! ### Changes of a list -/

/-- From `start` on, `size` items of a list give way to others. -/
def splice (list : List α) (start size : Nat) (items : List α) : List α :=
  list.take start ++ items ++ list.drop (start + size)

theorem splice_append (front old rest items : List α) :
    splice (front ++ old ++ rest) front.length old.length items = front ++ items ++ rest := by
  have size : front.length + old.length = (front ++ old).length := by simp
  rw [splice, size, List.drop_left, List.append_assoc front old rest, List.take_left]

namespace Edits

variable {edits edits' : Edits α} {es es' : List (Edit α)}

/-- What becomes of an item depends on the insertions in front, on the insertions behind, each in
their order, and on the last replacement. -/
theorem applyTo_congr (inFront : es.filter (·.kind = .inFront) = es'.filter (·.kind = .inFront))
    (last : (es.filter (·.kind = .inPlace)).getLast? = (es'.filter (·.kind = .inPlace)).getLast?)
    (behind : es.filter (·.kind = .behind) = es'.filter (·.kind = .behind)) (item : α) :
    applyTo es item = applyTo es' item := by
  rw [applyTo, applyTo, ← Edit.flatMap_inFront es, ← Edit.flatMap_behind es, inFront, behind,
    Edit.getLast?_filterMap_inPlace? es, last, Edit.flatMap_inFront, Edit.flatMap_behind,
    ← Edit.getLast?_filterMap_inPlace?]

theorem applyTo_nil (item : α) : applyTo [] item = [item] := rfl

theorem apply_append_singleton (edits : Edits α) (items : List α) (item : α) :
    edits.apply (items ++ [item]) =
      edits.apply items ++ applyTo (edits.here items.length) item := by
  simp [apply, List.zipIdx_append]

/-! ### The table of the edits -/

/-- What the edits at one position come to. -/
structure Entry (α : Type) where
  /-- What is inserted in front of the item. -/
  before : List α
  /-- What takes its place, unless it stays. -/
  body : Option (List α)
  /-- What is inserted behind it. -/
  after : List α

namespace Entry

/-- No edit is recorded. -/
def empty : Entry α := ⟨[], none, []⟩

/-- One edit more. -/
def record (entry : Entry α) : Edit α → Entry α
  | .replace items => { entry with body := some items }
  | .before items => { entry with before := entry.before ++ items }
  | .after items => { entry with after := entry.after ++ items }

/-- What is in the place of the item. -/
def inPlaceOf (entry : Entry α) (item : α) : List α := entry.body.getD [item]

/-- What becomes of the item. -/
def around (entry : Entry α) (item : α) : List α :=
  entry.before ++ entry.inPlaceOf item ++ entry.after

/-- Edits are recorded by their kinds. -/
theorem foldl_record (es : List (Edit α)) (entry : Entry α) :
    es.foldl record entry =
      ⟨entry.before ++ es.flatMap Edit.inFront,
        (es.filterMap Edit.inPlace?).getLast?.or entry.body,
        entry.after ++ es.flatMap Edit.behind⟩ := by
  induction es using List.reverseRecOn with
  | nil => simp
  | append_singleton es e ih =>
      rw [List.foldl_append, ih]
      cases e <;> simp [record, Edit.inFront, Edit.behind, Edit.inPlace?]

theorem around_foldl_record (es : List (Edit α)) (item : α) :
    (es.foldl record empty).around item = applyTo es item := by
  rw [foldl_record]
  simp [around, inPlaceOf, applyTo, empty]

end Entry

/-- Enter an edit in a table.  A position outside the table is ignored. -/
def enter (table : List (Entry α)) (e : Nat × Edit α) : List (Entry α) :=
  table.modify e.1 (·.record e.2)

/-- The table of the edits for a list of the given length. -/
def table (edits : Edits α) (size : Nat) : List (Entry α) :=
  edits.foldl enter (List.replicate size .empty)

/-- Go through the edits once, then write the list from their table. -/
def inOnePass (edits : Edits α) (items : List α) : List α :=
  (items.zip (edits.table items.length)).flatMap fun (item, entry) => entry.around item

/-- The edits at a position are entered there, one after another. -/
theorem getElem?_foldl_enter (edits : Edits α) (table : List (Entry α)) (k : Nat) :
    (edits.foldl enter table)[k]? = table[k]?.map fun entry =>
      (edits.here k).foldl Entry.record entry := by
  induction edits generalizing table with
  | nil => simp
  | cons e edits ih =>
      rw [List.foldl_cons, ih, enter, List.getElem?_modify, here_cons]
      by_cases same : e.1 = k
      · simp [same, Function.comp_def]
      · simp [same]

theorem table_eq (edits : Edits α) (size : Nat) :
    edits.table size =
      (List.range size).map fun k => (edits.here k).foldl Entry.record .empty := by
  refine List.ext_getElem? fun k => ?_
  rw [table, getElem?_foldl_enter, List.getElem?_map, List.getElem?_replicate]
  by_cases inside : k < size
  · simp [inside]
  · simp [inside]

/-- **Going through the edits once** makes the list that the edits make together. -/
theorem apply_eq_inOnePass (edits : Edits α) (items : List α) :
    edits.apply items = edits.inOnePass items := by
  rw [apply, inOnePass, table_eq, List.zip_map_right, List.flatMap_map, List.zipIdx_eq_zip_range',
    List.range_eq_range']
  simp only [Prod.map, id, Entry.around_foldl_record]

/-! ### Editing in place -/

/-- The place of an item in a list that is being edited. -/
structure Region (α : Type) where
  /-- The list as it is. -/
  list : List α
  /-- Where the item begins, or what it has given way to. -/
  start : Nat
  /-- Of how many items that consists. -/
  size : Nat
  /-- How many items have been inserted behind. -/
  behind : Nat

namespace Region

/-- The place of the item at a position of a list. -/
def ofPosition (list : List α) (position : Nat) : Region α := ⟨list, position, 1, 0⟩

/-- Edit the list at the item.  Insertions in front go next to it, insertions behind go behind the
earlier ones. -/
def perform (region : Region α) : Edit α → Region α
  | .replace items =>
    { region with
      list := splice region.list region.start region.size items
      size := items.length }
  | .before items =>
    { region with
      list := splice region.list region.start 0 items
      start := region.start + items.length }
  | .after items =>
    { region with
      list := splice region.list (region.start + region.size + region.behind) 0 items
      behind := region.behind + items.length }

/-- The place of an item for which its entry has been written. -/
def around (front : List α) (entry : Entry α) (item : α) (rest : List α) : Region α :=
  ⟨front ++ entry.around item ++ rest, front.length + entry.before.length,
    (entry.inPlaceOf item).length, entry.after.length⟩

theorem ofPosition_eq_around (front : List α) (item : α) (rest : List α) :
    ofPosition (front ++ item :: rest) front.length = around front .empty item rest := by
  simp [ofPosition, around, Entry.around, Entry.inPlaceOf, Entry.empty]

/-- **An edit in place does to the list what it does to the entry of its item.** -/
theorem perform_around (front : List α) (entry : Entry α) (item : α) (rest : List α)
    (e : Edit α) :
    (around front entry item rest).perform e = around front (entry.record e) item rest := by
  obtain ⟨before, body, after⟩ := entry
  cases e with
  | replace items =>
      have spliced := splice_append (front ++ before) (body.getD [item]) (after ++ rest) items
      simpa [perform, around, Entry.around, Entry.record, Entry.inPlaceOf] using spliced
  | before items =>
      have spliced := splice_append (front ++ before) [] (body.getD [item] ++ after ++ rest) items
      simpa [perform, around, Entry.around, Entry.record, Entry.inPlaceOf, Nat.add_assoc]
        using spliced
  | after items =>
      have spliced := splice_append (front ++ before ++ body.getD [item] ++ after) [] rest items
      simpa [perform, around, Entry.around, Entry.record, Entry.inPlaceOf, Nat.add_assoc]
        using spliced

theorem foldl_perform_around (front : List α) (entry : Entry α) (item : α) (rest : List α)
    (es : List (Edit α)) :
    es.foldl perform (around front entry item rest) =
      around front (es.foldl Entry.record entry) item rest := by
  induction es generalizing entry with
  | nil => rfl
  | cons e es ih => rw [List.foldl_cons, perform_around, ih, List.foldl_cons]

end Region

/-- What is performed at a position: the last replacement or removal, then the insertions in the
order of recording. -/
def commands (es : List (Edit α)) : List (Edit α) :=
  (es.filter (·.kind = .inPlace)).getLast?.toList ++ es.filter (·.kind ≠ .inPlace)

/-- Edit a list in place at a position. -/
def editIn (edits : Edits α) (list : List α) (position : Nat) : List α :=
  ((commands (edits.here position)).foldl Region.perform (.ofPosition list position)).list

/-- The positions of a list of the given length at which edits are recorded, from the last one
down. -/
def positions (edits : Edits α) (size : Nat) : List Nat :=
  (List.range size).reverse.filter (· ∈ edits.map Prod.fst)

/-- Edit a list in place, from the last position down. -/
def inPlace (edits : Edits α) (items : List α) : List α :=
  (edits.positions items.length).foldl edits.editIn items

theorem kind_of_mem_last {e : Edit α}
    (last : e ∈ (es.filter (·.kind = .inPlace)).getLast?.toList) : e.kind = .inPlace :=
  of_decide_eq_true (List.mem_filter.1 (List.mem_of_getLast? (Option.mem_toList.1 last))).2

/-- What becomes of an item does not depend on the replacements that are not performed, nor on when
the last one is. -/
theorem applyTo_commands (es : List (Edit α)) (item : α) :
    applyTo (commands es) item = applyTo es item := by
  have inserted (kind : Edit.Kind) (apart : kind ≠ .inPlace) :
      (commands es).filter (·.kind = kind) = es.filter (·.kind = kind) := by
    rw [commands, List.filter_append, List.filter_eq_nil_iff.2, List.nil_append, List.filter_filter]
    · refine List.filter_congr fun e _ => ?_
      by_cases same : e.kind = kind <;> simp [same, apart]
    · intro e last
      simp [kind_of_mem_last last, apart.symm]
  have replaced : (commands es).filter (·.kind = .inPlace) =
      (es.filter (·.kind = .inPlace)).getLast?.toList := by
    rw [commands, List.filter_append, List.filter_eq_self.2, List.filter_filter]
    · simp
    · intro e last
      simp [kind_of_mem_last last]
  refine applyTo_congr (inserted _ nofun) ?_ (inserted _ nofun) item
  rw [replaced]
  cases (es.filter (·.kind = .inPlace)).getLast? <;> rfl

/-- Editing in place at a position leaves what is in front and what is behind. -/
theorem editIn_append (edits : Edits α) (front : List α) (item : α) (rest : List α) :
    edits.editIn (front ++ item :: rest) front.length =
      front ++ applyTo (edits.here front.length) item ++ rest := by
  rw [editIn, Region.ofPosition_eq_around, Region.foldl_perform_around, Region.around,
    Entry.around_foldl_record, applyTo_commands]

theorem positions_succ (edits : Edits α) (size : Nat) :
    edits.positions (size + 1) =
      if size ∈ edits.map Prod.fst then size :: edits.positions size else edits.positions size := by
  rw [positions, List.range_succ, List.reverse_append, List.reverse_singleton,
    List.singleton_append, List.filter_cons]
  simp only [decide_eq_true_eq, positions]

/-- **From the last position down, what lies behind is done and stays.** -/
theorem foldl_editIn (edits : Edits α) (front rest : List α) :
    (edits.positions front.length).foldl edits.editIn (front ++ rest) =
      edits.apply front ++ rest := by
  -- the last item in front is the next one to be edited
  induction front using List.reverseRecOn generalizing rest with
  | nil => rfl
  | append_singleton front item ih =>
      rw [List.length_append, List.length_singleton, positions_succ, apply_append_singleton,
        List.append_assoc, List.append_assoc, List.singleton_append]
      split
      · rw [List.foldl_cons, editIn_append, List.append_assoc, ih]
      · rename_i unrecorded
        have none : edits.here front.length = [] :=
          here_eq_nil fun e he same => unrecorded (same ▸ List.mem_map_of_mem he)
        rw [none, applyTo_nil, ih, List.singleton_append]

/-! ### The order of recording -/

/-- The edits are recorded in another order: at every position, those of each kind are the same in
the same order. -/
def Reordered (edits edits' : Edits α) : Prop :=
  ∀ (position : Nat) (kind : Edit.Kind),
    edits.filter (fun e => e.1 = position ∧ e.2.kind = kind) =
      edits'.filter fun e => e.1 = position ∧ e.2.kind = kind

namespace Reordered

theorem trans {edits'' : Edits α} (first : Reordered edits edits')
    (second : Reordered edits' edits'') : Reordered edits edits'' :=
  fun position kind => (first position kind).trans (second position kind)

/-- Edits at different positions or of different kinds may change places. -/
theorem exchange {a b : Nat × Edit α} (apart : a.1 ≠ b.1 ∨ a.2.kind ≠ b.2.kind)
    (front rest : Edits α) : Reordered (front ++ a :: b :: rest) (front ++ b :: a :: rest) := by
  intro position kind
  -- no more than one of the two is at the position and of the kind
  have one : ¬(a.1 = position ∧ a.2.kind = kind) ∨ ¬(b.1 = position ∧ b.2.kind = kind) := by
    refine not_and_or.1 fun ⟨⟨hereA, kindA⟩, hereB, kindB⟩ => ?_
    rcases apart with apart | apart
    · exact apart (hereA.trans hereB.symm)
    · exact apart (kindA.trans kindB.symm)
  rw [List.filter_append, List.filter_append]
  rcases one with other | other <;> simp [List.filter_cons, other]

theorem filter_here (edits : Edits α) (position : Nat) (kind : Edit.Kind) :
    (edits.here position).filter (·.kind = kind) =
      (edits.filter fun e => e.1 = position ∧ e.2.kind = kind).map Prod.snd := by
  induction edits with
  | nil => rfl
  | cons e edits ih =>
      rw [here_cons, List.filter_cons]
      by_cases same : e.1 = position
      · by_cases alike : e.2.kind = kind <;> simp [same, alike, ih]
      · simp [same, ih]

end Reordered

/-- **Edits at different positions or of different kinds may be recorded in any order.** -/
theorem apply_of_reordered (same : Reordered edits edits') (items : List α) :
    edits'.apply items = edits.apply items := by
  have kinds (position : Nat) (kind : Edit.Kind) :
      (edits'.here position).filter (·.kind = kind) =
        (edits.here position).filter (·.kind = kind) := by
    rw [Reordered.filter_here, Reordered.filter_here, same]
  rw [apply, apply]
  congr 1
  funext ⟨item, position⟩
  exact applyTo_congr (kinds ..) (congrArg List.getLast? (kinds ..)) (kinds ..) item

/-- **Edits carried out together and edits in place make the same list.**  It is also the list that
is made by going through the edits once, and the order of recording matters only among edits of one
kind at one position. -/
theorem apply_eq_inPlace (edits : Edits α) (items : List α) :
    edits.apply items = edits.inOnePass items ∧
      edits.apply items = edits.inPlace items ∧
      ∀ edits', Reordered edits edits' → edits'.apply items = edits.apply items := by
  refine ⟨apply_eq_inOnePass edits items, ?_, fun edits' same => apply_of_reordered same items⟩
  have whole := foldl_editIn edits items []
  rw [List.append_nil, List.append_nil] at whole
  exact whole.symm

/-- Edits of every kind at one position, among them a replacement and a removal that do not count,
one at the first position and one behind the last. -/
def crowdedEdits : Edits Instruction :=
  [(2, .after [.pop 1]), remove 1, (2, .replace [.push]), (9, .before [.push]),
    (2, .before [.push]), (1, .replace [.static (.rotateX .one), .write 5]), remove 2,
    (2, .before [.static (.translate .zero)]), (2, .after [.write 6]), (2, .replace [.write 7]),
    (0, .after [.push, .pop 1])]

/-- Two pairs of neighbours change places: edits at different positions, and an insertion and a
replacement at the same one. -/
theorem apply_eq_inPlace_crowdedEdits :
    let items : List Instruction := [.push, .write 0, .write 1, .pop 1]
    let late : Edits Instruction :=
      [remove 1, (2, .after [.pop 1]), (2, .replace [.push]), (9, .before [.push]),
        (2, .before [.push]), (1, .replace [.static (.rotateX .one), .write 5]), remove 2,
        (2, .before [.static (.translate .zero)]), (2, .replace [.write 7]), (2, .after [.write 6]),
        (0, .after [.push, .pop 1])]
    let edited : List Instruction :=
      [.push, .push, .pop 1, .static (.rotateX .one), .write 5, .push, .static (.translate .zero),
        .write 7, .pop 1, .write 6, .pop 1]
    Reordered crowdedEdits late ∧ crowdedEdits.inOnePass items = edited ∧
      crowdedEdits.inPlace items = edited ∧ late.apply items = edited := by
  intro items late edited
  obtain ⟨once, inPlace, anyOrder⟩ := apply_eq_inPlace crowdedEdits items
  have made : crowdedEdits.apply items = edited := by decide +kernel
  have reordered : Reordered crowdedEdits late :=
    (Reordered.exchange (by decide) [] _).trans
      (Reordered.exchange (by decide) (late.take 8) [(0, .after [.push, .pop 1])])
  exact ⟨reordered, once.symm.trans made, inPlace.symm.trans made,
    (anyOrder late reordered).trans made⟩

end Edits

end Armature
