/-
**Texts that consist of rows.**

A text consists of rows if it is all of them one after the other, each ended by a line feed, and no
row holds a line feed of its own.  Then it determines its rows.  Texts without a line feed, one
under the other, are the rows of what they make up; a text that does hold line feeds adds a row for
each of them.

Main definitions:

* `OneLine` — a text without a line feed;
* `ConsistsOf` — a text consists of rows;
* `rowsOf` — the rows that a text takes, put into a line.

Main results:

* `ConsistsOf.unique` — a text determines its rows;
* `length_rowsOf` — **a text takes one row, and one more for each of its line feeds**;
* `consistsOf_join` — lines one under the other consist of the rows of each.
-/

import Armature.Text.Quoted
import Mathlib.Data.List.Basic

set_option autoImplicit false

namespace Armature.Text

variable {a b s text : String} {rows other : List (List Char)} {chars : List Char}

/-! ### Texts without a line feed -/

/-- The text holds no line feed. -/
def OneLine (s : String) : Prop := '\n' ∉ s.toList

@[simp] theorem oneLine_append : OneLine (a ++ b) ↔ OneLine a ∧ OneLine b := by
  simp only [OneLine, String.toList_append, List.mem_append, not_or]

@[simp] theorem oneLine_ofList : OneLine (String.ofList chars) ↔ '\n' ∉ chars := by
  rw [OneLine, String.toList_ofList]

theorem oneLine_empty : OneLine "" := List.not_mem_nil

/-- A text that is written out: its characters are looked through without its bytes. -/
@[simp] theorem oneLine_literal (plain : chars.all (· != '\n') = true) :
    OneLine (no_index (String.ofList chars)) :=
  oneLine_ofList.mpr fun mem => bne_iff_ne.mp (List.all_eq_true.mp plain _ mem) rfl

@[simp] theorem oneLine_toString : OneLine (toString s) ↔ OneLine s := Iff.rfl

@[simp] theorem oneLine_join {parts : List String} :
    OneLine (String.join parts) ↔ ∀ s ∈ parts, OneLine s := by
  simp only [OneLine, String.toList_join, List.mem_flatMap, not_exists, not_and]

theorem oneLine_intercalate {parts : List String} (separator : OneLine s)
    (each : ∀ part ∈ parts, OneLine part) : OneLine (s.intercalate parts) := by
  induction parts with
  | nil => exact List.not_mem_nil
  | cons part parts ih =>
      have first := each part List.mem_cons_self
      have others := ih fun p mem => each p (List.mem_cons_of_mem part mem)
      by_cases last : parts = []
      · rwa [last, String.intercalate_singleton]
      · rw [String.intercalate_cons_of_ne_nil last, oneLine_append, oneLine_append]
        exact ⟨⟨first, separator⟩, others⟩

/-- No digit is a line feed. -/
theorem lineFeed_not_mem_toDigits {base : Nat} (large : 1 < base) (n : Nat) :
    '\n' ∉ Nat.toDigits base n := by
  induction n using Nat.strongRecOn with
  | ind n ih =>
      have no_digit (d : Nat) : '\n' ≠ d.digitChar := (Nat.digitChar_ne '\n' rfl).symm
      rw [Nat.toDigits_eq_if large]
      split
      case isTrue => exact fun mem => no_digit n (List.mem_singleton.mp mem)
      case isFalse digits =>
        rw [List.mem_append, not_or]
        exact ⟨ih _ (Nat.div_lt_self (by omega) large),
          fun mem => no_digit _ (List.mem_singleton.mp mem)⟩

@[simp] theorem oneLine_repr (n : Nat) : OneLine n.repr := by
  rw [OneLine, Nat.toList_repr]
  exact lineFeed_not_mem_toDigits (by decide) n

@[simp] theorem oneLine_toString_uint32 (n : UInt32) : OneLine (toString n) := oneLine_repr n.toNat

@[simp] theorem oneLine_hex (n : Nat) : OneLine (hex n) :=
  oneLine_ofList.mpr (lineFeed_not_mem_toDigits (by decide) n)

@[simp] theorem oneLine_paddedHex (width n : Nat) : OneLine (paddedHex width n) := by
  rw [paddedHex, oneLine_ofList, List.mem_append, not_or]
  exact ⟨fun mem => absurd (List.eq_of_mem_replicate mem) (by decide),
    lineFeed_not_mem_toDigits (by decide) n⟩

/-! ### Rows -/

/-- The text is all the rows one after the other, each ended by a line feed, and no row holds
one. -/
structure ConsistsOf (text : String) (rows : List (List Char)) : Prop where
  /-- The characters of the text. -/
  toList_eq : text.toList = rows.flatMap (· ++ ['\n'])
  /-- A row ends at the first line feed. -/
  whole : ∀ row ∈ rows, '\n' ∉ row

theorem splitOn_flatMap (whole : ∀ row ∈ rows, '\n' ∉ row) :
    (rows.flatMap (· ++ ['\n'])).splitOn '\n' = rows ++ [[]] := by
  induction rows with
  | nil => rfl
  | cons row rows ih =>
      rw [List.flatMap_cons, List.append_assoc, List.singleton_append,
        List.splitOn_append_cons_self_of_not_mem (whole row List.mem_cons_self),
        ih fun r mem => whole r (List.mem_cons_of_mem row mem), List.cons_append]

/-- A text determines its rows. -/
theorem ConsistsOf.unique (h : ConsistsOf text rows) (h' : ConsistsOf text other) :
    rows = other := by
  have split : rows ++ [[]] = other ++ [[]] := by
    rw [← splitOn_flatMap h.whole, ← splitOn_flatMap h'.whole, ← h.toList_eq, ← h'.toList_eq]
  exact List.append_cancel_right split

/-- The rows that a text takes: it goes on in a new row after each line feed. -/
def rowsOf (s : String) : List (List Char) := s.toList.splitOn '\n'

theorem rowsOf_of_oneLine (h : OneLine s) : rowsOf s = [s.toList] :=
  List.splitOn_eq_singleton h

/-- A character that is no line feed comes to the front of the first row. -/
theorem splitOn_cons_of_ne {c : Char} (other : c ≠ '\n') (chars : List Char) :
    ∃ row rows, chars.splitOn '\n' = row :: rows ∧
      (c :: chars).splitOn '\n' = (c :: row) :: rows := by
  obtain ⟨row, rows, split⟩ := List.exists_cons_of_ne_nil (List.splitOn_ne_nil '\n' chars)
  refine ⟨row, rows, split, ?_⟩
  rw [List.splitOn_cons_eq_if_modifyHead, if_neg (by simpa using other), split,
    List.modifyHead_cons]

/-- A line feed ends a row. -/
theorem splitOn_lineFeed_cons (chars : List Char) :
    ('\n' :: chars).splitOn '\n' = [] :: chars.splitOn '\n' := by
  rw [List.splitOn_cons_eq_if_modifyHead, if_pos (by decide)]

theorem length_splitOn (chars : List Char) :
    (chars.splitOn '\n').length = 1 + chars.count '\n' := by
  induction chars with
  | nil => rfl
  | cons c chars ih =>
      by_cases feed : c = '\n'
      · rw [feed, splitOn_lineFeed_cons, List.length_cons, ih, List.count_cons_self, Nat.add_assoc]
      · obtain ⟨row, rows, split, split_cons⟩ := splitOn_cons_of_ne feed chars
        rw [split_cons, List.count_cons_of_ne feed, ← ih, split, List.length_cons, List.length_cons]

theorem lineFeed_not_mem_of_mem_splitOn {row : List Char} (mem : row ∈ chars.splitOn '\n') :
    '\n' ∉ row := by
  induction chars generalizing row with
  | nil => rw [List.mem_singleton.mp mem]; exact List.not_mem_nil
  | cons c chars ih =>
      by_cases feed : c = '\n'
      · rw [feed, splitOn_lineFeed_cons] at mem
        obtain rfl | mem := List.mem_cons.mp mem
        · exact List.not_mem_nil
        · exact ih mem
      · obtain ⟨first, rows, split, split_cons⟩ := splitOn_cons_of_ne feed chars
        rw [split_cons] at mem
        rw [split] at ih
        obtain rfl | mem := List.mem_cons.mp mem
        · exact List.not_mem_cons_of_ne_of_not_mem (Ne.symm feed) (ih List.mem_cons_self)
        · exact ih (List.mem_cons_of_mem first mem)

theorem flatMap_splitOn (chars : List Char) :
    (chars.splitOn '\n').flatMap (· ++ ['\n']) = chars ++ ['\n'] := by
  induction chars with
  | nil => rfl
  | cons c chars ih =>
      by_cases feed : c = '\n'
      · rw [feed, splitOn_lineFeed_cons, List.flatMap_cons, ih]
        rfl
      · obtain ⟨row, rows, split, split_cons⟩ := splitOn_cons_of_ne feed chars
        rw [split] at ih
        rw [split_cons, List.cons_append, ← ih]
        rfl

/-- **A text takes one row, and one more for each of its line feeds.** -/
theorem length_rowsOf (s : String) : (rowsOf s).length = 1 + s.toList.count '\n' :=
  length_splitOn s.toList

theorem length_flatMap_rowsOf {lines : List String} (each : ∀ line ∈ lines, OneLine line) :
    (lines.flatMap rowsOf).length = lines.length := by
  induction lines with
  | nil => rfl
  | cons line lines ih =>
      rw [List.flatMap_cons, rowsOf_of_oneLine (each line List.mem_cons_self), List.length_append,
        ih fun l mem => each l (List.mem_cons_of_mem line mem), List.length_singleton,
        List.length_cons, Nat.add_comm]

/-- Lines one under the other consist of the rows of each. -/
theorem consistsOf_join (lines : List String) :
    ConsistsOf (String.join (lines.map (· ++ "\n"))) (lines.flatMap rowsOf) where
  toList_eq := by
    rw [String.toList_join, List.flatMap_map, List.flatMap_assoc]
    simp only [rowsOf, flatMap_splitOn, String.toList_append]
    rfl
  whole row mem := by
    obtain ⟨line, -, mem⟩ := List.mem_flatMap.mp mem
    exact lineFeed_not_mem_of_mem_splitOn mem

end Armature.Text
