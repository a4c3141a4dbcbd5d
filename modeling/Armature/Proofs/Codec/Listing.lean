/-
**How many rows a listing has.**

A listing is meant to have one row for each instruction, and one for each default of a binding
point.  Whatever numbers, names of operations and faults are shown, none of them holds a line feed.
The one thing in a stream that can hold one is the text of a comment, which is shown as it is, so
that each line feed in it adds a row.  The instructions that are listed are those of the longest
part of the stream that can be read, and the listing ends with a row for the fault exactly if that
is not all of it.

Main definitions:

* `Instruction.rowCount` — the rows of an instruction.

Main results:

* `Listing.length_block` — the rows of one instruction;
* `disassembly_has_rows_of_instructions` — **the rows of a listing**: the header, for each
  instruction as many as it takes, and one for the fault if there is one;
* `disassembly_of_twoRowComment` — a comment that takes two rows.
-/

import Armature.Disassembly
import Armature.Proofs.Codec.Comments
import Armature.Proofs.Evaluate.Refinement
import Armature.Proofs.Text.Lines

set_option autoImplicit false

namespace Armature

open Text

/-! ### What is shown in a row -/

namespace Decimal

@[simp] theorem oneLine_zeros (n : Nat) : OneLine (zeros n) := by
  rw [zeros, oneLine_ofList]
  exact fun mem => absurd (List.eq_of_mem_replicate mem) (by decide)

theorem oneLine_splitPoint (n : Nat) {text : String} (h : OneLine text) :
    OneLine (splitPoint n text) := by
  simp only [splitPoint, oneLine_append, oneLine_ofList]
  exact ⟨⟨fun mem => h (List.mem_of_mem_take mem), by simp⟩,
    fun mem => h (List.mem_of_mem_drop mem)⟩

theorem Digits.oneLine_positional (d : Digits) : OneLine d.positional := by
  unfold positional
  split
  · simp
  · dsimp only
    split
    · exact oneLine_splitPoint _ (oneLine_repr _)
    · simp

theorem Magnitude.oneLine_text (m : Magnitude) : OneLine m.text := by
  unfold Magnitude.text
  split
  · simp
  · exact Digits.oneLine_positional _

theorem Reading.oneLine_text {finite : Magnitude → String} (h : ∀ m, OneLine (finite m))
    (r : Reading) : OneLine (r.text finite) := by
  cases r with
  | nan => simp [Reading.text]
  | infinite negative => cases negative <;> simp [Reading.text]
  | finite negative m => cases negative <;> simp [Reading.text, h]

end Decimal

/-- No number is shown with a line feed. -/
@[simp] theorem Scalar.oneLine_text (a : Scalar) : OneLine a.text :=
  Decimal.Reading.oneLine_text Decimal.Magnitude.oneLine_text _

@[simp] theorem Vec3.oneLine_text (v : Vec3) : OneLine v.text := by
  simp [Vec3.text]

@[simp] theorem Shape.oneLine_operation (s : Shape) : OneLine s.operation := by
  cases s <;> simp [Shape.operation, Shape.name]

@[simp] theorem Opcode.oneLine_name (op : Opcode) : OneLine op.name := by
  cases op <;> simp [Opcode.name]

@[simp] theorem Mat4.oneLine_describe (m : Mat4) : OneLine m.describe := by
  unfold Mat4.describe
  split
  · simp
  · refine oneLine_intercalate (by simp) fun part mem => ?_
    simp only [List.mem_append] at mem
    obtain ((mem | mem) | mem) | mem := mem
    all_goals
      split at mem
      · cases mem
      · rw [List.mem_singleton.mp mem]
        simp

@[simp] theorem Transform.oneLine_describe (t : Transform) : OneLine t.describe := by
  cases t <;> simp [Transform.describe]

@[simp] theorem Fault.oneLine_message (fault : Fault) : OneLine fault.message := by
  cases fault <;> simp [Fault.message]

/-! ### Rows of instructions -/

/-- The rows of an instruction: one, one more for each default, and one more for each line feed in
the text of a comment. -/
def Instruction.rowCount : Instruction → Nat
  | .binding _ defaults => 1 + defaults.length
  | .comment c => 1 + c.text.count '\n'
  | _ => 1

namespace Listing

variable {names : Names} {level : Int}

@[simp] theorem oneLine_indent (level : Int) : OneLine (indent level) := by
  rw [indent, oneLine_ofList]
  exact fun mem => absurd (List.eq_of_mem_replicate mem) (by decide)

theorem oneLine_header (words : List UInt32) : OneLine (header words) := by
  simp [header]

@[simp] theorem oneLine_defaultsNote (count : Nat) : OneLine (defaultsNote count) := by
  unfold defaultsNote
  split <;> simp

/-- No name that is shown holds a line feed. -/
structure Plain (names : Names) : Prop where
  /-- The names of slots. -/
  output (slot : UInt32) : OneLine (names.output slot)
  /-- The names of binding points. -/
  binding (name : UInt64) : OneLine (names.binding name)

theorem plain_none : Plain .none := ⟨fun _ => oneLine_empty, fun _ => oneLine_empty⟩

/-- The line of the fault at which a listing ends. -/
def faultLine (level : Int) (fault : Fault) : String :=
  indent level ++ s!"<malformed stream: {fault.message}>"

theorem oneLine_faultLine (level : Int) (fault : Fault) : OneLine (faultLine level fault) := by
  simp [faultLine]

/-- The rows of an instruction at a level. -/
def block (names : Names) (level : Int) (i : Instruction) : List (List Char) :=
  (lines names level i).flatMap rowsOf

/-- Only the text of a comment can hold a line feed. -/
theorem oneLine_of_mem_lines (plain : Plain names) {i : Instruction}
    (other : ∀ c, i ≠ .comment c) {line : String} (mem : line ∈ lines names level i) :
    OneLine line := by
  cases i with
  | comment c => exact absurd rfl (other c)
  | binding name defaults =>
      obtain rfl | mem := List.mem_cons.mp mem
      · simp [plain.binding name]
      · obtain ⟨t, -, rfl⟩ := List.mem_map.mp mem
        simp
  | push | pop count | static t | parameter shape offset | write slot | writeStatic slot matrix
  | writeParameter slot offset =>
      rw [List.mem_singleton.mp mem]
      simp [plain.output]

/-- **The rows of one instruction.** -/
theorem length_block (plain : Plain names) (level : Int) (i : Instruction) :
    (block names level i).length = i.rowCount := by
  cases i with
  | comment c =>
      have front : (indent level ++ "Comment: ").toList.count '\n' = 0 :=
        List.count_eq_zero.mpr (by simp : OneLine (indent level ++ "Comment: "))
      rw [block, lines, List.flatMap_singleton, length_rowsOf, String.toList_append,
        List.count_append, front, String.toList_ofList, Nat.zero_add, Instruction.rowCount]
  | binding name defaults =>
      rw [block, length_flatMap_rowsOf fun line mem => oneLine_of_mem_lines plain (by simp) mem]
      simp [lines, Instruction.rowCount, Nat.add_comm]
  | push | pop count | static t | parameter shape offset | write slot | writeStatic slot matrix
  | writeParameter slot offset =>
      rw [block, length_flatMap_rowsOf fun line mem => oneLine_of_mem_lines plain (by simp) mem]
      rfl

/-! ### Rows of streams -/

/-- The rows of each instruction, from a level on. -/
def blocks (names : Names) (level : Int) : List Instruction → List (List (List Char))
  | [] => []
  | i :: is => block names level i :: blocks names (levelAfter level i) is

/-- The rows at the end of a listing. -/
def closing (level : Int) (is : List Instruction) : Option Fault → List (List Char)
  | none => []
  | some fault => [(faultLine (is.foldl levelAfter level) fault).toList]

/-- The lines behind the header take the rows of the instructions that can be read, and those at
the end. -/
theorem flatMap_rowsOf_linesFrom (names : Names) (length offset : Nat) (level : Int)
    (words : List UInt32) :
    (linesFrom names length offset level words).flatMap rowsOf =
      (blocks names level (Program.readablePart length offset words).1).flatten ++
        closing level (Program.readablePart length offset words).1
          (Program.readablePart length offset words).2 := by
  fun_induction linesFrom names length offset level words with
  | case1 offset level => rw [Program.readablePart]; rfl
  | case2 offset level w rest fault failed =>
      have ending : rowsOf (indent level ++ s!"<malformed stream: {fault.message}>") =
          [(faultLine level fault).toList] := rowsOf_of_oneLine (oneLine_faultLine level fault)
      rw [Program.readablePart, failed, List.flatMap_singleton, ending]
      rfl
  | case3 offset level w rest i next decoded ih =>
      rw [Program.readablePart, decoded, List.flatMap_append, ih]
      simp only [blocks, List.flatten_cons, List.append_assoc, block]
      rfl

theorem forall₂_blocks (plain : Plain names) (level : Int) (is : List Instruction) :
    List.Forall₂ (fun i rows => (∃ level, rows = block names level i) ∧ rows.length = i.rowCount)
      is (blocks names level is) := by
  induction is generalizing level with
  | nil => exact .nil
  | cons i is ih => exact .cons ⟨⟨level, rfl⟩, length_block plain level i⟩ (ih _)

/-- **The rows of a listing**, with any names: the header, the rows of the instructions that can be
read, and those at the end. -/
theorem consistsOf_disassembleWith (names : Names) (words : List UInt32) :
    ConsistsOf (disassembleWith names words)
      ((header words).toList ::
        (blocks names 1 (Program.readablePart words.length 0 words).1).flatten ++
          closing 1 (Program.readablePart words.length 0 words).1
            (Program.readablePart words.length 0 words).2) := by
  have rows := consistsOf_join (header words :: linesFrom names words.length 0 1 words)
  rwa [List.flatMap_cons, rowsOf_of_oneLine (oneLine_header words), flatMap_rowsOf_linesFrom]
    at rows

end Listing

/-- **The rows of a listing**: the header; for each instruction of the longest readable part the
rows that show it, as many as it takes; and one more, for the fault, exactly if the stream cannot
be decoded. -/
theorem disassembly_has_rows_of_instructions (words : List UInt32) :
    ∃ is blocks last, DecodablePart words is ∧
      List.Forall₂
        (fun i rows => (∃ level, rows = Listing.block .none level i) ∧ rows.length = i.rowCount)
        is blocks ∧
      ConsistsOf (disassemble words) ((Listing.header words).toList :: blocks.flatten ++ last) ∧
      match Instruction.decodeAll words with
      | .ok _ => last = []
      | .error fault => ∃ level, last = [(Listing.faultLine level fault).toList] := by
  refine ⟨_, _, _, Program.decodablePart_readablePart words,
    Listing.forall₂_blocks Listing.plain_none 1 _, Listing.consistsOf_disassembleWith .none words,
    ?_⟩
  rw [Instruction.decodeAll, Program.decodeRest_eq_readablePart]
  cases (Program.readablePart words.length 0 words).2 with
  | none => rfl
  | some fault => exact ⟨_, rfl⟩

/-- A comment whose text holds a line feed. -/
def twoRowComment : Instruction := .comment (.ofText "a\nb")

theorem text_twoRowComment : (CommentText.ofText "a\nb").text = ['a', '\n', 'b'] := by
  have chars : "a\nb".toList = ['a', '\n', 'b'] := String.toList_ofList
  rw [CommentText.text_ofText (by rw [chars]; decide), ← Utf8.length_encode_toList, chars]
  decide

/-- A listing with a row too many: one instruction without defaults is listed, but behind the header
there are two rows. -/
theorem disassembly_of_twoRowComment :
    Instruction.decodeAll (Instruction.encodeAll [twoRowComment]) = .ok [twoRowComment] ∧
      ConsistsOf (disassemble (Instruction.encodeAll [twoRowComment]))
        ["Transformation machine size: (68) bytes".toList, "  Comment: a".toList, "b".toList] ∧
      ¬ ∃ rows, ConsistsOf (disassemble (Instruction.encodeAll [twoRowComment])) rows ∧
        rows.length = 1 + 1 := by
  have decoded : Instruction.decodeAll (Instruction.encodeAll [twoRowComment]) =
      .ok [twoRowComment] :=
    Instruction.decodeAll_encodeAll fun i mem => by rw [List.mem_singleton.mp mem]; trivial
  have three := Listing.consistsOf_disassembleWith .none (Instruction.encodeAll [twoRowComment])
  rw [Program.readablePart_eq_of_decodeRest decoded] at three
  have rows : ((Listing.header (Instruction.encodeAll [twoRowComment])).toList ::
      (Listing.blocks .none 1 [twoRowComment]).flatten ++
        Listing.closing 1 [twoRowComment] none) =
      ["Transformation machine size: (68) bytes".toList, "  Comment: a".toList, "b".toList] := by
    have size : (Instruction.encodeAll [twoRowComment]).length = 17 := rfl
    have line : Listing.lines .none 1 twoRowComment = ["  Comment: a\nb"] := by
      rw [twoRowComment, Listing.lines, text_twoRowComment]
      rfl
    rw [Listing.header, size, Listing.blocks, Listing.block, line]
    rfl
  rw [rows] at three
  exact ⟨decoded, three, fun ⟨other, consists, two⟩ => by
    rw [consists.unique three] at two
    cases two⟩

end Armature
