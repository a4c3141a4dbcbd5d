/-
**What is left of the text of a comment.**

A comment has room for sixty-three bytes of text.  A text that is longer is cut at that byte, and
the cut can go through a character: then what is there of it is read back as one replacement.  So
the text that a comment shows need not be a beginning of the text it was made from; but up to that
one character it is, and it is the longest beginning for which there is room.  Storing a comment
and reading it back changes nothing.

Main definitions:

* `LongestFitting` — the longest beginning of a text with a given number of bytes.

Main results:

* `CommentText.text_ofText` — the text of a comment, computed;
* `comment_shows_longest_fitting` — **a comment shows the longest beginning of its text for which
  there is room**, followed by a replacement exactly if a character was cut;
* `comment_shows_replacement_cutComment` — a comment that does not show a beginning of its text.
-/

import Armature.Proofs.Codec.RoundTrip
import Armature.Proofs.Text.Utf8

set_option autoImplicit false

namespace Armature

open Text

/-! ### Bytes of a comment -/

namespace CommentText

/-- Bytes that leave room for a NUL, and have none among them, are found again. -/
theorem takeWhile_bytes_ofBytes {bytes : List UInt8} (plain : 0 ∉ bytes)
    (short : bytes.length < commentBytes) :
    (ofBytes bytes).bytes.takeWhile (· != 0) = bytes := by
  obtain ⟨left, total⟩ := Nat.exists_eq_add_of_lt short
  have filled : (ofBytes bytes).bytes = bytes ++ 0 :: List.replicate left 0 := by
    have room : commentBytes - bytes.length = left + 1 := by omega
    change (bytes ++ List.replicate commentBytes 0).take commentBytes = _
    rw [List.take_append, List.take_of_length_le (Nat.le_of_lt short), List.take_replicate, room,
      Nat.min_eq_left (by omega), List.replicate_succ]
  rw [filled, List.takeWhile_append_of_pos, List.takeWhile_cons_of_neg (by decide),
    List.append_nil]
  intro b mem
  exact bne_iff_ne.mpr fun zero => plain (zero ▸ mem)

/-- **The text of a comment**: as much as there is room for, and a replacement for a character that
was cut. -/
theorem text_ofText {text : String} (plain : '\x00' ∉ text.toList) :
    (ofText text).text = Utf8.fitting (commentBytes - 1) text.toList ++
      if (Utf8.encode (Utf8.fitting (commentBytes - 1) text.toList)).length <
        min (commentBytes - 1) text.utf8ByteSize then [Utf8.replacement] else [] := by
  have no_zero : 0 ∉ (Utf8.encode text.toList).take (commentBytes - 1) :=
    fun mem => Utf8.zero_not_mem_encode plain (List.mem_of_mem_take mem)
  have short : ((Utf8.encode text.toList).take (commentBytes - 1)).length < commentBytes :=
    Nat.lt_of_le_of_lt (List.length_take_le _ _) (by decide)
  rw [CommentText.text, ofText, takeWhile_bytes_ofBytes no_zero short, Utf8.decode_take_encode,
    Utf8.length_encode_toList]

end CommentText

/-! ### What a comment shows -/

/-- Of all beginnings of a text, `shown` is the longest with at most `room` bytes. -/
structure LongestFitting (room : Nat) (text shown : List Char) : Prop where
  /-- It is a beginning. -/
  begins : shown <+: text
  /-- There is room for its bytes. -/
  fits : (Utf8.encode shown).length ≤ room
  /-- Every other beginning for which there is room is a beginning of it. -/
  longest : ∀ other, other <+: text → (Utf8.encode other).length ≤ room → other <+: shown

theorem longestFitting_fitting (room : Nat) (text : List Char) :
    LongestFitting room text (Utf8.fitting room text) where
  begins := Utf8.fitting_isPrefix room text
  fits := Utf8.length_encode_fitting_le room text
  longest _ := Utf8.fitting_longest

/-- A comment is given back by decoding its words, wherever they stand. -/
theorem decodeAt_encode_comment (c : CommentText) (before after : List UInt32) :
    Instruction.decodeAt (before ++ (Instruction.encode (.comment c) ++ after)) before.length =
      .ok (.comment c, before.length + (Instruction.comment c).wordLength) := by
  rw [Instruction.decodeAt, List.drop_left]
  exact Instruction.decodeFrom_encode _ _ (i := .comment c) trivial after

/-- **A comment shows the longest beginning of its text for which there is room**, followed by one
replacement exactly if the last byte for which there is room is within a character; a text of at
most sixty-three bytes is shown whole.  The same comment is there after it was stored and read
back. -/
theorem comment_shows_longest_fitting (text : String) (plain : '\x00' ∉ text.toList) :
    (∃ shown, LongestFitting 63 text.toList shown ∧
      (CommentText.ofText text).text = shown ++
        if (Utf8.encode shown).length < min 63 text.utf8ByteSize then [Utf8.replacement] else []) ∧
    (text.utf8ByteSize ≤ 63 → (CommentText.ofText text).text = text.toList) ∧
    ∀ before after : List UInt32,
      Instruction.decodeAt (before ++ (Instruction.encode (.comment (.ofText text)) ++ after))
        before.length =
        .ok (.comment (.ofText text),
          before.length + (Instruction.comment (.ofText text)).wordLength) := by
  refine ⟨⟨_, longestFitting_fitting 63 text.toList, CommentText.text_ofText plain⟩, ?_,
    decodeAt_encode_comment _⟩
  intro small
  have whole : Utf8.fitting (commentBytes - 1) text.toList = text.toList :=
    Utf8.fitting_of_le (by rwa [Utf8.length_encode_toList])
  rw [CommentText.text_ofText plain, whole, Utf8.length_encode_toList,
    if_neg (Nat.not_lt.mpr (Nat.min_le_right _ _)), List.append_nil]

/-- A text of sixty-two letters and one character of two bytes. -/
def cutComment : String := String.ofList (List.replicate 62 'x' ++ ['é'])

theorem toList_cutComment : cutComment.toList = List.replicate 62 'x' ++ ['é'] :=
  String.toList_ofList

theorem plain_cutComment : '\x00' ∉ cutComment.toList := by
  rw [toList_cutComment]
  decide

/-- The text is shown without its last character. -/
theorem comment_shows_longest_fitting_cutComment :
    '\x00' ∉ cutComment.toList ∧
      ∃ shown, LongestFitting 63 cutComment.toList shown ∧
        (CommentText.ofText cutComment).text = shown ++
          if (Utf8.encode shown).length < min 63 cutComment.utf8ByteSize then [Utf8.replacement]
          else [] :=
  ⟨plain_cutComment, (comment_shows_longest_fitting cutComment plain_cutComment).1⟩

/-- A comment that does not show a beginning of its text: the sixty-third byte is the first of the
two bytes of the last character, and what is shown ends in a replacement. -/
theorem comment_shows_replacement_cutComment :
    '\x00' ∉ cutComment.toList ∧
      (CommentText.ofText cutComment).text = List.replicate 62 'x' ++ [Utf8.replacement] ∧
      ¬ (CommentText.ofText cutComment).text <+: cutComment.toList := by
  have shown : (CommentText.ofText cutComment).text =
      List.replicate 62 'x' ++ [Utf8.replacement] := by
    rw [CommentText.text_ofText plain_cutComment, ← Utf8.length_encode_toList, toList_cutComment]
    decide
  refine ⟨plain_cutComment, shown, ?_⟩
  rw [shown, toList_cutComment]
  decide

end Armature
