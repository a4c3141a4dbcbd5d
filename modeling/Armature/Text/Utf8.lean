/-
**Reading UTF-8 that may be damaged.**

Bytes are read as characters from left to right.  Where they are no UTF-8, the longest beginning of
a character that is still possible is replaced by one `U+FFFD`, and reading goes on after it; a
byte that begins no character is replaced on its own.

Main definitions:

* `Utf8.encode` — the bytes of a text;
* `Utf8.readChar` — one character off the front, and how many bytes after the first it takes;
* `Utf8.decode` — all characters.
-/

set_option autoImplicit false

namespace Armature.Text.Utf8

/-- The bytes of a text. -/
def encode (text : List Char) : List UInt8 := text.flatMap String.utf8EncodeChar

/-- The character that stands for damaged bytes. -/
def replacement : Char := '\ufffd'

/-- What the first byte of a character of several bytes announces. -/
structure Lead where
  /-- The number of bytes that follow. -/
  following : Nat
  /-- The least second byte. -/
  low : UInt8
  /-- The greatest second byte. -/
  high : UInt8
  /-- The leading bits of the code point. -/
  bits : Nat

/-- The announcement of a byte, if it begins a character of several bytes.  The bounds on the second
byte leave out long forms, surrogates and numbers past the last code point. -/
def lead? (b : UInt8) : Option Lead :=
  if b < 0xc2 then none
  else if b < 0xe0 then some ⟨1, 0x80, 0xbf, b.toNat % 32⟩
  else if b < 0xf0 then
    some ⟨2, if b = 0xe0 then 0xa0 else 0x80, if b = 0xed then 0x9f else 0xbf, b.toNat % 16⟩
  else if b < 0xf5 then
    some ⟨3, if b = 0xf0 then 0x90 else 0x80, if b = 0xf4 then 0x8f else 0xbf, b.toNat % 8⟩
  else none

/-- Read `n` further bytes, the first of them between `low` and `high`.  The result is the number
of bytes that fit, with the code point if all of them do. -/
def follow : Nat → UInt8 → UInt8 → Nat → List UInt8 → Nat × Option Nat
  | 0, _, _, code, _ => (0, some code)
  | _ + 1, _, _, _, [] => (0, none)
  | n + 1, low, high, code, b :: rest =>
    if low ≤ b && b ≤ high then
      let (taken, result) := follow n 0x80 0xbf (code * 64 + b.toNat % 64) rest
      (taken + 1, result)
    else (0, none)

/-- The character that begins with `b`, and how many of the bytes after it belong to it. -/
def readChar (b : UInt8) (rest : List UInt8) : Char × Nat :=
  if b < 0x80 then (Char.ofNat b.toNat, 0)
  else
    match lead? b with
    | none => (replacement, 0)
    | some l =>
      match follow l.following l.low l.high l.bits rest with
      | (taken, some code) => (Char.ofNat code, taken)
      | (taken, none) => (replacement, taken)

/-- The characters of the bytes, with replacements where they are damaged. -/
def decode : List UInt8 → List Char
  | [] => []
  | b :: rest => (readChar b rest).1 :: decode (rest.drop (readChar b rest).2)
  termination_by bytes => bytes.length
  decreasing_by simp only [List.length_drop, List.length_cons]; omega

end Armature.Text.Utf8
