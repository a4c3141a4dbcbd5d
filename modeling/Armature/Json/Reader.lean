/-
**Reading JSON.**

The reader follows the grammar to the letter: no leading zeros, no trailing commas, no control
characters inside strings, and nothing but blanks around the value.

Main definitions:

* `Json.readNumber`, `Json.readPieces`, `Json.readValue` — one thing off the front of the text;
* `Json.parse?` — the value of a text.
-/

import Armature.Json.Value

set_option autoImplicit false

namespace Armature.Json

/-! ### Characters -/

/-- Blanks between tokens. -/
def isBlank (c : Char) : Bool := c == ' ' || c == '\t' || c == '\n' || c == '\r'

/-- The text from its first character that is no blank. -/
def skipBlanks (text : List Char) : List Char := text.dropWhile isBlank

/-- The value of a decimal digit. -/
def digitValue (c : Char) : Nat := c.toNat - '0'.toNat

/-- The value of a hexadecimal digit. -/
def hexValue? (c : Char) : Option Nat :=
  if '0' ≤ c ∧ c ≤ '9' then some (c.toNat - '0'.toNat)
  else if 'a' ≤ c ∧ c ≤ 'f' then some (c.toNat - 'a'.toNat + 10)
  else if 'A' ≤ c ∧ c ≤ 'F' then some (c.toNat - 'A'.toNat + 10)
  else none

/-- The character that a letter stands for behind a backslash. -/
def unescape? : Char → Option Char
  | '"' => some '"'
  | '\\' => some '\\'
  | '/' => some '/'
  | 'b' => some '\x08'
  | 'f' => some '\x0c'
  | 'n' => some '\n'
  | 'r' => some '\r'
  | 't' => some '\t'
  | _ => none

/-! ### Numbers -/

/-- The digits at the front of the text, at least one. -/
def readDigits (text : List Char) : Option (List Nat × List Char) :=
  match text.takeWhile Char.isDigit with
  | [] => none
  | digits => some (digits.map digitValue, text.dropWhile Char.isDigit)

/-- The digits after a point, if there is one. -/
def readFraction : List Char → Option (List Nat × List Char)
  | '.' :: text => readDigits text
  | text => some ([], text)

/-- The sign and digits of an exponent, if there is one. -/
def readExponent : List Char → Option (Option (Bool × List Nat) × List Char)
  | c :: text =>
    if c = 'e' ∨ c = 'E' then
      let (negative, text) :=
        match text with
        | '-' :: text => (true, text)
        | '+' :: text => (false, text)
        | text => (false, text)
      (readDigits text).map fun (digits, text) => (some (negative, digits), text)
    else some (none, c :: text)
  | [] => some (none, [])

/-- The number at the front of the text. -/
def readNumber (text : List Char) : Option (Literal × List Char) := do
  let (negative, text) :=
    match text with
    | '-' :: text => (true, text)
    | text => (false, text)
  let (whole, text) ← readDigits text
  if whole.head? = some 0 ∧ whole.length ≠ 1 then none
  let (fraction, text) ← readFraction text
  let (exponent?, text) ← readExponent text
  some (⟨negative, whole, fraction, exponent?⟩, text)

/-! ### Strings -/

/-- The pieces of a string whose opening quote has been read. -/
def readPieces : List Char → Option (List Piece × List Char)
  | [] => none
  | '"' :: text => some ([], text)
  | '\\' :: 'u' :: a :: b :: c :: d :: text => do
    let code := (((← hexValue? a) * 16 + (← hexValue? b)) * 16 + (← hexValue? c)) * 16 +
      (← hexValue? d)
    let (pieces, text) ← readPieces text
    some (.unit code :: pieces, text)
  | '\\' :: c :: text => do
    let c ← unescape? c
    let (pieces, text) ← readPieces text
    some (.char c :: pieces, text)
  | c :: text => do
    if c.toNat < 0x20 ∨ c = '\\' then none
    let (pieces, text) ← readPieces text
    some (.char c :: pieces, text)

/-! ### Values -/

mutual

/-- The value at the front of the text; `fuel` bounds the depth of the reader. -/
def readValue : Nat → List Char → Option (Value × List Char)
  | 0, _ => none
  | fuel + 1, text =>
    match skipBlanks text with
    | 'n' :: 'u' :: 'l' :: 'l' :: text => some (.null, text)
    | 't' :: 'r' :: 'u' :: 'e' :: text => some (.bool true, text)
    | 'f' :: 'a' :: 'l' :: 's' :: 'e' :: text => some (.bool false, text)
    | '"' :: text => (readPieces text).map fun (pieces, text) => (.string pieces, text)
    | '[' :: text =>
      match skipBlanks text with
      | ']' :: text => some (.array [], text)
      | text => (readItems fuel text).map fun (items, text) => (.array items, text)
    | '\x7b' :: text =>
      match skipBlanks text with
      | '\x7d' :: text => some (.object [], text)
      | text => (readEntries fuel text).map fun (entries, text) => (.object entries, text)
    | text => (readNumber text).map fun (literal, text) => (.number literal, text)

/-- The items of an array, of which there is at least one more. -/
def readItems : Nat → List Char → Option (List Value × List Char)
  | 0, _ => none
  | fuel + 1, text => do
    let (item, text) ← readValue fuel text
    match skipBlanks text with
    | ']' :: text => some ([item], text)
    | ',' :: text =>
      let (items, text) ← readItems fuel text
      some (item :: items, text)
    | _ => none

/-- The entries of an object, of which there is at least one more. -/
def readEntries : Nat → List Char → Option (List (List Piece × Value) × List Char)
  | 0, _ => none
  | fuel + 1, text => do
    match skipBlanks text with
    | '"' :: text =>
      let (key, text) ← readPieces text
      match skipBlanks text with
      | ':' :: text =>
        let (value, text) ← readValue fuel text
        match skipBlanks text with
        | '\x7d' :: text => some ([(key, value)], text)
        | ',' :: text =>
          let (entries, text) ← readEntries fuel text
          some ((key, value) :: entries, text)
        | _ => none
      | _ => none
    | _ => none

end

/-- The value of a text. -/
def parse? (text : String) : Option Value :=
  let characters := text.toList
  match readValue (2 * characters.length + 1) characters with
  | some (value, rest) => if (skipBlanks rest).isEmpty then some value else none
  | none => none

end Armature.Json
