/-
**JSON values.**

A value is kept as it was written: a number by its digits, a string by its characters and escapes,
an object by its entries in order.  Whether a number fits a type, whether escapes form text, and
whether a key occurs twice is asked where the value is used; a part that is not used may be anything
the grammar allows.

Main definitions:

* `Json.Literal`, `Json.Piece`, `Json.Value` — numbers, pieces of strings, and values;
* `Json.text?` — the text of a string;
* `Json.Value.fields?` — the fields of a record;
* `Json.Value.variant?` — the one entry of an object.
-/

set_option autoImplicit false

namespace Armature.Json

/-- A number as it was written. -/
structure Literal where
  /-- It starts with a minus sign. -/
  negative : Bool
  /-- The digits before the point. -/
  whole : List Nat
  /-- The digits after the point; none if there is no point. -/
  fraction : List Nat
  /-- Whether the exponent is negative, and its digits. -/
  exponent? : Option (Bool × List Nat)

/-- A piece of a string. -/
inductive Piece where
  /-- A character, itself or behind a backslash. -/
  | char (c : Char)
  /-- A code unit of sixteen bits, given by its number. -/
  | unit (code : Nat)

/-- A value. -/
inductive Value where
  /-- The null value. -/
  | null
  /-- A truth value. -/
  | bool (b : Bool)
  /-- A number. -/
  | number (literal : Literal)
  /-- A string. -/
  | string (pieces : List Piece)
  /-- A list of values. -/
  | array (items : List Value)
  /-- Keys with values. -/
  | object (entries : List (List Piece × Value))

/-! ### Text -/

/-- The characters of the pieces, unless half of a surrogate pair stands alone. -/
def characters? : List Piece → Option (List Char)
  | [] => some []
  | .char c :: rest => (characters? rest).map (c :: ·)
  | .unit high :: .unit low :: rest =>
    if 0xd800 ≤ high ∧ high < 0xdc00 then
      if 0xdc00 ≤ low ∧ low < 0xe000 then
        (characters? rest).map (Char.ofNat (0x10000 + (high - 0xd800) * 0x400 + (low - 0xdc00)) :: ·)
      else none
    else if 0xdc00 ≤ high ∧ high < 0xe000 then none
    else (characters? (.unit low :: rest)).map (Char.ofNat high :: ·)
  | .unit code :: rest =>
    if 0xd800 ≤ code ∧ code < 0xe000 then none
    else (characters? rest).map (Char.ofNat code :: ·)

/-- The text of the pieces. -/
def text? (pieces : List Piece) : Option String := (characters? pieces).map String.ofList

/-- The text of a string. -/
def Value.string? : Value → Option String
  | .string pieces => text? pieces
  | _ => none

/-! ### Parts -/

/-- The values of the named fields, in the order of the names.  An object has each of them once,
perhaps among others; an array has exactly these. -/
def Value.fields? (names : List String) : Value → Option (List Value)
  | .array items => if items.length = names.length then some items else none
  | .object entries => do
    let entries ← entries.mapM fun (key, value) => (text? key).map fun key => (key, value)
    names.mapM fun name =>
      match entries.filter fun (key, _) => key == name with
      | [(_, value)] => some value
      | _ => none
  | _ => none

/-- The items of an array of a given length. -/
def Value.items? (length : Nat) : Value → Option (List Value)
  | .array items => if items.length = length then some items else none
  | _ => none

/-- The key and the value of an object with one entry. -/
def Value.variant? : Value → Option (String × Value)
  | .object [(key, value)] => (text? key).map fun key => (key, value)
  | _ => none

end Armature.Json
