/-
**Writing JSON.**

Values are written without blanks.  Inside strings, the quote, the backslash and the controls are
escaped, by a letter where they have one; all else stands as it is.

Main definitions:

* `Json.escape`, `Json.quote` — strings;
* `Json.list`, `Json.record` — arrays and objects of written values.
-/

import Armature.Text.Quoted

set_option autoImplicit false

namespace Armature.Json

/-- A character inside a string. -/
def escape (c : Char) : List Char :=
  if c = '"' then ['\\', '"']
  else if c = '\\' then ['\\', '\\']
  else if c = '\n' then ['\\', 'n']
  else if c = '\r' then ['\\', 'r']
  else if c = '\t' then ['\\', 't']
  else if c = '\x08' then ['\\', 'b']
  else if c = '\x0c' then ['\\', 'f']
  else if c.toNat < 0x20 then ['\\', 'u'] ++ (Text.paddedHex 4 c.toNat).toList
  else [c]

/-- A string. -/
def quote (text : String) : String :=
  String.ofList ('"' :: text.toList.flatMap escape ++ ['"'])

/-- An array of written values. -/
def list (items : List String) : String := "[" ++ ",".intercalate items ++ "]"

/-- An object of written values. -/
def record (fields : List (String × String)) : String :=
  "\x7b" ++ ",".intercalate (fields.map fun (key, value) => quote key ++ ":" ++ value) ++ "\x7d"

end Armature.Json
