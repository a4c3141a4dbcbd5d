/-
**Quoted text in messages and listings.**

A text stands between double quotes.  The quote, the backslash, tab, line feed and carriage return
have a short form behind a backslash; so has NUL.  Every other character of `Text.Escaped` is shown
by its number.  In particular no quoted text holds a line feed.

Main definitions:

* `Text.hex` — lower-case hexadecimal, without or with leading zeros;
* `Text.escape` — the form of one character;
* `Text.quote` — the form of a text.
-/

import Armature.Text.Escaped

set_option autoImplicit false

namespace Armature.Text

/-- A number in lower-case hexadecimal digits. -/
def hex (n : Nat) : String := String.ofList (Nat.toDigits 16 n)

/-- A number in at least `width` hexadecimal digits. -/
def paddedHex (width n : Nat) : String :=
  let digits := Nat.toDigits 16 n
  String.ofList (List.replicate (width - digits.length) '0' ++ digits)

/-- A character inside a quoted text. -/
def escape (c : Char) : List Char :=
  if c = '\t' then ['\\', 't']
  else if c = '\r' then ['\\', 'r']
  else if c = '\n' then ['\\', 'n']
  else if c = '"' then ['\\', '"']
  else if c = '\\' then ['\\', '\\']
  else if c = '\x00' then ['\\', '0']
  else if Escaped.contains c then
    ['\\', 'u', '\x7b'] ++ Nat.toDigits 16 c.toNat ++ ['\x7d']
  else [c]

/-- The text between double quotes. -/
def quote (text : List Char) : String := String.ofList ('"' :: text.flatMap escape ++ ['"'])

end Armature.Text
