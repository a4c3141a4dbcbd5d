/-
**What can be wrong with a stream.**

A `Fault` is the cause of a failure together with the numbers that locate it.  The wording is in
one place, `Fault.message`.

Main definitions:

* `Fault` — the causes of a failure;
* `Fault.message` — their text.
-/

set_option autoImplicit false

namespace Armature

/-- The causes for which reading, checking or running a stream fails. -/
inductive Fault where
  /-- A word where an instruction starts is no opcode. -/
  | unknownOpcode (word : UInt32) (offset : Nat)
  /-- The instruction at `offset` needs more words than the stream has. -/
  | truncated (offset needed length : Nat)
  /-- A push would exceed the greatest number of frames. -/
  | stackOverflow (limit : Nat)
  /-- A pop asks for more frames than were pushed. -/
  | stackUnderflow (count : UInt32) (depth : Nat)
  /-- A parameter read leaves the block. -/
  | parameterOutOfRange (offset : UInt32) (size length : Nat)
  /-- A default of a binding point is not a static transform. -/
  | invalidBindingDefault (word : UInt32) (offset : Nat)
  /-- Frames are left pushed at the end. -/
  | unbalanced (depth : Nat)
  /-- A byte image does not consist of whole words. -/
  | misaligned (length : Nat)
  deriving DecidableEq, Repr

namespace Fault

/-- The text of a fault. -/
def message : Fault → String
  | unknownOpcode word offset =>
    String.join ["unknown opcode ", toString word, " at word ", toString offset]
  | truncated offset needed length =>
    String.join ["truncated instruction at word ", toString offset, ": needs ", toString needed,
      " words, stream has ", toString length]
  | stackOverflow limit => String.join ["working stack overflow (limit ", toString limit, ")"]
  | stackUnderflow count depth =>
    String.join ["working stack underflow: pop ", toString count, " with ", toString depth,
      " pushed frames"]
  | parameterOutOfRange offset size length =>
    String.join ["parameter read at byte ", toString offset, " (size ", toString size,
      ") exceeds block of ", toString length, " bytes"]
  | invalidBindingDefault word offset =>
    String.join ["binding point default at word ", toString offset,
      " is not a static transform (opcode ", toString word, ")"]
  | unbalanced depth =>
    String.join ["unbalanced stream: ", toString depth, " frames left pushed"]
  | misaligned length =>
    String.join ["byte length ", toString length, " is not a multiple of 4"]

end Fault

/-! ### Results -/

theorem map_eq_error_iff {α β : Type} {f : α → β} {result : Except Fault α} {fault : Fault} :
    result.map f = .error fault ↔ result = .error fault := by
  cases result <;> simp [Except.map]

theorem map_eq_ok_iff {α β : Type} {f : α → β} {result : Except Fault α} {value : β} :
    result.map f = .ok value ↔ ∃ a, result = .ok a ∧ f a = value := by
  cases result <;> simp [Except.map]

end Armature
