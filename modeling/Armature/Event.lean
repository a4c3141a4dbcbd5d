/-
**Events.**

Operations report what a user may want to know, beside their result: slots that do not exist, what
each step of the optimizer achieved, listings before and after.

Main definitions:

* `Severity` — how much an event matters;
* `Event` — a severity and a message;
* `Event.upTo` — the events that are at least as severe as a threshold.
-/

set_option autoImplicit false

namespace Armature

/-- How much an event matters. -/
inductive Severity where
  /-- Something is likely to be wrong. -/
  | warn
  /-- What an operation achieved. -/
  | debug
  /-- Everything else. -/
  | trace
  deriving DecidableEq, Repr

namespace Severity

/-- The number of more severe levels. -/
def rank : Severity → Nat
  | warn => 0
  | debug => 1
  | trace => 2

/-- The name of a level. -/
def name : Severity → String
  | warn => "WARN"
  | debug => "DEBUG"
  | trace => "TRACE"

end Severity

/-- A message with its severity. -/
structure Event where
  /-- The severity. -/
  severity : Severity
  /-- The text. -/
  message : String
  deriving DecidableEq, Repr

namespace Event

/-- A warning. -/
def warn (message : String) : Event := ⟨.warn, message⟩

/-- A report. -/
def debug (message : String) : Event := ⟨.debug, message⟩

/-- A detail. -/
def trace (message : String) : Event := ⟨.trace, message⟩

/-- The event in one line: its severity, then its message. -/
def line (e : Event) : String := e.severity.name ++ " " ++ e.message

/-- The events at least as severe as `threshold`, in order. -/
def upTo (threshold : Severity) (events : List Event) : List Event :=
  events.filter fun e => e.severity.rank ≤ threshold.rank

end Event

/-- A result with the events that happened on the way to it. -/
structure Reported (α : Type) where
  /-- The result. -/
  value : α
  /-- The events in order. -/
  events : List Event

end Armature
