/-
**Transforms that no write sees.**

A transform has an effect only through a write that follows it before its frame is closed.  All
others go.

Main definitions:

* `eliminateDead` — the list without such transforms.
-/

import Armature.Optimize.Scan

set_option autoImplicit false

namespace Armature

/-- The list without the transforms that are followed by no write before their frame is closed. -/
def eliminateDead : List Instruction → List Instruction
  | [] => []
  | i :: rest =>
    if i.isTransform && !writesBeforeClose 0 rest then eliminateDead rest
    else i :: eliminateDead rest

/-- Eliminating dead transforms never adds instructions. -/
theorem length_eliminateDead_le (is : List Instruction) :
    (eliminateDead is).length ≤ is.length := by
  induction is with
  | nil => exact Nat.le_refl _
  | cons i rest ih =>
    simp only [eliminateDead]
    split <;> simp only [List.length_cons] <;> omega

end Armature
