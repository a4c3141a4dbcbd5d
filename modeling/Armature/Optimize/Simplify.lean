/-
**Simplifying all static transforms.**

Every static transform is replaced by its simpler forms.

Main definitions:

* `simplifyTransforms` — the list with simplified static transforms.
-/

import Armature.Instruction.Basic
import Armature.Transform.Simplify

set_option autoImplicit false

namespace Armature

/-- The instructions that take the place of one. -/
def Instruction.simplify (config : OptimizerConfig) : Instruction → List Instruction
  | .static t => (t.simplify config).map .static
  | i => [i]

/-- The list with simplified static transforms. -/
def simplifyTransforms (config : OptimizerConfig) (is : List Instruction) : List Instruction :=
  is.flatMap (Instruction.simplify config)

end Armature
