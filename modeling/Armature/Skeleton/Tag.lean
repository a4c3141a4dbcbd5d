/-
**Joints.**

Main definitions:

* `Tag` — the names of a joint and of the skeleton it belongs to.
-/

set_option autoImplicit false

namespace Armature

/-- The name of a joint. -/
structure Tag where
  /-- The skeleton the joint belongs to. -/
  skeleton : String
  /-- The joint in it. -/
  joint : String
  deriving DecidableEq, Repr

/-- The tag of a slot that nobody named. -/
def Tag.unnamed : Tag := ⟨"", ""⟩

instance : Inhabited Tag := ⟨.unnamed⟩

/-- Both names. -/
def Tag.text (t : Tag) : String := t.skeleton ++ " : " ++ t.joint

end Armature
