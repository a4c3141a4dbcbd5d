/-
**Renumbering slots.**

A table gives each slot its new number.  Instructions that write a slot without a new number are
dropped; all others stay as they are, word by word.

Main definitions:

* `unmapped` — the entry of a slot that is dropped;
* `Stream.remap` — the renumbered stream.
-/

import Armature.Event
import Armature.Stream

set_option autoImplicit false

namespace Armature

/-- The table entry of a slot that is dropped. -/
def unmapped : UInt32 := 0xffffffff

namespace Stream

/-- The new number of a slot, if it keeps one; slots past the end of the table do not. -/
def renumber? (table : Array UInt32) (slot : UInt32) : Option UInt32 :=
  match table[slot.toNat]? with
  | some new => if new = unmapped then none else some new
  | none => none

/-- The words of one instruction after renumbering; `words` are its words after the opcode `w`. -/
def renumberInstruction (table : Array UInt32) (w : UInt32) (op : Opcode) (words : List UInt32) :
    List UInt32 :=
  if op.isOutput then
    match renumber? table (words.headD 0) with
    | some new => w :: new :: words.tail
    | none => []
  else w :: words

/-- Renumber the rest of a stream of the given length from `offset` on. -/
def remapFrom (table : Array UInt32) (length offset : Nat) :
    List UInt32 → Except Fault (List (List UInt32))
  | [] => .ok []
  | w :: rest =>
    match measure length offset (w :: rest) with
    | .error fault => .error fault
    | .ok next =>
      match Opcode.read w offset with
      | .error fault => .error fault
      | .ok op =>
        match remapFrom table length next (rest.drop (next - offset - 1)) with
        | .error fault => .error fault
        | .ok pieces =>
          .ok (renumberInstruction table w op (rest.take (next - offset - 1)) :: pieces)
  termination_by words => words.length
  decreasing_by simp only [List.length_drop, List.length_cons]; omega

/-- The stream with renumbered slots; the number of dropped instructions is reported. -/
def remap (words : List UInt32) (table : Array UInt32) :
    Reported (Except Fault (List UInt32)) :=
  match remapFrom table words.length 0 words with
  | .error fault => ⟨.error fault, []⟩
  | .ok pieces =>
    let dropped := pieces.countP List.isEmpty
    ⟨.ok pieces.flatten,
      if dropped = 0 then [] else [.debug s!"remap dropped {dropped} output commands"]⟩

end Stream

end Armature
