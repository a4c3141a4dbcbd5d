/-
**Listings.**

A listing shows a stream with one line for each instruction, indented by the depth of frames; the
defaults of a binding point have lines of their own.  A stream that cannot be read ends with a line
that says why.

Main definitions:

* `Names` — names for slots and binding points, if there are any;
* `Mat4.describe`, `Transform.describe` — matrices and transforms in one line;
* `Listing.line` — the lines of an instruction;
* `disassembleWith`, `disassemble` — the listing of a stream.
-/

import Armature.Geometry.Decompose
import Armature.Instruction.Codec
import Armature.Scalar.Text

set_option autoImplicit false

namespace Armature

/-! ### Matrices and transforms -/

/-- The components, separated by commas. -/
def Vec3.text (v : Vec3) : String := s!"{v.x.text}, {v.y.text}, {v.z.text}"

/-- The tolerance for a turn or a scale that is not shown. -/
def hiddenTolerance : Scalar := ⟨0x358637bd⟩

/-- The tolerance for a matrix that its parts give back. -/
def recomposedTolerance : Scalar := ⟨0x38d1b717⟩

/-- The parts that a matrix has, and whether they are all of it. -/
def Mat4.describe (m : Mat4) : String :=
  if m.eqv .identity then "identity"
  else
    let p := m.placement
    let (axis, angle) := p.rotation.axisAngle
    let moves := if p.position.eqv .zero then [] else [s!"T: {p.position.text}"]
    let turns :=
      if p.rotation.near .identity hiddenTolerance then []
      else [s!"R: ({axis.text}) {angle.toDegrees.text} deg"]
    let scales := if p.scale.near .ones hiddenTolerance then [] else [s!"S: {p.scale.text}"]
    let more := if p.matrix.near m recomposedTolerance then [] else ["with skew/projection"]
    ", ".intercalate (moves ++ turns ++ scales ++ more)

/-- The transform in one line. -/
def Transform.describe (t : Transform) : String :=
  let name := t.opcode.name
  match t with
  | float4x4 m => s!"{name} ({m.describe})"
  | translate v | arbitraryScale v => s!"{name} ({v.text})"
  | rotateX a | rotateY a | rotateZ a | uniformScale a => s!"{name} ({a.text})"
  | rotateAxisAngle axis degrees => s!"{name} ({axis.text})({degrees.text})"
  | rotateQuaternion q => s!"{name} ({q.x.text}, {q.y.text}, {q.z.text}, {q.w.text})"

/-! ### Lines -/

/-- Names that a listing adds. -/
structure Names where
  /-- The name of a slot. -/
  output? : Option (UInt32 → String)
  /-- The name of a binding point. -/
  binding? : Option (UInt64 → String)

/-- No names. -/
def Names.none : Names := ⟨.none, .none⟩

/-- The added name of a slot. -/
def Names.output (names : Names) (slot : UInt32) : String :=
  match names.output? with
  | some f => s!" ({f slot})"
  | .none => ""

/-- The added name of a binding point. -/
def Names.binding (names : Names) (name : UInt64) : String :=
  match names.binding? with
  | some f => s!" ({f name})"
  | .none => ""

namespace Listing

/-- The deepest level that is indented further. -/
def indentLimit : Nat := 15

/-- Two blanks for each level. -/
def indent (level : Int) : String :=
  String.ofList (List.replicate (2 * min level.toNat indentLimit) ' ')

/-- The text after the name of a binding point. -/
def defaultsNote (count : Nat) : String :=
  if count = 0 then " with no defaults" else s!" with {count} defaults"

/-- The lines of an instruction at a level. -/
def lines (names : Names) (level : Int) (i : Instruction) : List String :=
  let pad := indent level
  match i with
  | .push => [pad ++ "PushLocalToWorld"]
  | .pop count => [pad ++ s!"PopLocalToWorld ({count})"]
  | .static t => [pad ++ t.describe]
  | .parameter shape offset =>
    [pad ++ s!"{(Opcode.parameter shape).name} at offset (0x{Text.hex offset.toNat})"]
  | .write slot => [pad ++ s!"WriteOutputMatrix [{slot}]{names.output slot}"]
  | .writeStatic slot matrix =>
    [pad ++ s!"TransformFloat4x4AndWrite_Static [{slot}]{names.output slot} ({matrix.describe})"]
  | .writeParameter slot offset =>
    [pad ++ s!"TransformFloat4x4AndWrite_Parameter [{slot}]{names.output slot} " ++
      s!"at offset (0x{Text.hex offset.toNat})"]
  | .binding name defaults =>
    (pad ++ s!"Binding point for parameter [0x{Text.paddedHex 16 name.toNat}]" ++
        names.binding name ++ defaultsNote defaults.length) ::
      defaults.map fun t => indent (level + 1) ++ s!"Default: {t.describe}"
  | .comment text => [pad ++ "Comment: " ++ String.ofList text.text]

/-- The level after an instruction. -/
def levelAfter (level : Int) : Instruction → Int
  | .push => level + 1
  | .pop count => level - count.toNat
  | _ => level

/-- The lines of the rest of a stream. -/
def linesFrom (names : Names) (length offset : Nat) (level : Int) : List UInt32 → List String
  | [] => []
  | w :: rest =>
    match Instruction.decodeFrom length offset (w :: rest) with
    | .error fault => [indent level ++ s!"<malformed stream: {fault.message}>"]
    | .ok (i, next) =>
      lines names level i ++
        linesFrom names length next (levelAfter level i) (rest.drop (next - offset - 1))
  termination_by words => words.length
  decreasing_by simp only [List.length_drop, List.length_cons]; omega

/-- The first line of a listing. -/
def header (words : List UInt32) : String :=
  String.join ["Transformation machine size: (", toString (4 * words.length), ") bytes"]

end Listing

/-- The listing of a stream, with names. -/
def disassembleWith (names : Names) (words : List UInt32) : String :=
  String.join ((Listing.header words :: Listing.linesFrom names words.length 0 1 words).map
    fun line => line ++ "\n")

/-- The listing of a stream. -/
def disassemble (words : List UInt32) : String := disassembleWith .none words

end Armature
