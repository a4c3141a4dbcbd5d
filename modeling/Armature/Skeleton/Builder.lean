/-
**Building a machine.**

A builder emits instructions as a skeleton is walked.  Each output marker takes the next slot and
names the joint behind it.  Pops are not written at once: they are added up, and written as one
before whatever comes next.

Slots are numbered by words, so they are taken to be countable by one: a skeleton has fewer than
`2 ^ 32` joints.  Below that bound the number of slots never wraps.

Main definitions:

* `Builder` — what has been built so far;
* `Builder.emit`, `Builder.pop`, `Builder.marker`, `Builder.binding` — emitting;
* `Builder.optimize`, `Builder.remap`, `Builder.filter` — reworking what has been emitted;
* `Builder.stream`, `Builder.finish` — the result.
-/

import Armature.Optimize.Pipeline
import Armature.Remap
import Armature.Skeleton.Machine

set_option autoImplicit false

namespace Armature

/-- Why an operation of a builder fails. -/
inductive BuildFault where
  /-- A binding point with more defaults than can be stored. -/
  | tooManyDefaults (count : Nat)
  /-- The stream cannot be read. -/
  | stream (fault : Fault)
  /-- The stream cannot be optimized. -/
  | optimize (fault : OptimizeFault)
  deriving DecidableEq, Repr

/-- The text of a failure. -/
def BuildFault.message : BuildFault → String
  | tooManyDefaults count =>
    String.join ["binding point takes at most ", toString maxBindingDefaults, " defaults, got ",
      toString count]
  | stream fault => fault.message
  | optimize fault => fault.message

/-- What has been built so far. -/
structure Builder where
  /-- The words written. -/
  words : List UInt32
  /-- Frames to be closed before the next instruction. -/
  pendingPops : UInt32
  /-- The number of slots, taken to be countable by a word. -/
  outputCount : Nat
  /-- The joints behind the slots. -/
  joints : List Tag
  deriving DecidableEq, Repr

namespace Builder

/-- Nothing. -/
def empty : Builder := ⟨[], 0, 0, []⟩

instance : Inhabited Builder := ⟨empty⟩

/-! ### Emitting -/

/-- The stream, with the pops that are not yet written. -/
def stream (b : Builder) : List UInt32 :=
  if 0 < b.pendingPops then b.words ++ (Instruction.pop b.pendingPops).encode else b.words

/-- Write the pops that are not yet written. -/
def flush (b : Builder) : Builder := { b with words := b.stream, pendingPops := 0 }

/-- Emit an instruction. -/
def emit (b : Builder) (i : Instruction) : Builder :=
  { b.flush with words := b.stream ++ i.encode }

/-- Close frames before the next instruction.  Counts add up as words, unchecked: a sum of
`2 ^ 32` or more wraps. -/
def pop (b : Builder) (count : UInt32) : Builder := { b with pendingPops := b.pendingPops + count }

/-- Emit a binding point, unless it has too many defaults. -/
def binding (b : Builder) (name : UInt64) (defaults : List Transform) :
    Except BuildFault Builder :=
  if defaults.length ≤ maxBindingDefaults then .ok (b.emit (.binding name defaults))
  else .error (.tooManyDefaults defaults.length)

/-- The slot that the next marker takes. -/
def nextSlot (b : Builder) : Nat := b.joints.length

/-- Write the current frame to the next slot, for a joint. -/
def marker (b : Builder) (tag : Tag) : Builder :=
  let slot := b.nextSlot
  { b.emit (.write (UInt32.ofNat slot)) with
    joints := b.joints ++ [tag]
    outputCount := max b.outputCount (slot + 1) }

/-! ### Reworking -/

/-- Optimize the stream; it stays as it is if that fails. -/
def optimize (b : Builder) (config : OptimizerConfig) (table : FoldTable) :
    Builder × Attempt OptimizationStats :=
  let attempt := Armature.optimize config table b.stream
  match attempt.result with
  | .ok (words, stats) =>
    ({ b.flush with words }, ⟨attempt.table, attempt.events, .ok stats⟩)
  | .error fault => (b.flush, ⟨attempt.table, attempt.events, .error fault⟩)

/-- The entries of a table for the slots that exist. -/
def entries (b : Builder) (table : List UInt32) : List UInt32 := table.take b.outputCount

/-- One past the greatest number that a slot gets; zero if none gets one. -/
def newCount (entries : List UInt32) : Nat :=
  entries.foldl (fun count new => if new = unmapped then count else max count (new.toNat + 1)) 0

/-- The joint behind a new slot: that of the first old slot that gets the number. -/
def newJoint (joints : List Tag) (entries : List UInt32) (slot : Nat) : Tag :=
  match (joints.zip entries).find? fun (_, new) => new ≠ unmapped && new.toNat == slot with
  | some (tag, _) => tag
  | none => .unnamed

/-- Renumber the slots.  Joints move with their slots; of several that get one number the first
keeps its name. -/
def remap (b : Builder) (table : List UInt32) : Builder × Reported (Except BuildFault Unit) :=
  let remapped := Stream.remap b.stream table.toArray
  match remapped.value with
  | .error fault => (b.flush, ⟨.error (.stream fault), remapped.events⟩)
  | .ok words =>
    let entries := b.entries table
    let count := newCount entries
    let report := Event.debug s!"remapped outputs: {b.outputCount} -> {count} slots"
    ({ words
       pendingPops := 0
       outputCount := count
       joints := (List.range count).map (newJoint b.joints entries) },
      ⟨.ok (), remapped.events ++ [report]⟩)

/-- The joints to keep, each once, in the order of their first slots. -/
def keptJoints (keep : List Tag) (joints : List Tag) : List Tag :=
  joints.foldl (fun kept tag =>
    if !kept.contains tag && keep.contains tag then kept ++ [tag] else kept) []

/-- The table that gives each slot the place of its joint among the kept ones. -/
def keptTable (kept joints : List Tag) : List UInt32 :=
  joints.map fun tag =>
    match kept.findIdx? fun t => t == tag with
    | some slot => UInt32.ofNat slot
    | none => unmapped

/-- Keep the slots of the given joints.  Slots of one joint become one. -/
def filter (b : Builder) (keep : List Tag) : Builder × Reported (Except BuildFault Unit) :=
  let kept := keptJoints keep b.joints
  match b.remap (keptTable kept b.joints) with
  | (b, ⟨.ok (), events⟩) =>
    ({ b with outputCount := kept.length, joints := kept }, ⟨.ok (), events⟩)
  | failed => failed

/-! ### The result -/

/-- The finished machine. -/
def finish (b : Builder) : Machine := ⟨b.stream, b.outputCount, b.joints⟩

end Builder

end Armature
