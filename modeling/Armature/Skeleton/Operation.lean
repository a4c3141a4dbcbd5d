/-
**Histories of a builder.**

Whoever uses a builder calls its operations one after another, in any order, and goes on after a
call that fails.  Here the operations are written down, so that such a history is a list.

Main definitions:

* `Builder.optimizeFor` — optimizing for any hook;
* `Builder.Operation` — the operations;
* `Builder.perform`, `Builder.performAll` — one of them, and a history.
-/

import Armature.Optimize.Hook
import Armature.Skeleton.Builder

set_option autoImplicit false

namespace Armature.Builder

/-- Optimize the stream for a hook; it stays as it is if that fails. -/
def optimizeFor {σ : Type} (b : Builder) (hook : Hook σ) (config : OptimizerConfig) (state : σ) :
    Builder × Hook.Attempt σ OptimizationStats :=
  let attempt := hook.optimize config state b.stream
  match attempt.result with
  | .ok (words, stats) =>
    ({ b.flush with words }, ⟨attempt.state, attempt.events, .ok stats⟩)
  | .error fault => (b.flush, ⟨attempt.state, attempt.events, .error fault⟩)

/-- The operations of a builder.  Each optimization brings its own hook, in the state in which it is
found. -/
inductive Operation : Type 1 where
  /-- Open a frame. -/
  | push
  /-- Close frames. -/
  | pop (count : UInt32)
  /-- Multiply the frame by a static transform. -/
  | static (t : Transform)
  /-- Multiply the frame by a parameter. -/
  | parameter (shape : Shape) (offset : UInt32)
  /-- Mark a binding point. -/
  | binding (name : UInt64) (defaults : List Transform)
  /-- Insert a comment. -/
  | comment (text : String)
  /-- Write the frame to the next slot, for a joint. -/
  | marker (tag : Tag)
  /-- Optimize what has been emitted. -/
  | optimize {σ : Type} (hook : Hook σ) (state : σ) (config : OptimizerConfig)
  /-- Renumber the slots. -/
  | remap (table : List UInt32)
  /-- Keep the slots of some joints. -/
  | filter (keep : List Tag)

/-- One operation, and whether it fails. -/
def perform (b : Builder) : Operation → Builder × Except BuildFault Unit
  | .push => (b.emit .push, .ok ())
  | .pop count => (b.pop count, .ok ())
  | .static t => (b.emit (.static t), .ok ())
  | .parameter shape offset => (b.emit (.parameter shape offset), .ok ())
  | .binding name defaults =>
    match b.binding name defaults with
    | .ok b => (b, .ok ())
    | .error fault => (b, .error fault)
  | .comment text => (b.emit (.comment (.ofText text)), .ok ())
  | .marker tag => (b.marker tag, .ok ())
  | .optimize hook state config =>
    let (b, attempt) := b.optimizeFor hook config state
    match attempt.result with
    | .ok _ => (b, .ok ())
    | .error fault => (b, .error (.optimize fault))
  | .remap table =>
    let (b, attempt) := b.remap table
    (b, attempt.value)
  | .filter keep =>
    let (b, attempt) := b.filter keep
    (b, attempt.value)

/-- A history.  A failure does not end it. -/
def performAll (b : Builder) (ops : List Operation) : Builder :=
  ops.foldl (fun b op => (b.perform op).1) b

end Armature.Builder
