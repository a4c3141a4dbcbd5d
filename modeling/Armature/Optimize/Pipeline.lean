/-
**The optimizer.**

Seven passes make a round, and rounds are repeated until one changes nothing, at most eight times.
Whether a round changed anything is judged as numbers, so that a NaN, which differs from itself,
lets the rounds go on.

Main definitions:

* `Pass`, `Pass.run` — the passes by name, and one of them on a list;
* `Attempt` — a result or a failure, with the fold table and the events up to there;
* `runRound`, `optimizeInstructions` — one round, and all of them;
* `OptimizationStats` — sizes before and after;
* `optimize` — the optimization of a stream.
-/

import Armature.Disassembly
import Armature.Event
import Armature.Optimize.Dead
import Armature.Optimize.Fuse
import Armature.Optimize.Merge
import Armature.Optimize.Pushes
import Armature.Optimize.Simplify

set_option autoImplicit false

namespace Armature

/-! ### Passes -/

/-- The passes of the optimizer. -/
inductive Pass where
  /-- Remove transforms that no write sees. -/
  | dead
  /-- Remove pushes that may be dropped. -/
  | push
  /-- Move static transforms to their users. -/
  | merge
  /-- Simplify static transforms. -/
  | simplify
  /-- Join matrices with writes. -/
  | fuse
  deriving DecidableEq, Repr

namespace Pass

/-- The title of a pass in reports. -/
def title : Pass → String
  | dead => "dead transform elimination"
  | push => "redundant push removal"
  | merge => "sequential transform merging"
  | simplify => "transform type simplification"
  | fuse => "macro pattern fusion"

/-- One pass on a list. -/
def run (config : OptimizerConfig) (table : FoldTable) (is : List Instruction) :
    Pass → FoldTable × Except OptimizeFault (List Instruction)
  | dead => (table, .ok (eliminateDead is))
  | push => (table, .ok (removeRedundantPushes is))
  | merge => mergeTransforms table is
  | simplify => (table, .ok (simplifyTransforms config is))
  | fuse => (table, .ok (fuseWrites is))

/-- The passes of one round. -/
def round : List Pass := [dead, push, merge, push, simplify, fuse, push]

end Pass

/-! ### Rounds -/

/-- A result or a failure, with the fold table and the events up to there. -/
structure Attempt (α : Type) where
  /-- The fold table. -/
  table : FoldTable
  /-- The events in order. -/
  events : List Event
  /-- The result. -/
  result : Except OptimizeFault α

/-- Run passes one after another. -/
def runPasses (config : OptimizerConfig) (table : FoldTable) (is : List Instruction) :
    List Pass → Attempt (List Instruction)
  | [] => ⟨table, [], .ok is⟩
  | pass :: passes =>
    match pass.run config table is with
    | (table, .error fault) => ⟨table, [], .error fault⟩
    | (table, .ok next) =>
      let report := Event.debug s!"{pass.title}: {is.length} -> {next.length} instructions"
      let rest := runPasses config table next passes
      { rest with events := report :: rest.events }

/-- One round. -/
def runRound (config : OptimizerConfig) (table : FoldTable) (is : List Instruction) :
    Attempt (List Instruction) := runPasses config table is Pass.round

/-- The greatest number of rounds. -/
def maxRounds : Nat := 8

/-- Run rounds until one changes nothing, at most `fuel` times; `number` rounds came before. -/
def runRounds (config : OptimizerConfig) (fuel number : Nat) (table : FoldTable)
    (is : List Instruction) : Attempt (List Instruction) :=
  match fuel with
  | 0 =>
    ⟨table, [.warn s!"optimizer still changing after {number} rounds; stopping"], .ok is⟩
  | fuel + 1 =>
    let round := runRound config table is
    match round.result with
    | .error fault => ⟨round.table, round.events, .error fault⟩
    | .ok next =>
      if Instruction.eqvAll next is then
        let settled := Event.debug s!"optimizer settled after {number + 1} round(s)"
        ⟨round.table, round.events ++ [settled], .ok next⟩
      else
        let rest := runRounds config fuel (number + 1) round.table next
        { rest with events := round.events ++ rest.events }

/-- Optimize a list of instructions. -/
def optimizeInstructions (config : OptimizerConfig) (table : FoldTable) (is : List Instruction) :
    Attempt (List Instruction) := runRounds config maxRounds 0 table is

/-! ### Streams -/

/-- The sizes of a stream before and after optimization. -/
structure OptimizationStats where
  /-- Instructions before. -/
  instructionsBefore : Nat
  /-- Instructions after. -/
  instructionsAfter : Nat
  /-- Words before. -/
  wordsBefore : Nat
  /-- Words after. -/
  wordsAfter : Nat
  deriving DecidableEq, Repr

namespace OptimizationStats

/-- The number of instructions saved; none if there are more than before. -/
def removed (s : OptimizationStats) : Nat := s.instructionsBefore - s.instructionsAfter

/-- The sizes in one line. -/
def text (s : OptimizationStats) : String :=
  String.join ["Optimization: ", toString s.instructionsBefore, " → ",
    toString s.instructionsAfter, " instructions (", toString s.removed, " removed, ",
    percentage s.removed s.instructionsBefore, "% reduction), ", toString s.wordsBefore, " → ",
    toString s.wordsAfter, " words"]

end OptimizationStats

/-- Optimize a stream. -/
def optimize (config : OptimizerConfig) (table : FoldTable) (words : List UInt32) :
    Attempt (List UInt32 × OptimizationStats) :=
  match Instruction.decodeAll words with
  | .error fault => ⟨table, [], .error (.stream fault)⟩
  | .ok is =>
    let before := Event.trace ("before optimization:\n" ++ disassemble words)
    let attempt := optimizeInstructions config table is
    match attempt.result with
    | .error fault => ⟨attempt.table, before :: attempt.events, .error fault⟩
    | .ok next =>
      let result := Instruction.encodeAll next
      let after := Event.trace ("after optimization:\n" ++ disassemble result)
      let stats : OptimizationStats := ⟨is.length, next.length, words.length, result.length⟩
      ⟨attempt.table, before :: attempt.events ++ [after, .debug stats.text], .ok (result, stats)⟩

end Armature
