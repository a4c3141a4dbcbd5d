/-
**Simpler forms of a transform do the same.**

A transform is replaced by parts that multiply to it, so that the frame behind them is the same.

Main results:

* `keeps_simplifyTransforms` — **simplifying static transforms keeps the journal**;
* `statics_simplifyTransforms` — it stays in the class of transforms.
-/

import Armature.Optimize.Simplify
import Armature.Proofs.Evaluate.Journal
import Armature.Proofs.Interpretation

set_option autoImplicit false

namespace Armature

variable {M : Type} [Monoid M] {config : OptimizerConfig} {domain : Transform → Prop}
  {value : Mat4 → M} {block : ParameterBlock} {limit : Nat}

/-- Several static transforms multiply the frame by their product. -/
theorem journal_statics (ts : List Transform) (x : M) (below : List M) (rest : List Instruction) :
    journal (.ofMonoid value block limit) (x :: below) (ts.map .static ++ rest) =
      journal (.ofMonoid value block limit)
        (x * (ts.map fun t => value t.toMatrix).prod :: below) rest := by
  induction ts generalizing x with
  | nil => rw [List.map_nil, List.map_nil, List.prod_nil, mul_one, List.nil_append]
  | cons t ts ih =>
      rw [List.map_cons, List.cons_append, journal_static, ih, List.map_cons, List.prod_cons,
        ← mul_assoc]
      rfl

/-- The parts of the first transform do the same. -/
theorem keeps_simplify (laws : Lawful config domain value) {i : Instruction}
    (static : ∀ t, i = .static t → domain t) (rest : List Instruction) :
    Keeps (.ofMonoid value block limit) (i :: rest) (i.simplify config ++ rest) := by
  cases i with
  | static t =>
      intro frames ws _ run
      obtain ⟨top, below, rfl⟩ := ne_nil_of_journal run
      rw [journal_static] at run
      rw [Instruction.simplify, journal_statics, laws.value_simplify (static t rfl)]
      exact run
  | _ => exact .refl _

/-- **Simplifying static transforms keeps the journal.** -/
theorem keeps_simplifyTransforms (laws : Lawful config domain value) {is : List Instruction}
    (statics : ∀ t, .static t ∈ is → domain t) :
    Keeps (.ofMonoid value block limit) is (simplifyTransforms config is) := by
  induction is with
  | nil => exact .refl []
  | cons i rest ih =>
      have tail := ih fun t ht => statics t (List.mem_cons_of_mem _ ht)
      have head : Keeps (.ofMonoid value block limit) (i :: simplifyTransforms config rest)
          (i.simplify config ++ simplifyTransforms config rest) :=
        keeps_simplify laws (fun t e => statics t (e ▸ List.mem_cons_self ..)) _
      exact (tail.cons i).trans head

/-- Simplifying static transforms stays in the class. -/
theorem statics_simplifyTransforms (laws : Lawful config domain value) {is : List Instruction}
    (statics : ∀ t, .static t ∈ is → domain t) :
    ∀ t, .static t ∈ simplifyTransforms config is → domain t := by
  intro t ht
  obtain ⟨i, hi, ht⟩ := List.mem_flatMap.1 ht
  cases i with
  | static u =>
      obtain ⟨part, hpart, e⟩ := List.mem_map.1 ht
      cases e
      exact laws.simplify_mem (statics u hi) _ hpart
  | _ => cases List.mem_singleton.1 ht

end Armature
