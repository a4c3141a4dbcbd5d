/-
**Matrices as the elements of a monoid.**

Products of rounded matrices are not associative, so an optimizer that regroups them changes
rounding.  What it preserves is the value in every monoid in which the few equations hold that its
rewriting of transforms relies on.  They are asked for only on a class of transforms that rewriting
does not leave, since few monoids satisfy them for all transforms there are.

Main definitions:

* `Interpretation.ofMonoid`, `Setting.ofMonoid` — an interpretation of matrices in a monoid, and a
  run with it;
* `LawfulMerge`, `Lawful` — the equations of merging, and those of merging and simplifying;
* `reflections`, `orientation` — a class that computes exactly, and its values.

Main results:

* `Lawful.simplify_mem`, `Lawful.value_simplify` — the simpler forms of a transform stay in the
  class and have its value as their product;
* `lawful_reflections` — reflections in the origin satisfy the equations.
-/

import Armature.Evaluate.Program
import Armature.Transform.Merge
import Armature.Transform.Simplify
import Mathlib.Algebra.BigOperators.Group.List.Basic
import Mathlib.Algebra.Group.Int.Defs

set_option autoImplicit false

namespace Armature

variable {M : Type} [Monoid M]

/-- An interpretation of matrices in a monoid. -/
def Interpretation.ofMonoid (value : Mat4 → M) : Interpretation M :=
  ⟨1, (· * ·), fun t => value t.toMatrix⟩

/-- A run that computes in a monoid. -/
def Setting.ofMonoid (value : Mat4 → M) (block : ParameterBlock) (limit : Nat) : Setting M :=
  ⟨.ofMonoid value, block, limit⟩

/-- The equations that merging relies on, for a class of transforms that it does not leave. -/
structure LawfulMerge (domain : Transform → Prop) (value : Mat4 → M) : Prop where
  /-- Merged transforms stay in the class. -/
  merge_mem : ∀ {s t : Transform}, domain s → domain t → domain (s.merge t)
  /-- Merging is the product. -/
  value_merge : ∀ {s t : Transform}, domain s → domain t →
    value (s.merge t).toMatrix = value s.toMatrix * value t.toMatrix

/-- The equations that merging and simplifying rely on, for a class of transforms that both do not
leave. -/
structure Lawful (config : OptimizerConfig) (domain : Transform → Prop) (value : Mat4 → M) :
    Prop where
  /-- Merged transforms stay in the class. -/
  merge_mem : ∀ {s t : Transform}, domain s → domain t → domain (s.merge t)
  /-- Merging is the product. -/
  value_merge : ∀ {s t : Transform}, domain s → domain t →
    value (s.merge t).toMatrix = value s.toMatrix * value t.toMatrix
  /-- The parts of a matrix stay in the class. -/
  parts_mem : ∀ {m : Mat4} {parts : List Transform}, domain (.float4x4 m) →
    m.simplify? config = some parts → ∀ t ∈ parts, domain t
  /-- The parts of a matrix multiply to it. -/
  value_parts : ∀ {m : Mat4} {parts : List Transform}, domain (.float4x4 m) →
    m.simplify? config = some parts → (parts.map fun t => value t.toMatrix).prod = value m
  /-- A scale with one factor stays in the class. -/
  median_mem : ∀ {v : Vec3}, domain (.arbitraryScale v) → v.isUniform config.scaleThreshold →
    domain (.uniformScale v.median)
  /-- Factors that are nearly one are one. -/
  value_median : ∀ {v : Vec3}, domain (.arbitraryScale v) → v.isUniform config.scaleThreshold →
    value (Transform.uniformScale v.median).toMatrix = value (Transform.arbitraryScale v).toMatrix

namespace Lawful

variable {config : OptimizerConfig} {domain : Transform → Prop} {value : Mat4 → M}

/-- Among the equations are those of merging. -/
theorem merging (laws : Lawful config domain value) : LawfulMerge domain value :=
  ⟨laws.merge_mem, laws.value_merge⟩

/-- The simpler form of a scale stays in the class. -/
theorem ofScale_mem (laws : Lawful config domain value) {v : Vec3}
    (h : domain (.arbitraryScale v)) : domain (.ofScale v config.scaleThreshold) := by
  unfold Transform.ofScale
  split
  · rename_i uniform
    exact laws.median_mem h uniform
  · exact h

theorem value_ofScale (laws : Lawful config domain value) {v : Vec3}
    (h : domain (.arbitraryScale v)) :
    value (Transform.ofScale v config.scaleThreshold).toMatrix =
      value (Transform.arbitraryScale v).toMatrix := by
  unfold Transform.ofScale
  split
  · rename_i uniform
    exact laws.value_median h uniform
  · rfl

/-- The simpler forms of a transform stay in the class. -/
theorem simplify_mem (laws : Lawful config domain value) {t : Transform} (h : domain t) :
    ∀ u ∈ t.simplify config, domain u := by
  cases t with
  | float4x4 m =>
      simp only [Transform.simplify]
      cases hp : m.simplify? config with
      | none =>
          intro u hu
          rw [List.mem_singleton.1 hu]
          exact h
      | some parts => exact laws.parts_mem h hp
  | arbitraryScale v =>
      intro u hu
      rw [List.mem_singleton.1 hu]
      exact laws.ofScale_mem h
  | _ =>
      intro u hu
      rw [List.mem_singleton.1 hu]
      exact h

/-- The simpler forms of a transform have its value as their product. -/
theorem value_simplify (laws : Lawful config domain value) {t : Transform} (h : domain t) :
    ((t.simplify config).map fun u => value u.toMatrix).prod = value t.toMatrix := by
  cases t with
  | float4x4 m =>
      simp only [Transform.simplify]
      cases hp : m.simplify? config with
      | none => exact List.prod_singleton
      | some parts => exact laws.value_parts h hp
  | arbitraryScale v => exact List.prod_singleton.trans (laws.value_ofScale h)
  | _ => exact List.prod_singleton

end Lawful

/-! ### Reflections -/

/-- Doing nothing and reflecting in the origin, each as a scale and as a matrix. -/
def reflections : List Transform :=
  [.uniformScale .one, .uniformScale (-.one), .float4x4 (.scaling (.splat .one)),
    .float4x4 (.scaling (.splat (-.one)))]

/-- The sign of a reflection. -/
def orientation (m : Mat4) : ℤ := if m = .scaling (.splat (-.one)) then -1 else 1

/-- Reflections are multiplied without rounding. -/
theorem merge_reflections : ∀ s ∈ reflections, ∀ t ∈ reflections,
    s.merge t ∈ reflections ∧
      orientation (s.merge t).toMatrix = orientation s.toMatrix * orientation t.toMatrix := by
  decide +kernel

theorem simplify?_of_mem_reflections {m : Mat4} (h : .float4x4 m ∈ reflections) :
    m.simplify? .standard = none := by
  simp only [reflections, List.mem_cons, reduceCtorEq, Transform.float4x4.injEq, false_or,
    List.not_mem_nil, or_false] at h
  rcases h with rfl | rfl <;> decide +kernel

theorem not_mem_reflections (v : Vec3) : Transform.arbitraryScale v ∉ reflections := by
  simp [reflections]

/-- **Reflections satisfy the equations.** -/
theorem lawful_reflections : Lawful .standard (· ∈ reflections) orientation where
  merge_mem hs ht := (merge_reflections _ hs _ ht).1
  value_merge hs ht := (merge_reflections _ hs _ ht).2
  parts_mem h hp := by rw [simplify?_of_mem_reflections h] at hp; cases hp
  value_parts h hp := by rw [simplify?_of_mem_reflections h] at hp; cases hp
  median_mem h := absurd h (not_mem_reflections _)
  value_median h := absurd h (not_mem_reflections _)

end Armature
