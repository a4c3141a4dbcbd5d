/-
**Simpler forms are shorter, and have no simpler forms.**

Only two shapes of a static transform ever have a simpler form, whatever the tolerances are: a
matrix, and a scale by three factors.  A matrix takes more words than any two other transforms, and
the factor of a uniform scale fewer than three factors, so that a list which is simplified becomes
shorter wherever it is changed.  What stands in place of a transform was judged by the same
tolerances already and is left alone from then on.

Main definitions:

* `Instruction.isWide` — a static transform of one of the two shapes;
* `Condenses` — one list is another one with some of its wide transforms in fewer words.

Main results:

* `Transform.wordLengths_simplify_lt` — a transform that is replaced was wide, and becomes shorter;
* `condenses_simplifyTransforms` — **simplifying touches wide transforms only**;
* `Condenses.length_encodeAll_le`, `Condenses.sublist` — what this means for the words of a list,
  and for the instructions that are not wide;
* `simplifyTransforms_shortens_once` — all of this, and to do it again changes nothing.
-/

import Armature.Proofs.Optimize.Progress

set_option autoImplicit false

namespace Armature

variable {is js rest : List Instruction}

/-! ### Wide transforms -/

/-- The transform has a shape for which there can be a simpler form. -/
def Transform.isWide (t : Transform) : Bool :=
  match t.shape with
  | .float4x4 | .arbitraryScale => true
  | _ => false

/-- The instruction is a static matrix, or a static scale by three factors. -/
def Instruction.isWide : Instruction → Bool
  | static t => t.isWide
  | _ => false

/-- Every payload but that of a matrix has at most four components. -/
theorem Shape.size_le_four {s : Shape} (other : s ≠ .float4x4) : s.size ≤ 4 := by
  cases s with
  | float4x4 => exact absurd rfl other
  | _ => decide

namespace Transform

theorem wordLengths_singleton (t : Transform) : wordLengths [t] = 1 + t.shape.size := rfl

/-- The simpler forms of a matrix, if there are any, take fewer words than the matrix. -/
theorem wordLengths_simplify_matrix_lt {config : OptimizerConfig} {m : Mat4}
    (changed : (float4x4 m).simplify config ≠ [float4x4 m]) :
    wordLengths ((float4x4 m).simplify config) < wordLengths [float4x4 m] := by
  rcases simplify_cases config (float4x4 m) with ⟨u, single, simpler⟩ | ⟨v, f, double, -⟩
  · rw [single] at changed ⊢
    have other : u.shape ≠ .float4x4 := fun same =>
      changed (congrArg (fun w => [w]) (simpler.eq_of_shape same))
    have short := Shape.size_le_four other
    have long : (float4x4 m).shape.size = 16 := rfl
    rw [wordLengths_singleton, wordLengths_singleton]
    omega
  · rw [double]
    have scale : (ofScale f config.scaleThreshold).shape ≠ .float4x4 := by
      unfold ofScale
      split <;> exact Shape.noConfusion
    have short := Shape.size_le_four scale
    have move : (translate v).shape.size = 3 := rfl
    have long : (float4x4 m).shape.size = 16 := rfl
    rw [wordLengths, wordLengths_singleton, wordLengths_singleton]
    omega

/-- **A transform that is replaced was wide, and becomes shorter.** -/
theorem wordLengths_simplify_lt {config : OptimizerConfig} {t : Transform}
    (changed : t.simplify config ≠ [t]) :
    t.isWide = true ∧ wordLengths (t.simplify config) < wordLengths [t] := by
  cases t with
  | float4x4 m => exact ⟨rfl, wordLengths_simplify_matrix_lt changed⟩
  | arbitraryScale v =>
      refine ⟨rfl, ?_⟩
      simp only [simplify, ofScale] at changed ⊢
      split at changed
      · rename_i uniform
        have short : (uniformScale v.median).shape.size = 1 := rfl
        have long : (arbitraryScale v).shape.size = 3 := rfl
        rw [if_pos uniform, wordLengths_singleton, wordLengths_singleton]
        omega
      · exact absurd rfl changed
  | _ => exact absurd rfl changed

end Transform

/-! ### Lists -/

/-- The list `js` is `is` with some of its wide static transforms replaced by others that take fewer
words; all else stays, in its place. -/
inductive Condenses : List Instruction → List Instruction → Prop
  /-- Nothing is left. -/
  | nil : Condenses [] []
  /-- An instruction stays. -/
  | keep (i : Instruction) {rest js : List Instruction} (next : Condenses rest js) :
      Condenses (i :: rest) (i :: js)
  /-- Static transforms take the place of a wide one. -/
  | replace {t : Transform} {parts : List Transform} {rest js : List Instruction}
      (wide : t.isWide = true) (some : parts ≠ [])
      (shorter : Transform.wordLengths parts < Transform.wordLengths [t])
      (next : Condenses rest js) : Condenses (.static t :: rest) (parts.map .static ++ js)

/-- **Simplifying touches wide static transforms only.** -/
theorem condenses_simplifyTransforms (config : OptimizerConfig) (is : List Instruction) :
    Condenses is (simplifyTransforms config is) := by
  induction is with
  | nil => exact .nil
  | cons i rest ih =>
      rw [simplifyTransforms_cons]
      cases i with
      | static t =>
          by_cases same : t.simplify config = [t]
          · rw [Instruction.simplify, same]
            exact .keep (.static t) ih
          · obtain ⟨wide, shorter⟩ := Transform.wordLengths_simplify_lt same
            exact .replace wide (t.simplify_ne_nil config) shorter ih
      | _ => exact .keep _ ih

namespace Condenses

/-- The words become no more. -/
theorem length_encodeAll_le (h : Condenses is js) :
    (Instruction.encodeAll js).length ≤ (Instruction.encodeAll is).length := by
  induction h with
  | nil => exact Nat.le_refl _
  | keep i next ih =>
      simp only [Instruction.encodeAll, List.flatMap_cons, List.length_append] at ih ⊢
      omega
  | @replace t parts rest js wide some shorter next ih =>
      have forms : ((parts.map Instruction.static).flatMap Instruction.encode).length =
          Transform.wordLengths parts := by
        rw [List.flatMap_map]
        exact Transform.length_flatMap_encode parts
      have whole : (Instruction.static t).encode.length = Transform.wordLengths [t] :=
        t.length_encode
      simp only [Instruction.encodeAll, List.flatMap_cons, List.flatMap_append,
        List.length_append, forms, whole] at ih ⊢
      omega

/-- The instructions that are not wide keep their order. -/
theorem sublist (h : Condenses is js) : (is.filter fun i => !i.isWide).Sublist js := by
  induction h with
  | nil => exact .slnil
  | keep i next ih =>
      rw [List.filter_cons]
      split
      · exact ih.cons_cons i
      · exact ih.cons i
  | replace wide some shorter next ih =>
      rw [List.filter_cons_of_neg (by simp [Instruction.isWide, wide])]
      exact ih.trans (List.sublist_append_right _ _)

end Condenses

/-- **Simplifying shortens a list at once as far as it does.**  With any tolerances, to simplify a
list again changes nothing; static matrices and static scales by three factors are replaced by
shorter transforms or kept, while all other instructions stay what they are, in their order; and
the list takes no more words than before. -/
theorem simplifyTransforms_shortens_once (config : OptimizerConfig) (is : List Instruction) :
    simplifyTransforms config (simplifyTransforms config is) = simplifyTransforms config is ∧
    Condenses is (simplifyTransforms config is) ∧
    (is.filter fun i => !i.isWide).Sublist (simplifyTransforms config is) ∧
    (Instruction.encodeAll (simplifyTransforms config is)).length ≤
      (Instruction.encodeAll is).length := by
  have condensed := condenses_simplifyTransforms config is
  exact ⟨simplifyTransforms_idem config is, condensed, condensed.sublist,
    condensed.length_encodeAll_le⟩

/-- The seventeen words of a matrix that scales and moves become six. -/
example :
    simplifyTransforms .standard
        [.static (.float4x4 ⟨⟨.two, .zero, .zero, .zero⟩, ⟨.zero, .two, .zero, .zero⟩,
          ⟨.zero, .zero, .two, .zero⟩, ⟨.one, .zero, .zero, .one⟩⟩), .write 0] =
      [.static (.translate .unitX), .static (.uniformScale .two), .write 0] := by
  decide +kernel

end Armature
