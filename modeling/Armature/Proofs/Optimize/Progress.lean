/-
**What passes use up.**

A pass that changes a list leaves less to be done.  Pushes, pops, plain writes and parameter
transforms only ever disappear.  Where none does, static transforms come nearer to what uses them:
a transform in front of a blocker has arrived, and transforms in a row move as one.

Main definitions:

* `removable` — how many instructions there are that only ever disappear;
* `slack`, `totalSlack` — how far a static transform is from what uses it, and all of them together;
* `burden` — the two numbers, the first one counting more;
* `Eases` — a list is left alone, or its burden becomes smaller.

Main results:

* `eases_eliminateDead`, `eases_removeRedundantPushes`, `eases_fuseWrites` — **each of these passes
  changes nothing or makes the burden smaller**;
* `burden_simplifyTransforms` — simplifying keeps the burden;
* `simplifyTransforms_idem` — what is simplified stays as it is.
-/

import Armature.Proofs.Optimize.Observed
import Mathlib.Data.Prod.Lex

set_option autoImplicit false

namespace Armature

/-! ### The burden -/

/-- No pass adds such an instruction. -/
def Instruction.isRemovable : Instruction → Bool
  | push | pop _ | parameter _ _ | write _ => true
  | static _ | writeStatic _ _ | writeParameter _ _ | binding _ _ | comment _ => false

/-- How many instructions there are that no pass adds. -/
def removable (is : List Instruction) : Nat := is.countP Instruction.isRemovable

/-- How far a static transform in front of the list is from what uses it.  In front of another one
it counts nothing, since the last one of a row counts for all. -/
def slack : List Instruction → Nat
  | [] => 2
  | i :: _ =>
    match i.role with
    | .static => 0
    | .blocker => 1
    | .output | .push | .pop => 2

/-- The slack of all static transforms of a list. -/
def totalSlack : List Instruction → Nat
  | [] => 0
  | .static _ :: rest => slack rest + totalSlack rest
  | _ :: rest => totalSlack rest

/-- What there is to be done in a list. -/
def burden (is : List Instruction) : Nat ×ₗ Nat := toLex (removable is, totalSlack is)

theorem burden_lt_iff {is js : List Instruction} :
    burden js < burden is ↔
      removable js < removable is ∨ removable js = removable is ∧ totalSlack js < totalSlack is :=
  Prod.Lex.toLex_lt_toLex

theorem burden_le_iff {is js : List Instruction} :
    burden js ≤ burden is ↔
      removable js < removable is ∨ removable js = removable is ∧ totalSlack js ≤ totalSlack is :=
  Prod.Lex.toLex_le_toLex

theorem burden_lt_of_removable_lt {is js : List Instruction} (h : removable js < removable is) :
    burden js < burden is := burden_lt_iff.2 (.inl h)

@[simp] theorem removable_nil : removable [] = 0 := rfl

@[simp] theorem removable_cons (i : Instruction) (is : List Instruction) :
    removable (i :: is) = removable is + if i.isRemovable then 1 else 0 := List.countP_cons

theorem removable_cons_of_isRemovable {i : Instruction} (h : i.isRemovable = true)
    (is : List Instruction) : removable (i :: is) = removable is + 1 := by
  rw [removable_cons, if_pos h]

@[simp] theorem removable_append (is js : List Instruction) :
    removable (is ++ js) = removable is + removable js := List.countP_append

theorem totalSlack_cons (i : Instruction) (rest : List Instruction) :
    totalSlack (i :: rest) = (if i.role = .static then slack rest else 0) + totalSlack rest := by
  cases i <;> simp [totalSlack, Instruction.role]

/-- Without slack another transform follows. -/
theorem slack_eq_zero_iff {is : List Instruction} :
    slack is = 0 ↔ ∃ t rest, is = .static t :: rest := by
  cases is with
  | nil => simp [slack]
  | cons i rest => cases i <;> simp [slack, Instruction.role]

/-- An instruction in front of both lists does not change which has the smaller burden, as long as
a transform in front is not further from its use. -/
theorem burden_cons_lt {is js : List Instruction} (i : Instruction) (h : burden js < burden is)
    (near : i.role = .static → slack js ≤ slack is) : burden (i :: js) < burden (i :: is) := by
  rw [burden_lt_iff] at h ⊢
  rw [removable_cons, removable_cons, totalSlack_cons, totalSlack_cons]
  by_cases role : i.role = .static
  · have := near role
    rw [if_pos role, if_pos role]
    omega
  · rw [if_neg role, if_neg role]
    omega

theorem burden_cons_le {is js : List Instruction} (i : Instruction) (h : burden js ≤ burden is)
    (near : i.role = .static → slack js ≤ slack is) : burden (i :: js) ≤ burden (i :: is) := by
  rw [burden_le_iff] at h ⊢
  rw [removable_cons, removable_cons, totalSlack_cons, totalSlack_cons]
  by_cases role : i.role = .static
  · have := near role
    rw [if_pos role, if_pos role]
    omega
  · rw [if_neg role, if_neg role]
    omega

/-- A transform adds to the burden, unless another one follows. -/
theorem burden_lt_static {rest : List Instruction} (far : slack rest ≠ 0) (t : Transform) :
    burden rest < burden (.static t :: rest) :=
  burden_lt_iff.2 (.inr ⟨rfl, Nat.lt_add_of_pos_left (Nat.pos_of_ne_zero far)⟩)

theorem burden_le_static (t : Transform) (rest : List Instruction) :
    burden rest ≤ burden (.static t :: rest) := by
  by_cases near : slack rest = 0
  · refine le_of_eq (congrArg toLex (Prod.ext rfl ?_))
    rw [totalSlack, near, Nat.zero_add]
  · exact le_of_lt (burden_lt_static near t)

/-- A list is left alone, or its burden becomes smaller. -/
def Eases (is js : List Instruction) : Prop := js = is ∨ burden js < burden is

namespace Eases

variable {is js : List Instruction}

theorem le (h : Eases is js) : burden js ≤ burden is :=
  h.elim (fun same => (congrArg burden same).le) le_of_lt

/-- It is left alone if its burden stays. -/
theorem eq (h : Eases is js) (stays : burden is ≤ burden js) : js = is :=
  h.resolve_right stays.not_gt

theorem cons (i : Instruction) (h : Eases is js) (near : i.role = .static → slack js ≤ slack is) :
    Eases (i :: is) (i :: js) :=
  h.imp (congrArg (i :: ·)) fun less => burden_cons_lt i less near

end Eases

/-! ### Fewer instructions -/

/-- A list is left alone, or loses instructions that no pass adds. -/
def Thins (is js : List Instruction) : Prop := js = is ∨ removable js < removable is

namespace Thins

variable {is js ks : List Instruction}

theorem le (h : Thins is js) : removable js ≤ removable is :=
  h.elim (fun same => (congrArg removable same).le) Nat.le_of_lt

theorem trans (h : Thins is js) (h' : Thins js ks) : Thins is ks := by
  rcases h' with rfl | fewer
  · exact h
  · exact .inr (Nat.lt_of_lt_of_le fewer h.le)

theorem cons (i : Instruction) (h : Thins is js) : Thins (i :: is) (i :: js) := by
  refine h.imp (congrArg (i :: ·)) fun fewer => ?_
  rw [removable_cons, removable_cons]
  exact Nat.add_lt_add_right fewer _

/-- The first instruction goes. -/
theorem of_le {i : Instruction} (goes : i.isRemovable = true)
    (h : removable js ≤ removable is) : Thins (i :: is) js := by
  refine .inr ?_
  rw [removable_cons_of_isRemovable goes]
  exact Nat.lt_succ_of_le h

theorem eases (h : Thins is js) : Eases is js := h.imp_right burden_lt_of_removable_lt

end Thins

theorem removable_oneLess_le (count : UInt32) : removable (oneLess count) ≤ 1 := by
  unfold oneLess
  split <;> simp [Instruction.isRemovable]

/-- Dropping a push adds nothing to what follows it. -/
theorem removable_le_of_release? {inner : Nat} {changed : Bool} {is js : List Instruction}
    (h : release? inner changed is = some js) : removable js ≤ removable is := by
  rcases eq_or_split_of_release? h with rfl | ⟨front, count, rest, rfl, rfl⟩
  · exact Nat.le_refl _
  · have less := removable_oneLess_le count
    rw [removable_append, removable_append, removable_append, removable_cons_of_isRemovable rfl]
    omega

theorem thins_coalescePops (is : List Instruction) : Thins is (coalescePops is) := by
  refine coalescePops_induction Thins (fun _ => .inl rfl) .trans .cons
    (fun _ => .of_le rfl (Nat.le_refl _)) ?_ is
  intro count more is
  -- the joined pop counts as the second one did
  exact .of_le rfl (Nat.le_refl (removable (.pop more :: is)))

theorem thins_releasePushes (is : List Instruction) : Thins is (releasePushes is) := by
  refine releasePushes_induction Thins (fun _ => .inl rfl) .trans .cons ?_ is
  intro is js released
  exact .of_le rfl (removable_le_of_release? released)

theorem thins_removeRedundantPushes (is : List Instruction) :
    Thins is (removeRedundantPushes is) := (thins_coalescePops is).trans (thins_releasePushes _)

/-- **Dropping pushes changes nothing or makes the burden smaller.** -/
theorem eases_removeRedundantPushes (is : List Instruction) :
    Eases is (removeRedundantPushes is) := (thins_removeRedundantPushes is).eases

/-- A joined write takes the place of a plain one. -/
theorem isRemovable_of_fuse? {i j fused : Instruction} (h : i.fuse? j = some fused) :
    fused.isRemovable = false ∧ j.isRemovable = true := by
  unfold Instruction.fuse? at h
  split at h
  · cases h; exact ⟨rfl, rfl⟩
  · cases h; exact ⟨rfl, rfl⟩
  · cases h

theorem thins_fuseWrites (is : List Instruction) : Thins is (fuseWrites is) := by
  fun_induction fuseWrites is with
  | case1 => exact .inl rfl
  | case2 => exact .inl rfl
  | case3 i j rest fused found ih =>
      split at found
      · obtain ⟨stays, goes⟩ := isRemovable_of_fuse? found
        have tail := ih.le
        refine .inr ?_
        rw [removable_cons, stays, if_neg Bool.false_ne_true, removable_cons,
          removable_cons_of_isRemovable goes]
        omega
      · cases found
  | case4 i j rest _ ih => exact ih.cons i

/-- **Joining writes changes nothing or makes the burden smaller.** -/
theorem eases_fuseWrites (is : List Instruction) : Eases is (fuseWrites is) :=
  (thins_fuseWrites is).eases

/-! ### Dead transforms -/

theorem eliminateDead_cons_of_unseen {i : Instruction} {rest : List Instruction}
    (transform : i.isTransform = true) (unseen : writesBeforeClose 0 rest = false) :
    eliminateDead (i :: rest) = eliminateDead rest := by
  rw [eliminateDead, transform, unseen, Bool.not_false, Bool.and_true, if_pos rfl]

/-- A transform that some write sees stays as near to its use. -/
theorem slack_eliminateDead_le {rest : List Instruction} (live : writesBeforeClose 0 rest = true) :
    slack (eliminateDead rest) ≤ slack rest := by
  cases rest with
  | nil => exact Nat.le_refl _
  | cons i rest =>
      cases i with
      | static t | parameter shape offset =>
          have live' : writesBeforeClose 0 rest = true := live
          rw [eliminateDead, live', Bool.not_true, Bool.and_false, if_neg Bool.false_ne_true]
          exact Nat.le_refl _
      | _ => exact Nat.le_refl _

/-- **Eliminating dead transforms changes nothing or makes the burden smaller.** -/
theorem eases_eliminateDead (is : List Instruction) : Eases is (eliminateDead is) := by
  induction is with
  | nil => exact .inl rfl
  | cons i rest ih =>
      rw [eliminateDead]
      split
      · rename_i dead
        simp only [Bool.and_eq_true, Bool.not_eq_true'] at dead
        obtain ⟨transform, unseen⟩ := dead
        refine .inr ?_
        cases i with
        | static t =>
            by_cases near : slack rest = 0
            · -- the transform behind is as dead, so the rest has changed
              obtain ⟨u, rest', rfl⟩ := slack_eq_zero_iff.1 near
              have unseen' : writesBeforeClose 0 rest' = false := unseen
              have shorter : eliminateDead (.static u :: rest') ≠ .static u :: rest' := by
                intro same
                have length := length_eliminateDead_le rest'
                rw [eliminateDead_cons_of_unseen rfl unseen'] at same
                rw [same, List.length_cons] at length
                exact Nat.not_succ_le_self _ length
              exact lt_of_lt_of_le (ih.resolve_left shorter) (burden_le_static t _)
            · exact lt_of_le_of_lt ih.le (burden_lt_static near t)
        | parameter shape offset =>
            refine lt_of_le_of_lt ih.le (burden_lt_of_removable_lt ?_)
            rw [removable_cons_of_isRemovable rfl]
            exact Nat.lt_succ_self _
        | _ => cases transform
      · rename_i seen
        refine ih.cons i fun role => ?_
        cases i with
        | static t => exact slack_eliminateDead_le (by simpa [Instruction.isTransform] using seen)
        | _ => cases role

/-! ### Simpler transforms -/

namespace Transform

/-- A scale stays one. -/
theorem family_ofScale (v : Vec3) (threshold : Scalar) : (ofScale v threshold).family = .scale := by
  unfold ofScale
  split <;> rfl

/-- A simplified scale is as simple as it can be. -/
theorem simplify_ofScale (config : OptimizerConfig) (v : Vec3) :
    (ofScale v config.scaleThreshold).simplify config = [ofScale v config.scaleThreshold] := by
  by_cases uniform : v.isUniform config.scaleThreshold = true
  · rw [ofScale, if_pos uniform]
    rfl
  · rw [ofScale, if_neg uniform, simplify, ofScale, if_neg uniform]

/-- A turn is as simple as it can be, and no matrix. -/
theorem simplify_ofRotation (config : OptimizerConfig) (q : Quat) (tolerance : Scalar) :
    (ofRotation q tolerance).simplify config = [ofRotation q tolerance] ∧
      (ofRotation q tolerance).shape ≠ .float4x4 := by
  simp only [ofRotation]
  split
  · exact ⟨rfl, Shape.noConfusion⟩
  · split
    · exact ⟨rfl, Shape.noConfusion⟩
    · split <;> exact ⟨rfl, Shape.noConfusion⟩

/-- The transform `u` can take the place of `t`. -/
structure Simpler (config : OptimizerConfig) (t u : Transform) : Prop where
  /-- It is as simple as it can be. -/
  simple : u.simplify config = [u]
  /-- It is of the same group, unless it stands for a matrix. -/
  family : t.family = .matrix ∨ u.family = t.family
  /-- It has another shape, unless nothing could be simplified. -/
  eq_of_shape : u.shape = t.shape → u = t

/-- A transform is replaced by one, or a matrix by a move and a scale. -/
theorem simplify_cases (config : OptimizerConfig) (t : Transform) :
    (∃ u, t.simplify config = [u] ∧ Simpler config t u) ∨
      ∃ v f, t.simplify config = [.translate v, .ofScale f config.scaleThreshold] ∧
        t.family = .matrix := by
  cases t with
  | float4x4 m =>
      cases parts : m.simplify? config with
      | none =>
          have same : (float4x4 m).simplify config = [float4x4 m] := by
            rw [simplify, parts, Option.getD_none]
          exact .inl ⟨_, same, same, .inl rfl, fun _ => rfl⟩
      | some ts =>
          have forms : (float4x4 m).simplify config = ts := by
            rw [simplify, parts, Option.getD_some]
          rw [forms]
          simp only [Mat4.simplify?] at parts
          split at parts
          · split at parts
            · cases parts
              obtain ⟨simple, other⟩ := simplify_ofRotation config m.placement.rotation
                config.identityThreshold
              exact .inl ⟨_, rfl, simple, .inl rfl, fun same => absurd same other⟩
            · cases parts
              exact .inl ⟨_, rfl, rfl, .inl rfl, Shape.noConfusion⟩
            · cases parts
              exact .inr ⟨_, _, rfl, rfl⟩
            · cases parts
              refine .inl ⟨_, rfl, simplify_ofScale .., .inl rfl, fun same => ?_⟩
              unfold ofScale at same
              split at same <;> cases same
            · cases parts
          · cases parts
  | arbitraryScale v =>
      refine .inl ⟨_, rfl, simplify_ofScale .., .inr (family_ofScale v _), fun same => ?_⟩
      unfold ofScale at same ⊢
      split at same
      · cases same
      · rename_i uneven
        rw [if_neg uneven]
  | _ => exact .inl ⟨_, rfl, rfl, .inr rfl, fun _ => rfl⟩

theorem simplify_ne_nil (config : OptimizerConfig) (t : Transform) : t.simplify config ≠ [] := by
  rcases t.simplify_cases config with ⟨u, parts, _⟩ | ⟨v, f, parts, _⟩ <;> simp [parts]

end Transform

theorem removable_map_static (ts : List Transform) : removable (ts.map .static) = 0 := by
  induction ts with
  | nil => rfl
  | cons t ts ih => exact ih

/-- Only the last static transform of a row has slack. -/
theorem totalSlack_map_static {ts : List Transform} (some : ts ≠ []) (rest : List Instruction) :
    totalSlack (ts.map .static ++ rest) = slack rest + totalSlack rest := by
  induction ts with
  | nil => exact (some rfl).elim
  | cons t ts ih =>
      cases ts with
      | nil => rfl
      | cons u us => exact (Nat.zero_add _).trans (ih (List.cons_ne_nil u us))

theorem slack_simplify (config : OptimizerConfig) (i : Instruction)
    (rest rest' : List Instruction) : slack (i.simplify config ++ rest) = slack (i :: rest') := by
  cases i with
  | static t =>
      obtain ⟨u, us, parts⟩ := List.exists_cons_of_ne_nil (t.simplify_ne_nil config)
      rw [Instruction.simplify, parts]
      rfl
  | _ => rfl

theorem simplifyTransforms_cons (config : OptimizerConfig) (i : Instruction)
    (rest : List Instruction) : simplifyTransforms config (i :: rest) =
      i.simplify config ++ simplifyTransforms config rest := rfl

theorem simplifyTransforms_append (config : OptimizerConfig) (is js : List Instruction) :
    simplifyTransforms config (is ++ js) =
      simplifyTransforms config is ++ simplifyTransforms config js := List.flatMap_append

theorem slack_simplifyTransforms (config : OptimizerConfig) (is : List Instruction) :
    slack (simplifyTransforms config is) = slack is := by
  cases is with
  | nil => rfl
  | cons i rest => exact slack_simplify config i _ rest

/-- **Simplifying keeps the burden.** -/
theorem burden_simplifyTransforms (config : OptimizerConfig) (is : List Instruction) :
    burden (simplifyTransforms config is) = burden is := by
  have both : removable (simplifyTransforms config is) = removable is ∧
      totalSlack (simplifyTransforms config is) = totalSlack is := by
    induction is with
    | nil => exact ⟨rfl, rfl⟩
    | cons i rest ih =>
        obtain ⟨count, slacks⟩ := ih
        rw [simplifyTransforms_cons]
        cases i with
        | static t =>
            rw [Instruction.simplify, removable_append, removable_map_static,
              totalSlack_map_static (t.simplify_ne_nil config), slack_simplifyTransforms, count,
              slacks]
            exact ⟨Nat.zero_add _, rfl⟩
        | _ => exact ⟨by simp [Instruction.simplify, count], slacks⟩
  exact congrArg toLex (Prod.ext both.1 both.2)

/-- **What is simplified stays as it is.** -/
theorem simplifyTransforms_idem (config : OptimizerConfig) (is : List Instruction) :
    simplifyTransforms config (simplifyTransforms config is) = simplifyTransforms config is := by
  have parts : ∀ i : Instruction,
      simplifyTransforms config (i.simplify config) = i.simplify config := by
    intro i
    cases i with
    | static t =>
        rcases t.simplify_cases config with ⟨u, single, simpler⟩ | ⟨v, f, double, _⟩
        · simp [Instruction.simplify, simplifyTransforms, single, simpler.simple]
        · have move : (Transform.translate v).simplify config = [.translate v] := rfl
          simp [Instruction.simplify, simplifyTransforms, double, move,
            Transform.simplify_ofScale]
    | _ => rfl
  induction is with
  | nil => rfl
  | cons i rest ih =>
      rw [simplifyTransforms_cons, simplifyTransforms_append, parts, ih]

end Armature
