/-
**Lists that a merging pass leaves.**

In such a list no two static transforms in a row join, and no three stand in a row: the one in the
middle would have been moved to the last.  On a tidy list a merging pass changes nothing or makes
the burden smaller.  On other lists it can do something else: join two transforms where they stand,
which leaves the burden as it is, but cannot happen twice.

Main definitions:

* `Apart`, `Tidy` — a static transform, and all of them, that stay apart from what follows.

Main results:

* `Merges.burden_le` — a merging pass does not make the burden greater;
* `Merges.tidy` — **it leaves a tidy list**;
* `Merges.eases` — **it changes nothing in a tidy list, or makes its burden smaller**;
* `tidy_simplifyTransforms` — simplifying keeps a list tidy.
-/

import Armature.Proofs.Optimize.Folds
import Armature.Proofs.Optimize.Progress

set_option autoImplicit false

namespace Armature

variable {s : Transform} {foldable : UInt32 → Bool} {r : Reach} {i : Instruction}
  {is js rest : List Instruction}

/-! ### One move -/

/-- What becomes of a user: it keeps its place, and perhaps the transform comes to stand in front of
a blocker. -/
theorem burden_moveTo (user : r.marks i = true) (cheap : (movingCost foldable i).2 ≤ 1)
    (js : List Instruction) :
    removable (moveTo s foldable i ++ js) = removable (i :: js) ∧
      slack (moveTo s foldable i ++ js) ≤ slack (i :: js) ∧
      (totalSlack (moveTo s foldable i ++ js) : Int) =
        totalSlack (i :: js) + (movingCost foldable i).2 := by
  cases i with
  | push | pop => simp [Reach.marks, Instruction.role] at user
  | static t => exact ⟨rfl, Nat.le_refl _, (Int.add_zero _).symm⟩
  | write slot =>
      simp only [moveTo, movingCost, foldable_of_movingCost_le cheap, if_true]
      exact ⟨rfl, Nat.le_refl _, (Int.add_zero _).symm⟩
  | parameter | writeStatic | writeParameter | binding | comment =>
      refine ⟨rfl, Nat.zero_le _, ?_⟩
      simp only [moveTo, movingCost, List.cons_append, List.nil_append, totalSlack, slack,
        Instruction.role]
      omega

/-- What a move does where no write is wrapped. -/
theorem burden_absorb (s : Transform)
    (cheap : ∀ i ∈ r.influenced is, (movingCost foldable i).2 ≤ 1) :
    removable (absorb s foldable r is) = removable is ∧
      slack (absorb s foldable r is) ≤ slack is ∧
      (totalSlack (absorb s foldable r is) : Int) ≤
        totalSlack is + totalCost (((r.influenced is).map (movingCost foldable)).map Prod.snd) := by
  induction is generalizing r with
  | nil => exact ⟨rfl, Nat.le_refl _, Int.le_refl _⟩
  | cons i rest ih =>
      obtain ⟨count, near, total⟩ := ih fun j hj => cheap j (Reach.mem_influenced_of_mem hj)
      rw [absorb, Reach.influenced]
      have head := totalSlack_cons i rest
      have head' := totalSlack_cons i (absorb s foldable (r.step i) rest)
      split
      · rename_i user
        have own : (movingCost foldable i).2 ≤ 1 :=
          cheap i (Reach.mem_influenced_self user rest)
        obtain ⟨count', near', total'⟩ :=
          burden_moveTo (s := s) user own (absorb s foldable (r.step i) rest)
        refine ⟨?_, near', ?_⟩
        · rw [count', removable_cons, removable_cons, count]
        · rw [List.map_cons, List.map_cons, totalCost, total', head, head']
          split <;> push_cast <;> omega
      · refine ⟨?_, Nat.le_refl _, ?_⟩
        · rw [List.singleton_append, removable_cons, removable_cons, count]
        · rw [List.singleton_append, head, head']
          split <;> push_cast <;> omega

/-- A transform that has been used everywhere has no users left. -/
theorem Reach.influenced_of_carrying_eq_zero (h : r.carrying = 0) (is : List Instruction) :
    r.influenced is = [] := by
  induction is generalizing r with
  | nil => rfl
  | cons i rest ih =>
      have closed : r.isOpen = false := by simp [isOpen, h]
      have later : (r.step i).carrying = 0 := by
        cases i with
        | push =>
            simp only [step, h, if_true]
            split
            · exact h
            · rfl
        | pop count => simp only [step, h, Nat.zero_sub]
        | write => exact h
        | _ => simp only [step, closed, Bool.false_eq_true, if_false, h]
      rw [influenced, marks_eq_false closed, if_neg Bool.false_ne_true, ih later]

/-- A transform behind a transform is its only user. -/
theorem influenced_static (t : Transform) (rest : List Instruction) :
    Reach.start.influenced (.static t :: rest) = [.static t] :=
  congrArg (Instruction.static t :: ·) (Reach.influenced_of_carrying_eq_zero rfl rest)

theorem absorb_static (s t : Transform) (rest : List Instruction) :
    absorb s foldable .start (.static t :: rest) = .static (s.merge t) :: rest :=
  congrArg (Instruction.static (s.merge t) :: ·)
    (absorb_of_influenced_nil (Reach.influenced_of_carrying_eq_zero rfl rest)).1

/-- A transform is moved to one that follows if that is moved in turn, or the two join. -/
theorem shouldMove_static (s t : Transform) (rest : List Instruction) :
    shouldMove foldable s (.static t :: rest) =
      (worthMerging foldable (Reach.start.influenced rest) || s.joins t) := by
  unfold shouldMove
  rw [influenced_static]
  rfl

theorem worthMerging_of_slack_eq_zero (near : slack rest = 0) :
    worthMerging foldable (Reach.start.influenced rest) = true := by
  obtain ⟨t, rest, rfl⟩ := slack_eq_zero_iff.1 near
  rw [influenced_static]
  rfl

/-- Transforms that do not join become a matrix. -/
theorem Transform.family_merge {s t : Transform} (apart : s.joins t = false) :
    (s.merge t).family = .matrix := by
  cases s <;> cases t <;> first | rfl | cases apart

/-- A matrix joins whatever uses it. -/
theorem shouldMove_of_matrix (matrix : s.family = .matrix)
    (worth : worthMerging foldable (Reach.start.influenced rest) = true) :
    shouldMove foldable s rest = true := by
  rw [shouldMove, worth, Bool.true_and]
  split
  · rw [Transform.joins, matrix, beq_self_eq_true, Bool.true_or, Bool.true_or, Bool.or_true]
  · rfl

/-- A transform in front of a blocker is not moved. -/
theorem slack_ne_one_of_shouldMove (h : shouldMove foldable s rest = true) : slack rest ≠ 1 := by
  have free := startsWithBlocker_eq_false (worthMerging_of_shouldMove h)
  cases rest with
  | nil => decide
  | cons i rest => cases i <;> simp_all [startsWithBlocker, slack, Instruction.role]

/-- **A move does not make the burden greater**, and makes it smaller unless it joins two transforms
where they stand. -/
theorem burden_absorb_le (worth : shouldMove foldable s rest = true) :
    burden (absorb s foldable .start rest) ≤ burden (.static s :: rest) ∧
      (slack rest ≠ 0 → burden (absorb s foldable .start rest) < burden (.static s :: rest)) := by
  by_cases near : slack rest = 0
  · refine ⟨?_, fun far => absurd near far⟩
    obtain ⟨t, rest, rfl⟩ := slack_eq_zero_iff.1 near
    rw [absorb_static]
    exact burden_le_static s (.static t :: rest)
  · obtain ⟨count, _, total⟩ := burden_absorb s (movingCost_le_of_shouldMove worth)
    have certain := certainCost_le_of_shouldMove worth
    have far := slack_ne_one_of_shouldMove worth
    have less : burden (absorb s foldable .start rest) < burden (.static s :: rest) := by
      refine burden_lt_iff.2 (.inr ⟨count, ?_⟩)
      rw [totalSlack]
      omega
    exact ⟨le_of_lt less, fun _ => less⟩

/-! ### A pass -/

namespace Merges

variable {taken : List UInt32} {folds : List Fold}

/-- A pass does not touch the first instruction if it is no static transform. -/
theorem slack_eq (h : Merges foldable taken is folds (.ok js)) (far : slack is ≠ 0) :
    slack js = slack is := by
  generalize done : (Except.ok js : Except OptimizeFault _) = result at h
  cases h with
  | nil => cases done; rfl
  | unused | rejected | moved => exact absurd rfl far
  | @passed _ i rest _ result _ next =>
      cases result with
      | error => cases done
      | ok ks => cases done; rfl

/-- A transform stays if the one in front of it does. -/
theorem exists_of_static {t : Transform} (stays : shouldMove foldable s (.static t :: rest) = false)
    (h : Merges foldable taken (.static t :: rest) folds (.ok js)) :
    s.joins t = false ∧ ∃ ks, js = .static t :: ks ∧ slack rest ≠ 0 ∧
      Merges foldable taken rest folds (.ok ks) := by
  rw [shouldMove_static, Bool.or_eq_false_iff] at stays
  obtain ⟨unworthy, apart⟩ := stays
  refine ⟨apart, ?_⟩
  generalize done : (Except.ok js : Except OptimizeFault _) = result at h
  cases h with
  | unused users next =>
      rw [users] at unworthy
      cases unworthy
  | rejected worth | moved worth =>
      rw [worthMerging_of_shouldMove worth] at unworthy
      cases unworthy
  | @passed _ _ _ _ result _ next =>
      cases result with
      | error => cases done
      | ok ks =>
          cases done
          refine ⟨ks, rfl, fun near => ?_, next⟩
          rw [worthMerging_of_slack_eq_zero near] at unworthy
          cases unworthy

/-- In front of a transform that stays, nothing comes further away. -/
theorem slack_le (stays : shouldMove foldable s rest = false)
    (h : Merges foldable taken rest folds (.ok js)) : slack js ≤ slack rest := by
  by_cases near : slack rest = 0
  · obtain ⟨t, rest, rfl⟩ := slack_eq_zero_iff.1 near
    obtain ⟨_, ks, rfl, _⟩ := h.exists_of_static stays
    exact Nat.le_refl _
  · exact (h.slack_eq near).le

/-- **A merging pass does not make the burden greater.** -/
theorem burden_le (h : Merges foldable taken is folds (.ok js)) : burden js ≤ burden is := by
  generalize done : (Except.ok js : Except OptimizeFault _) = result at h
  induction h generalizing js with
  | nil => cases done; exact le_refl _
  | @unused _ s rest _ _ _ _ ih => exact (ih done).trans (burden_le_static s rest)
  | rejected => cases done
  | moved worth _ _ ih => exact (ih done).trans (burden_absorb_le worth).1
  | @passed _ i rest _ result stays next ih =>
      cases result with
      | error => cases done
      | ok ks =>
          cases done
          refine burden_cons_le i (ih rfl) fun role => ?_
          cases i with
          | static s => exact next.slack_le (stays s rfl)
          | _ => cases role

end Merges

/-! ### Tidy lists -/

/-- A transform does not join the one behind it, if there is one, which is then the last in its
row. -/
def Apart (s : Transform) : List Instruction → Prop
  | .static t :: rest => s.joins t = false ∧ slack rest ≠ 0
  | _ => True

/-- All static transforms stay apart from what follows. -/
def Tidy : List Instruction → Prop
  | [] => True
  | .static s :: rest => Apart s rest ∧ Tidy rest
  | _ :: rest => Tidy rest

theorem apart_of_slack_ne_zero (s : Transform) (far : slack rest ≠ 0) : Apart s rest := by
  cases rest with
  | nil => trivial
  | cons i rest =>
      cases i with
      | static t => exact absurd rfl far
      | _ => trivial

theorem Tidy.tail (h : Tidy (i :: rest)) : Tidy rest := by
  cases i with
  | static s => exact h.2
  | _ => exact h

theorem tidy_cons (h : Tidy rest) (apart : ∀ s, i = .static s → Apart s rest) :
    Tidy (i :: rest) := by
  cases i with
  | static s => exact ⟨apart s rfl, h⟩
  | _ => exact h

namespace Merges

variable {taken : List UInt32} {folds : List Fold}

/-- **A merging pass leaves a tidy list.** -/
theorem tidy (h : Merges foldable taken is folds (.ok js)) : Tidy js := by
  generalize done : (Except.ok js : Except OptimizeFault _) = result at h
  induction h generalizing js with
  | nil => cases done; trivial
  | unused _ _ ih | moved _ _ _ ih => exact ih done
  | rejected => cases done
  | @passed _ i rest _ result stays next ih =>
      cases result with
      | error => cases done
      | ok ks =>
          cases done
          refine tidy_cons (ih rfl) ?_
          rintro s rfl
          by_cases near : slack rest = 0
          · obtain ⟨t, rest, rfl⟩ := slack_eq_zero_iff.1 near
            obtain ⟨apart, ls, rfl, far, next'⟩ := next.exists_of_static (stays s rfl)
            exact ⟨apart, (next'.slack_eq far).trans_ne far⟩
          · exact apart_of_slack_ne_zero s ((next.slack_eq near).trans_ne near)

/-- A transform that is to be moved goes, and makes the burden smaller unless it only goes to the
next place. -/
theorem burden_lt_of_shouldMove (worth : shouldMove foldable s rest = true) (far : slack rest ≠ 0)
    (h : Merges foldable taken (.static s :: rest) folds (.ok js)) :
    burden js < burden (.static s :: rest) := by
  generalize done : (Except.ok js : Except OptimizeFault _) = result at h
  cases h with
  | unused _ next =>
      subst done
      exact lt_of_le_of_lt next.burden_le (burden_lt_static far s)
  | rejected => cases done
  | moved worth _ next =>
      subst done
      exact lt_of_le_of_lt next.burden_le ((burden_absorb_le worth).2 far)
  | passed stays =>
      rw [stays s rfl] at worth
      cases worth

/-- **A merging pass changes nothing in a tidy list, or makes its burden smaller.** -/
theorem eases (h : Merges foldable taken is folds (.ok js)) (tidy : Tidy is) : Eases is js := by
  generalize done : (Except.ok js : Except OptimizeFault _) = result at h
  induction h generalizing js with
  | nil => cases done; exact .inl rfl
  | @unused _ s rest _ _ users next ih =>
      subst done
      refine .inr (lt_of_le_of_lt next.burden_le (burden_lt_static (fun near => ?_) s))
      obtain ⟨t, rest, rfl⟩ := slack_eq_zero_iff.1 near
      rw [influenced_static] at users
      cases users
  | rejected => cases done
  | @moved _ s rest folds _ worth _ next ih =>
      subst done
      by_cases near : slack rest = 0
      · -- what is joined without being worth it is a matrix, and goes on at once
        obtain ⟨t, rest, rfl⟩ := slack_eq_zero_iff.1 near
        obtain ⟨apart, far⟩ : s.joins t = false ∧ slack rest ≠ 0 := tidy.1
        rw [shouldMove_static, apart, Bool.or_false] at worth
        rw [absorb_static] at next
        have goes := shouldMove_of_matrix (Transform.family_merge apart) worth
        exact .inr (lt_of_lt_of_le (next.burden_lt_of_shouldMove goes far)
          (burden_le_static s (.static t :: rest)))
      · exact .inr (lt_of_le_of_lt next.burden_le ((burden_absorb_le worth).2 near))
  | @passed _ i rest _ result stays next ih =>
      cases result with
      | error => cases done
      | ok ks =>
          cases done
          refine (ih tidy.tail rfl).cons i fun role => ?_
          cases i with
          | static s => exact next.slack_le (stays s rfl)
          | _ => cases role

end Merges

/-! ### Simpler transforms -/

/-- Whether two transforms join depends on their groups only. -/
theorem Transform.joins_congr {s s' t t' : Transform} (hs : s'.family = s.family)
    (ht : t'.family = t.family) : s'.joins t' = s.joins t := by
  rw [joins, joins, hs, ht]

theorem Transform.family_ne_of_not_joins {s t : Transform} (apart : s.joins t = false) :
    s.family ≠ .matrix ∧ t.family ≠ .matrix := by
  constructor <;> intro matrix <;> simp [joins, matrix] at apart

/-- **Simplifying keeps a list tidy.** -/
theorem tidy_simplifyTransforms (config : OptimizerConfig) (tidy : Tidy is) :
    Tidy (simplifyTransforms config is) := by
  induction is with
  | nil => trivial
  | cons i rest ih =>
      rw [simplifyTransforms_cons]
      cases i with
      | static s =>
          obtain ⟨apart, tidy⟩ := tidy
          rcases s.simplify_cases config with ⟨u, single, simpler⟩ | ⟨v, f, double, matrix⟩
          · rw [Instruction.simplify, single]
            refine ⟨?_, ih tidy⟩
            by_cases near : slack rest = 0
            · obtain ⟨t, rest, rfl⟩ := slack_eq_zero_iff.1 near
              obtain ⟨apart, far⟩ : s.joins t = false ∧ slack rest ≠ 0 := apart
              obtain ⟨hs, ht⟩ := Transform.family_ne_of_not_joins apart
              rw [simplifyTransforms_cons, Instruction.simplify]
              rcases t.simplify_cases config with ⟨u', single', simpler'⟩ | ⟨v, f, _, matrix⟩
              · rw [single']
                refine ⟨?_, (slack_simplifyTransforms config rest).trans_ne far⟩
                rw [Transform.joins_congr (simpler.family.resolve_left hs)
                  (simpler'.family.resolve_left ht), apart]
              · exact absurd matrix ht
            · exact apart_of_slack_ne_zero u ((slack_simplifyTransforms config rest).trans_ne near)
          · -- a matrix stands alone
            have far : slack rest ≠ 0 := by
              intro near
              obtain ⟨t, rest, rfl⟩ := slack_eq_zero_iff.1 near
              exact (Transform.family_ne_of_not_joins (And.left apart)).1 matrix
            have far' := (slack_simplifyTransforms config rest).trans_ne far
            rw [Instruction.simplify, double]
            refine ⟨⟨?_, far'⟩, apart_of_slack_ne_zero _ far', ih tidy⟩
            rw [Transform.joins, Transform.family_ofScale]
            rfl
      | _ => exact ih tidy

end Armature
