/-
**How much bigger a list may become.**

The optimizer is meant to make lists smaller, but two of its passes may do the opposite.  Two
transforms that do not join become a matrix where the first is moved to the second, though a matrix
takes more words than both; and a matrix that moves and scales becomes two transforms.  Moves are
weighed by the number of instructions alone, and what is won by one move may be lost again when
another transform is split.

What a list may become is bounded by what it is charged: every instruction for itself, except that
static transforms are charged by the row, and a row is charged like a matrix.  Each matrix begins a
row.  No pass makes the charge greater, and after a merging pass a row holds no more than it is
charged, since at most two transforms that are no matrices are left in it.

Main definitions:

* `rows` — the number of rows of static transforms;
* `Gauge`, `Gauge.total`, `Gauge.charge` — a way to measure lists, the measure, and the charge;
* `Gauge.instructions`, `Gauge.words` — the number of instructions and of words as such measures;
* `Gauge.Cheaper` — neither the measure nor the charge becomes greater.

Main results:

* `Gauge.cheaper_eliminateDead`, `Gauge.cheaper_removeRedundantPushes`,
  `Gauge.cheaper_simplifyTransforms`, `Gauge.cheaper_fuseWrites` — the passes that make no moves;
* `Merges.charge_le` — **a merging pass does not make the charge greater**;
* `Gauge.total_le_charge_of_tidy` — **a tidy list takes no more than it is charged**;
* `Gauge.total_iterate_nextRound_le` — any number of rounds takes no more than the list is charged;
* `optimize_size_le` — **how big an optimized stream is at most**;
* `optimize_grows` — a stream that becomes bigger.
-/

import Mathlib.Algebra.GroupWithZero.Nat
import Armature.Proofs.Codec.Walks
import Armature.Proofs.Optimize.Settling

set_option autoImplicit false

namespace Armature

/-! ### Rows -/

/-- The static transform of an instruction. -/
def Instruction.static? : Instruction → Option Transform
  | static t => some t
  | _ => none

/-- The static transforms of a list, in order. -/
def statics (is : List Instruction) : List Transform := is.filterMap Instruction.static?

/-- The number of rows of static transforms, where `behind` says that one stands in front of the
list.  A matrix begins a row, and so does any other static transform that has none right in front of
it. -/
def rows (behind : Bool) : List Instruction → Nat
  | [] => 0
  | .static t :: rest => (if behind = true ∧ t.family ≠ .matrix then 0 else 1) + rows true rest
  | _ :: rest => rows false rest

/-! ### Measures -/

/-- A way to measure instructions for which a matrix costs at least as much as what it is split into
or joined with. -/
structure Gauge where
  /-- What an instruction costs. -/
  cost : Instruction → Nat
  /-- What a matrix costs, or a row. -/
  unit : Nat
  /-- A matrix costs as much as a row. -/
  cost_matrix : ∀ {t : Transform}, t.family = .matrix → cost (.static t) = unit
  /-- Two other transforms cost no more than a row. -/
  cost_other : ∀ {t : Transform}, t.family ≠ .matrix → 2 * cost (.static t) ≤ unit
  /-- One factor costs no more than three. -/
  cost_scale : ∀ a v, cost (.static (.uniformScale a)) ≤ cost (.static (.arbitraryScale v))
  /-- Pops cost the same. -/
  cost_pop : ∀ count count', cost (.pop count) = cost (.pop count')
  /-- A write through a matrix costs no more than both. -/
  cost_writeStatic : ∀ slot matrix, cost (.writeStatic slot matrix) ≤ unit + cost (.write slot)
  /-- A write through a parameter costs no more than both. -/
  cost_writeParameter : ∀ slot offset, cost (.writeParameter slot offset) ≤
    cost (.parameter .float4x4 offset) + cost (.write slot)

namespace Gauge

variable (g : Gauge)

/-- What a list costs. -/
def total (is : List Instruction) : Nat := (is.map g.cost).sum

/-- What an instruction is charged, where `behind` says that a static transform stands right in
front of it. -/
def own (behind : Bool) : Instruction → Nat
  | .static t => if behind = true ∧ t.family ≠ .matrix then 0 else g.unit
  | i => g.cost i

/-- What a list is charged. -/
def charge (behind : Bool) : List Instruction → Nat
  | [] => 0
  | i :: rest => g.own behind i + charge (i.role == .static) rest

@[simp] theorem total_cons (i : Instruction) (rest : List Instruction) :
    g.total (i :: rest) = g.cost i + g.total rest := List.sum_cons

theorem charge_cons (behind : Bool) (i : Instruction) (rest : List Instruction) :
    g.charge behind (i :: rest) = g.own behind i + g.charge (i.role == .static) rest := rfl

theorem charge_static (behind : Bool) (t : Transform) (rest : List Instruction) :
    g.charge behind (.static t :: rest) = g.own behind (.static t) + g.charge true rest := rfl

/-- A static transform without one in front of it begins a row. -/
theorem own_first (t : Transform) : g.own false (.static t) = g.unit := rfl

theorem own_matrix (behind : Bool) {t : Transform} (matrix : t.family = .matrix) :
    g.own behind (.static t) = g.unit := if_neg fun other => other.2 matrix

theorem own_other {t : Transform} (other : t.family ≠ .matrix) : g.own true (.static t) = 0 :=
  if_pos ⟨rfl, other⟩

theorem own_of_not_static {i : Instruction} (h : i.role ≠ .static) (behind : Bool) :
    g.own behind i = g.cost i := by
  cases i with
  | static => exact absurd rfl h
  | _ => rfl

theorem own_le_unit (behind : Bool) (t : Transform) : g.own behind (.static t) ≤ g.unit := by
  rw [own]
  split
  · exact Nat.zero_le _
  · exact Nat.le_refl _

/-- Behind a static transform an instruction is charged at most the cost of a row less. -/
theorem own_bounds (i : Instruction) :
    g.own true i ≤ g.own false i ∧ g.own false i ≤ g.own true i + g.unit := by
  by_cases role : i.role = .static
  · cases i with
    | static t => exact ⟨g.own_le_unit true t, Nat.le_add_left ..⟩
    | _ => cases role
  · rw [g.own_of_not_static role, g.own_of_not_static role]
    exact ⟨Nat.le_refl _, Nat.le_add_right ..⟩

theorem charge_bounds (is : List Instruction) :
    g.charge true is ≤ g.charge false is ∧ g.charge false is ≤ g.charge true is + g.unit := by
  cases is with
  | nil => exact ⟨Nat.le_refl _, Nat.zero_le _⟩
  | cons i rest =>
      have bounds := g.own_bounds i
      rw [charge_cons, charge_cons]
      omega

theorem charge_le_first (behind : Bool) (is : List Instruction) :
    g.charge behind is ≤ g.charge false is := by
  cases behind with
  | false => exact Nat.le_refl _
  | true => exact (g.charge_bounds is).1

/-- Where no static transform follows it does not matter whether one stands in front. -/
theorem charge_eq_of_slack_ne_zero {is : List Instruction} (far : slack is ≠ 0) (behind : Bool) :
    g.charge behind is = g.charge false is := by
  cases is with
  | nil => rfl
  | cons i rest =>
      have role : i.role ≠ .static := fun same => far (by rw [slack, same])
      rw [charge_cons, charge_cons, g.own_of_not_static role, g.own_of_not_static role]

/-- A transform costs no more than a row. -/
theorem cost_static_le (t : Transform) : g.cost (.static t) ≤ g.unit := by
  by_cases matrix : t.family = .matrix
  · exact (g.cost_matrix matrix).le
  · have two := g.cost_other matrix
    omega

/-! ### Edits -/

/-- Neither the measure nor the charge becomes greater. -/
structure Cheaper (is js : List Instruction) : Prop where
  /-- The measure. -/
  total : g.total js ≤ g.total is
  /-- The charge, whatever stands in front. -/
  charge : ∀ behind, g.charge behind js ≤ g.charge behind is

namespace Cheaper

variable {g} {is js ks : List Instruction}

theorem refl (is : List Instruction) : g.Cheaper is is :=
  ⟨Nat.le_refl _, fun _ => Nat.le_refl _⟩

theorem trans (h : g.Cheaper is js) (h' : g.Cheaper js ks) : g.Cheaper is ks :=
  ⟨Nat.le_trans h'.total h.total, fun behind => Nat.le_trans (h'.charge behind) (h.charge behind)⟩

/-- An instruction may stand in front. -/
theorem cons (i : Instruction) (h : g.Cheaper is js) : g.Cheaper (i :: is) (i :: js) :=
  ⟨Nat.add_le_add_left h.total _, fun _ => Nat.add_le_add_left (h.charge _) _⟩

theorem append (front : List Instruction) (h : g.Cheaper is js) :
    g.Cheaper (front ++ is) (front ++ js) := by
  induction front with
  | nil => exact h
  | cons i front ih => exact ih.cons i

/-- The first instruction may go. -/
theorem drop (i : Instruction) (is : List Instruction) : g.Cheaper (i :: is) is := by
  refine ⟨Nat.le_add_left .., fun behind => ?_⟩
  rw [charge_cons]
  by_cases role : i.role = .static
  · cases i with
    | static t =>
        -- what stood behind it begins the row instead
        have bounds := g.charge_bounds is
        cases behind with
        | true => exact Nat.le_add_left ..
        | false =>
            rw [own_first]
            exact Nat.le_trans bounds.2 (Nat.add_comm .. ▸ Nat.le_refl _)
    | _ => cases role
  · rw [beq_false_of_ne role]
    exact Nat.le_trans (g.charge_le_first behind is) (Nat.le_add_left ..)

theorem of_sublist (h : js.Sublist is) : g.Cheaper is js := by
  induction h with
  | slnil => exact refl []
  | cons i _ ih => exact (drop i _).trans ih
  | cons_cons i _ ih => exact ih.cons i

/-- The number of frames that a pop closes does not matter. -/
theorem pop (count count' : UInt32) (is : List Instruction) :
    g.Cheaper (.pop count :: is) (.pop count' :: is) := by
  have same := g.cost_pop count' count
  exact ⟨Nat.add_le_add_right same.le _, fun _ => Nat.add_le_add_right same.le _⟩

/-- A static transform may take the place of another. -/
theorem replace {t u : Transform} (cost : g.cost (.static u) ≤ g.cost (.static t))
    (own : ∀ behind, g.own behind (.static u) ≤ g.own behind (.static t))
    (is : List Instruction) : g.Cheaper (.static t :: is) (.static u :: is) :=
  ⟨Nat.add_le_add_right cost _, fun behind => Nat.add_le_add_right (own behind) _⟩

/-- Two other transforms may take the place of a matrix. -/
theorem split {t u v : Transform} (matrix : t.family = .matrix) (hu : u.family ≠ .matrix)
    (hv : v.family ≠ .matrix) (is : List Instruction) :
    g.Cheaper (.static t :: is) (.static u :: .static v :: is) := by
  refine ⟨?_, fun behind => ?_⟩
  · have first := g.cost_other hu
    have second := g.cost_other hv
    rw [total_cons, total_cons, total_cons, g.cost_matrix matrix]
    omega
  · have first := g.own_le_unit behind u
    rw [charge_static, charge_static, charge_static, g.own_matrix behind matrix, g.own_other hv]
    omega

end Cheaper

/-! ### Passes without moves -/

theorem cheaper_eliminateDead (is : List Instruction) : g.Cheaper is (eliminateDead is) :=
  .of_sublist (eliminateDead_sublist is)

/-- **Dropping pushes makes nothing dearer.** -/
theorem cheaper_removeRedundantPushes (is : List Instruction) :
    g.Cheaper is (removeRedundantPushes is) := by
  refine removeRedundantPushes_induction g.Cheaper .refl .trans .cons (.drop _) ?_ ?_ is
  · exact fun count more is => (Cheaper.drop _ _).trans (.pop more (count + more) is)
  · intro is js released
    refine (Cheaper.drop _ is).trans ?_
    rcases eq_or_split_of_release? released with rfl | ⟨front, count, rest, rfl, rfl⟩
    · exact .refl _
    · refine Cheaper.append front ?_
      unfold oneLess
      split
      · exact .pop count (count - 1) rest
      · exact .drop _ rest

/-- What a transform is replaced by costs no more. -/
theorem cost_simplify_le {config : OptimizerConfig} {t u : Transform}
    (single : t.simplify config = [u]) : g.cost (.static u) ≤ g.cost (.static t) := by
  cases t with
  | float4x4 => exact Nat.le_trans (g.cost_static_le u) (g.cost_matrix rfl).ge
  | arbitraryScale v =>
      obtain rfl := List.head_eq_of_cons_eq single
      unfold Transform.ofScale
      split
      · exact g.cost_scale _ v
      · exact Nat.le_refl _
  | _ =>
      obtain rfl := List.head_eq_of_cons_eq single
      exact Nat.le_refl _

/-- The simpler forms of a transform take its place. -/
theorem cheaper_simplify (config : OptimizerConfig) (t : Transform) (is : List Instruction) :
    g.Cheaper (.static t :: is) ((Instruction.static t).simplify config ++ is) := by
  rcases t.simplify_cases config with ⟨u, single, simpler⟩ | ⟨v, f, double, matrix⟩
  · rw [Instruction.simplify, single]
    refine Cheaper.replace (g.cost_simplify_le single) (fun behind => ?_) is
    by_cases matrix : t.family = .matrix
    · rw [g.own_matrix behind matrix]
      exact g.own_le_unit behind u
    · rw [own, own, simpler.family.resolve_left matrix]
  · have scale : (Transform.ofScale f config.scaleThreshold).family ≠ .matrix := by
      rw [Transform.family_ofScale]
      exact Transform.Family.noConfusion
    rw [Instruction.simplify, double]
    exact Cheaper.split matrix Transform.Family.noConfusion scale is

/-- **Simplifying makes nothing dearer.** -/
theorem cheaper_simplifyTransforms (config : OptimizerConfig) (is : List Instruction) :
    g.Cheaper is (simplifyTransforms config is) := by
  induction is with
  | nil => exact .refl []
  | cons i rest ih =>
      rw [simplifyTransforms_cons]
      cases i with
      | static t => exact (ih.cons _).trans (g.cheaper_simplify config t _)
      | _ => exact ih.cons _

/-- A joined write costs no more than what was joined. -/
theorem cheaper_fuse {i j fused : Instruction} (h : i.fuse? j = some fused)
    (is : List Instruction) : g.Cheaper (i :: j :: is) (fused :: is) := by
  unfold Instruction.fuse? at h
  split at h
  · rename_i matrix slot
    cases h
    have cost := g.cost_writeStatic slot matrix
    have unit : g.cost (.static (.float4x4 matrix)) = g.unit := g.cost_matrix rfl
    refine ⟨?_, fun behind => ?_⟩
    · rw [total_cons, total_cons, total_cons]
      omega
    · rw [charge_cons, charge_cons, charge_cons, g.own_matrix behind rfl]
      show g.cost _ + g.charge false is ≤ g.unit + (g.cost _ + g.charge false is)
      omega
  · rename_i offset slot
    cases h
    have cost := g.cost_writeParameter slot offset
    refine ⟨?_, fun behind => ?_⟩
    · rw [total_cons, total_cons, total_cons]
      omega
    · show g.cost _ + g.charge false is ≤ g.cost _ + (g.cost _ + g.charge false is)
      omega
  · cases h

/-- **Joining matrices with writes makes nothing dearer.** -/
theorem cheaper_fuseWrites (is : List Instruction) : g.Cheaper is (fuseWrites is) := by
  fun_induction fuseWrites is with
  | case1 => exact .refl []
  | case2 i => exact .refl [i]
  | case3 i j rest fused h ih =>
      split at h
      · exact (g.cheaper_fuse h rest).trans (ih.cons fused)
      · cases h
  | case4 i j rest h ih => exact ih.cons i

end Gauge

/-! ### Moves -/

section Moves

variable (g : Gauge) {s : Transform} {foldable : UInt32 → Bool} {r : Reach} {i : Instruction}
  {is js rest : List Instruction}

/-- What becomes of a user is charged as the user, and as a row more if it is a blocker. -/
theorem charge_moveTo (user : r.marks i = true) (cheap : (movingCost foldable i).2 ≤ 1)
    (js : List Instruction) :
    (g.charge false (moveTo s foldable i ++ js) : Int) =
      g.charge false (i :: js) + g.unit * (movingCost foldable i).2 := by
  cases i with
  | push | pop => simp [Reach.marks, Instruction.role] at user
  | static t => simp [moveTo, movingCost, g.charge_static, g.own_first]
  | write slot =>
      simp [moveTo, movingCost, foldable_of_movingCost_le cheap]
  | parameter | writeStatic | writeParameter | binding | comment =>
      show ((g.unit + (g.cost _ + g.charge false js) : Nat) : Int) =
        (g.cost _ + g.charge false js : Nat) + g.unit * 1
      push_cast
      omega

/-- What a move does to the charge where no write is wrapped.  No static transform stands in front
of a user, since it would have been the user. -/
theorem charge_absorb (cheap : ∀ i ∈ r.influenced is, (movingCost foldable i).2 ≤ 1)
    {behind : Bool} (used : behind = true → r.isOpen = false) :
    (g.charge behind (absorb s foldable r is) : Int) = g.charge behind is +
      g.unit * totalCost (((r.influenced is).map (movingCost foldable)).map Prod.snd) := by
  induction is generalizing r behind with
  | nil => simp [absorb, Reach.influenced, totalCost]
  | cons i rest ih =>
      have later := ih (fun j hj => cheap j (Reach.mem_influenced_of_mem hj)) fun role =>
        Reach.isOpen_step (.inl (beq_iff_eq.1 role))
      rw [absorb, Reach.influenced]
      split
      · rename_i user
        have first : behind = false := by
          cases behind with
          | false => rfl
          | true => exact absurd user (by simp [Reach.marks_eq_false (used rfl)])
        have own : (movingCost foldable i).2 ≤ 1 :=
          cheap i (Reach.mem_influenced_self user rest)
        rw [first, charge_moveTo g user own, g.charge_cons, g.charge_cons, List.map_cons,
          List.map_cons, totalCost, Int.mul_add]
        push_cast
        omega
      · rw [List.singleton_append, g.charge_cons, g.charge_cons]
        push_cast
        omega

/-- **A move does not make the charge greater**, where no static transform stands in front. -/
theorem charge_absorb_le (worth : shouldMove foldable s rest = true) :
    g.charge false (absorb s foldable .start rest) ≤ g.charge false (.static s :: rest) := by
  rw [g.charge_static, g.own_first]
  by_cases near : slack rest = 0
  · obtain ⟨t, rest, rfl⟩ := slack_eq_zero_iff.1 near
    rw [absorb_static, g.charge_static, g.charge_static, g.own_first]
    omega
  · have moved : (g.charge false (absorb s foldable .start rest) : Int) = _ :=
      charge_absorb g (movingCost_le_of_shouldMove worth) fun h => absurd h Bool.false_ne_true
    have bound := Int.mul_le_mul_of_nonneg_left (certainCost_le_of_shouldMove worth)
      (Int.natCast_nonneg g.unit)
    have same := g.charge_eq_of_slack_ne_zero near true
    omega

/-- **A merging pass does not make the charge greater.**  What stands right behind a static
transform that stays is not moved. -/
theorem Merges.charge_le {taken : List UInt32} {folds : List Fold}
    (h : Merges foldable taken is folds (.ok js)) {behind : Bool}
    (stays : behind = true → ∃ x, shouldMove foldable x is = false) :
    g.charge behind js ≤ g.charge behind is := by
  generalize done : (Except.ok js : Except OptimizeFault _) = result at h
  induction h generalizing js behind with
  | nil => cases done; exact Nat.le_refl _
  | @unused _ s rest _ _ users _ ih =>
      cases behind with
      | false =>
          refine Nat.le_trans (ih ?_ done) ((Gauge.Cheaper.drop _ rest).charge false)
          exact fun h => absurd h Bool.false_ne_true
      | true =>
          obtain ⟨x, unmoved⟩ := stays rfl
          rw [shouldMove_static, users] at unmoved
          cases unmoved
  | rejected => cases done
  | @moved _ s rest _ _ worth _ _ ih =>
      cases behind with
      | false =>
          refine Nat.le_trans (ih ?_ done) (charge_absorb_le g worth)
          exact fun h => absurd h Bool.false_ne_true
      | true =>
          obtain ⟨x, unmoved⟩ := stays rfl
          rw [shouldMove_static, worthMerging_of_shouldMove worth] at unmoved
          cases unmoved
  | @passed _ i rest _ result still _ ih =>
      cases result with
      | error => cases done
      | ok ks =>
          cases done
          rw [g.charge_cons, g.charge_cons]
          refine Nat.add_le_add_left (ih (fun role => ?_) rfl) _
          cases i with
          | static s => exact ⟨s, still s rfl⟩
          | _ => cases role

end Moves

/-! ### Rounds -/

namespace Gauge

variable (g : Gauge) {config : OptimizerConfig} {is : List Instruction}

/-- **A tidy list takes no more than it is charged.** -/
theorem total_le_charge_of_tidy (tidy : Tidy is) : g.total is ≤ g.charge false is := by
  -- of two transforms in a row the second is the last, and then counts by itself
  have both : g.total is ≤ g.charge false is ∧
      ∀ t rest, is = .static t :: rest → t.family ≠ .matrix → slack rest ≠ 0 →
        g.total is ≤ g.cost (.static t) + g.charge true is := by
    induction is with
    | nil => exact ⟨Nat.le_refl _, fun _ _ h => nomatch h⟩
    | cons i rest ih =>
        obtain ⟨le, pair⟩ := ih tidy.tail
        by_cases role : i.role = .static
        · obtain ⟨s, rfl⟩ : ∃ s, i = .static s := by
            cases i with
            | static s => exact ⟨s, rfl⟩
            | _ => cases role
          refine ⟨?_, ?_⟩
          · rw [total_cons, charge_static, own_first]
            by_cases near : slack rest = 0
            · obtain ⟨t, rest, rfl⟩ := slack_eq_zero_iff.1 near
              obtain ⟨apart, far⟩ : s.joins t = false ∧ slack rest ≠ 0 := tidy.1
              obtain ⟨hs, ht⟩ := Transform.family_ne_of_not_joins apart
              have first := g.cost_other hs
              have second := g.cost_other ht
              have row := pair t rest rfl ht far
              omega
            · have own := g.cost_static_le s
              have same := g.charge_eq_of_slack_ne_zero near true
              omega
          · rintro t _ ⟨⟩ other far
            have same := g.charge_eq_of_slack_ne_zero far true
            rw [total_cons, charge_static, g.own_other other]
            omega
        · refine ⟨?_, ?_⟩
          · rw [total_cons, charge_cons, g.own_of_not_static role, beq_false_of_ne role]
            exact Nat.add_le_add_left le _
          · rintro t _ ⟨⟩
            exact absurd rfl role
  exact both.1

/-- A round makes the charge no greater, and leaves no more than was charged. -/
theorem nextRound_le (config : OptimizerConfig) (is : List Instruction) :
    g.charge false (nextRound config is) ≤ g.charge false is ∧
      g.total (nextRound config is) ≤ g.charge false is := by
  obtain ⟨folds, js, merges, next⟩ := exists_merges_nextRound config is
  have before : g.Cheaper is (removeRedundantPushes (eliminateDead is)) :=
    (g.cheaper_eliminateDead is).trans (g.cheaper_removeRedundantPushes _)
  have after : g.Cheaper js (nextRound config is) := by
    rw [next]
    exact (g.cheaper_removeRedundantPushes js).trans
      ((g.cheaper_simplifyTransforms config _).trans
        ((g.cheaper_fuseWrites _).trans (g.cheaper_removeRedundantPushes _)))
  have moves : g.charge false js ≤ g.charge false is :=
    Nat.le_trans (merges.charge_le g fun h => absurd h Bool.false_ne_true) (before.charge false)
  exact ⟨Nat.le_trans (after.charge false) moves,
    Nat.le_trans after.total (Nat.le_trans (g.total_le_charge_of_tidy merges.tidy) moves)⟩

theorem charge_iterate_nextRound_le (config : OptimizerConfig) (n : Nat)
    (is : List Instruction) :
    g.charge false ((nextRound config)^[n] is) ≤ g.charge false is := by
  induction n with
  | zero => exact Nat.le_refl _
  | succ n ih =>
      rw [Function.iterate_succ_apply']
      exact Nat.le_trans (g.nextRound_le config _).1 ih

/-- **Rounds leave no more than the list is charged**, if there are any. -/
theorem total_iterate_nextRound_le (config : OptimizerConfig) {n : Nat} (some : n ≠ 0)
    (is : List Instruction) : g.total ((nextRound config)^[n] is) ≤ g.charge false is := by
  obtain ⟨m, rfl⟩ := Nat.exists_eq_succ_of_ne_zero some
  rw [Function.iterate_succ_apply']
  exact Nat.le_trans (g.nextRound_le config _).2 (g.charge_iterate_nextRound_le config m is)

/-! ### Sizes -/

section Sizes

variable {size : Instruction → Nat}

/-- A list is charged what it measures, except that static transforms are charged by the row. -/
theorem charge_add_statics (same : ∀ i : Instruction, i.role ≠ .static → g.cost i = size i)
    (behind : Bool) (is : List Instruction) :
    g.charge behind is + ((statics is).map fun t => size (.static t)).sum =
      (is.map size).sum + g.unit * rows behind is := by
  induction is generalizing behind with
  | nil => rfl
  | cons i rest ih =>
      by_cases role : i.role = .static
      · cases i with
        | static t =>
            have later := ih true
            show g.own behind (.static t) + g.charge true rest +
                (size (.static t) + ((statics rest).map fun t => size (.static t)).sum) =
              size (.static t) + (rest.map size).sum +
                g.unit * ((if behind = true ∧ t.family ≠ .matrix then 0 else 1) + rows true rest)
            rw [own, Nat.mul_add]
            split <;> omega
        | _ => cases role
      · have unseen : statics (i :: rest) = statics rest ∧
            rows behind (i :: rest) = rows false rest := by
          cases i with
          | static => exact absurd rfl role
          | _ => exact ⟨rfl, rfl⟩
        have later := ih false
        rw [charge_cons, g.own_of_not_static role, beq_false_of_ne role, unseen.1, unseen.2,
          same i role, List.map_cons, List.sum_cons]
        omega

theorem sum_map_le_total (le : ∀ i, size i ≤ g.cost i) (is : List Instruction) :
    (is.map size).sum ≤ g.total is := by
  induction is with
  | nil => exact Nat.le_refl _
  | cons i rest ih =>
      rw [List.map_cons, List.sum_cons, total_cons]
      exact Nat.add_le_add (le i) ih

/-- **What a list measures after rounds**: no more than before, if each row of static transforms is
measured as a unit. -/
theorem size_iterate_nextRound_le (le : ∀ i, size i ≤ g.cost i)
    (same : ∀ i : Instruction, i.role ≠ .static → g.cost i = size i) (config : OptimizerConfig)
    {n : Nat} (some : n ≠ 0) (is : List Instruction) :
    (((nextRound config)^[n] is).map size).sum +
        ((statics is).map fun t => size (.static t)).sum ≤
      (is.map size).sum + g.unit * rows false is := by
  rw [← g.charge_add_statics same]
  exact Nat.add_le_add_right (Nat.le_trans (g.sum_map_le_total le _)
    (g.total_iterate_nextRound_le config some is)) _

end Sizes

/-! ### Instructions and words -/

/-- The number of instructions; a matrix counts for the two that it may become. -/
def instructions : Gauge where
  cost
    | .static t => if t.family = .matrix then 2 else 1
    | _ => 1
  unit := 2
  cost_matrix matrix := if_pos matrix
  cost_other other := by simp [other]
  cost_scale _ _ := Nat.le_refl _
  cost_pop _ _ := rfl
  cost_writeStatic _ _ := of_decide_eq_true rfl
  cost_writeParameter _ _ := of_decide_eq_true rfl

theorem one_le_cost_instructions (i : Instruction) : 1 ≤ instructions.cost i := by
  cases i with
  | static t =>
      show 1 ≤ if t.family = .matrix then 2 else 1
      split <;> decide
  | _ => exact Nat.le_refl 1

/-- The number of words. -/
def words : Gauge where
  cost := Instruction.wordLength
  unit := 17
  cost_matrix := by
    intro t matrix
    cases t with
    | float4x4 => rfl
    | _ => cases matrix
  cost_other := by
    intro t other
    cases t with
    | float4x4 => exact absurd rfl other
    | _ => exact of_decide_eq_true rfl
  cost_scale _ _ := of_decide_eq_true rfl
  cost_pop _ _ := rfl
  cost_writeStatic _ _ := of_decide_eq_true rfl
  cost_writeParameter _ _ := of_decide_eq_true rfl

end Gauge

/-- The number of instructions after rounds. -/
theorem length_iterate_nextRound_le (config : OptimizerConfig) {n : Nat} (some : n ≠ 0)
    (is : List Instruction) :
    ((nextRound config)^[n] is).length + (statics is).length ≤ is.length + 2 * rows false is := by
  have ones : ∀ i : Instruction, i.role ≠ .static → Gauge.instructions.cost i = 1 := by
    intro i role
    cases i with
    | static => exact absurd rfl role
    | _ => rfl
  simpa [Gauge.instructions] using Gauge.instructions.size_iterate_nextRound_le
    Gauge.one_le_cost_instructions ones config some is

theorem sum_map_wordLength (is : List Instruction) :
    (is.map Instruction.wordLength).sum = Instruction.wordCount is := by
  induction is with
  | nil => rfl
  | cons i rest ih => rw [List.map_cons, List.sum_cons, ih, Instruction.wordCount]

theorem sum_map_wordLength_static (ts : List Transform) :
    (ts.map fun t => (Instruction.static t).wordLength).sum = Transform.wordLengths ts := by
  induction ts with
  | nil => rfl
  | cons t ts ih =>
      rw [List.map_cons, List.sum_cons, ih, Transform.wordLengths]
      rfl

/-- The number of words after rounds. -/
theorem wordCount_iterate_nextRound_le (config : OptimizerConfig) {n : Nat} (some : n ≠ 0)
    (is : List Instruction) :
    Instruction.wordCount ((nextRound config)^[n] is) + Transform.wordLengths (statics is) ≤
      Instruction.wordCount is + 17 * rows false is := by
  rw [← sum_map_wordLength, ← sum_map_wordLength, ← sum_map_wordLength_static]
  exact Gauge.words.size_iterate_nextRound_le (fun _ => Nat.le_refl _) (fun _ _ => rfl) config
    some is

/-! ### Streams -/

/-- **How much bigger a stream may become.**  Where nothing is folded the optimizer succeeds.  The
result is no bigger than the input if each row of static transforms is counted as two instructions,
or as the seventeen words of a matrix.  So it has at most one instruction more for each row, and is
no bigger at all if there are no static transforms. -/
theorem optimize_size_le (config : OptimizerConfig) {words : List UInt32} {is : List Instruction}
    (decoded : Instruction.decodeAll words = .ok is) :
    ∃ next stats js, (optimize config .none words).result = .ok (next, stats) ∧
      Instruction.decodeAll next = .ok js ∧
      js.length + (statics is).length ≤ is.length + 2 * rows false is ∧
      next.length + Transform.wordLengths (statics is) ≤ words.length + 17 * rows false is := by
  obtain ⟨stats, result, decoded'⟩ := optimize_none config decoded
  have some : maxRounds ≠ 0 := by decide
  refine ⟨_, stats, _, result, decoded', length_iterate_nextRound_le config some is, ?_⟩
  rw [← (Instruction.decodeAll_eq_ok_iff.1 decoded).1, Instruction.length_encodeAll,
    Instruction.length_encodeAll]
  exact wordCount_iterate_nextRound_le config some is

/-- A matrix that scales and moves. -/
def scaledMove : List Instruction :=
  [.static (.float4x4 ⟨⟨.two, .zero, .zero, .zero⟩, ⟨.zero, .two, .zero, .zero⟩,
    ⟨.zero, .zero, .two, .zero⟩, ⟨.one, .zero, .zero, .one⟩⟩), .write 0]

/-- It may become two transforms, but no more. -/
theorem optimize_size_le_scaledMove :
    ∃ next stats js, (optimize .standard .none (Instruction.encodeAll scaledMove)).result =
        .ok (next, stats) ∧
      Instruction.decodeAll next = .ok js ∧ js.length ≤ 3 ∧ next.length ≤ 19 := by
  have decoded : Instruction.decodeAll (Instruction.encodeAll scaledMove) = .ok scaledMove :=
    Instruction.decodeAll_encodeAll (by decide +kernel)
  obtain ⟨next, stats, js, result, decoded', instructions, words⟩ :=
    optimize_size_le .standard decoded
  refine ⟨next, stats, js, result, decoded', ?_, ?_⟩
  · change js.length + 1 ≤ 2 + 2 * 1 at instructions
    omega
  · change next.length + 17 ≤ 19 + 17 * 1 at words
    omega

/-- A scale that a frame and a parameter use. -/
def sharedScale : List Instruction :=
  [.static (.uniformScale .two), .push, .static (.translate ⟨.one, .zero, .zero⟩), .write 0, .pop 1,
    .parameter .rotateX 0, .write 1]

/-- The scale is moved to both, becomes a matrix with the move, and is split off again. -/
def sharedScaleOptimized : List Instruction :=
  [.push, .static (.translate ⟨.two, .zero, .zero⟩), .static (.uniformScale .two), .write 0, .pop 1,
    .static (.uniformScale .two), .parameter .rotateX 0, .write 1]

/-- **An optimized stream may be bigger**, by its instructions and by its words. -/
theorem optimize_grows :
    ∃ next stats, (optimize .standard .none (Instruction.encodeAll sharedScale)).result =
        .ok (next, stats) ∧
      Instruction.decodeAll next = .ok sharedScaleOptimized ∧
      sharedScale.length < sharedScaleOptimized.length ∧
      (Instruction.encodeAll sharedScale).length < next.length := by
  have decoded : Instruction.decodeAll (Instruction.encodeAll sharedScale) = .ok sharedScale :=
    Instruction.decodeAll_encodeAll (by decide +kernel)
  obtain ⟨stats, result, decoded'⟩ := optimize_none .standard decoded
  have same : (nextRound .standard)^[maxRounds] sharedScale = sharedScaleOptimized := by
    decide +kernel
  rw [same] at result decoded'
  exact ⟨_, stats, result, decoded', by decide +kernel, by decide +kernel⟩

end Armature
