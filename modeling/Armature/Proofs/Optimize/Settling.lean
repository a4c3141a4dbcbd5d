/-
**Whether optimizing twice is optimizing once.**

Where nothing is folded, rounds make the burden of a list smaller, and two rounds in a row that
leave it as it is end at a list that no round changes.  So the rounds settle, and never come back to
a list they have left.  They are cut off after the eighth, though.  What the optimizer then returns
is a list that it would itself change, and this is the only case in which it would.

Main definitions:

* `nextRound` — the list after a round where nothing is folded;
* `SettlesWithin` — a number of rounds is enough to come to such a list;
* `unsettledList` — a list for which eight rounds are not enough.

Main results:

* `burden_nextRound_le`, `nextRound_eq_self` — what a round does to the burden, and two rounds;
* `exists_settlesWithin` — **the rounds settle**;
* `eq_of_iterate_nextRound` — **they never come back to a list they have left**;
* `optimize_idempotent_iff` — **optimizing again changes nothing exactly if the rounds settle before
  they are cut off**.
-/

import Armature.Proofs.Optimize.Equivalence
import Armature.Proofs.Optimize.Tidy
import Mathlib.Logic.Function.Iterate
import Mathlib.Order.WellFounded
import Mathlib.Tactic.Order

set_option autoImplicit false

namespace Armature

variable {config : OptimizerConfig} {is js : List Instruction}

/-! ### Agreement as numbers -/

theorem Transform.shape_eq_of_eqv {s t : Transform} (h : s.eqv t = true) : s.shape = t.shape := by
  cases s <;> cases t <;> first | rfl | cases h

theorem Transform.family_eq_of_eqv {s t : Transform} (h : s.eqv t = true) :
    s.family = t.family := by
  cases s <;> cases t <;> first | rfl | cases h

/-- Instructions that agree play the same part. -/
theorem Instruction.role_eq_of_eqv {i j : Instruction} (h : i.eqv j = true) :
    i.role = j.role ∧ i.isRemovable = j.isRemovable := by
  cases i <;> cases j <;> first | exact ⟨rfl, rfl⟩ | cases h

/-- Lists agree if their instructions do. -/
theorem Instruction.eqvAll_iff {js is : List Instruction} :
    eqvAll js is = true ↔ List.Forall₂ (fun j i => j.eqv i = true) js is := by
  rw [List.forall₂_iff_zip, eqvAll, Bool.and_eq_true, beq_iff_eq, List.all_eq_true]
  exact and_congr_right fun _ => ⟨fun h _ _ hp => h _ hp, fun h _ hp => h hp⟩

section Agreement

variable (agree : List.Forall₂ (fun j i : Instruction => j.eqv i = true) js is)

include agree

theorem slack_eq_of_agree : slack js = slack is := by
  cases agree with
  | nil => rfl
  | cons head _ => simp only [slack, (Instruction.role_eq_of_eqv head).1]

/-- Lists that agree have the same burden. -/
theorem burden_eq_of_agree : burden js = burden is := by
  have both : removable js = removable is ∧ totalSlack js = totalSlack is := by
    induction agree with
    | nil => exact ⟨rfl, rfl⟩
    | cons head tail ih =>
        obtain ⟨role, removes⟩ := Instruction.role_eq_of_eqv head
        rw [removable_cons, removable_cons, totalSlack_cons, totalSlack_cons, role, removes,
          slack_eq_of_agree tail, ih.1, ih.2]
        exact ⟨rfl, rfl⟩
  exact congrArg toLex (Prod.ext both.1 both.2)

/-- A list that agrees with a tidy one is tidy. -/
theorem tidy_of_agree (tidy : Tidy js) : Tidy is := by
  induction agree with
  | nil => trivial
  | @cons j i js is head tail ih =>
      refine tidy_cons (ih tidy.tail) ?_
      rintro t rfl
      cases j with
      | static s =>
          by_cases near : slack is = 0
          · obtain ⟨u, is, rfl⟩ := slack_eq_zero_iff.1 near
            cases tail with
            | @cons j _ js _ head' tail' =>
                cases j with
                | static v =>
                    obtain ⟨apart, far⟩ : s.joins v = false ∧ slack js ≠ 0 := tidy.1
                    have joins := Transform.joins_congr (Transform.family_eq_of_eqv head)
                      (Transform.family_eq_of_eqv head')
                    exact ⟨joins.symm.trans apart, (slack_eq_of_agree tail').symm.trans_ne far⟩
                | _ => cases head'
          · exact apart_of_slack_ne_zero t near
      | _ => cases head

end Agreement

theorem length_le_simplifyTransforms (config : OptimizerConfig) (is : List Instruction) :
    is.length ≤ (simplifyTransforms config is).length := by
  induction is with
  | nil => exact Nat.le_refl _
  | cons i rest ih =>
      rw [simplifyTransforms_cons, List.length_append, List.length_cons, Nat.add_comm]
      refine Nat.add_le_add (List.length_pos_iff.2 ?_) ih
      cases i with
      | static t => exact fun none => t.simplify_ne_nil config (List.map_eq_nil_iff.1 none)
      | _ => exact List.cons_ne_nil _ _

/-- A transform that is simplified no longer agrees with what it was. -/
theorem simplifyTransforms_eq_self_of_agree
    (agree : List.Forall₂ (fun j i : Instruction => j.eqv i = true) (simplifyTransforms config is)
      is) : simplifyTransforms config is = is := by
  induction is with
  | nil => rfl
  | cons i rest ih =>
      rw [simplifyTransforms_cons] at agree ⊢
      cases i with
      | static t =>
          rw [Instruction.simplify] at agree ⊢
          rcases t.simplify_cases config with ⟨u, single, simpler⟩ | ⟨v, f, double, _⟩
          · rw [single] at agree ⊢
            obtain ⟨head, tail⟩ := List.forall₂_cons.1 agree
            rw [simpler.eq_of_shape (Transform.shape_eq_of_eqv head), List.map_singleton,
              List.singleton_append, ih tail]
          · -- the list has become longer
            have length := agree.length_eq
            have tail := length_le_simplifyTransforms config rest
            rw [double, List.length_append, List.length_map] at length
            simp only [List.length_cons, List.length_nil] at length
            omega
      | _ => exact congrArg (_ :: ·) (ih (List.forall₂_cons.1 agree).2)

/-! ### One round -/

/-- The list after a round where nothing is folded. -/
def nextRound (config : OptimizerConfig) (is : List Instruction) : List Instruction :=
  match (runRound config .none is).result with
  | .ok js => js
  | .error _ => is

theorem runRound_none (config : OptimizerConfig) (is : List Instruction) :
    (runRound config .none is).result = .ok (nextRound config is) ∧
      (runRound config .none is).table = .none := by
  constructor
  · unfold nextRound
    cases result : (runRound config .none is).result with
    | ok js => rfl
    | error fault =>
        obtain ⟨pass, table, is', same, failed⟩ := exists_pass_of_runPasses result
        obtain ⟨slot, _, takes⟩ := Pass.exists_slot_of_fault failed
        rw [same] at takes
        cases takes
  · have folds : passesFolds config .none is Pass.round = [] := by
      refine List.eq_nil_iff_forall_not_mem.2 fun f hf => ?_
      cases (place_of_mem_passesFolds hf).2
    rw [runRound, runPasses_table, folds]
    rfl

/-- A round step by step. -/
theorem exists_merges_nextRound (config : OptimizerConfig) (is : List Instruction) :
    ∃ folds js, Merges FoldTable.none.foldable [] (removeRedundantPushes (eliminateDead is)) folds
        (.ok js) ∧
      nextRound config is = removeRedundantPushes (fuseWrites (simplifyTransforms config
        (removeRedundantPushes js))) := by
  have ok := (runRound_none config is).1
  have spec := merges_mergeTransforms .none (removeRedundantPushes (eliminateDead is))
  simp only [runRound, Pass.round, runPasses, Pass.run] at ok
  cases merged : mergeTransforms .none (removeRedundantPushes (eliminateDead is)) with
  | mk table result =>
      rw [merged] at ok spec
      cases result with
      | error fault => cases ok
      | ok js => exact ⟨_, js, spec, (Except.ok.inj ok).symm⟩

theorem burden_nextRound_le (config : OptimizerConfig) (is : List Instruction) :
    burden (nextRound config is) ≤ burden is := by
  obtain ⟨folds, js, merges, same⟩ := exists_merges_nextRound config is
  calc burden (nextRound config is)
      = burden (removeRedundantPushes (fuseWrites (simplifyTransforms config
          (removeRedundantPushes js)))) := congrArg burden same
    _ ≤ burden (fuseWrites (simplifyTransforms config (removeRedundantPushes js))) :=
        (eases_removeRedundantPushes _).le
    _ ≤ burden (simplifyTransforms config (removeRedundantPushes js)) :=
        (eases_fuseWrites _).le
    _ = burden (removeRedundantPushes js) := burden_simplifyTransforms config _
    _ ≤ burden js := (eases_removeRedundantPushes js).le
    _ ≤ burden (removeRedundantPushes (eliminateDead is)) := merges.burden_le
    _ ≤ burden (eliminateDead is) := (eases_removeRedundantPushes _).le
    _ ≤ burden is := (eases_eliminateDead is).le

/-- A round that leaves the burden as it is only joins and simplifies transforms. -/
theorem exists_merges_of_burden_eq (same : burden (nextRound config is) = burden is) :
    ∃ folds js, Merges FoldTable.none.foldable [] is folds (.ok js) ∧
      nextRound config is = simplifyTransforms config js := by
  obtain ⟨folds, js, merges, next⟩ := exists_merges_nextRound config is
  rw [next] at same
  -- no step makes the burden smaller, since none makes it greater again
  have dead := eases_eliminateDead is
  have push := eases_removeRedundantPushes (eliminateDead is)
  have push' := eases_removeRedundantPushes js
  have fuse := eases_fuseWrites (simplifyTransforms config (removeRedundantPushes js))
  have push'' := eases_removeRedundantPushes
    (fuseWrites (simplifyTransforms config (removeRedundantPushes js)))
  have merge := merges.burden_le
  have simplify := burden_simplifyTransforms config (removeRedundantPushes js)
  have := dead.le
  have := push.le
  have := push'.le
  have := fuse.le
  have := push''.le
  rw [push.eq (by order), dead.eq (by order)] at merges
  refine ⟨folds, js, merges, ?_⟩
  rw [next, push''.eq (by order), fuse.eq (by order), push'.eq (by order)]

/-- Two rounds that leave the burden as it is end at a list that no round changes. -/
theorem nextRound_eq_self (first : burden (nextRound config is) = burden is)
    (second : burden (nextRound config (nextRound config is)) = burden (nextRound config is)) :
    nextRound config (nextRound config is) = nextRound config is := by
  obtain ⟨_, js, merges, next⟩ := exists_merges_of_burden_eq first
  obtain ⟨_, ks, merges', next'⟩ := exists_merges_of_burden_eq second
  have tidy : Tidy (nextRound config is) := by
    rw [next]
    exact tidy_simplifyTransforms config merges.tidy
  have still : ks = nextRound config is := by
    refine (merges'.eases tidy).eq ?_
    rw [← second, next', burden_simplifyTransforms]
  rw [next', still, next, simplifyTransforms_idem]

/-- A round that returns to the same numbers returns to the same list. -/
theorem nextRound_eq_self_of_eqvAll (h : Instruction.eqvAll (nextRound config is) is = true) :
    nextRound config is = is := by
  have agree := Instruction.eqvAll_iff.1 h
  have same := burden_eq_of_agree agree
  obtain ⟨_, js, merges, next⟩ := exists_merges_of_burden_eq same
  have tidy : Tidy is := by
    refine tidy_of_agree agree ?_
    rw [next]
    exact tidy_simplifyTransforms config merges.tidy
  have still : js = is := by
    refine (merges.eases tidy).eq ?_
    rw [← same, next, burden_simplifyTransforms]
  rw [next, still] at agree ⊢
  exact simplifyTransforms_eq_self_of_agree agree

/-! ### All rounds -/

/-- The rounds that are run, where nothing is folded: a round after which they are stopped early
would only be followed by more that change nothing. -/
theorem runRounds_none (config : OptimizerConfig) (fuel number : Nat) (is : List Instruction) :
    (runRounds config fuel number .none is).result = .ok ((nextRound config)^[fuel] is) := by
  induction fuel generalizing number is with
  | zero => rfl
  | succ fuel ih =>
      obtain ⟨ok, table⟩ := runRound_none config is
      rw [runRounds, Function.iterate_succ_apply]
      simp only [ok, table]
      split
      · rename_i settled
        have fixed := nextRound_eq_self_of_eqvAll settled
        rw [fixed, Function.iterate_fixed fixed]
      · exact ih (number + 1) (nextRound config is)

theorem burden_iterate_le (config : OptimizerConfig) (n : Nat) (is : List Instruction) :
    burden ((nextRound config)^[n] is) ≤ burden is := by
  induction n with
  | zero => exact le_refl _
  | succ n ih =>
      rw [Function.iterate_succ_apply']
      exact (burden_nextRound_le config _).trans ih

/-- **The rounds never come back to a list they have left.** -/
theorem eq_of_iterate_nextRound {n : Nat} (back : (nextRound config)^[n + 1] is = is) :
    nextRound config is = is := by
  -- the round before the one that comes back, that one, and the one after it
  have last : nextRound config ((nextRound config)^[n] is) = is := by
    rw [← Function.iterate_succ_apply' (nextRound config), back]
  have before : burden ((nextRound config)^[n] is) ≤ burden is := burden_iterate_le config n is
  have after : burden is ≤ burden (nextRound config is) := by
    have later := burden_iterate_le config n (nextRound config is)
    rw [← Function.iterate_succ_apply, back] at later
    exact later
  have first := burden_nextRound_le config ((nextRound config)^[n] is)
  have round := burden_nextRound_le config is
  have fixed : nextRound config (nextRound config ((nextRound config)^[n] is)) =
      nextRound config ((nextRound config)^[n] is) := by
    refine nextRound_eq_self ?_ ?_
    · rw [last] at first ⊢
      exact le_antisymm first before
    · rw [last]
      exact le_antisymm round after
  rw [last] at fixed
  exact fixed

/-- A list that comes up after at most `bound` rounds is left alone by the next one. -/
def SettlesWithin (config : OptimizerConfig) (bound : Nat) (is : List Instruction) : Prop :=
  ∃ n ≤ bound, nextRound config ((nextRound config)^[n] is) = (nextRound config)^[n] is

/-- **The rounds settle.** -/
theorem exists_settlesWithin (config : OptimizerConfig) (is : List Instruction) :
    ∃ bound, SettlesWithin config bound is := by
  obtain ⟨_, ⟨n, rfl⟩, least⟩ := wellFounded_lt.has_min
    (Set.range fun n => burden ((nextRound config)^[n] is)) ⟨_, 0, rfl⟩
  have le := fun m => burden_nextRound_le config ((nextRound config)^[m] is)
  have same : ∀ m, burden ((nextRound config)^[n] is) ≤ burden ((nextRound config)^[m] is) :=
    fun m => not_lt.1 (least _ ⟨m, rfl⟩)
  refine ⟨n + 1, n + 1, le_refl _, ?_⟩
  rw [Function.iterate_succ_apply']
  have first := same (n + 1)
  have second := same (n + 2)
  rw [Function.iterate_succ_apply'] at first
  rw [Function.iterate_succ_apply', Function.iterate_succ_apply'] at second
  refine nextRound_eq_self (le_antisymm (le n) first) (le_antisymm ?_ ?_)
  · exact burden_nextRound_le config _
  · exact (le n).trans second

/-- A list that is settled within a number of rounds is settled after them. -/
theorem settlesWithin_iff {bound : Nat} : SettlesWithin config bound is ↔
    nextRound config ((nextRound config)^[bound] is) = (nextRound config)^[bound] is := by
  refine ⟨?_, fun fixed => ⟨bound, le_refl _, fixed⟩⟩
  rintro ⟨n, within, fixed⟩
  have last : (nextRound config)^[bound] is = (nextRound config)^[n] is := by
    rw [← Nat.sub_add_cancel within, Function.iterate_add_apply, Function.iterate_fixed fixed]
  rw [last, fixed]

/-! ### Streams -/

/-- The optimized stream, where nothing is folded. -/
theorem optimize_none (config : OptimizerConfig) {words : List UInt32}
    (decoded : Instruction.decodeAll words = .ok is) :
    ∃ stats, (optimize config .none words).result =
        .ok (Instruction.encodeAll ((nextRound config)^[maxRounds] is), stats) ∧
      Instruction.decodeAll (Instruction.encodeAll ((nextRound config)^[maxRounds] is)) =
        .ok ((nextRound config)^[maxRounds] is) :=
  optimize_eq_ok decoded (runRounds_none config maxRounds 0 is)

/-- **Optimizing again changes nothing exactly if the rounds settle before they are cut off**, which
they all do in the end. -/
theorem optimize_idempotent_iff (config : OptimizerConfig) {words : List UInt32}
    {is : List Instruction} (decoded : Instruction.decodeAll words = .ok is) :
    (∃ bound, SettlesWithin config bound is) ∧
      ∃ next stats, (optimize config .none words).result = .ok (next, stats) ∧
        ((∃ stats', (optimize config .none next).result = .ok (next, stats')) ↔
          SettlesWithin config maxRounds is) := by
  obtain ⟨stats, first, decoded'⟩ := optimize_none config decoded
  obtain ⟨stats', second, decoded''⟩ := optimize_none config decoded'
  refine ⟨exists_settlesWithin config is, _, stats, first, ?_⟩
  rw [settlesWithin_iff, second]
  constructor
  · rintro ⟨_, same⟩
    rw [(Prod.mk.inj (Except.ok.inj same)).1, decoded'] at decoded''
    exact eq_of_iterate_nextRound (Except.ok.inj decoded'').symm
  · intro fixed
    rw [Function.iterate_fixed fixed]
    exact ⟨stats', rfl⟩

/-- Eight rounds settle a list in which they find little to do. -/
theorem optimize_idempotent_reflecting :
    ∃ next stats, (optimize .standard .none (Instruction.encodeAll reflectingList)).result =
        .ok (next, stats) ∧
      ∃ stats', (optimize .standard .none next).result = .ok (next, stats') := by
  have decoded : Instruction.decodeAll (Instruction.encodeAll reflectingList) =
      .ok reflectingList := Instruction.decodeAll_encodeAll (by decide)
  obtain ⟨_, next, stats, first, again⟩ := optimize_idempotent_iff .standard decoded
  exact ⟨next, stats, first, again.2 (settlesWithin_iff.2 (by decide +kernel))⟩

/-! ### Too many rounds -/

/-- Frames in frames, each of which a round can only open once the one inside it is open. -/
def nestedFrames : Nat → List Instruction
  | 0 => [.push, .static (.translate .zero), .write 0, .pop 1, .binding 0 []]
  | depth + 1 =>
    [.push, .static (.translate .zero)] ++ nestedFrames depth ++
      [.push, .binding 0 [.translate .zero], .pop 1, .binding 0 [], .pop 1]

/-- More frames in frames than there are rounds. -/
def unsettledList : List Instruction := nestedFrames 8 ++ [.write 0]

/-- **The optimizer changes again what it has optimized.** -/
theorem optimize_not_idempotent :
    ∃ next stats, (optimize .standard .none (Instruction.encodeAll unsettledList)).result =
        .ok (next, stats) ∧
      ∀ stats', (optimize .standard .none next).result ≠ .ok (next, stats') := by
  have decoded : Instruction.decodeAll (Instruction.encodeAll unsettledList) =
      .ok unsettledList := Instruction.decodeAll_encodeAll (by decide +kernel)
  obtain ⟨stats, first, decoded'⟩ := optimize_none .standard decoded
  obtain ⟨stats', second, decoded''⟩ := optimize_none .standard decoded'
  refine ⟨_, stats, first, fun stats'' same => ?_⟩
  rw [second] at same
  rw [(Prod.mk.inj (Except.ok.inj same)).1, decoded'] at decoded''
  have moved : (nextRound .standard)^[maxRounds] ((nextRound .standard)^[maxRounds] unsettledList) ≠
      (nextRound .standard)^[maxRounds] unsettledList := by decide +kernel
  exact moved (Except.ok.inj decoded'').symm

end Armature
