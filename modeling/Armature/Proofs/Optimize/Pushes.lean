/-
**Frames need not be opened for nothing.**

Joined pops close the same frames.  Without a push there is one frame less on the stack; nobody can
tell as long as the frame that was opened and the one under it are the same, or the one under it is
never seen again.

Main results:

* `removeRedundantPushes_induction` — what holds of a single edit holds of the pass;
* `eq_or_split_of_release?` — dropping a push lowers one pop behind it, or none;
* `keeps_pop_pop` — joining pops keeps the journal, where no more frames can be open than a word
  counts;
* `journal_of_release?` — what follows a push that may be dropped writes the same without it;
* `keeps_removeRedundantPushes` — **dropping redundant pushes keeps the journal**;
* `mem_of_mem_removeRedundantPushes` — it brings in nothing but pops.
-/

import Armature.Optimize.Pushes
import Armature.Proofs.Evaluate.Journal

set_option autoImplicit false

namespace Armature

/-! ### Equations -/

/-- A pop that closed one frame goes, and one that closed more closes one less. -/
theorem oneLess_cases {count : UInt32} (closes : 0 < count.toNat) :
    (count.toNat = 1 ∧ oneLess count = []) ∨
      ∃ less : UInt32, less.toNat + 1 = count.toNat ∧ 0 < less.toNat ∧
        oneLess count = [.pop less] := by
  have one : (1 : UInt32).toNat = 1 := rfl
  unfold oneLess
  split
  · rename_i several
    rw [UInt32.lt_iff_toNat_lt, one] at several
    have less : (count - 1).toNat = count.toNat - 1 :=
      UInt32.toNat_sub_of_le _ _ (UInt32.le_iff_toNat_le.2 closes)
    exact .inr ⟨count - 1, by omega, by omega, rfl⟩
  · rename_i single
    rw [UInt32.lt_iff_toNat_lt, one] at single
    exact .inl ⟨by omega, rfl⟩

theorem release?_of_not_bracket {i : Instruction} (h : i.isBracket = false) (inner : Nat)
    (changed : Bool) (rest : List Instruction) :
    release? inner changed (i :: rest) =
      (release? inner (changed || (inner == 0 && i.modifiesFrame)) rest).map (i :: ·) := by
  cases i with
  | push | pop => cases h
  | _ => rfl

theorem releasePushes_push_of_some {rest rest' : List Instruction}
    (released : release? 0 false rest = some rest') :
    releasePushes (.push :: rest) = releasePushes rest' := by
  rw [releasePushes]
  split
  · rename_i found
    rw [released, Option.some.injEq] at found
    rw [found]
  · rename_i found
    rw [released] at found
    cases found

theorem releasePushes_push_of_none {rest : List Instruction}
    (kept : release? 0 false rest = none) :
    releasePushes (.push :: rest) = .push :: releasePushes rest := by
  rw [releasePushes]
  split
  · rename_i found
    rw [kept] at found
    cases found
  · rfl

theorem releasePushes_cons_of_ne {i : Instruction} (h : i ≠ .push) (rest : List Instruction) :
    releasePushes (i :: rest) = i :: releasePushes rest := by
  rw [releasePushes]
  exact h

/-! ### Single edits -/

section Induction

variable (does : List Instruction → List Instruction → Prop) (refl : ∀ is, does is is)
  (trans : ∀ {is js ks}, does is js → does js ks → does is ks)
  (cons : ∀ {is js} i, does is js → does (i :: is) (i :: js))
include refl trans cons

/-- What holds of dropping a pop of nothing and of joining two pops holds of joining all pops. -/
theorem coalescePops_induction (zero : ∀ is, does (.pop 0 :: is) is)
    (join : ∀ count more is, does (.pop count :: .pop more :: is) (.pop (count + more) :: is))
    (is : List Instruction) : does is (coalescePops is) := by
  fun_induction coalescePops is with
  | case1 => exact refl []
  | case2 rest ih => exact trans (zero rest) ih
  | case3 count rest _ more rest' hrest ih =>
      rw [hrest] at ih
      exact trans (cons (.pop count) ih) (join count more rest')
  | case4 count rest _ _ ih => exact cons (.pop count) ih
  | case5 i rest _ ih => exact cons i ih

/-- What holds of dropping one push holds of dropping all that may be dropped. -/
theorem releasePushes_induction
    (release : ∀ {is js}, release? 0 false is = some js → does (.push :: is) js)
    (is : List Instruction) : does is (releasePushes is) := by
  fun_induction releasePushes is with
  | case1 => exact refl []
  | case2 rest rest' h _ ih => exact trans (release h) ih
  | case3 rest _ ih => exact cons .push ih
  | case4 i rest _ ih => exact cons i ih

/-- **What holds of a single edit holds of the pass.** -/
theorem removeRedundantPushes_induction (zero : ∀ is, does (.pop 0 :: is) is)
    (join : ∀ count more is, does (.pop count :: .pop more :: is) (.pop (count + more) :: is))
    (release : ∀ {is js}, release? 0 false is = some js → does (.push :: is) js)
    (is : List Instruction) : does is (removeRedundantPushes is) :=
  trans (coalescePops_induction does refl trans cons zero join is)
    (releasePushes_induction does refl trans cons release _)

end Induction

/-- **Dropping a push lowers one pop behind it, or none.** -/
theorem eq_or_split_of_release? {inner : Nat} {changed : Bool} {is js : List Instruction}
    (h : release? inner changed is = some js) :
    js = is ∨ ∃ front count rest, is = front ++ .pop count :: rest ∧
      js = front ++ (oneLess count ++ rest) := by
  -- what stands in front of the pop stays there
  have cons : ∀ (i : Instruction) {ks rest : List Instruction},
      (ks = rest ∨ ∃ front count back, rest = front ++ .pop count :: back ∧
        ks = front ++ (oneLess count ++ back)) →
      i :: ks = i :: rest ∨ ∃ front count back, i :: rest = front ++ .pop count :: back ∧
        i :: ks = front ++ (oneLess count ++ back) := by
    rintro i ks rest (rfl | ⟨front, count, back, rfl, rfl⟩)
    · exact .inl rfl
    · exact .inr ⟨i :: front, count, back, rfl, rfl⟩
  fun_induction release? inner changed is generalizing js with
  | case1 => cases h; exact .inl rfl
  | case2 inner changed rest ih =>
      obtain ⟨ks, hks, rfl⟩ := Option.map_eq_some_iff.1 h
      exact cons .push (ih hks)
  | case3 inner changed count rest _ ih =>
      obtain ⟨ks, hks, rfl⟩ := Option.map_eq_some_iff.1 h
      exact cons (.pop count) (ih hks)
  | case4 inner changed count rest =>
      cases h
      exact .inr ⟨[], count, rest, rfl, rfl⟩
  | case5 => cases h
  | case6 inner changed i rest _ _ ih =>
      obtain ⟨ks, hks, rfl⟩ := Option.map_eq_some_iff.1 h
      exact cons i (ih hks)

variable {M : Type} {s : Setting M}

/-! ### Pops -/

/-- A pop of nothing does nothing. -/
theorem keeps_pop_zero (is : List Instruction) : Keeps s (.pop 0 :: is) is :=
  fun _ _ _ run => (journal_pop_eq_some_iff.1 run).2

/-- Two pops are one.  Their sum is a word, since the frames that are there can be counted. -/
theorem keeps_pop_pop (capacity : s.limit ≤ UInt32.size) (count more : UInt32)
    (is : List Instruction) :
    Keeps s (.pop count :: .pop more :: is) (.pop (count + more) :: is) := by
  intro frames ws bound run
  obtain ⟨first, run⟩ := journal_pop_eq_some_iff.1 run
  obtain ⟨second, run⟩ := journal_pop_eq_some_iff.1 run
  rw [List.length_drop] at second
  have word : UInt32.size = 4294967296 := rfl
  have sum : (count + more).toNat = count.toNat + more.toNat := by
    rw [UInt32.toNat_add, Nat.mod_eq_of_lt]
    omega
  rw [List.drop_drop, ← sum] at run
  exact journal_pop_eq_some_iff.2 ⟨by omega, run⟩

/-! ### Pushes -/

/-- A pop that closes one frame less does so. -/
theorem journal_oneLess {count : UInt32} (closes : 0 < count.toNat) {frames : List M}
    (opened : count.toNat ≤ frames.length) (is : List Instruction) :
    journal s frames (oneLess count ++ is) = journal s (frames.drop (count.toNat - 1)) is := by
  rcases oneLess_cases closes with ⟨single, gone⟩ | ⟨less, several, _, left⟩
  · rw [gone, single]
    rfl
  · obtain ⟨top, below, rfl⟩ := List.exists_cons_of_length_pos (by omega : 0 < frames.length)
    rw [left, List.singleton_append, journal_pop, if_pos, ← several, Nat.add_sub_cancel]
    rw [List.length_cons] at opened
    omega

/-- The pop that closes the opened frame closes one less, if nobody can tell the opened frame from
the one under it. -/
theorem journal_of_closed {count : UInt32} {above : List M} (closes : above.length < count.toNat)
    {opened under : M} {below : List M} {rest : List Instruction}
    (silent : above.length + 1 < count.toNat ∨ opened = under ∨ rest = [])
    {ws : List (UInt32 × M)}
    (run : journal s (above ++ opened :: under :: below) (.pop count :: rest) = some ws) :
    journal s (above ++ opened :: below) (oneLess count ++ rest) = some ws := by
  obtain ⟨enough, run⟩ := journal_pop_eq_some_iff.1 run
  simp only [List.length_append, List.length_cons] at enough
  rw [journal_oneLess (by omega) (by simp only [List.length_append, List.length_cons]; omega)]
  obtain ⟨more, hmore⟩ : ∃ more, count.toNat = above.length + 1 + more :=
    Nat.exists_eq_add_of_le (by omega)
  have left : (above ++ opened :: under :: below).drop count.toNat =
      (under :: below).drop more := by
    rw [hmore, ← List.drop_drop, ← List.drop_drop, List.drop_left, List.drop_succ_cons,
      List.drop_zero]
  have left' : (above ++ opened :: below).drop (count.toNat - 1) =
      (opened :: below).drop more := by
    rw [show count.toNat - 1 = above.length + more by omega, ← List.drop_drop, List.drop_left]
  rw [left] at run
  rw [left']
  cases more with
  | succ more => exact run
  | zero =>
      -- only the opened frame is closed, so that either it is `under` or nothing follows
      rcases silent with several | rfl | rfl
      · omega
      · exact run
      · exact run

/-- What follows a push that may be dropped writes the same without it.  With the push the frame
`under` lies below the opened one, which is the same unless `changed` says otherwise. -/
theorem journal_of_release? {inner : Nat} {changed : Bool} {is js : List Instruction}
    (h : release? inner changed is = some js) (above : List M) (depth : above.length = inner)
    {opened under : M} (same : changed = false → opened = under) {below : List M}
    {ws : List (UInt32 × M)} (run : journal s (above ++ opened :: under :: below) is = some ws) :
    journal s (above ++ opened :: below) js = some ws := by
  -- the frames `above` were opened after the push, and the two lists agree on them
  fun_induction release? inner changed is generalizing js above opened ws with
  | case1 inner changed =>
      cases h
      obtain ⟨_, rfl⟩ := journal_nil_eq_some_iff.1 run
      refine journal_nil_eq_some_iff.2 ⟨?_, rfl⟩
      simp only [List.length_append, List.length_cons]
      omega
  | case2 inner changed rest ih =>
      obtain ⟨js, hjs, rfl⟩ := Option.map_eq_some_iff.1 h
      obtain ⟨room, top, current, run⟩ := journal_push_eq_some_iff.1 run
      simp only [List.length_append, List.length_cons] at room
      refine journal_push_eq_some_iff.2 ⟨?_, top, ?_, ?_⟩
      · simp only [List.length_append, List.length_cons]
        omega
      · simpa only [List.head?_append, List.head?_cons] using current
      · exact ih hjs (top :: above) (by rw [List.length_cons, depth]) same run
  | case3 inner changed count rest inside ih =>
      obtain ⟨js, hjs, rfl⟩ := Option.map_eq_some_iff.1 h
      obtain ⟨_, run⟩ := journal_pop_eq_some_iff.1 run
      rw [List.drop_append_of_le_length (by omega)] at run
      refine journal_pop_eq_some_iff.2 ⟨?_, ?_⟩
      · simp only [List.length_append, List.length_cons]
        omega
      · rw [List.drop_append_of_le_length (by omega)]
        exact ih hjs (above.drop count.toNat) (by rw [List.length_drop, depth]) same run
  | case4 inner changed count rest closes silent =>
      cases h
      simp only [Bool.or_eq_true, decide_eq_true_eq, Bool.not_eq_true', List.isEmpty_iff] at silent
      refine journal_of_closed (by omega) ?_ run
      rcases silent with (several | unchanged) | last
      · exact .inl (depth ▸ several)
      · exact .inr (.inl (same unchanged))
      · exact .inr (.inr last)
  | case5 => cases h
  | case6 inner changed i rest notPush notPop ih =>
      obtain ⟨js, hjs, rfl⟩ := Option.map_eq_some_iff.1 h
      have hi := Instruction.isBracket_eq_false notPush notPop
      cases above with
      | nil =>
          obtain ⟨frame, written, later, he, hj, rfl⟩ := (journal_other_eq_some_iff hi).1 run
          refine (journal_other_eq_some_iff hi).2 ⟨frame, written, later, he, ?_, rfl⟩
          refine ih hjs [] depth ?_ hj
          intro unchanged
          simp only [Bool.or_eq_false_iff, Bool.and_eq_false_iff] at unchanged
          obtain ⟨unchanged, outer | silent⟩ := unchanged
          · rw [← depth] at outer
            cases outer
          · rw [Instruction.frame_eq_top he silent]
            exact same unchanged
      | cons a above =>
          obtain ⟨frame, written, later, he, hj, rfl⟩ := (journal_other_eq_some_iff hi).1 run
          refine (journal_other_eq_some_iff hi).2 ⟨frame, written, later, he, ?_, rfl⟩
          refine ih hjs (frame :: above) depth ?_ hj
          intro unchanged
          simp only [Bool.or_eq_false_iff] at unchanged
          exact same unchanged.1

/-- A push that may be dropped is dropped. -/
theorem keeps_of_release? {is js : List Instruction} (h : release? 0 false is = some js) :
    Keeps s (.push :: is) js := by
  intro frames ws _ run
  obtain ⟨top, below, rfl⟩ := ne_nil_of_journal run
  obtain ⟨_, _, ⟨⟩, run⟩ := journal_push_eq_some_iff.1 run
  exact journal_of_release? h [] rfl (fun _ => rfl) run

/-- Joining all pops keeps the journal. -/
theorem keeps_coalescePops (capacity : s.limit ≤ UInt32.size) (is : List Instruction) :
    Keeps s is (coalescePops is) :=
  coalescePops_induction (Keeps s) .refl .trans .cons keeps_pop_zero (keeps_pop_pop capacity) is

/-- **Dropping redundant pushes keeps the journal.** -/
theorem keeps_removeRedundantPushes (capacity : s.limit ≤ UInt32.size) (is : List Instruction) :
    Keeps s is (removeRedundantPushes is) :=
  (keeps_coalescePops capacity is).trans
    (releasePushes_induction (Keeps s) .refl .trans .cons keeps_of_release? _)

/-! ### Other instructions -/

/-- Dropping redundant pushes brings in no instructions but pops. -/
theorem mem_of_mem_removeRedundantPushes {is : List Instruction} {j : Instruction}
    (h : j ∈ removeRedundantPushes is) (other : ∀ count, j ≠ .pop count) : j ∈ is := by
  refine removeRedundantPushes_induction (fun is js => j ∈ js → j ∈ is)
    (fun _ => id) (fun first second => first ∘ second) ?_ (fun _ => List.mem_cons_of_mem _)
    ?_ ?_ is h
  · intro is js i old hj
    rcases List.mem_cons.1 hj with rfl | hj
    · exact List.mem_cons_self ..
    · exact List.mem_cons_of_mem _ (old hj)
  · intro count more is hj
    rcases List.mem_cons.1 hj with rfl | hj
    · exact absurd rfl (other _)
    · exact List.mem_cons_of_mem _ (List.mem_cons_of_mem _ hj)
  · intro is js released hj
    refine List.mem_cons_of_mem _ ?_
    rcases eq_or_split_of_release? released with rfl | ⟨front, count, rest, rfl, rfl⟩
    · exact hj
    · simp only [List.mem_append, List.mem_cons] at hj ⊢
      rcases hj with hj | hj | hj
      · exact .inl hj
      · unfold oneLess at hj
        split at hj
        · exact absurd (List.mem_singleton.1 hj) (other _)
        · cases hj
      · exact .inr (.inr hj)

end Armature
