/-
**What one removal of redundant pushes leaves.**

It need not be a normal list.  Pops are joined only at the beginning, and pushes are visited only
once, from left to right; but when a frame is dropped, two pops may come to stand in a row, and a
pop may come to stand at the end of the list.  It does not get worse than that.  A push that stays
is needed as soon as anything follows the list; the list is normal if there are no such pops in it;
this is so from the start if there is something between every two pops besides pushes; and if not,
doing it over and over gets there.

Main definitions:

* `Inherited` — a property that goes over to what is visited next;
* `PopNext`, `Spaced` — a pop follows behind pushes only; none does so behind a pop.

Main results:

* `release?_append_of_push_suffix` — **a push that stays is needed if anything follows the list**;
* `exists_released_of_endsWithPop` — in a list that closes all frames and ends with a pop there is
  always something to be dropped;
* `releasePushes_of_spacedOut` — **one visit is enough where something happens between every two
  pops**;
* `removeRedundantPushes_settles` — **how far a balanced list is brought by one pass, and by
  several**;
* `removeRedundantPushes_not_idempotent` — one is not always enough.
-/

import Armature.Proofs.Optimize.Redundancy

set_option autoImplicit false

namespace Armature

variable {i : Instruction} {is js rest : List Instruction}

/-! ### Pushes that stay -/

/-- A push that must stay for what is done in its frame must stay if more is done in it. -/
theorem release?_eq_none_of_changed {inner : Nat} {changed changed' : Bool}
    (more : changed = true → changed' = true) (kept : release? inner changed is = none) :
    release? inner changed' is = none := by
  fun_induction release? inner changed is generalizing changed' with
  | case1 => cases kept
  | case2 inner changed rest ih =>
      exact Option.map_eq_none_iff.2 (ih more (Option.map_eq_none_iff.1 kept))
  | case3 inner changed count rest inside ih =>
      rw [release?, if_pos inside]
      exact Option.map_eq_none_iff.2 (ih more (Option.map_eq_none_iff.1 kept))
  | case4 => cases kept
  | case5 inner changed count rest closes told =>
      rw [release?, if_neg closes, if_neg]
      simp only [Bool.or_eq_true, Bool.not_eq_true', not_or, Bool.not_eq_false] at told ⊢
      exact ⟨⟨told.1.1, more told.1.2⟩, told.2⟩
  | case6 inner changed i rest notPush notPop ih =>
      rw [release?_of_not_bracket (Instruction.isBracket_eq_false notPush notPop)]
      refine Option.map_eq_none_iff.2 (ih ?_ (Option.map_eq_none_iff.1 kept))
      intro here
      rw [Bool.or_eq_true] at here ⊢
      exact here.imp_left more

/-- A pop that closes one frame less closes as many where one less was opened. -/
theorem release?_oneLess {count : UInt32} (closes : 0 < count.toNat) {inner : Nat}
    (inside : count.toNat ≤ inner + 1) (changed : Bool) (rest : List Instruction) :
    release? inner changed (oneLess count ++ rest) =
      (release? (inner + 1 - count.toNat) changed rest).map (oneLess count ++ ·) := by
  rcases oneLess_cases closes with ⟨single, gone⟩ | ⟨less, several, _, left⟩
  · rw [gone, single]
    exact Option.map_id'.symm
  · rw [left, List.singleton_append, release?, if_pos (by omega),
      show inner - less.toNat = inner + 1 - count.toNat by omega]
    rfl

/-- A push that must stay must stay after a push behind it was dropped.  The frame of the dropped
one has `inner` frames inside it, and there are `outer` frames between the two. -/
theorem release?_eq_none_of_release? {inner outer : Nat} {changed watched watched' : Bool}
    (more : watched = true → watched' = true) (released : release? inner changed is = some js)
    (kept : release? (inner + 1 + outer) watched is = none) :
    release? (inner + outer) watched' js = none := by
  fun_induction release? inner changed is generalizing js watched watched' outer with
  | case1 => cases kept
  | case2 inner changed rest ih =>
      obtain ⟨ks, hks, rfl⟩ := Option.map_eq_some_iff.1 released
      have kept := Option.map_eq_none_iff.1 kept
      rw [show inner + 1 + outer + 1 = inner + 1 + 1 + outer by omega] at kept
      have later := ih more hks kept
      rw [show inner + 1 + outer = inner + outer + 1 by omega] at later
      exact Option.map_eq_none_iff.2 later
  | case3 inner changed count rest inside ih =>
      obtain ⟨ks, hks, rfl⟩ := Option.map_eq_some_iff.1 released
      rw [release?, if_pos (by omega), Option.map_eq_none_iff,
        show inner + 1 + outer - count.toNat = inner - count.toNat + 1 + outer by omega] at kept
      have later := ih more hks kept
      rw [release?, if_pos (by omega), Option.map_eq_none_iff,
        show inner + outer - count.toNat = inner - count.toNat + outer by omega]
      exact later
  | case4 inner changed count rest closes silent =>
      cases released
      rw [release?] at kept
      split at kept
      · -- the other frame is closed later, and nothing has changed until then
        rename_i inside
        rw [release?_oneLess (by omega) (by omega), Option.map_eq_none_iff,
          show inner + outer + 1 - count.toNat = inner + 1 + outer - count.toNat by omega]
        exact release?_eq_none_of_changed more (Option.map_eq_none_iff.1 kept)
      · -- the same pop closes both frames, and closes just the other one now
        rename_i outside
        split at kept
        · cases kept
        · rename_i told
          simp only [Bool.or_eq_true, decide_eq_true_eq, Bool.not_eq_true', not_or,
            Bool.not_eq_false] at told
          obtain ⟨⟨exactly, change⟩, follows⟩ := told
          have closes : 0 < count.toNat := by omega
          rcases oneLess_cases closes with ⟨single, _⟩ | ⟨less, several, _, left⟩
          · omega
          · rw [left, List.singleton_append, release?, if_neg (by omega), if_neg]
            simp only [Bool.or_eq_true, decide_eq_true_eq, Bool.not_eq_true', not_or,
              Bool.not_eq_false]
            exact ⟨⟨by omega, more change⟩, follows⟩
  | case5 => cases released
  | case6 inner changed i rest notPush notPop ih =>
      obtain ⟨ks, hks, rfl⟩ := Option.map_eq_some_iff.1 released
      have hb := Instruction.isBracket_eq_false notPush notPop
      rw [release?_of_not_bracket hb, Option.map_eq_none_iff] at kept
      rw [release?_of_not_bracket hb, Option.map_eq_none_iff]
      refine ih ?_ hks kept
      intro here
      rw [Bool.or_eq_true, Bool.and_eq_true, beq_iff_eq] at here
      rcases here with before | ⟨no, _⟩
      · rw [more before, Bool.true_or]
      · omega

/-- A property that goes over from a list to what is visited next: what follows the first
instruction, or what becomes of it when the push in front is dropped. -/
structure Inherited (P : List Instruction → Prop) : Prop where
  /-- The first instruction is passed. -/
  tail : ∀ {i rest}, P (i :: rest) → P rest
  /-- The push in front is dropped. -/
  released : ∀ {rest js}, release? 0 false rest = some js → P (.push :: rest) → P js

/-- A push that stays has been kept. -/
theorem Inherited.exists_of_push_suffix {P : List Instruction → Prop} (inherited : Inherited P)
    (h : P is) (there : .push :: rest <:+ releasePushes is) :
    ∃ ks, P ks ∧ release? 0 false ks = none ∧ rest = releasePushes ks := by
  fun_induction releasePushes is with
  | case1 => cases List.suffix_nil.1 there
  | case2 ks js released _ ih => exact ih (inherited.released released h) there
  | case3 ks kept ih =>
      rcases List.suffix_cons_iff.1 there with first | later
      · exact ⟨ks, inherited.tail h, kept, (List.cons.inj first).2⟩
      · exact ih (inherited.tail h) later
  | case4 i ks notPush ih =>
      rcases List.suffix_cons_iff.1 there with first | later
      · exact (notPush (List.cons.inj first).1.symm).elim
      · exact ih (inherited.tail h) later

/-- A push that must stay must stay after the pushes behind it were visited, provided that something
is still left behind the pop that closes its frame; `more` follows all of it. -/
theorem Inherited.release?_append {P : List Instruction → Prop} (inherited : Inherited P)
    {more : List Instruction}
    (left : ∀ count rest, P (.pop count :: rest) → rest ≠ [] → releasePushes rest ++ more ≠ [])
    {inner : Nat} {changed : Bool} (h : P is) (kept : release? inner changed is = none) :
    release? inner changed (releasePushes is ++ more) = none := by
  fun_induction releasePushes is generalizing inner changed with
  | case1 => cases kept
  | case2 ks js released _ ih =>
      refine ih (inherited.released released h) ?_
      have kept : release? (0 + 1 + inner) changed ks = none := by
        rw [Nat.zero_add, Nat.add_comm]
        exact Option.map_eq_none_iff.1 kept
      rw [← Nat.zero_add inner]
      exact release?_eq_none_of_release? id released kept
  | case3 ks _ ih =>
      exact Option.map_eq_none_iff.2 (ih (inherited.tail h) (Option.map_eq_none_iff.1 kept))
  | case4 i ks notPush ih =>
      cases i using Instruction.bracketCases with
      | push => exact (notPush rfl).elim
      | pop count =>
          rw [release?] at kept
          rw [List.cons_append, release?]
          split at kept
          · rename_i inside
            rw [if_pos inside]
            exact Option.map_eq_none_iff.2 (ih (inherited.tail h) (Option.map_eq_none_iff.1 kept))
          · rename_i closes
            split at kept
            · cases kept
            · rename_i told
              simp only [Bool.or_eq_true, not_or, List.isEmpty_iff] at told
              rw [if_neg closes, if_neg]
              simp only [Bool.or_eq_true, not_or, List.isEmpty_iff]
              exact ⟨told.1, left count ks h told.2⟩
      | inside i hb =>
          rw [release?_of_not_bracket hb, Option.map_eq_none_iff] at kept
          rw [List.cons_append, release?_of_not_bracket hb, Option.map_eq_none_iff]
          exact ih (inherited.tail h) kept

/-- **A push that stays is needed as soon as anything follows the list.** -/
theorem release?_append_of_push_suffix (there : .push :: rest <:+ removeRedundantPushes is)
    {more : List Instruction} (follows : more ≠ []) : release? 0 false (rest ++ more) = none := by
  have inherited : Inherited fun _ => True := ⟨fun _ => trivial, fun _ _ => trivial⟩
  obtain ⟨ks, -, kept, rfl⟩ := inherited.exists_of_push_suffix trivial there
  refine inherited.release?_append (fun count rest _ _ => ?_) trivial kept
  exact List.append_ne_nil_of_right_ne_nil _ follows

/-! ### Pops that are left -/

/-- No pop of nothing is made by closing one frame less. -/
theorem pop_zero_notMem_oneLess {count : UInt32} : .pop 0 ∉ oneLess count := by
  intro zero
  unfold oneLess at zero
  split at zero
  · rename_i several
    have none := Instruction.pop.inj (List.mem_singleton.1 zero)
    have one : count = 1 := by
      rw [← UInt32.sub_add_cancel count 1, ← none, UInt32.zero_add]
    rw [one] at several
    exact absurd several (by decide)
  · cases zero

theorem pop_zero_notMem_releasePushes (nonzero : .pop 0 ∉ is) : .pop 0 ∉ releasePushes is := by
  refine releasePushes_induction (fun is js => .pop 0 ∉ is → .pop 0 ∉ js) (fun _ => id)
    (fun first second => second ∘ first) ?_ ?_ is nonzero
  · intro is js i later nonzero
    rw [List.mem_cons, not_or] at nonzero ⊢
    exact ⟨nonzero.1, later nonzero.2⟩
  · intro is js released nonzero
    rw [List.mem_cons, not_or] at nonzero
    rcases eq_or_split_of_release? released with rfl | ⟨front, count, rest, rfl, rfl⟩
    · exact nonzero.2
    · simp only [List.mem_append, List.mem_cons, not_or] at nonzero ⊢
      exact ⟨nonzero.2.1, pop_zero_notMem_oneLess, nonzero.2.2.2⟩

/-- The counts of pops in a list that goes through add up to words. -/
theorem pop_zero_notMem_coalescePops {limit depth final : Nat} (word : limit < UInt32.size)
    (within : depth ≤ limit) (counts : finalDepth? limit depth is = some final) :
    .pop 0 ∉ coalescePops is := by
  fun_induction coalescePops is generalizing depth with
  | case1 => exact List.not_mem_nil
  | case2 rest ih =>
      obtain ⟨after, climbs, counts⟩ := finalDepth?_cons_eq_some_iff.1 counts
      exact ih ((Instruction.climb?_le climbs).1 within) counts
  | case3 count rest several more rest' found ih =>
      obtain ⟨after, climbs, counts⟩ := finalDepth?_cons_eq_some_iff.1 counts
      have small := (Instruction.climb?_le climbs).1 within
      have nonzero := ih small counts
      rw [found, List.mem_cons, not_or] at nonzero
      -- the second pop closes frames that the first one leaves
      obtain ⟨_, counts', _⟩ := lowers_coalescePops rest word small counts
      rw [found] at counts'
      obtain ⟨_, climbs', _⟩ := finalDepth?_cons_eq_some_iff.1 counts'
      obtain ⟨first, rfl⟩ := Instruction.climb?_pop_eq_some_iff.1 climbs
      obtain ⟨second, rfl⟩ := Instruction.climb?_pop_eq_some_iff.1 climbs'
      rw [List.mem_cons, not_or]
      refine ⟨fun none => several ?_, nonzero.2⟩
      have sum := congrArg UInt32.toNat (Instruction.pop.inj none)
      have size : UInt32.size = 2 ^ 32 := rfl
      rw [UInt32.toNat_add, Nat.mod_eq_of_lt (by omega), UInt32.toNat_zero] at sum
      rw [← UInt32.toNat_inj, UInt32.toNat_zero]
      omega
  | case4 count rest several other ih =>
      obtain ⟨after, climbs, counts⟩ := finalDepth?_cons_eq_some_iff.1 counts
      rw [List.mem_cons, not_or]
      refine ⟨fun none => several (Instruction.pop.inj none).symm, ?_⟩
      exact ih ((Instruction.climb?_le climbs).1 within) counts
  | case5 i rest notPop ih =>
      obtain ⟨after, climbs, counts⟩ := finalDepth?_cons_eq_some_iff.1 counts
      rw [List.mem_cons, not_or]
      exact ⟨fun pop => notPop 0 pop.symm, ih ((Instruction.climb?_le climbs).1 within) counts⟩

/-- The list ends with a pop. -/
def EndsWithPop (is : List Instruction) : Prop := ∃ front count, is = front ++ [.pop count]

theorem EndsWithPop.cons (h : EndsWithPop is) : EndsWithPop (i :: is) := by
  obtain ⟨front, count, rfl⟩ := h
  exact ⟨i :: front, count, rfl⟩

/-- If the end of the list is not the reason for which a push may be dropped, it may be dropped with
a write behind the list too. -/
theorem isSome_release?_append_write {inner : Nat} {changed : Bool} (slot : UInt32)
    (elsewhere : ¬ EndsWithPop is) (released : (release? inner changed is).isSome) :
    (release? inner changed (is ++ [.write slot])).isSome := by
  fun_induction release? inner changed is with
  | case1 => rfl
  | case2 inner changed rest ih =>
      rw [Option.isSome_map] at released
      rw [List.cons_append, release?, Option.isSome_map]
      exact ih (fun ends => elsewhere ends.cons) released
  | case3 inner changed count rest inside ih =>
      rw [Option.isSome_map] at released
      rw [List.cons_append, release?, if_pos inside, Option.isSome_map]
      exact ih (fun ends => elsewhere ends.cons) released
  | case4 inner changed count rest closes silent =>
      simp only [Bool.or_eq_true, List.isEmpty_iff] at silent
      have silent := silent.resolve_right fun last => elsewhere ⟨[], count, by rw [last]; rfl⟩
      rw [List.cons_append, release?, if_neg closes, if_pos]
      · rfl
      · rw [Bool.or_eq_true, Bool.or_eq_true]
        exact .inl silent
  | case5 => cases released
  | case6 inner changed i rest notPush notPop ih =>
      rw [Option.isSome_map] at released
      rw [List.cons_append, release?_of_not_bracket (Instruction.isBracket_eq_false notPush notPop),
        Option.isSome_map]
      exact ih (fun ends => elsewhere ends.cons) released

/-- In a list that closes all frames and ends with a pop a push may be dropped, or the lowest of the
frames that were open before could be spared. -/
theorem exists_released_of_endsWithPop {limit depth : Nat} (nonzero : .pop 0 ∉ is)
    (ends : EndsWithPop is) (counts : finalDepth? limit depth is = some 0) :
    (∃ rest, .push :: rest <:+ is ∧ (release? 0 false rest).isSome) ∨
      (0 < depth ∧ ∀ changed, (release? (depth - 1) changed is).isSome) := by
  induction is generalizing depth with
  | nil =>
      obtain ⟨front, count, split⟩ := ends
      cases front <;> cases split
  | cons i rest ih =>
      obtain ⟨after, climbs, counts⟩ := finalDepth?_cons_eq_some_iff.1 counts
      rw [List.mem_cons, not_or] at nonzero
      -- what was found behind the first instruction is found behind it still
      have earlier : (∃ ks, .push :: ks <:+ rest ∧ (release? 0 false ks).isSome) →
          ∃ ks, .push :: ks <:+ i :: rest ∧ (release? 0 false ks).isSome := by
        rintro ⟨ks, there, released⟩
        exact ⟨ks, there.trans (List.suffix_cons ..), released⟩
      cases rest with
      | nil =>
          -- the last pop closes all frames that are open
          obtain ⟨front, count, split⟩ := ends
          have last : i = .pop count := by
            cases front with
            | nil => exact (List.cons.inj split).1
            | cons k front => cases front <;> cases (List.cons.inj split).2
          subst last
          obtain ⟨enough, rfl⟩ := Instruction.climb?_pop_eq_some_iff.1 climbs
          have all : depth - count.toNat = 0 := Option.some.inj counts
          have some : 0 < count.toNat := by
            rw [Nat.pos_iff_ne_zero]
            intro none
            exact nonzero.1 (congrArg Instruction.pop (UInt32.toNat_inj.1 none).symm)
          refine .inr ⟨by omega, fun changed => ?_⟩
          rw [release?, if_neg (by omega), if_pos]
          · rfl
          · exact Bool.or_true _
      | cons j rest =>
          have ends : EndsWithPop (j :: rest) := by
            obtain ⟨front, count, split⟩ := ends
            cases front with
            | nil => cases split
            | cons k front => exact ⟨front, count, (List.cons.inj split).2⟩
          rcases ih nonzero.2 ends counts with found | ⟨lower, spared⟩
          · exact .inl (earlier found)
          · cases i using Instruction.bracketCases with
            | push =>
                obtain ⟨_, rfl⟩ := Instruction.climb?_push_eq_some_iff.1 climbs
                rw [Nat.add_sub_cancel] at spared
                rcases Nat.eq_zero_or_pos depth with rfl | inside
                · exact .inl ⟨_, List.suffix_refl _, spared false⟩
                · refine .inr ⟨inside, fun changed => ?_⟩
                  rw [release?, Option.isSome_map, Nat.sub_add_cancel inside]
                  exact spared changed
            | pop count =>
                obtain ⟨_, rfl⟩ := Instruction.climb?_pop_eq_some_iff.1 climbs
                refine .inr ⟨by omega, fun changed => ?_⟩
                rw [release?, if_pos (by omega), Option.isSome_map, Nat.sub_right_comm]
                exact spared changed
            | inside i hb =>
                rw [Instruction.climb?_of_not_bracket hb, Option.some.injEq] at climbs
                subst climbs
                refine .inr ⟨lower, fun changed => ?_⟩
                rw [release?_of_not_bracket hb, Option.isSome_map]
                exact spared _

/-! ### Frames apart -/

/-- A pop follows, with nothing but pushes in front of it. -/
def PopNext : List Instruction → Prop
  | .push :: rest => PopNext rest
  | .pop _ :: _ => True
  | _ => False

/-- Behind no pop comes another one with nothing but pushes in between. -/
def Spaced (is : List Instruction) : Prop :=
  ∀ count rest, .pop count :: rest <:+ is → ¬ PopNext rest

theorem Spaced.tail (h : Spaced (i :: is)) : Spaced is :=
  fun count rest there => h count rest (there.trans (List.suffix_cons ..))

theorem spaced_cons (h : Spaced is) (first : ∀ count, i = .pop count → ¬ PopNext is) :
    Spaced (i :: is) := by
  intro count rest there
  rcases List.suffix_cons_iff.1 there with same | later
  · cases same
    exact first count rfl
  · exact h count rest later

theorem Spaced.popsApart (h : Spaced is) : PopsApart is :=
  fun count _ _ there => h count _ there trivial

/-- Something happens before the next frame is closed, if all frames are closed. -/
theorem exists_inside_of_not_popNext {limit depth : Nat} (h : ¬ PopNext is) (more : is ≠ [])
    (counts : finalDepth? limit depth is = some 0) : ∃ j ∈ is, j.isBracket = false := by
  induction is generalizing depth with
  | nil => exact absurd rfl more
  | cons i rest ih =>
      obtain ⟨after, climbs, counts⟩ := finalDepth?_cons_eq_some_iff.1 counts
      cases i using Instruction.bracketCases with
      | push =>
          obtain ⟨_, rfl⟩ := Instruction.climb?_push_eq_some_iff.1 climbs
          have later : rest ≠ [] := by
            rintro rfl
            cases counts
          obtain ⟨j, member, hj⟩ := ih h later counts
          exact ⟨j, List.mem_cons_of_mem _ member, hj⟩
      | pop count => exact absurd trivial h
      | inside i hb => exact ⟨i, List.mem_cons_self .., hb⟩

/-- A pop is not brought nearer. -/
theorem popNext_of_release? {inner : Nat} {changed : Bool}
    (released : release? inner changed is = some js) (next : PopNext js) : PopNext is := by
  fun_induction release? inner changed is generalizing js with
  | case1 => cases released; exact next
  | case2 inner changed rest ih =>
      obtain ⟨ks, hks, rfl⟩ := Option.map_eq_some_iff.1 released
      exact ih hks next
  | case3 => trivial
  | case4 => trivial
  | case5 => cases released
  | case6 inner changed i rest notPush notPop ih =>
      obtain ⟨ks, hks, rfl⟩ := Option.map_eq_some_iff.1 released
      cases i with
      | push => exact (notPush rfl).elim
      | pop count => exact (notPop count rfl).elim
      | _ => exact next

theorem Spaced.of_release? {inner : Nat} {changed : Bool}
    (released : release? inner changed is = some js) (h : Spaced is) : Spaced js := by
  fun_induction release? inner changed is generalizing js with
  | case1 => cases released; exact h
  | case2 inner changed rest ih =>
      obtain ⟨ks, hks, rfl⟩ := Option.map_eq_some_iff.1 released
      exact spaced_cons (ih hks h.tail) fun _ pop => Instruction.noConfusion pop
  | case3 inner changed count rest _ ih =>
      obtain ⟨ks, hks, rfl⟩ := Option.map_eq_some_iff.1 released
      refine spaced_cons (ih hks h.tail) fun _ _ next => ?_
      exact h count rest (List.suffix_refl _) (popNext_of_release? hks next)
  | case4 inner changed count rest closes =>
      cases released
      have apart := h count rest (List.suffix_refl _)
      rcases oneLess_cases (by omega : 0 < count.toNat) with ⟨_, gone⟩ | ⟨less, _, _, left⟩
      · rw [gone]
        exact h.tail
      · rw [left]
        exact spaced_cons h.tail fun _ _ => apart
  | case5 => cases released
  | case6 inner changed i rest notPush notPop ih =>
      obtain ⟨ks, hks, rfl⟩ := Option.map_eq_some_iff.1 released
      exact spaced_cons (ih hks h.tail) fun count pop => (notPop count pop).elim

/-- All frames are closed, and between two pops something happens. -/
def SpacedOut (limit : Nat) (is : List Instruction) : Prop :=
  Spaced is ∧ ∃ depth, finalDepth? limit depth is = some 0

theorem inherited_spacedOut (limit : Nat) : Inherited (SpacedOut limit) where
  tail h := by
    obtain ⟨apart, depth, counts⟩ := h
    obtain ⟨after, _, counts⟩ := finalDepth?_cons_eq_some_iff.1 counts
    exact ⟨apart.tail, after, counts⟩
  released {rest js} released h := by
    obtain ⟨apart, depth, counts⟩ := h
    obtain ⟨after, climbs, counts⟩ := finalDepth?_cons_eq_some_iff.1 counts
    obtain ⟨_, rfl⟩ := Instruction.climb?_push_eq_some_iff.1 climbs
    have counts : finalDepth? limit (depth + 0 + 1) rest = some 0 := counts
    obtain ⟨final, counts', less⟩ := finalDepth?_of_release? released counts
    rw [Nat.le_zero.1 less] at counts'
    exact ⟨apart.tail.of_release? released, depth + 0, counts'⟩

/-- Nothing that happens inside a frame is dropped. -/
theorem mem_releasePushes_of_mem {j : Instruction} (hb : j.isBracket = false) (member : j ∈ is) :
    j ∈ releasePushes is := by
  refine releasePushes_induction (fun is js => j ∈ is → j ∈ js) (fun _ => id)
    (fun first second => second ∘ first) ?_ ?_ is member
  · intro is js i later here
    exact (List.mem_cons.1 here).elim (fun first => first ▸ List.mem_cons_self ..)
      fun rest => List.mem_cons_of_mem _ (later rest)
  · intro is js released here
    rcases List.mem_cons.1 here with rfl | here
    · cases hb
    · rcases eq_or_split_of_release? released with rfl | ⟨front, count, rest, rfl, rfl⟩
      · exact here
      · simp only [List.mem_append, List.mem_cons] at here ⊢
        rcases here with before | rfl | behind
        · exact .inl before
        · cases hb
        · exact .inr (.inr behind)

/-- Pops that are apart stay apart. -/
theorem Spaced.releasePushes (h : Spaced is) : Spaced (releasePushes is) := by
  have both := releasePushes_induction
    (fun is js => (PopNext js → PopNext is) ∧ (Spaced is → Spaced js)) (fun _ => ⟨id, id⟩)
    (fun first second => ⟨first.1 ∘ second.1, second.2 ∘ first.2⟩) ?_ ?_ is
  · exact both.2 h
  · rintro is js i ⟨next, apart⟩
    refine ⟨fun pop => ?_, fun h => spaced_cons (apart h.tail) ?_⟩
    · cases i with
      | push => exact next pop
      | pop count => trivial
      | _ => exact pop
    · rintro count rfl pop
      exact h count is (List.suffix_refl _) (next pop)
  · intro is js released
    refine ⟨fun pop => ?_, fun h => h.tail.of_release? released⟩
    exact (popNext_of_release? released pop : PopNext is)

/-- **Where something happens between every two pops, one visit is enough.** -/
theorem releasePushes_of_spacedOut {limit : Nat} (h : SpacedOut limit is)
    (there : .push :: rest <:+ releasePushes is) : release? 0 false rest = none := by
  have inherited := inherited_spacedOut limit
  -- something happens behind a pop, and is still there
  have left : ∀ count rest, SpacedOut limit (.pop count :: rest) → rest ≠ [] →
      releasePushes rest ++ [] ≠ [] := by
    rintro count rest ⟨apart, depth, counts⟩ more
    obtain ⟨after, _, counts⟩ := finalDepth?_cons_eq_some_iff.1 counts
    obtain ⟨j, member, hb⟩ :=
      exists_inside_of_not_popNext (apart count rest (List.suffix_refl _)) more counts
    rw [List.append_nil]
    exact List.ne_nil_of_mem (mem_releasePushes_of_mem hb member)
  obtain ⟨ks, spaced, kept, rfl⟩ := inherited.exists_of_push_suffix h there
  have needed := inherited.release?_append left spaced kept
  rwa [List.append_nil] at needed

/-! ### One pass -/

/-- **How far redundant pushes are removed.**  Where a list balances, no pop of nothing is left, and
each push that is left is needed if anything follows the list.  To do it again changes nothing
exactly if the list is normal, and it is exactly if no two pops are in a row and none is at the end.
It is normal if, once the pops are joined, there is something between every two of them besides
pushes; and in any case it becomes so if it is done over and over. -/
theorem removeRedundantPushes_settles (short : is.length < UInt32.size)
    (valid : Stream.validate (Instruction.encodeAll is) = .ok ())
    (result : removeRedundantPushes is = js) :
    .pop 0 ∉ js ∧
    (∀ rest more, .push :: rest <:+ js → more ≠ [] → release? 0 false (rest ++ more) = none) ∧
    (removeRedundantPushes js = js ↔ IsNormal js) ∧
    (IsNormal js ↔ PopsApart js ∧ ¬ EndsWithPop js) ∧
    (Spaced (coalescePops is) → IsNormal js) ∧
    IsNormal (removeRedundantPushes^[is.length] is) := by
  subst result
  have counts := (Stream.validate_encodeAll_iff (Nat.le_refl _)).1 valid
  have nonzero : .pop 0 ∉ removeRedundantPushes is :=
    pop_zero_notMem_releasePushes (pop_zero_notMem_coalescePops short (Nat.zero_le _) counts)
  refine ⟨nonzero, fun rest more there follows => release?_append_of_push_suffix there follows,
    removeRedundantPushes_eq_self_iff, ⟨fun normal => ⟨normal.apart, fun ends => ?_⟩, ?_⟩,
    fun spaced => ?_, isNormal_iterate is⟩
  · -- a push whose frame is closed by the last pop may be dropped
    have counts' := (lowers_removeRedundantPushes is).closing short (Nat.zero_le _) counts
    rcases exists_released_of_endsWithPop nonzero ends counts' with
      ⟨rest, there, released⟩ | ⟨none, _⟩
    · rw [normal.needed rest there] at released
      cases released
    · exact absurd none (Nat.lt_irrefl 0)
  · rintro ⟨apart, elsewhere⟩
    refine ⟨apart, nonzero, fun rest there => ?_⟩
    by_contra released
    -- where the list does not end with a pop, it does not matter whether anything follows
    have elsewhere : ¬ EndsWithPop rest := by
      rintro ⟨front, count, rfl⟩
      obtain ⟨before, split⟩ := there
      refine elsewhere ⟨before ++ .push :: front, count, ?_⟩
      rw [← split, List.append_assoc, List.cons_append]
    have still := isSome_release?_append_write 0 elsewhere (Option.isSome_iff_ne_none.2 released)
    rw [release?_append_of_push_suffix there (List.cons_ne_nil (.write 0) [])] at still
    cases still
  · have counts' := (lowers_coalescePops is).closing short (Nat.zero_le _) counts
    exact ⟨spaced.releasePushes.popsApart, nonzero,
      fun rest there => releasePushes_of_spacedOut ⟨spaced, 0, counts'⟩ there⟩

/-- Two frames that one pop closes, and another one, with something between every two pops. -/
def spacedFrames : List Instruction :=
  [.push, .static (.uniformScale (-.one)), .push, .write 0, .pop 2, .push,
    .static (.uniformScale (-.one)), .write 1, .pop 1, .write 2]

/-- One of the frames goes, and then the list is normal. -/
theorem removeRedundantPushes_settles_spacedFrames :
    ∃ js, js = [.push, .static (.uniformScale (-.one)), .write 0, .pop 1, .push,
        .static (.uniformScale (-.one)), .write 1, .pop 1, .write 2] ∧
      IsNormal js ∧ removeRedundantPushes js = js ∧ ¬ EndsWithPop js := by
  have spaced : Spaced (coalescePops spacedFrames) := by
    rw [show coalescePops spacedFrames = spacedFrames by decide +kernel]
    intro count rest there
    simp only [spacedFrames, List.suffix_cons_iff, List.cons.injEq, reduceCtorEq, false_and,
      false_or, List.suffix_nil] at there
    rcases there with ⟨_, rfl⟩ | ⟨_, rfl⟩ | none
    · exact id
    · exact id
    · exact none.elim
  have short : spacedFrames.length < UInt32.size := by decide
  obtain ⟨-, -, same, ends, normal, -⟩ :=
    removeRedundantPushes_settles short (by decide +kernel) rfl
  refine ⟨removeRedundantPushes spacedFrames, by decide +kernel, normal spaced,
    same.2 (normal spaced), (ends.1 (normal spaced)).2⟩

/-- The second frame is opened for nothing, and closed by the last pop. -/
def idleFrameAtEnd : List Instruction :=
  [.push, .static (.uniformScale (-.one)), .write 0, .pop 1, .push, .pop 1]

/-- The last frame is opened for nothing, and stands between two pops. -/
def idleFrameBetweenPops : List Instruction :=
  [.push, .static (.uniformScale (-.one)), .write 0, .push, .static (.uniformScale (-.one)),
    .write 1, .pop 1, .push, .pop 2, .write 2]

/-- **Redundant pushes are not always removed at once.**  After one pass a push may be left that the
next one drops, since its pop has become the last instruction; or two pops in a row, which the next
one joins. -/
theorem removeRedundantPushes_not_idempotent :
    (Stream.validate (Instruction.encodeAll idleFrameAtEnd) = .ok () ∧
      removeRedundantPushes idleFrameAtEnd =
        [.push, .static (.uniformScale (-.one)), .write 0, .pop 1] ∧
      removeRedundantPushes (removeRedundantPushes idleFrameAtEnd) ≠
        removeRedundantPushes idleFrameAtEnd ∧
      ¬ IsNormal (removeRedundantPushes idleFrameAtEnd)) ∧
    (Stream.validate (Instruction.encodeAll idleFrameBetweenPops) = .ok () ∧
      removeRedundantPushes idleFrameBetweenPops =
        [.push, .static (.uniformScale (-.one)), .write 0, .push,
          .static (.uniformScale (-.one)), .write 1, .pop 1, .pop 1, .write 2] ∧
      ¬ PopsApart (removeRedundantPushes idleFrameBetweenPops)) := by
  have again : removeRedundantPushes (removeRedundantPushes idleFrameAtEnd) ≠
      removeRedundantPushes idleFrameAtEnd := by decide +kernel
  have left : removeRedundantPushes idleFrameBetweenPops =
      [.push, .static (.uniformScale (-.one)), .write 0, .push,
        .static (.uniformScale (-.one)), .write 1, .pop 1, .pop 1, .write 2] := by decide +kernel
  refine ⟨⟨by decide +kernel, by decide +kernel, again,
    fun normal => again (removeRedundantPushes_eq_self_iff.2 normal)⟩, by decide +kernel, left, ?_⟩
  rw [left]
  exact fun apart => apart 1 1 [.write 2] (by decide +kernel)

end Armature
