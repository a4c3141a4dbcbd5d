/-
**Frames that need not be opened.**

First, pops that follow each other become one.  Then a push is dropped, and the pop that closes its
frame lowered by one, if nobody can tell: nothing in the frame itself changes it, or the pop also
closes the frame around it, or nothing follows the pop, or the frame is never closed.

Main definitions:

* `coalescePops` — no pop of zero frames, and none right after another;
* `release?` — what follows a push after it is dropped, if it may be dropped;
* `removeRedundantPushes` — the list without pushes that may be dropped.
-/

import Armature.Instruction.Basic

set_option autoImplicit false

namespace Armature

/-! ### Pops -/

/-- Join pops that follow each other, and drop pops of nothing.  The counts add up as words,
unchecked: a sum of `2 ^ 32` or more wraps. -/
def coalescePops : List Instruction → List Instruction
  | [] => []
  | .pop count :: rest =>
    if count = 0 then coalescePops rest
    else
      match coalescePops rest with
      | .pop more :: rest => .pop (count + more) :: rest
      | rest => .pop count :: rest
  | i :: rest => i :: coalescePops rest

/-- A pop that closes one frame less. -/
def oneLess (count : UInt32) : List Instruction := if 1 < count then [.pop (count - 1)] else []

/-! ### Pushes -/

/-- Follow a frame from its opening on, `inner` frames inside it being open, and `changed` telling
whether the frame itself was changed.  If its push may be dropped, the result is what follows, with
the closing pop lowered by one. -/
def release? (inner : Nat) (changed : Bool) : List Instruction → Option (List Instruction)
  | [] => some []
  | .push :: rest => (release? (inner + 1) changed rest).map (.push :: ·)
  | .pop count :: rest =>
    if count.toNat ≤ inner then
      (release? (inner - count.toNat) changed rest).map (.pop count :: ·)
    else if inner + 1 < count.toNat || !changed || rest.isEmpty then some (oneLess count ++ rest)
    else none
  | i :: rest =>
    (release? inner (changed || (inner == 0 && i.modifiesFrame)) rest).map (i :: ·)

theorem length_oneLess_le (count : UInt32) : (oneLess count).length ≤ 1 := by
  unfold oneLess
  split <;> simp

/-- Dropping a push adds nothing to what follows it. -/
theorem length_le_of_release? {inner : Nat} {changed : Bool} {is js : List Instruction}
    (h : release? inner changed is = some js) : js.length ≤ is.length := by
  fun_induction release? inner changed is generalizing js with
  | case1 => cases h; exact Nat.le_refl _
  | case2 inner changed rest ih =>
    obtain ⟨ks, hk, rfl⟩ := Option.map_eq_some_iff.1 h
    simpa using ih hk
  | case3 inner changed count rest _ ih =>
    obtain ⟨ks, hk, rfl⟩ := Option.map_eq_some_iff.1 h
    simpa using ih hk
  | case4 inner changed count rest =>
    cases h
    have := length_oneLess_le count
    simp only [List.length_append, List.length_cons]
    omega
  | case5 => cases h
  | case6 inner changed i rest _ _ ih =>
    obtain ⟨ks, hk, rfl⟩ := Option.map_eq_some_iff.1 h
    simpa using ih hk

/-- Drop pushes from left to right as long as they may be dropped. -/
def releasePushes : List Instruction → List Instruction
  | [] => []
  | .push :: rest =>
    match h : release? 0 false rest with
    | some rest' =>
      have : rest'.length ≤ rest.length := length_le_of_release? h
      releasePushes rest'
    | none => .push :: releasePushes rest
  | i :: rest => i :: releasePushes rest
  termination_by is => is.length
  decreasing_by all_goals simp only [List.length_cons]; omega

/-- The list with joined pops and without pushes that may be dropped. -/
def removeRedundantPushes (is : List Instruction) : List Instruction :=
  releasePushes (coalescePops is)

end Armature
