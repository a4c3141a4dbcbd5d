/-
**The stack of frames.**

There is always a current frame.  Opening a frame copies it, closing frames brings back what was
current before; the number of frames, the first one included, is bounded.  Room for as many frames
as the bound allows is taken to be there: opening a frame fails at the bound only.

Main definitions:

* `Frames` — the current frame and those under it;
* `Frames.push?`, `Frames.pop?` — opening one and closing several frames;
* `Frames.setTop` — replacing the current frame.

Main results:

* `Frames.push?_eq_ok_iff`, `Frames.pop?_eq_ok_iff` — when they succeed, and with what result.
-/

import Armature.Fault

set_option autoImplicit false

namespace Armature

/-- A stack that is never empty. -/
structure Frames (α : Type) where
  /-- The current frame. -/
  top : α
  /-- The frames under it, the nearest first. -/
  below : List α
  deriving DecidableEq, Repr

namespace Frames

variable {α : Type}

/-- The stack with one frame. -/
def root (a : α) : Frames α := ⟨a, []⟩

/-- The number of frames that can be closed. -/
def depth (f : Frames α) : Nat := f.below.length

/-- The frame under the current one. -/
def parent? (f : Frames α) : Option α := f.below.head?

/-- Open a copy of the current frame, if fewer than `limit` frames are there. -/
def push? (limit : Nat) (f : Frames α) : Except Fault (Frames α) :=
  if f.depth + 1 < limit then .ok ⟨f.top, f.top :: f.below⟩ else .error (.stackOverflow limit)

/-- Close `count` frames, if as many were opened. -/
def pop? (count : UInt32) (f : Frames α) : Except Fault (Frames α) :=
  match (f.top :: f.below).drop count.toNat with
  | [] => .error (.stackUnderflow count f.depth)
  | top :: below => .ok ⟨top, below⟩

/-- Replace the current frame. -/
def setTop (f : Frames α) (a : α) : Frames α := ⟨a, f.below⟩

/-- A frame is opened exactly below the limit, and is a copy of the current one. -/
theorem push?_eq_ok_iff {limit : Nat} {f g : Frames α} :
    f.push? limit = .ok g ↔ f.depth + 1 < limit ∧ g = ⟨f.top, f.top :: f.below⟩ := by
  unfold push?
  split
  · rename_i h
    simp only [Except.ok.injEq, h, true_and, eq_comm]
  · rename_i h
    simp only [reduceCtorEq, h, false_and]

/-- Frames are closed exactly when there are enough of them. -/
theorem pop?_eq_ok_iff {count : UInt32} {f g : Frames α} :
    f.pop? count = .ok g ↔ (f.top :: f.below).drop count.toNat = g.top :: g.below := by
  unfold pop?
  split
  · rename_i h
    simp only [h, reduceCtorEq]
  · rename_i top below h
    constructor
    · intro hg; cases hg; exact h
    · intro hg
      rw [h] at hg
      cases g
      simp_all

/-- Closing frames fails exactly when too few are there. -/
theorem pop?_eq_error_iff {count : UInt32} {f : Frames α} {fault : Fault} :
    f.pop? count = .error fault ↔
      f.depth < count.toNat ∧ fault = .stackUnderflow count f.depth := by
  unfold pop?
  split
  · rename_i h
    rw [List.drop_eq_nil_iff, List.length_cons] at h
    simp only [Except.error.injEq, depth]
    exact ⟨fun e => ⟨h, e.symm⟩, fun e => e.2.symm⟩
  · rename_i top below h
    have bound : count.toNat < (f.top :: f.below).length := by
      rcases Nat.lt_or_ge count.toNat (f.top :: f.below).length with hlt | hge
      · exact hlt
      · rw [List.drop_eq_nil_of_le hge] at h; cases h
    simp only [List.length_cons] at bound
    constructor
    · intro e; cases e
    · intro e; simp only [depth] at e; omega

end Frames

end Armature
