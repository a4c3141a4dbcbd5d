/-
**A closed branch leaves nothing behind but what it writes.**

A branch is a list that is run in a frame of its own: the frame is opened in front of it and closed
behind it, and the list itself closes only frames that it has opened.  Whatever it does there, the
frames under its own are not touched, so that behind it everything goes on as in front of it.  It can
be left out, then, as far as nobody asks for the slots that it writes, and it can change places with
another branch that writes other slots.

Main definitions:

* `branch` — a list in a frame of its own;
* `Passes` — a list leads from some frames to others, with some writes.

Main results:

* `journal_append_iff` — **a journal is made piece by piece**;
* `Passes.exists_above` — **a list that closes no frames but those above a point leaves those below
  it alone**;
* `journal_branch_append_iff` — what a branch does to a journal;
* `branch_isolated` — **a branch may be left out, but for the slots that it writes, and may change
  places with another one**.
-/

import Armature.Proofs.Evaluate.Nesting
import Armature.Proofs.Optimize.Stored

set_option autoImplicit false

namespace Armature

variable {M : Type} {s : Setting M}

/-! ### Lists between others -/

/-- The list leads from some frames to others, the current ones first, and makes the writes. -/
inductive Passes (s : Setting M) :
    List M → List Instruction → List M → List (UInt32 × M) → Prop
  /-- Nothing is done. -/
  | nil (frames : List M) : Passes s frames [] frames []
  /-- A frame is opened. -/
  | push {top : M} {below after : List M} {is : List Instruction} {ws : List (UInt32 × M)}
      (room : below.length + 1 < s.limit) (rest : Passes s (top :: top :: below) is after ws) :
      Passes s (top :: below) (.push :: is) after ws
  /-- Frames are closed. -/
  | pop {frames after : List M} {count : UInt32} {is : List Instruction} {ws : List (UInt32 × M)}
      (enough : count.toNat < frames.length)
      (rest : Passes s (frames.drop count.toNat) is after ws) :
      Passes s frames (.pop count :: is) after ws
  /-- Something is done in the current frame. -/
  | inside {top frame : M} {below after : List M} {i : Instruction} {is : List Instruction}
      {written ws : List (UInt32 × M)} (hb : i.isBracket = false)
      (effect : i.effect? s top = some (frame, written))
      (rest : Passes s (frame :: below) is after ws) :
      Passes s (top :: below) (i :: is) after (written ++ ws)

/-- **A journal is made piece by piece.** -/
theorem journal_append_iff {frames : List M} {is js : List Instruction} {ws : List (UInt32 × M)} :
    journal s frames (is ++ js) = some ws ↔
      ∃ after us vs, Passes s frames is after us ∧ journal s after js = some vs ∧
        ws = us ++ vs := by
  constructor
  · intro run
    induction is generalizing frames ws with
    | nil => exact ⟨frames, [], ws, .nil frames, run, rfl⟩
    | cons i is ih =>
        obtain ⟨top, below, rfl⟩ := ne_nil_of_journal run
        rw [List.cons_append] at run
        cases i using Instruction.bracketCases with
        | push =>
            obtain ⟨room, current, same, later⟩ := journal_push_eq_some_iff.1 run
            cases same
            obtain ⟨after, us, vs, passes, last, rfl⟩ := ih later
            exact ⟨after, us, vs, .push room passes, last, rfl⟩
        | pop count =>
            obtain ⟨enough, later⟩ := journal_pop_eq_some_iff.1 run
            obtain ⟨after, us, vs, passes, last, rfl⟩ := ih later
            exact ⟨after, us, vs, .pop enough passes, last, rfl⟩
        | inside i hb =>
            obtain ⟨frame, written, rest, effect, later, rfl⟩ :=
              (journal_other_eq_some_iff hb).1 run
            obtain ⟨after, us, vs, passes, last, rfl⟩ := ih later
            exact ⟨after, written ++ us, vs, .inside hb effect passes, last,
              (List.append_assoc ..).symm⟩
  · rintro ⟨after, us, vs, passes, last, rfl⟩
    induction passes with
    | nil frames => exact last
    | push room rest ih =>
        exact journal_push_eq_some_iff.2 ⟨room, _, rfl, ih last⟩
    | pop enough rest ih => exact journal_pop_eq_some_iff.2 ⟨enough, ih last⟩
    | inside hb effect rest ih =>
        rw [List.append_assoc]
        exact (journal_other_eq_some_iff hb).2 ⟨_, _, _, effect, ih last, rfl⟩

namespace Passes

variable {frames after : List M} {is : List Instruction} {ws : List (UInt32 × M)}

/-- A list makes a write for each instruction that writes. -/
theorem map_fst (passes : Passes s frames is after ws) : ws.map Prod.fst = writtenSlots is := by
  induction passes with
  | nil frames => rfl
  | push room rest ih => exact ih
  | pop enough rest ih => exact ih
  | inside hb effect rest ih =>
      rw [List.map_append, map_fst_of_effect? effect, ih, writtenSlots, writtenSlots,
        List.filterMap_cons]
      cases Instruction.output? _ <;> rfl

/-- **A list that closes no frames but those above a point leaves those below it alone.** -/
theorem exists_above (passes : Passes s frames is after ws) (upper : List M) {base : List M}
    (split : frames = upper ++ base) {depth final : Nat}
    (counted : balance depth is = .ok final) (above : upper.length = depth + 1) :
    ∃ rest, after = rest ++ base ∧ rest.length = final + 1 := by
  induction passes generalizing upper depth with
  | nil frames =>
      cases counted
      exact ⟨upper, split, above⟩
  | @push top below after is ws room rest ih =>
      obtain ⟨u, us, rfl⟩ := List.exists_cons_of_length_eq_add_one above
      obtain ⟨rfl, rfl⟩ := List.cons.inj split
      have opens : Instruction.push.depthAfter depth = .ok (depth + 1) := rfl
      rw [balance_cons_ok opens] at counted
      exact ih (top :: top :: us) rfl counted (congrArg (· + 1) above)
  | @pop frames after count is ws enough rest ih =>
      subst split
      have fits : count.toNat ≤ depth := by
        by_contra many
        have missing : (Instruction.pop count).depthAfter depth =
            .error (.stackUnderflow count depth) := if_neg many
        rw [balance_cons_error missing] at counted
        cases counted
      have closes : (Instruction.pop count).depthAfter depth = .ok (depth - count.toNat) :=
        if_pos fits
      rw [balance_cons_ok closes] at counted
      refine ih (upper.drop count.toNat) ?_ counted ?_
      · rw [List.drop_append_of_le_length (by omega)]
      · rw [List.length_drop]
        omega
  | @inside top frame below after i is written ws hb effect rest ih =>
      obtain ⟨u, us, rfl⟩ := List.exists_cons_of_length_eq_add_one above
      obtain ⟨rfl, rfl⟩ := List.cons.inj split
      rw [balance_cons_ok (Instruction.depthAfter_of_not_bracket hb depth)] at counted
      exact ih (frame :: us) rfl counted above

end Passes

/-! ### Branches -/

/-- The list in a frame of its own. -/
def branch (is : List Instruction) : List Instruction := .push :: (is ++ [.pop 1])

/-- **What a branch does to a journal**: it adds its writes, and what follows starts from the frames
that it started from. -/
theorem journal_branch_append_iff {b q : List Instruction} (balanced : Balanced b) {top : M}
    {below : List M} {ws : List (UInt32 × M)} :
    journal s (top :: below) (branch b ++ q) = some ws ↔
      below.length + 1 < s.limit ∧
        ∃ last us vs, Passes s (top :: top :: below) b (last :: top :: below) us ∧
          journal s (top :: below) q = some vs ∧ ws = us ++ vs := by
  have split : branch b ++ q = .push :: (b ++ (.pop 1 :: q)) := by
    simp [branch]
  rw [split, journal_push_eq_some_iff, List.length_cons]
  refine and_congr_right fun _ => ?_
  simp only [List.head?_cons, Option.some.injEq, exists_eq_left', journal_append_iff]
  constructor
  · rintro ⟨after, us, vs, passes, later, rfl⟩
    -- the frame that was opened for the branch is the one on top of those before
    obtain ⟨rest, rfl, one⟩ := passes.exists_above [top] rfl (balanced_iff.1 balanced) rfl
    obtain ⟨last, rfl⟩ := List.length_eq_one_iff.1 one
    exact ⟨last, us, vs, passes, (journal_pop_eq_some_iff.1 later).2, rfl⟩
  · rintro ⟨last, us, vs, passes, later, rfl⟩
    refine ⟨_, us, vs, passes, journal_pop_eq_some_iff.2 ⟨?_, later⟩, rfl⟩
    simp

/-! ### Slots -/

/-- Writes in the middle are seen only in their own slots, unless these are written again. -/
theorem enter_without_getElem? (outputs : Array M) (us bs vs : List (UInt32 × M)) {place : Nat}
    (unseen : (∀ slot ∈ bs.map Prod.fst, slot.toNat ≠ place) ∨
      ∃ slot ∈ vs.map Prod.fst, slot.toNat = place) :
    (enter outputs (us ++ vs))[place]? = (enter outputs (us ++ (bs ++ vs)))[place]? := by
  simp only [enter_getElem?_place, lastWriteTo?_append]
  rcases unseen with none | ⟨slot, member, here⟩
  · rw [(lastWriteTo?_eq_none_iff _ bs).2 none, Option.or_none]
  · -- the last write to the place is a later one
    cases found : lastWriteTo? (·.toNat = place) vs with
    | none => exact absurd here ((lastWriteTo?_eq_none_iff _ vs).1 found slot member)
    | some value => rfl

/-- Writes to different slots may change places. -/
theorem enter_swap (outputs : Array M) (us : List (UInt32 × M)) {bs cs : List (UInt32 × M)}
    (vs : List (UInt32 × M))
    (disjoint : ∀ slot ∈ bs.map Prod.fst, slot ∉ cs.map Prod.fst) :
    enter outputs (us ++ (cs ++ (bs ++ vs))) = enter outputs (us ++ (bs ++ (cs ++ vs))) := by
  refine Array.ext (by simp) fun place inside _ => ?_
  rw [← Option.some_inj, ← Array.getElem?_eq_getElem, ← Array.getElem?_eq_getElem]
  simp only [enter_getElem?_place, lastWriteTo?_append]
  by_cases write : ∃ slot ∈ bs.map Prod.fst, slot.toNat = place
  · obtain ⟨slot, member, rfl⟩ := write
    have none : ∀ other ∈ cs.map Prod.fst, other.toNat ≠ slot.toNat := by
      intro other there same
      rw [UInt32.toNat_inj] at same
      exact disjoint slot member (same ▸ there)
    rw [(lastWriteTo?_eq_none_iff _ cs).2 none]
    simp
  · have none : ∀ other ∈ bs.map Prod.fst, other.toNat ≠ place := fun other there same =>
      write ⟨other, there, same⟩
    rw [(lastWriteTo?_eq_none_iff _ bs).2 none]
    simp

/-! ### Isolation -/

section Isolation

variable {frames : List M} {b c p q r : List Instruction} {ws : List (UInt32 × M)}

/-- A list with a branch runs through without it, and makes all writes but those of the branch. -/
theorem journal_without_branch (balanced : Balanced b)
    (run : journal s frames (p ++ (branch b ++ q)) = some ws) :
    ∃ us bs vs, journal s frames (p ++ q) = some (us ++ vs) ∧ ws = us ++ (bs ++ vs) ∧
      bs.map Prod.fst = writtenSlots b ∧ vs.map Prod.fst = writtenSlots q := by
  obtain ⟨after, us, rest, first, later, rfl⟩ := journal_append_iff.1 run
  obtain ⟨top, below, rfl⟩ := ne_nil_of_journal later
  obtain ⟨-, last, bs, vs, passes, behind, rfl⟩ := (journal_branch_append_iff balanced).1 later
  exact ⟨us, bs, vs, journal_append_iff.2 ⟨_, us, vs, first, behind, rfl⟩, rfl, passes.map_fst,
    map_fst_of_journal behind⟩

/-- A list with two branches next to each other runs through with them swapped, and so do their
writes. -/
theorem journal_swapped (balanced : Balanced b) (balanced' : Balanced c)
    (run : journal s frames (p ++ (branch b ++ (branch c ++ r))) = some ws) :
    ∃ us bs cs vs, journal s frames (p ++ (branch c ++ (branch b ++ r))) =
        some (us ++ (cs ++ (bs ++ vs))) ∧
      ws = us ++ (bs ++ (cs ++ vs)) ∧
      bs.map Prod.fst = writtenSlots b ∧ cs.map Prod.fst = writtenSlots c := by
  obtain ⟨after, us, rest, first, later, rfl⟩ := journal_append_iff.1 run
  obtain ⟨top, below, rfl⟩ := ne_nil_of_journal later
  obtain ⟨room, last, bs, rest, passes, second, rfl⟩ :=
    (journal_branch_append_iff balanced).1 later
  obtain ⟨-, last', cs, vs, passes', behind, rfl⟩ :=
    (journal_branch_append_iff balanced').1 second
  refine ⟨us, bs, cs, vs, ?_, rfl, passes.map_fst, passes'.map_fst⟩
  -- both start from the same frames, whichever comes first
  have moved : journal s (top :: below) (branch b ++ r) = some (bs ++ vs) :=
    (journal_branch_append_iff balanced).2 ⟨room, last, bs, vs, passes, behind, rfl⟩
  have swapped : journal s (top :: below) (branch c ++ (branch b ++ r)) =
      some (cs ++ (bs ++ vs)) :=
    (journal_branch_append_iff balanced').2 ⟨room, last', cs, _, passes', moved, rfl⟩
  exact journal_append_iff.2 ⟨_, us, _, first, swapped, rfl⟩

end Isolation

theorem map_stored_branch (is : List Instruction) :
    (branch is).map Instruction.stored = branch (is.map Instruction.stored) := by
  rw [branch, branch, List.map_cons, List.map_append]
  rfl

/-- **A closed branch is isolated.**  Where a list with a balanced branch is evaluated under some
limit, it is evaluated under this limit without the branch, and to the same matrices in every slot
that the branch does not write and in every slot that is written behind it.  Two such branches next
to each other that write different slots may change places: all outputs stay as they are. -/
theorem branch_isolated {limit count : Nat} {block : ParameterBlock} {p b q : List Instruction}
    {outputs : Array Mat4} (balanced : Balanced b)
    (run : (Stream.runMatrices limit block count
      (Instruction.encodeAll (p ++ branch b ++ q))).result = .ok outputs) :
    (∃ outputs', (Stream.runMatrices limit block count
        (Instruction.encodeAll (p ++ q))).result = .ok outputs' ∧
      outputs'.size = outputs.size ∧
      ∀ place, ((∀ slot ∈ writtenSlots b, slot.toNat ≠ place) ∨
          ∃ slot ∈ writtenSlots q, slot.toNat = place) →
        outputs'[place]? = outputs[place]?) ∧
    ∀ c r, q = branch c ++ r → Balanced c →
      (∀ slot ∈ writtenSlots b, slot ∉ writtenSlots c) →
      (Stream.runMatrices limit block count
        (Instruction.encodeAll (p ++ branch c ++ branch b ++ r))).result = .ok outputs := by
  obtain ⟨ws, writes, rfl⟩ := Stream.result_encodeAll_eq_ok_iff.1 run
  simp only [List.map_append, map_stored_branch, List.append_assoc] at writes
  constructor
  · obtain ⟨us, bs, vs, without, rfl, slots, slots'⟩ :=
      journal_without_branch balanced.map_stored writes
    rw [writtenSlots_map_stored] at slots slots'
    refine ⟨_, Stream.result_encodeAll_eq_ok_iff.2 ⟨us ++ vs, ?_, rfl⟩, by simp, ?_⟩
    · rw [List.map_append]
      exact without
    · intro place unseen
      rw [← slots, ← slots'] at unseen
      exact enter_without_getElem? _ us bs vs unseen
  · rintro c r rfl balanced' disjoint
    rw [List.map_append, map_stored_branch] at writes
    obtain ⟨us, bs, cs, vs, swapped, rfl, slots, slots'⟩ :=
      journal_swapped balanced.map_stored balanced'.map_stored writes
    rw [writtenSlots_map_stored] at slots slots'
    rw [← slots, ← slots'] at disjoint
    refine Stream.result_encodeAll_eq_ok_iff.2
      ⟨us ++ (cs ++ (bs ++ vs)), ?_, (enter_swap _ us vs disjoint).symm⟩
    simp only [List.map_append, map_stored_branch, List.append_assoc]
    exact swapped

/-- A frame is reflected and written to two slots, one of them from two frames further in, which are
closed at once. -/
def mirroredBranch : List Instruction :=
  [.static (.uniformScale (-.one)), .write 1, .push, .push, .writeStatic 2 .identity, .pop 2]

/-- Another branch follows, and one of the two slots is written again. -/
def branchedMirrors : List Instruction :=
  [.write 0] ++ branch mirroredBranch ++
    (branch [.static (.uniformScale (-.one)), .write 3] ++ [.write 1])

/-- Without the first branch only its other slot changes, and behind the second one it does as
well. -/
theorem branch_isolated_reflected :
    Balanced mirroredBranch ∧
      (Stream.runMatrices 4 .empty 4 (Instruction.encodeAll branchedMirrors)).result =
        .ok #[.identity, .identity, .scaling (.splat (-.one)), .scaling (.splat (-.one))] ∧
      (∃ outputs', (Stream.runMatrices 4 .empty 4 (Instruction.encodeAll ([.write 0] ++
          (branch [.static (.uniformScale (-.one)), .write 3] ++ [.write 1])))).result =
            .ok outputs' ∧
        outputs'[1]? = some .identity ∧ outputs'[3]? = some (.scaling (.splat (-.one)))) ∧
      (Stream.runMatrices 4 .empty 4 (Instruction.encodeAll ([.write 0] ++
        branch [.static (.uniformScale (-.one)), .write 3] ++ branch mirroredBranch ++
          [.write 1]))).result =
        .ok #[.identity, .identity, .scaling (.splat (-.one)), .scaling (.splat (-.one))] := by
  have balanced : Balanced mirroredBranch := by decide
  have run : (Stream.runMatrices 4 .empty 4 (Instruction.encodeAll branchedMirrors)).result =
      .ok #[.identity, .identity, .scaling (.splat (-.one)), .scaling (.splat (-.one))] := by
    decide +kernel
  obtain ⟨⟨outputs', run', -, same⟩, swapped⟩ := branch_isolated balanced run
  have slots : writtenSlots mirroredBranch = [1, 2] := rfl
  refine ⟨balanced, run, ⟨outputs', run', same 1 (.inr ?_), same 3 (.inl ?_)⟩,
    swapped _ _ rfl (by decide) ?_⟩
  · exact ⟨1, by decide, rfl⟩
  · simp [slots]
  · rw [slots]
    show ∀ slot ∈ [1, 2], slot ∉ [(3 : UInt32)]
    simp

end Armature
