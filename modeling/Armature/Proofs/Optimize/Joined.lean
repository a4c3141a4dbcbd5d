/-
**Every matrix that can be joined with a write is.**

A matrix and a plain write right behind it are a pair if the frame ends with the write.  Joining one
pair makes no other and unmakes none: the joined write neither begins a pair nor ends one, and it
ends no frame.  So one visit from left to right, in which the list gets shorter under way, misses no
pair, and it does not matter in which order pairs are joined.

Main definitions:

* `FrameEnds`, `Pair` — nothing follows in the frame; a matrix, a slot and the joined write;
* `JoinsOne` — a list with one of its pairs joined;
* `Joined` — a list without pairs.

Main results:

* `joined_fuseWrites` — **one visit leaves no pair**;
* `eq_fuseWrites_iff` — it leaves what joining pair by pair leaves, in whatever order;
* `fuseWrites_map_stored` — it does the same to what is stored;
* `fuseWrites_exact` — all of this, and the slots stay the same.
-/

import Armature.Proofs.Optimize.Stored
import Mathlib.Logic.Relation

set_option autoImplicit false

namespace Armature

variable {i j fused : Instruction} {slot : UInt32} {is js rest : List Instruction}

/-! ### Pairs -/

/-- The list ends here, or at least one frame is closed. -/
def FrameEnds (rest : List Instruction) : Prop :=
  rest = [] ∨ ∃ count after, rest = .pop count :: after ∧ 1 ≤ count.toNat

/-- A matrix, the slot of the write behind it, and the write that they are joined to. -/
inductive Pair : Instruction → UInt32 → Instruction → Prop
  /-- The matrix is held by the instruction. -/
  | static (matrix : Mat4) (slot : UInt32) :
      Pair (.static (.float4x4 matrix)) slot (.writeStatic slot matrix)
  /-- The matrix is in the parameter block. -/
  | parameter (offset slot : UInt32) :
      Pair (.parameter .float4x4 offset) slot (.writeParameter slot offset)

/-- A pair stands in front of `rest`: its matrix is `i` and the joined write `fused`. -/
def PairAt (i fused : Instruction) (rest after : List Instruction) : Prop :=
  ∃ slot, Pair i slot fused ∧ rest = .write slot :: after ∧ FrameEnds after

/-- One pair of a list is joined. -/
inductive JoinsOne : List Instruction → List Instruction → Prop
  /-- The pair stands between `front` and `rest`. -/
  | join {i fused : Instruction} {slot : UInt32} (front : List Instruction)
      {rest : List Instruction} (pair : Pair i slot fused) (ends : FrameEnds rest) :
      JoinsOne (front ++ i :: .write slot :: rest) (front ++ fused :: rest)

/-- The list has no matrix right in front of a write with which its frame ends. -/
def Joined (is : List Instruction) : Prop :=
  ∀ front i slot fused rest, Pair i slot fused → FrameEnds rest →
    is ≠ front ++ i :: .write slot :: rest

theorem endsFrame_iff : endsFrame rest = true ↔ FrameEnds rest := by
  cases rest with
  | nil => simp [endsFrame, FrameEnds]
  | cons i after =>
      cases i with
      | pop count =>
          have positive : 0 < count ↔ 1 ≤ count.toNat := UInt32.lt_iff_toNat_lt
          simp [endsFrame, FrameEnds, positive]
      | _ => simp [endsFrame, FrameEnds]

theorem fuse?_eq_some_iff :
    i.fuse? j = some fused ↔ ∃ slot, j = .write slot ∧ Pair i slot fused := by
  constructor
  · intro found
    unfold Instruction.fuse? at found
    split at found
    · cases found
      exact ⟨_, rfl, .static ..⟩
    · cases found
      exact ⟨_, rfl, .parameter ..⟩
    · cases found
  · rintro ⟨slot, rfl, pair⟩
    cases pair with
    | static matrix => rfl
    | parameter offset => rfl

/-- A matrix is not a plain write, so that no pair ends with the matrix of another. -/
theorem Pair.ne_write (pair : Pair i slot fused) (other : UInt32) : i ≠ .write other := by
  cases pair <;> exact Instruction.noConfusion

/-- Nor does a pair end with a joined write. -/
theorem Pair.fused_ne_write (pair : Pair i slot fused) (other : UInt32) : fused ≠ .write other := by
  cases pair <;> exact Instruction.noConfusion

/-- A joined write begins no pair. -/
theorem Pair.not_pair_fused (pair : Pair i slot fused) {other : UInt32} {joined : Instruction} :
    ¬ Pair fused other joined := by
  cases pair <;> exact fun again => nomatch again

/-- The frame ends neither with the matrix of a pair nor with the joined write. -/
theorem Pair.not_frameEnds (pair : Pair i slot fused) :
    ¬ FrameEnds (i :: rest) ∧ ¬ FrameEnds (fused :: rest) := by
  cases pair <;> simp [FrameEnds]

/-! ### One visit -/

/-- What stands in front is a pair, and goes on behind the joined write. -/
theorem fuseWrites_pair (pair : Pair i slot fused) (ends : FrameEnds rest) :
    fuseWrites (i :: .write slot :: rest) = fused :: fuseWrites rest := by
  rw [fuseWrites, if_pos (endsFrame_iff.2 ends), fuse?_eq_some_iff.2 ⟨slot, rfl, pair⟩]

/-- What begins no pair stays. -/
theorem fuseWrites_cons (none : ∀ fused after, ¬ PairAt i fused rest after) :
    fuseWrites (i :: rest) = i :: fuseWrites rest := by
  cases rest with
  | nil => rfl
  | cons j after =>
      rw [fuseWrites]
      split
      · rename_i fused found
        split at found
        · rename_i ends
          obtain ⟨slot, rfl, pair⟩ := fuse?_eq_some_iff.1 found
          exact (none fused after ⟨slot, pair, rfl, endsFrame_iff.1 ends⟩).elim
        · cases found
      · rfl

theorem fuseWrites_fused (pair : Pair i slot fused) (rest : List Instruction) :
    fuseWrites (fused :: rest) = fused :: fuseWrites rest := by
  refine fuseWrites_cons ?_
  rintro joined after ⟨other, again, -⟩
  exact pair.not_pair_fused again

/-- A list begins with a pair, or its first instruction stays. -/
theorem pairAt_or_stays (i : Instruction) (rest : List Instruction) :
    (∃ fused after, PairAt i fused rest after) ∨ fuseWrites (i :: rest) = i :: fuseWrites rest := by
  by_cases found : ∃ fused after, PairAt i fused rest after
  · exact .inl found
  · exact .inr (fuseWrites_cons fun fused after pair => found ⟨fused, after, pair⟩)

/-- Where a frame ends, it ends after the visit. -/
theorem frameEnds_fuseWrites_iff (is : List Instruction) :
    FrameEnds (fuseWrites is) ↔ FrameEnds is := by
  cases is with
  | nil => rfl
  | cons i rest =>
      rcases pairAt_or_stays i rest with ⟨fused, after, slot, pair, rfl, ends⟩ | stays
      · rw [fuseWrites_pair pair ends]
        exact iff_of_false pair.not_frameEnds.2 pair.not_frameEnds.1
      · rw [stays]
        simp [FrameEnds]

/-- A plain write that is left stood there before, and the visit went on behind it. -/
theorem eq_write_of_fuseWrites_eq (left : fuseWrites is = .write slot :: js) :
    ∃ rest, is = .write slot :: rest ∧ js = fuseWrites rest := by
  cases is with
  | nil => cases left
  | cons i rest =>
      rcases pairAt_or_stays i rest with ⟨fused, after, other, pair, rfl, ends⟩ | stays
      · rw [fuseWrites_pair pair ends] at left
        exact (pair.fused_ne_write slot (List.cons.inj left).1).elim
      · rw [stays] at left
        cases left
        exact ⟨rest, rfl, rfl⟩

theorem joined_nil : Joined [] := by
  intro front i slot fused rest pair ends split
  cases front <;> cases split

/-- A list is free of pairs if no pair begins at its first instruction or later. -/
theorem joined_cons (first : ∀ fused after, ¬ PairAt i fused rest after) (later : Joined rest) :
    Joined (i :: rest) := by
  intro front j slot fused after pair ends split
  cases front with
  | nil =>
      cases split
      exact first fused after ⟨slot, pair, rfl, ends⟩
  | cons k front =>
      cases split
      exact later front j slot fused after pair ends rfl

/-- **One visit leaves no pair.** -/
theorem joined_fuseWrites (is : List Instruction) : Joined (fuseWrites is) := by
  fun_induction fuseWrites is with
  | case1 => exact joined_nil
  | case2 i =>
      refine joined_cons ?_ joined_nil
      rintro fused after ⟨slot, pair, split, ends⟩
      cases split
  | case3 i j rest fused found ih =>
      split at found
      · obtain ⟨slot, rfl, pair⟩ := fuse?_eq_some_iff.1 found
        refine joined_cons ?_ ih
        rintro joined after ⟨other, again, -⟩
        exact pair.not_pair_fused again
      · cases found
  | case4 i j rest found ih =>
      refine joined_cons ?_ ih
      rintro fused after ⟨slot, pair, left, ends⟩
      -- the pair would have been there before
      obtain ⟨rest', here, rfl⟩ := eq_write_of_fuseWrites_eq left
      obtain ⟨rfl, rfl⟩ := List.cons.inj here
      rw [if_pos (endsFrame_iff.2 ((frameEnds_fuseWrites_iff rest).1 ends)),
        fuse?_eq_some_iff.2 ⟨slot, rfl, pair⟩] at found
      cases found

/-! ### Any order -/

theorem JoinsOne.cons (i : Instruction) (h : JoinsOne is js) : JoinsOne (i :: is) (i :: js) := by
  cases h with
  | join front pair ends => exact .join (i :: front) pair ends

/-- The visit joins one pair after another. -/
theorem reflTransGen_fuseWrites (is : List Instruction) :
    Relation.ReflTransGen JoinsOne is (fuseWrites is) := by
  have lift (i : Instruction) {js ks : List Instruction}
      (h : Relation.ReflTransGen JoinsOne js ks) :
      Relation.ReflTransGen JoinsOne (i :: js) (i :: ks) :=
    h.lift (i :: ·) fun _ _ => JoinsOne.cons i
  fun_induction fuseWrites is with
  | case1 => exact .refl
  | case2 i => exact .refl
  | case3 i j rest fused found ih =>
      split at found
      · rename_i ends
        obtain ⟨slot, rfl, pair⟩ := fuse?_eq_some_iff.1 found
        exact .head (.join [] pair (endsFrame_iff.1 ends)) (lift fused ih)
      · cases found
  | case4 i j rest _ ih => exact lift i ih

/-- A pair behind `front` may as well be joined before the visit. -/
theorem fuseWrites_append_pair (pair : Pair i slot fused) (ends : FrameEnds rest) :
    ∀ front, fuseWrites (front ++ fused :: rest) = fuseWrites (front ++ i :: .write slot :: rest)
  | [] => by
      rw [List.nil_append, List.nil_append, fuseWrites_pair pair ends, fuseWrites_fused pair]
  | [j] => by
      have later := fuseWrites_append_pair pair ends []
      rw [List.nil_append, List.nil_append] at later
      -- neither the matrix nor the joined write is the write of a pair that begins with `j`
      have stays : fuseWrites (j :: fused :: rest) = j :: fuseWrites (fused :: rest) :=
        fuseWrites_cons fun _ _ ⟨_, _, split, _⟩ => pair.fused_ne_write _ (List.cons.inj split).1
      have stays' : fuseWrites (j :: i :: .write slot :: rest) =
          j :: fuseWrites (i :: .write slot :: rest) :=
        fuseWrites_cons fun _ _ ⟨_, _, split, _⟩ => pair.ne_write _ (List.cons.inj split).1
      rw [List.singleton_append, List.singleton_append, stays, stays', later]
  | j :: k :: front => by
      have behind := fuseWrites_append_pair pair ends front
      have later := fuseWrites_append_pair pair ends (k :: front)
      -- what follows a pair in front ends its frame before and after
      have same : FrameEnds (front ++ fused :: rest) ↔
          FrameEnds (front ++ i :: .write slot :: rest) := by
        cases front with
        | nil => exact iff_of_false pair.not_frameEnds.2 pair.not_frameEnds.1
        | cons l front => simp [FrameEnds]
      simp only [List.cons_append] at later ⊢
      rcases pairAt_or_stays j (k :: (front ++ i :: .write slot :: rest)) with
        ⟨joined, after, other, first, split, ends'⟩ | stays
      · obtain ⟨rfl, rfl⟩ := List.cons.inj split
        rw [fuseWrites_pair first ends', fuseWrites_pair first (same.2 ends'), behind]
      · rcases pairAt_or_stays j (k :: (front ++ fused :: rest)) with
          ⟨joined, after, other, first, split, ends'⟩ | stays'
        · obtain ⟨rfl, rfl⟩ := List.cons.inj split
          rw [fuseWrites_pair first ends', fuseWrites_pair first (same.1 ends'), behind]
        · rw [stays, stays', later]

/-- Joining a pair first does not change what the visit leaves. -/
theorem fuseWrites_of_joinsOne (h : JoinsOne is js) : fuseWrites js = fuseWrites is := by
  cases h with
  | join front pair ends => exact fuseWrites_append_pair pair ends front

theorem fuseWrites_of_reflTransGen (h : Relation.ReflTransGen JoinsOne is js) :
    fuseWrites js = fuseWrites is := by
  induction h with
  | refl => rfl
  | tail _ step ih => exact (fuseWrites_of_joinsOne step).trans ih

/-- Nothing is done to a list without pairs. -/
theorem fuseWrites_eq_self_iff : fuseWrites is = is ↔ Joined is := by
  constructor
  · intro same
    exact same ▸ joined_fuseWrites is
  · intro joined
    rcases (reflTransGen_fuseWrites is).cases_head with same | ⟨js, first, -⟩
    · exact same.symm
    · cases first with
      | join front pair ends => exact (joined front _ _ _ _ pair ends rfl).elim

/-- **The visit leaves what joining pair by pair leaves**, in whatever order. -/
theorem eq_fuseWrites_iff :
    js = fuseWrites is ↔ Relation.ReflTransGen JoinsOne is js ∧ Joined js := by
  constructor
  · rintro rfl
    exact ⟨reflTransGen_fuseWrites is, joined_fuseWrites is⟩
  · rintro ⟨steps, joined⟩
    rw [← fuseWrites_of_reflTransGen steps, fuseWrites_eq_self_iff.2 joined]

/-! ### Outputs -/

theorem Instruction.fuse?_stored (i j : Instruction) : i.stored.fuse? j.stored = i.fuse? j := by
  have written : ∀ slot, j.stored = .write slot ↔ j = .write slot := by
    intro slot
    cases j <;> simp [stored]
  have matrix : ∀ slot fused, Pair i.stored slot fused ↔ Pair i slot fused := by
    intro slot fused
    cases i with
    | binding name defaults =>
        constructor
        · intro pair
          cases pair
        · intro pair
          cases pair
    | _ => rfl
  ext fused
  simp only [fuse?_eq_some_iff, written, matrix]

theorem endsFrame_map_stored (is : List Instruction) :
    endsFrame (is.map Instruction.stored) = endsFrame is := by
  cases is with
  | nil => rfl
  | cons i rest => cases i <;> rfl

/-- **Joining does the same to what is stored.** -/
theorem fuseWrites_map_stored (is : List Instruction) :
    fuseWrites (is.map Instruction.stored) = (fuseWrites is).map Instruction.stored := by
  fun_induction fuseWrites is with
  | case1 => rfl
  | case2 i => rfl
  | case3 i j rest fused found ih =>
      have kept : fused.stored = fused := by
        split at found
        · obtain ⟨slot, -, pair⟩ := fuse?_eq_some_iff.1 found
          cases pair <;> rfl
        · cases found
      simp only [List.map_cons] at ih ⊢
      rw [fuseWrites, endsFrame_map_stored, Instruction.fuse?_stored, found, ih, kept]
  | case4 i j rest found ih =>
      simp only [List.map_cons] at ih ⊢
      rw [fuseWrites, endsFrame_map_stored, Instruction.fuse?_stored, found, ih]

/-- **Joining is exact and complete.**  A list that is evaluated is evaluated to the same outputs;
no matrix is left right in front of a write with which its frame ends, so that to do it again
changes nothing; and nothing but pairs was joined, for which the order does not matter. -/
theorem fuseWrites_exact (is : List Instruction) :
    (∀ (M : Type) (s : Setting M) (count : Nat) (outputs : Array M),
      (Stream.run s count (Instruction.encodeAll is)).result = .ok outputs →
        (Stream.run s count (Instruction.encodeAll (fuseWrites is))).result = .ok outputs) ∧
    (∀ front i slot fused rest, Pair i slot fused → FrameEnds rest →
      fuseWrites is ≠ front ++ i :: .write slot :: rest) ∧
    fuseWrites (fuseWrites is) = fuseWrites is ∧
    ∀ js, js = fuseWrites is ↔ Relation.ReflTransGen JoinsOne is js ∧ Joined js := by
  refine ⟨fun M s count outputs run => ?_, joined_fuseWrites is,
    fuseWrites_eq_self_iff.2 (joined_fuseWrites is), fun js => eq_fuseWrites_iff⟩
  refine Keeps.result ?_ run
  rw [← fuseWrites_map_stored]
  exact keeps_fuseWrites _

/-- Matrices in front of writes that close no frame, close two, and end an unbalanced list. -/
def matrixWrites : List Instruction :=
  [.push, .push, .static (.float4x4 (.scaling (.splat (-.one)))), .write 0, .pop 0,
    .parameter .float4x4 4, .write 1, .pop 2, .push,
    .static (.float4x4 (.scaling (.splat (-.one)))), .write 2]

/-- The last two are joined with their writes. -/
theorem fuseWrites_exact_matrixWrites :
    ∃ js, js = [.push, .push, .static (.float4x4 (.scaling (.splat (-.one)))), .write 0, .pop 0,
        .writeParameter 1 4, .pop 2, .push, .writeStatic 2 (.scaling (.splat (-.one)))] ∧
      (Stream.runMatrices 3 ((ParameterBlock.empty.pushScalar .one).push
          (.float4x4 (.scaling (.splat (-.one))))) 3 (Instruction.encodeAll js)).result =
        .ok #[.scaling (.splat (-.one)), .identity, .scaling (.splat (-.one))] ∧
      (Pair (.static (.float4x4 (.scaling (.splat (-.one))))) 2
          (.writeStatic 2 (.scaling (.splat (-.one)))) ∧ FrameEnds [] ∧
        js ≠ matrixWrites.take 9 ++ [.static (.float4x4 (.scaling (.splat (-.one)))), .write 2]) ∧
      fuseWrites js = js := by
  obtain ⟨keeps, none, again, -⟩ := fuseWrites_exact matrixWrites
  have run : (Stream.runMatrices 3 ((ParameterBlock.empty.pushScalar .one).push
      (.float4x4 (.scaling (.splat (-.one))))) 3 (Instruction.encodeAll matrixWrites)).result =
        .ok #[.scaling (.splat (-.one)), .identity, .scaling (.splat (-.one))] := by
    decide +kernel
  exact ⟨fuseWrites matrixWrites, by decide +kernel, keeps _ _ _ _ run,
    ⟨.static .., .inl rfl, none _ _ 2 _ [] (.static ..) (.inl rfl)⟩, again⟩

end Armature
