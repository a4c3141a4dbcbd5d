/-
**Writing through a matrix writes the same.**

A joined write stores the frame times the matrix and leaves the frame as it was.  The frame would
have been multiplied, but it is closed before anything is written from it.

Main results:

* `Instruction.effect?_of_fuse?` — what a joined write does;
* `keeps_fuseWrites` — **joining matrices with writes keeps the journal**;
* `static_mem_of_mem_fuseWrites` — it brings in no static transforms.
-/

import Armature.Optimize.Fuse
import Armature.Proofs.Optimize.Dead

set_option autoImplicit false

namespace Armature

variable {M : Type} {s : Setting M}

/-- Where nothing follows in the current frame, nothing is written from it. -/
theorem unseen_of_endsFrame {is : List Instruction} (h : endsFrame is = true) :
    writesBeforeClose 0 is = false := by
  cases is with
  | nil => rfl
  | cons i rest =>
      cases i with
      | pop count =>
          have closes : 0 < count.toNat := UInt32.lt_iff_toNat_lt.1 (of_decide_eq_true h)
          rw [writesBeforeClose, if_neg (by omega)]
      | _ => cases h

/-- A joined write stores what the frame would have become. -/
theorem Instruction.effect?_of_fuse? {i j fused : Instruction} (h : i.fuse? j = some fused) :
    ∃ slot, j = .write slot ∧ i.isTransform ∧ fused.isBracket = false ∧
      ∀ top, fused.effect? s top =
        (i.effect? s top).map fun (frame, _) => (top, [(slot, frame)]) := by
  unfold fuse? at h
  split at h
  · rename_i matrix slot
    cases h
    exact ⟨slot, rfl, rfl, rfl, fun _ => rfl⟩
  · rename_i offset slot
    cases h
    refine ⟨slot, rfl, rfl, rfl, fun top => ?_⟩
    simp only [effect?, Option.map_map]
    rfl
  · cases h

/-- A matrix and a write that ends its frame are joined. -/
theorem keeps_fused {i j fused : Instruction} (h : i.fuse? j = some fused)
    {rest : List Instruction} (last : endsFrame rest = true) :
    Keeps s (i :: j :: rest) (fused :: rest) := by
  intro frames ws _ run
  obtain ⟨top, below, rfl⟩ := ne_nil_of_journal run
  obtain ⟨slot, rfl, transform, inside, effect⟩ := Instruction.effect?_of_fuse? (s := s) h
  obtain ⟨frame, written, later, he, write, rfl⟩ :=
    (journal_other_eq_some_iff (isBracket_of_isTransform transform)).1 run
  rw [journal_write] at write
  obtain ⟨rest', hj, rfl⟩ := Option.map_eq_some_iff.1 write
  have same : journal s (top :: below) rest = journal s (frame :: below) rest :=
    journal_eq_of_unseen [top] [frame] below (unseen_of_endsFrame last) rfl rfl
  rw [Instruction.written_eq_nil he (output?_of_isTransform transform)]
  refine (journal_other_eq_some_iff inside).2
    ⟨top, [(slot, frame)], rest', ?_, same.trans hj, rfl⟩
  rw [effect, he]
  rfl

/-- **Joining matrices with writes keeps the journal.** -/
theorem keeps_fuseWrites (is : List Instruction) : Keeps s is (fuseWrites is) := by
  fun_induction fuseWrites is with
  | case1 => exact .refl []
  | case2 i => exact .refl [i]
  | case3 i j rest fused h ih =>
      split at h
      · rename_i last
        exact (keeps_fused h last).trans (ih.cons fused)
      · cases h
  | case4 i j rest h ih => exact ih.cons i

/-- Joining brings in no static transforms. -/
theorem static_mem_of_mem_fuseWrites {is : List Instruction} {t : Transform}
    (h : .static t ∈ fuseWrites is) : .static t ∈ is := by
  fun_induction fuseWrites is with
  | case1 => exact h
  | case2 => exact h
  | case3 i j rest fused hf ih =>
      rcases List.mem_cons.1 h with e | h
      · subst e
        split at hf
        · unfold Instruction.fuse? at hf
          split at hf <;> cases hf
        · cases hf
      · exact List.mem_cons_of_mem _ (List.mem_cons_of_mem _ (ih h))
  | case4 i j rest hf ih =>
      rcases List.mem_cons.1 h with rfl | h
      · exact List.mem_cons_self ..
      · exact List.mem_cons_of_mem _ (ih h)

end Armature
