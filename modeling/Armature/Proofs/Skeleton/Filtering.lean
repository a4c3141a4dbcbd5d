/-
**Filtering keeps names and values together.**

Filtering an interface numbers the joints that are kept anew, renumbers the stream by these numbers,
and sets the names and the number of slots of the builder by itself, apart from what renumbering
makes of them.  That the three fit together is more than soundness (`Builder.Sound.filter`), which
only says that no slot is written that does not exist: here each slot is shown to hold a value of
its joint.

A joint may have been marked several times, before and after other joints that are kept or dropped.
It gets the place of its first slot among those kept, and what it holds is the last write to any of
its slots.

Main results:

* `Builder.mem_keptJoints`, `Builder.nodup_keptJoints`, `Builder.pairwise_keptJoints` — the joints
  that are kept, each once, in the order of their first slots;
* `Builder.moves_keptTable_iff` — **the slots that get the number of a kept joint are the slots of
  this joint**;
* `Builder.filter_keeps_values` — **after any history filtering keeps the names in `keep`, and each
  slot that is left holds the last value written for its name**.
-/

import Armature.Proofs.Skeleton.Interface
import Mathlib.Data.List.Induction
import Mathlib.Data.List.NodupEquivFin

set_option autoImplicit false

namespace Armature.Builder

/-! ### Kept joints -/

section Kept

variable {keep joints : List Tag} {tag : Tag}

/-- The last joint is kept if it is to be, and has not been kept yet. -/
theorem keptJoints_append_singleton (keep joints : List Tag) (tag : Tag) :
    keptJoints keep (joints ++ [tag]) =
      if tag ∉ keptJoints keep joints ∧ tag ∈ keep then keptJoints keep joints ++ [tag]
      else keptJoints keep joints := by
  rw [keptJoints, List.foldl_append, List.foldl_cons, List.foldl_nil, ← keptJoints]
  simp only [Bool.and_eq_true, Bool.not_eq_true', List.contains_eq_mem, decide_eq_false_iff_not,
    decide_eq_true_eq]

/-- The joints that are kept. -/
theorem mem_keptJoints : tag ∈ keptJoints keep joints ↔ tag ∈ joints ∧ tag ∈ keep := by
  induction joints using List.reverseRecOn with
  | nil => simp [keptJoints]
  | append_singleton joints last ih =>
      rw [keptJoints_append_singleton, List.mem_append, List.mem_singleton]
      split
      · rename_i new
        rw [List.mem_append, List.mem_singleton, ih]
        constructor
        · rintro (old | rfl)
          · exact ⟨.inl old.1, old.2⟩
          · exact ⟨.inr rfl, new.2⟩
        · rintro ⟨old | rfl, wanted⟩
          · exact .inl ⟨old, wanted⟩
          · exact .inr rfl
      · rename_i known
        rw [ih]
        constructor
        · exact fun old => ⟨.inl old.1, old.2⟩
        · rintro ⟨old | rfl, wanted⟩
          · exact ⟨old, wanted⟩
          · exact ih.1 (Classical.not_not.1 fun fresh => known ⟨fresh, wanted⟩)

/-- No joint is kept twice. -/
theorem nodup_keptJoints (keep joints : List Tag) : (keptJoints keep joints).Nodup := by
  induction joints using List.reverseRecOn with
  | nil => exact List.nodup_nil
  | append_singleton joints last ih =>
      rw [keptJoints_append_singleton]
      split
      · rename_i new
        exact ih.append (List.nodup_singleton last) (List.disjoint_singleton.2 new.1)
      · exact ih

theorem length_keptJoints_le (keep joints : List Tag) :
    (keptJoints keep joints).length ≤ joints.length := by
  induction joints using List.reverseRecOn with
  | nil => exact Nat.le_refl 0
  | append_singleton joints last ih =>
      rw [keptJoints_append_singleton, List.length_append, List.length_singleton]
      split
      · rw [List.length_append, List.length_singleton]
        omega
      · omega

/-- The joints are kept in the order of their first slots. -/
theorem pairwise_keptJoints (keep joints : List Tag) :
    (keptJoints keep joints).Pairwise fun s t => joints.idxOf s < joints.idxOf t := by
  induction joints using List.reverseRecOn with
  | nil => exact List.Pairwise.nil
  | append_singleton joints last ih =>
      -- the first slot of a joint that is kept already stays where it is
      have stays : (keptJoints keep joints).Pairwise fun s t =>
          (joints ++ [last]).idxOf s < (joints ++ [last]).idxOf t := by
        refine ih.imp_of_mem fun hs ht before => ?_
        rw [List.idxOf_append_of_mem (mem_keptJoints.1 hs).1,
          List.idxOf_append_of_mem (mem_keptJoints.1 ht).1]
        exact before
      rw [keptJoints_append_singleton]
      split
      · rename_i new
        have fresh : last ∉ joints := fun old => new.1 (mem_keptJoints.2 ⟨old, new.2⟩)
        refine List.pairwise_append.2 ⟨stays, List.pairwise_singleton .., fun s hs t ht => ?_⟩
        obtain rfl := List.mem_singleton.1 ht
        have marked := (mem_keptJoints.1 hs).1
        rw [List.idxOf_append_of_mem marked, List.idxOf_append_of_notMem fresh]
        exact Nat.lt_of_lt_of_le (List.idxOf_lt_length_of_mem marked) (Nat.le_add_right ..)
      · exact stays

/-- A joint does not move up. -/
theorem idxOf_keptJoints_le (kept : tag ∈ keptJoints keep joints) :
    (keptJoints keep joints).idxOf tag ≤ joints.idxOf tag := by
  induction joints using List.reverseRecOn with
  | nil => simp [keptJoints] at kept
  | append_singleton joints last ih =>
      by_cases old : tag ∈ keptJoints keep joints
      · rw [List.idxOf_append_of_mem (mem_keptJoints.1 old).1, keptJoints_append_singleton]
        split
        · rw [List.idxOf_append_of_mem old]
          exact ih old
        · exact ih old
      · have fresh : tag ∉ joints :=
          fun marked => old (mem_keptJoints.2 ⟨marked, (mem_keptJoints.1 kept).2⟩)
        rw [keptJoints_append_singleton] at kept ⊢
        split
        · rename_i new
          rw [if_pos new] at kept
          obtain rfl := (List.mem_append.1 kept).resolve_left old |> List.mem_singleton.1
          have short := length_keptJoints_le keep joints
          rw [List.idxOf_append_of_notMem old, List.idxOf_append_of_notMem fresh]
          omega
        · rename_i known
          rw [if_neg known] at kept
          exact absurd kept old

end Kept

/-! ### The table -/

section Table

variable {keep joints : List Tag} {tag : Tag}

/-- The first slot of a joint is none behind it. -/
theorem idxOf_getElem_le {slot : Nat} (inside : slot < joints.length) :
    joints.idxOf joints[slot] ≤ slot :=
  Nat.le_of_not_lt fun later => by simpa using List.not_of_lt_findIdx later

/-- **The slots that get the number of a kept joint are the slots of this joint.** -/
theorem moves_keptTable_iff {new : Nat} (named : (keptJoints keep joints)[new]? = some tag)
    (number : new ≠ unmapped.toNat) (old : UInt32) :
    Stream.Moves (keptTable (keptJoints keep joints) joints).toArray old new ↔
      joints[old.toNat]? = some tag := by
  obtain ⟨inside, rfl⟩ := List.getElem?_eq_some_iff.1 named
  -- places do not wrap around, since they are at most the numbers of the slots
  have fits : ∀ {t : Tag}, joints[old.toNat]? = some t → t ∈ keptJoints keep joints →
      (UInt32.ofNat ((keptJoints keep joints).idxOf t)).toNat =
        (keptJoints keep joints).idxOf t := by
    intro t marked kept
    obtain ⟨there, rfl⟩ := List.getElem?_eq_some_iff.1 marked
    have small := Nat.le_trans (idxOf_keptJoints_le kept) (idxOf_getElem_le there)
    exact UInt32.toNat_ofNat_of_lt' (Nat.lt_of_le_of_lt small old.toNat_lt)
  have place : (keptJoints keep joints).idxOf (keptJoints keep joints)[new] = new :=
    (nodup_keptJoints keep joints).idxOf_getElem new inside
  rw [Stream.moves_iff]
  constructor
  · rintro ⟨slot, renumbers, rfl⟩
    obtain ⟨t, marked, kept, rfl, _⟩ := renumber?_keptTable.1 renumbers
    simp only [fits marked kept, List.getElem_idxOf]
    exact marked
  · intro marked
    have kept := List.getElem_mem inside
    refine ⟨_, renumber?_keptTable.2 ⟨_, marked, kept, rfl, fun dropped => number ?_⟩, ?_⟩
    · rw [← dropped, fits marked kept, place]
    · rw [fits marked kept, place]

end Table

/-! ### Values -/

/-- A joint that is marked once has one slot. -/
theorem getElem?_eq_iff_of_count_eq_one {joints : List Tag} {tag : Tag}
    (once : joints.count tag = 1) (slot : Nat) :
    joints[slot]? = some tag ↔ slot = joints.idxOf tag := by
  have first : joints.idxOf tag < joints.length :=
    List.idxOf_lt_length_of_mem (List.count_pos_iff.1 (by omega))
  constructor
  · intro marked
    obtain ⟨inside, rfl⟩ := List.getElem?_eq_some_iff.1 marked
    rcases Nat.lt_or_eq_of_le (idxOf_getElem_le inside) with before | same
    · have twice : List.Duplicate joints[slot] joints :=
        List.duplicate_iff_exists_distinct_get.2
          ⟨⟨_, first⟩, ⟨slot, inside⟩, before, (List.getElem_idxOf first).symm, rfl⟩
      have two := List.duplicate_iff_two_le_count.1 twice
      omega
    · exact same.symm
  · rintro rfl
    exact List.getElem?_eq_some_iff.2 ⟨first, List.getElem_idxOf first⟩

/-- The slot of a joint is the first that is marked for it. -/
theorem find?_eq_some_idxOf {m : Machine} {tag : Tag} (member : tag ∈ m.joints) :
    m.find? tag = some (m.joints.idxOf tag) :=
  List.findIdx?_eq_some_iff_findIdx_eq.2 ⟨List.idxOf_lt_length_of_mem member, rfl⟩

/-- Where the machine is evaluated, the filtered one is, and writes what is left under the new
numbers. -/
theorem Sound.generate_filter {b : Builder} (sound : Sound b) (keep : List Tag)
    {block : ParameterBlock} {outputs : Array Mat4}
    (run : (b.finish.generate block).value = .ok outputs) :
    let kept := keptJoints keep b.joints
    ∃ is ws, Instruction.decodeAll b.stream = .ok is ∧
      journal ⟨.matrices, block, maxStackDepth⟩ [.identity] is = some ws ∧
      outputs = enter (Array.replicate b.joints.length .identity) ws ∧
      ((b.filter keep).1.finish.generate block).value =
        .ok (enter (Array.replicate kept.length .identity)
          (movedWrites (keptTable kept b.joints).toArray ws)) := by
  intro kept
  obtain ⟨is, ws, decoded, writes, entered⟩ := Stream.result_eq_ok_iff.1 run
  rw [show b.finish.outputCount = b.joints.length from sound.joints] at entered
  refine ⟨is, ws, decoded, writes, entered, ?_⟩
  rw [(filter_eq decoded keep).2]
  exact Stream.run_renumbered _ (Instruction.storable_of_decodeAll decoded) writes kept.length

/-- **Filtering keeps names and values together.**  After any history filtering keeps the names in
`keep`, each once and in the order of their first slots, with a slot for each.  Where the machine
was evaluated before, with the writes `ws`, it still is, and each slot holds the last value written
to a slot of its name, and the identity if there is none.  So a joint that was marked once keeps its
value.  Slots are counted by words, so that the greatest word is never the number of one; in the
table it says that a slot is dropped. -/
theorem filter_keeps_values (ops : List Operation) (keep : List Tag) :
    let b := empty.performAll ops
    let b' := (b.filter keep).1
    (b.filter keep).2.value = .ok () ∧
    b'.joints.Nodup ∧
    (∀ tag, tag ∈ b'.joints ↔ tag ∈ b.joints ∧ tag ∈ keep) ∧
    (b'.joints.Pairwise fun s t => b.joints.idxOf s < b.joints.idxOf t) ∧
    b'.outputCount = b'.joints.length ∧
    ∀ block outputs, (b.finish.generate block).value = .ok outputs →
      ∃ is ws outputs', Instruction.decodeAll b.stream = .ok is ∧
        journal ⟨.matrices, block, maxStackDepth⟩ [.identity] is = some ws ∧
        ws.map Prod.fst = writtenSlots is ∧
        (b'.finish.generate block).value = .ok outputs' ∧
        outputs'.size = b'.outputCount ∧
        (∀ slot tag, b'.joints[slot]? = some tag → slot ≠ unmapped.toNat → outputs'[slot]? =
          some ((lastWriteTo? (fun old => b.joints[old.toNat]? = some tag) ws).getD .identity)) ∧
        ∀ tag ∈ keep, b.joints.count tag = 1 →
          ∃ old new, b.finish.find? tag = some old ∧ b'.finish.find? tag = some new ∧
            (new ≠ unmapped.toNat → outputs'[new]? = outputs[old]?) := by
  intro b b'
  have sound : Sound b := sound_performAll sound_empty ops
  obtain ⟨is, decoded, _⟩ := sound.stream
  obtain ⟨succeeds, leaves⟩ := filter_eq decoded keep
  have joints : b'.joints = keptJoints keep b.joints := congrArg Builder.joints leaves
  have count : b'.outputCount = b'.joints.length :=
    (congrArg Builder.outputCount leaves).trans (congrArg List.length joints).symm
  refine ⟨succeeds, joints ▸ nodup_keptJoints keep b.joints, fun tag => joints ▸ mem_keptJoints,
    joints ▸ pairwise_keptJoints keep b.joints, count, fun block outputs run => ?_⟩
  obtain ⟨is, ws, decoded, writes, rfl, run'⟩ := sound.generate_filter keep run
  -- the value in a slot that is left
  have holds : ∀ slot tag, b'.joints[slot]? = some tag → slot ≠ unmapped.toNat →
      (enter (Array.replicate (keptJoints keep b.joints).length .identity) (movedWrites
        (keptTable (keptJoints keep b.joints) b.joints).toArray ws))[slot]? =
          some ((lastWriteTo? (fun old => b.joints[old.toNat]? = some tag) ws).getD
            .identity) := by
    intro slot tag named number
    rw [joints] at named
    obtain ⟨inside, _⟩ := List.getElem?_eq_some_iff.1 named
    rw [enter_identities_getElem? inside, lastWriteTo?_movedWrites,
      lastWriteTo?_congr (moves_keptTable_iff named number)]
  refine ⟨is, ws, _, decoded, writes, map_fst_of_journal writes, run', ?_, holds, ?_⟩
  · rw [size_enter, Array.size_replicate, count, joints]
  · intro tag wanted once
    have marked : tag ∈ b.joints := List.count_pos_iff.1 (by omega)
    have left : tag ∈ b'.joints := joints ▸ mem_keptJoints.2 ⟨marked, wanted⟩
    have named : b'.joints[b'.joints.idxOf tag]? = some tag :=
      List.getElem?_eq_some_iff.2 ⟨List.idxOf_lt_length_of_mem left, List.getElem_idxOf _⟩
    refine ⟨_, _, find?_eq_some_idxOf marked, find?_eq_some_idxOf left, fun number => ?_⟩
    refine (holds _ tag named number).trans (Eq.trans ?_
      (enter_identities_getElem? (List.idxOf_lt_length_of_mem marked) _ ws).symm)
    rw [lastWriteTo?_congr fun slot => getElem?_eq_iff_of_count_eq_one once slot.toNat]

/-- A hand that is marked twice, the second time in a frame that is reflected. -/
def handMarkedTwice : List Operation :=
  [.marker ⟨"arm", "hand"⟩, .push, .static (.uniformScale (-.one)), .marker ⟨"arm", "hand"⟩,
    .pop 1, .marker ⟨"arm", "elbow"⟩, .marker ⟨"leg", "foot"⟩]

/-- The hand keeps its place and gets the second value, and the elbow moves up with its value. -/
theorem filter_keeps_values_handMarkedTwice :
    let b' := ((empty.performAll handMarkedTwice).filter [⟨"arm", "elbow"⟩, ⟨"arm", "hand"⟩]).1
    b'.joints = [⟨"arm", "hand"⟩, ⟨"arm", "elbow"⟩] ∧
      ∃ outputs', (b'.finish.generate .empty).value = .ok outputs' ∧
        outputs'[0]? = some (.scaling (.splat (-.one))) ∧ outputs'[1]? = some .identity := by
  intro b'
  have joints : b'.joints = [⟨"arm", "hand"⟩, ⟨"arm", "elbow"⟩] := by decide +kernel
  have run : ((empty.performAll handMarkedTwice).finish.generate .empty).value =
      .ok #[.identity, .scaling (.splat (-.one)), .identity, .identity] := by decide +kernel
  obtain ⟨_, _, _, _, _, values⟩ :=
    filter_keeps_values handMarkedTwice [⟨"arm", "elbow"⟩, ⟨"arm", "hand"⟩]
  obtain ⟨is, ws, outputs', decoded, writes, _, run', _, holds, _⟩ := values .empty _ run
  have stream : Instruction.decodeAll (empty.performAll handMarkedTwice).stream =
      .ok [.write 0, .push, .static (.uniformScale (-.one)), .write 1, .pop 1, .write 2,
        .write 3] := by
    decide +kernel
  have written : journal ⟨.matrices, .empty, maxStackDepth⟩ [.identity]
      [.write 0, .push, .static (.uniformScale (-.one)), .write 1, .pop 1, .write 2, .write 3] =
        some [(0, .identity), (1, .scaling (.splat (-.one))), (2, .identity), (3, .identity)] := by
    decide +kernel
  obtain rfl := Except.ok.inj (stream.symm.trans decoded)
  obtain rfl := Option.some.inj (written.symm.trans writes)
  exact ⟨joints, outputs', run',
    (holds 0 _ (congrArg (·[0]?) joints) (by decide)).trans (by decide +kernel),
    (holds 1 _ (congrArg (·[1]?) joints) (by decide)).trans (by decide +kernel)⟩

end Armature.Builder
