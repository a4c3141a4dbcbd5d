/-
**The interface of a builder.**

A builder keeps words, pops that are not yet written, a number of slots and the names of joints, and
every operation changes several of them.  They always fit together: the words can be decoded, they
write only slots that exist, and each slot has a joint.  This is what keeps renumbering and filtering
from failing, since nothing but a stream that cannot be decoded makes them fail.

Main definitions:

* `Builder.Sound` — the parts of a builder fit together;
* `Builder.Same` — two builders show the same stream and the same interface;
* `Builder.Operation.MayFail` — the faults of an operation.

Main results:

* `Builder.Sound.emit`, `Builder.Sound.marker`, `Builder.Sound.optimizeFor`, `Builder.Sound.remap`,
  `Builder.Sound.filter` — one operation;
* `Builder.Sound.perform`, `Builder.sound_performAll` — **any operation, and any history**;
* `Builder.optimizeFor_hook` — a table as a hook changes a builder as the table does;
* `Builder.interface_of_history` — **what holds of a builder after any history, and of the operations
  that fail then**.
-/

import Armature.Proofs.Evaluate.Renumbering
import Armature.Proofs.Optimize.Hooks
import Armature.Skeleton.Operation
import Mathlib.Data.List.Induction

set_option autoImplicit false

namespace Armature.Builder

/-! ### Streams -/

/-- An instruction that can be stored is decoded behind a list. -/
theorem decodeAll_append_encode {words : List UInt32} {is : List Instruction} {i : Instruction}
    (decoded : Instruction.decodeAll words = .ok is) (stored : i.Storable) :
    Instruction.decodeAll (words ++ i.encode) = .ok (is ++ [i]) := by
  obtain ⟨rfl, others⟩ := Instruction.decodeAll_eq_ok_iff.1 decoded
  refine Instruction.decodeAll_eq_ok_iff.2 ⟨?_, fun j member => ?_⟩
  · rw [Instruction.encodeAll, List.flatMap_append, List.flatMap_singleton]
    rfl
  · rcases List.mem_append.1 member with old | new
    · exact others j old
    · rw [List.mem_singleton.1 new]
      exact stored

theorem writtenSlots_append_silent {i : Instruction} (silent : i.output? = none)
    (is : List Instruction) : writtenSlots (is ++ [i]) = writtenSlots is := by
  rw [writtenSlots, List.filterMap_append, List.filterMap_cons, silent]
  exact List.append_nil _

/-- The parts of a builder fit together. -/
structure Sound (b : Builder) : Prop where
  /-- The words are decoded, and they write only slots that exist. -/
  words : ∃ is, Instruction.decodeAll b.words = .ok is ∧
    ∀ slot ∈ writtenSlots is, slot.toNat < b.outputCount
  /-- Each slot has a joint. -/
  joints : b.outputCount = b.joints.length

theorem sound_empty : Sound empty :=
  ⟨⟨[], Instruction.decodeAll_encodeAll fun _ none => absurd none List.not_mem_nil,
    fun _ none => absurd none List.not_mem_nil⟩, rfl⟩

/-! ### One operation -/

namespace Sound

variable {b : Builder} (sound : Sound b)
include sound

/-- The pops that are not yet written do not matter. -/
theorem stream : ∃ is, Instruction.decodeAll b.stream = .ok is ∧
    ∀ slot ∈ writtenSlots is, slot.toNat < b.outputCount := by
  obtain ⟨is, decoded, inside⟩ := sound.words
  rw [Builder.stream]
  split
  · refine ⟨_, decodeAll_append_encode decoded trivial, ?_⟩
    rw [writtenSlots_append_silent rfl]
    exact inside
  · exact ⟨is, decoded, inside⟩

theorem flush : Sound b.flush := ⟨sound.stream, sound.joints⟩

theorem pop (count : UInt32) : Sound (b.pop count) := ⟨sound.words, sound.joints⟩

/-- An instruction that writes no slot is emitted. -/
theorem emit {i : Instruction} (stored : i.Storable) (silent : i.output? = none) :
    Sound (b.emit i) := by
  obtain ⟨is, decoded, inside⟩ := sound.stream
  refine ⟨⟨_, decodeAll_append_encode decoded stored, ?_⟩, sound.joints⟩
  rw [writtenSlots_append_silent silent]
  exact inside

/-- A marker writes a slot that it adds. -/
theorem marker (tag : Tag) : Sound (b.marker tag) := by
  obtain ⟨is, decoded, inside⟩ := sound.stream
  have count : (b.marker tag).outputCount = b.outputCount + 1 := by
    show max b.outputCount (b.joints.length + 1) = _
    rw [← sound.joints]
    omega
  refine ⟨⟨_, decodeAll_append_encode (i := .write (.ofNat b.nextSlot)) decoded trivial, ?_⟩, ?_⟩
  · rw [writtenSlots, List.filterMap_append, count]
    intro slot member
    rcases List.mem_append.1 member with old | new
    · exact Nat.lt_succ_of_lt (inside slot old)
    · rw [List.mem_singleton.1 new, UInt32.toNat_ofNat', nextSlot, ← sound.joints]
      exact Nat.lt_succ_of_le (Nat.mod_le ..)
  · rw [count, sound.joints]
    exact (@List.length_append _ b.joints [tag]).symm

/-- An optimization leaves the slots alone. -/
theorem optimizeFor {σ : Type} (hook : Hook σ) (config : OptimizerConfig) (state : σ) :
    Sound (b.optimizeFor hook config state).1 := by
  obtain ⟨is, decoded, inside⟩ := sound.stream
  have spec := Hook.optimize_spec hook config decoded state
  rw [Builder.optimizeFor]
  cases run : (hook.optimize config state b.stream).result with
  | error fault => exact sound.flush
  | ok built =>
      rw [run] at spec
      obtain ⟨js, decoded', same⟩ := spec
      refine ⟨⟨js, decoded', ?_⟩, sound.joints⟩
      rw [writtenSlots_of_observed_eq same]
      exact inside

end Sound

/-! ### Renumbering -/

/-- The last entry counts, unless it drops its slot. -/
theorem newCount_append_singleton (entries : List UInt32) (last : UInt32) :
    newCount (entries ++ [last]) =
      if last = unmapped then newCount entries else max (newCount entries) (last.toNat + 1) := by
  rw [newCount, List.foldl_append, List.foldl_cons, List.foldl_nil, ← newCount]

/-- Each new number counts. -/
theorem lt_newCount {entries : List UInt32} {new : UInt32} (member : new ∈ entries)
    (mapped : new ≠ unmapped) : new.toNat < newCount entries := by
  induction entries using List.reverseRecOn with
  | nil => cases member
  | append_singleton entries last ih =>
      rw [newCount_append_singleton]
      rcases List.mem_append.1 member with earlier | here
      · split
        · exact ih earlier
        · exact Nat.lt_of_lt_of_le (ih earlier) (Nat.le_max_left ..)
      · obtain rfl := List.mem_singleton.1 here
        rw [if_neg mapped]
        exact Nat.lt_of_succ_le (Nat.le_max_right ..)

/-- A slot that exists gets its new number from one of the entries for slots that exist. -/
theorem mem_entries_of_renumber? {b : Builder} {table : List UInt32} {slot new : UInt32}
    (inside : slot.toNat < b.outputCount)
    (renumbers : Stream.renumber? table.toArray slot = some new) :
    new ∈ b.entries table ∧ new ≠ unmapped := by
  obtain ⟨there, kept, rfl⟩ := Stream.renumber?_eq_some_iff.1 renumbers
  refine ⟨List.mem_of_getElem? (i := slot.toNat) ?_, kept⟩
  rw [entries, List.getElem?_take_of_lt inside]
  exact List.getElem?_eq_getElem there

/-- **Where the stream is decoded renumbering succeeds**, and leaves the renumbered list. -/
theorem remap_eq {b : Builder} {is : List Instruction}
    (decoded : Instruction.decodeAll b.stream = .ok is) (table : List UInt32) :
    (b.remap table).2.value = .ok () ∧
      (b.remap table).1 = ⟨Instruction.encodeAll (renumbered table.toArray is), 0,
        newCount (b.entries table),
        (List.range (newCount (b.entries table))).map (newJoint b.joints (b.entries table))⟩ := by
  rw [remap]
  simp only [(Stream.remap_of_decodeAll table.toArray decoded).1]
  trivial

/-- **Where the stream is decoded filtering succeeds**, and leaves the renumbered list. -/
theorem filter_eq {b : Builder} {is : List Instruction}
    (decoded : Instruction.decodeAll b.stream = .ok is) (keep : List Tag) :
    let kept := keptJoints keep b.joints
    (b.filter keep).2.value = .ok () ∧
      (b.filter keep).1 = ⟨Instruction.encodeAll
        (renumbered (keptTable kept b.joints).toArray is), 0, kept.length, kept⟩ := by
  intro kept
  obtain ⟨succeeds, leaves⟩ := remap_eq decoded (keptTable kept b.joints)
  rcases result : b.remap (keptTable kept b.joints) with ⟨after, ⟨fault | ⟨⟩, events⟩⟩
  · rw [result] at succeeds
    cases succeeds
  · rw [result] at leaves
    obtain rfl : after = _ := leaves
    rw [filter, result]
    exact ⟨rfl, rfl⟩

/-- A slot gets the place of its joint, if the joint is kept. -/
theorem renumber?_keptTable {kept joints : List Tag} {old new : UInt32} :
    Stream.renumber? (keptTable kept joints).toArray old = some new ↔
      ∃ tag, joints[old.toNat]? = some tag ∧ tag ∈ kept ∧ UInt32.ofNat (kept.idxOf tag) = new ∧
        new ≠ unmapped := by
  rw [Stream.renumber?, List.getElem?_toArray, keptTable, List.getElem?_map]
  cases joints[old.toNat]? with
  | none => simp
  | some tag =>
      simp only [Option.map_some, Option.some.injEq, exists_eq_left']
      by_cases member : tag ∈ kept
      · have place : kept.findIdx? (fun t => t == tag) = some (kept.idxOf tag) :=
          List.findIdx?_eq_some_iff_findIdx_eq.2 ⟨List.idxOf_lt_length_of_mem member, rfl⟩
        simp only [place, member, true_and]
        split
        · rename_i dropped
          simp only [dropped, reduceCtorEq, false_iff, not_and, not_not]
          exact Eq.symm
        · rename_i numbered
          simp only [Option.some.injEq]
          exact ⟨fun same => ⟨same, same ▸ numbered⟩, And.left⟩
      · have place : kept.findIdx? (fun t => t == tag) = none :=
          List.findIdx?_eq_none_iff.2 fun t ht => by
            rw [beq_eq_false_iff_ne]
            rintro rfl
            exact member ht
        simp [place, member]

/-- The slots of kept joints get numbers of slots that are left. -/
theorem lt_of_keptTable {kept joints : List Tag} {slot new : UInt32}
    (renumbers : Stream.renumber? (keptTable kept joints).toArray slot = some new) :
    new.toNat < kept.length := by
  obtain ⟨tag, -, member, rfl, -⟩ := renumber?_keptTable.1 renumbers
  rw [UInt32.toNat_ofNat']
  exact Nat.lt_of_le_of_lt (Nat.mod_le ..) (List.idxOf_lt_length_of_mem member)

/-- What a history makes of an optimization. -/
theorem perform_optimize {σ : Type} (b : Builder) (hook : Hook σ) (state : σ)
    (config : OptimizerConfig) :
    b.perform (.optimize hook state config) =
      ((b.optimizeFor hook config state).1,
        match (b.optimizeFor hook config state).2.result with
        | .ok _ => .ok ()
        | .error fault => .error (.optimize fault)) := by
  rw [perform]
  rcases b.optimizeFor hook config state with ⟨_, ⟨_, _, fault | done⟩⟩ <;> rfl

namespace Sound

variable {b : Builder} (sound : Sound b)
include sound

theorem remap (table : List UInt32) : Sound (b.remap table).1 := by
  obtain ⟨is, decoded, inside⟩ := sound.stream
  rw [(remap_eq decoded table).2]
  refine ⟨⟨_, (Stream.remap_of_decodeAll table.toArray decoded).2, ?_⟩, ?_⟩
  · rw [writtenSlots_renumbered]
    intro new member
    obtain ⟨slot, written, renumbers⟩ := List.mem_filterMap.1 member
    obtain ⟨entry, mapped⟩ := mem_entries_of_renumber? (inside slot written) renumbers
    exact lt_newCount entry mapped
  · rw [List.length_map, List.length_range]

theorem filter (keep : List Tag) : Sound (b.filter keep).1 := by
  obtain ⟨is, decoded, _⟩ := sound.stream
  rw [(filter_eq decoded keep).2]
  refine ⟨⟨_, (Stream.remap_of_decodeAll _ decoded).2, ?_⟩, rfl⟩
  rw [writtenSlots_renumbered]
  intro new member
  obtain ⟨slot, _, renumbers⟩ := List.mem_filterMap.1 member
  exact lt_of_keptTable renumbers

/-- **Any operation leaves the parts of a builder fitting together.** -/
theorem perform (op : Operation) : Sound (b.perform op).1 := by
  cases op with
  | push => exact sound.emit trivial rfl
  | pop count => exact sound.pop count
  | static t => exact sound.emit trivial rfl
  | parameter shape offset => exact sound.emit trivial rfl
  | binding name defaults =>
      rw [Builder.perform, binding]
      by_cases few : defaults.length ≤ maxBindingDefaults
      · rw [if_pos few]
        exact sound.emit few rfl
      · rw [if_neg few]
        exact sound
  | comment text => exact sound.emit trivial rfl
  | marker tag => exact sound.marker tag
  | optimize hook state config =>
      rw [perform_optimize]
      exact sound.optimizeFor hook config state
  | remap table => exact sound.remap table
  | filter keep => exact sound.filter keep

end Sound

/-! ### Histories -/

/-- **The parts of a builder fit together after any history.** -/
theorem sound_performAll {b : Builder} (sound : Sound b) (ops : List Operation) :
    Sound (b.performAll ops) := by
  induction ops generalizing b with
  | nil => exact sound
  | cons op ops ih => exact ih (sound.perform op)

/-! ### Operations that fail -/

/-- A failed optimization leaves everything as it was. -/
theorem optimizeFor_of_error {σ : Type} {b : Builder} {hook : Hook σ} {config : OptimizerConfig}
    {state : σ} {fault : OptimizeFault}
    (failed : (b.optimizeFor hook config state).2.result = .error fault) :
    (b.optimizeFor hook config state).1 = b.flush := by
  rw [optimizeFor] at failed ⊢
  cases run : (hook.optimize config state b.stream).result with
  | error fault' => rfl
  | ok built =>
      rw [run] at failed
      cases failed

/-- An optimization of a sound builder fails only where it rejects a fold. -/
theorem Sound.exists_slot_of_optimizeFor {σ : Type} {b : Builder} (sound : Sound b) {hook : Hook σ}
    {config : OptimizerConfig} {state : σ} {fault : OptimizeFault}
    (failed : (b.optimizeFor hook config state).2.result = .error fault) :
    ∃ slot, fault = .duplicateFold slot := by
  obtain ⟨is, decoded, _⟩ := sound.stream
  have spec := Hook.optimize_spec hook config decoded state
  rw [Builder.optimizeFor] at failed
  cases run : (hook.optimize config state b.stream).result with
  | error fault' =>
      rw [run] at failed spec
      cases failed
      exact spec
  | ok built =>
      rw [run] at failed
      cases failed

/-- **A table as a hook changes a builder as the table does.** -/
theorem optimizeFor_hook (b : Builder) (config : OptimizerConfig) (table : FoldTable) :
    b.optimizeFor FoldTable.hook config table =
      ((b.optimize config table).1, (b.optimize config table).2.hooked) := by
  rw [optimizeFor, optimize, FoldTable.optimize_hook]
  simp only [Attempt.hooked]
  cases (Armature.optimize config table b.stream).result <;> rfl

/-- Two builders show the same stream and the same interface. -/
structure Same (b b' : Builder) : Prop where
  /-- The streams are equal. -/
  stream : b'.stream = b.stream
  /-- The numbers of slots are equal. -/
  outputCount : b'.outputCount = b.outputCount
  /-- The joints are equal. -/
  joints : b'.joints = b.joints

/-- The operation may fail with the fault. -/
def Operation.MayFail (op : Operation) (fault : BuildFault) : Prop :=
  match op with
  | .binding _ defaults =>
    maxBindingDefaults < defaults.length ∧ fault = .tooManyDefaults defaults.length
  | .optimize _ _ _ => ∃ slot, fault = .optimize (.duplicateFold slot)
  | _ => False

/-- **An operation of a sound builder fails only if it may**, and leaves everything as it was. -/
theorem Sound.same_of_error {b : Builder} (sound : Sound b) {op : Operation} {fault : BuildFault}
    (failed : (b.perform op).2 = .error fault) : op.MayFail fault ∧ Same b (b.perform op).1 := by
  obtain ⟨is, decoded, _⟩ := sound.stream
  cases op with
  | push | pop | static | parameter | comment | marker => cases failed
  | binding name defaults =>
      rw [Builder.perform, binding] at failed ⊢
      by_cases few : defaults.length ≤ maxBindingDefaults
      · rw [if_pos few] at failed
        cases failed
      · rw [if_neg few] at failed ⊢
        cases failed
        exact ⟨⟨Nat.lt_of_not_le few, rfl⟩, rfl, rfl, rfl⟩
  | optimize hook state config =>
      rw [perform_optimize] at failed ⊢
      cases run : (b.optimizeFor hook config state).2.result with
      | ok stats =>
          simp only [run] at failed
          cases failed
      | error fault' =>
          simp only [run] at failed
          cases failed
          obtain ⟨slot, rfl⟩ := sound.exists_slot_of_optimizeFor run
          rw [optimizeFor_of_error run]
          exact ⟨⟨slot, rfl⟩, rfl, rfl, rfl⟩
  | remap table => cases (remap_eq decoded table).1.symm.trans failed
  | filter keep => cases (filter_eq decoded keep).1.symm.trans failed

/-- **What holds of a builder after any history.**  Its stream is decoded, it has as many slots as
joints, and its stream writes only slots that exist.  So renumbering and filtering never fail,
optimizing fails only where a fold is rejected, and where this fails, or marking a binding point, the
stream and the interface stay as they were. -/
theorem interface_of_history (ops : List Operation) :
    let b := empty.performAll ops
    (∃ is, Instruction.decodeAll b.stream = .ok is ∧
      ∀ slot ∈ writtenSlots is, slot.toNat < b.outputCount) ∧
    b.outputCount = b.joints.length ∧
    (∀ table, (b.remap table).2.value = .ok ()) ∧
    (∀ keep, (b.filter keep).2.value = .ok ()) ∧
    ∀ op fault, (b.perform op).2 = .error fault → op.MayFail fault ∧ Same b (b.perform op).1 := by
  intro b
  have sound : Sound b := sound_performAll sound_empty ops
  obtain ⟨is, decoded, inside⟩ := sound.stream
  exact ⟨⟨is, decoded, inside⟩, sound.joints, fun table => (remap_eq decoded table).1,
    fun keep => (filter_eq decoded keep).1, fun op fault failed => sound.same_of_error failed⟩

/-- A joint that is written twice keeps one slot, and a frame that is left open does not matter. -/
example :
    let b := empty.performAll [.push, .marker ⟨"arm", "hand"⟩, .pop 1, .marker ⟨"arm", "elbow"⟩,
      .remap [2, unmapped], .marker ⟨"arm", "hand"⟩, .filter [⟨"arm", "hand"⟩]]
    Instruction.decodeAll b.stream = .ok [.push, .write 0, .pop 1, .write 0] ∧
      b.joints = [⟨"arm", "hand"⟩] := by
  decide +kernel

end Armature.Builder
