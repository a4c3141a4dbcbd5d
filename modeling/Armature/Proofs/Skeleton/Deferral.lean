/-
**Pops that wait.**

A builder does not write a pop when it is asked for.  It adds up the counts, writes one pop in front
of the next instruction, and shows it to whoever reads the stream without writing it.  The optimizer
has a pass that joins pops in a finished list.  Both make the same of the same calls, at any point
of a history: the stream is that of the list in which each accepted call stands as it was asked for,
after the pass.

The two are compared with a third form, which walks over the list once and carries the count of the
pops that are due.  A builder is this walk in its own order.  The pass works from the back, and
agrees as long as no sum of counts leaves the range of a word.

Main definitions:

* `settle` — a list in which the pops that are due are written before the next instruction;
* `PopsFit` — the counts of pops in a row add up to a word;
* `Builder.literalFrom` — the instructions of the accepted calls, as they were asked for;
* `Builder.Call` — what a caller does: an operation, or reading the stream.

Main results:

* `settle_eq_coalescePops` — **the walk is the pass**;
* `Builder.stream_performAll` — **the builder is the walk**;
* `Builder.stream_coalesces` — after any calls that emit, the stream is that of the joined list,
  whether or not it was read in between.
-/

import Armature.Proofs.Evaluate.Nesting
import Armature.Proofs.Optimize.Pushes
import Armature.Proofs.Skeleton.Interface

set_option autoImplicit false

namespace Armature

/-! ### Lists -/

/-- The pop of so many frames; nothing if there are none to close. -/
def duePop (count : UInt32) : List Instruction := if count = 0 then [] else [.pop count]

/-- The list in which the pops that are due, and those of the list, are written before the next
instruction or at the end. -/
def settle (due : UInt32) : List Instruction → List Instruction
  | [] => duePop due
  | .pop count :: is => settle (due + count) is
  | i :: is => duePop due ++ i :: settle 0 is

/-- The counts of pops in a row add up to a word. -/
def PopsFit (is : List Instruction) : Prop :=
  ∀ counts : List UInt32, counts.map Instruction.pop <:+: is →
    (counts.map UInt32.toNat).sum < UInt32.size

theorem PopsFit.of_isInfix {is js : List Instruction} (fit : PopsFit is) (part : js <:+: is) :
    PopsFit js := fun counts run => fit counts (run.trans part)

/-- Pops fit if all counts together do. -/
theorem popsFit_of_closed_lt {is : List Instruction} (small : closed is < UInt32.size) :
    PopsFit is := by
  rintro counts ⟨front, rest, rfl⟩
  have run : closed (counts.map Instruction.pop) = (counts.map UInt32.toNat).sum := by
    rw [closed, List.map_map]
    rfl
  rw [closed_append, closed_append, run] at small
  omega

/-- Two pops in a row are joined as one with the sum of their counts. -/
theorem coalescePops_pop_pop {count more : UInt32}
    (fits : count.toNat + more.toNat < UInt32.size) (is : List Instruction) :
    coalescePops (.pop count :: .pop more :: is) = coalescePops (.pop (count + more) :: is) := by
  by_cases first : count = 0
  · rw [coalescePops, if_pos first, first, UInt32.zero_add]
  by_cases second : more = 0
  · rw [coalescePops, if_neg first, coalescePops, if_pos second, coalescePops, second,
      UInt32.add_zero, if_neg first]
  have sum : count + more ≠ 0 := by
    intro none
    have total := congrArg UInt32.toNat none
    rw [UInt32.toNat_add, Nat.mod_eq_of_lt fits] at total
    exact first (UInt32.toNat_inj.1 (Nat.eq_zero_of_add_eq_zero_right total))
  rw [coalescePops, if_neg first, coalescePops, if_neg second, coalescePops, if_neg sum]
  -- a third pop may follow, with which the second is joined first
  generalize coalescePops is = js
  cases js with
  | nil => rfl
  | cons j js =>
      cases j with
      | pop third => simp only [UInt32.add_assoc]
      | _ => rfl

/-- **The walk is the pass**, if no sum of counts leaves the range of a word. -/
theorem settle_eq_coalescePops {due : UInt32} {is : List Instruction} (fit : PopsFit is)
    (first : ∀ counts : List UInt32, counts.map Instruction.pop <+: is →
      due.toNat + (counts.map UInt32.toNat).sum < UInt32.size) :
    settle due is = coalescePops (.pop due :: is) := by
  fun_induction settle due is with
  | case1 due => rfl
  | case2 due count is ih =>
      have fits : due.toNat + count.toNat < UInt32.size := first [count] (List.prefix_append ..)
      have sum : (due + count).toNat = due.toNat + count.toNat := by
        rw [UInt32.toNat_add, Nat.mod_eq_of_lt fits]
      rw [coalescePops_pop_pop fits]
      refine ih (fit.of_isInfix (List.suffix_cons ..).isInfix) fun counts run => ?_
      have total := first (count :: counts) (List.cons_prefix_cons.2 ⟨rfl, run⟩)
      rw [List.map_cons, List.sum_cons] at total
      rw [sum, Nat.add_assoc]
      exact total
  | case3 due i is other ih =>
      have later : settle 0 is = coalescePops is := by
        refine ih (fit.of_isInfix (List.suffix_cons ..).isInfix) fun counts run => ?_
        rw [UInt32.toNat_zero, Nat.zero_add]
        exact fit counts (run.isInfix.trans (List.suffix_cons ..).isInfix)
      have here : coalescePops (i :: is) = i :: coalescePops is := by
        rw [coalescePops]
        exact other
      rw [later, coalescePops, duePop, here]
      by_cases none : due = 0
      · rw [if_pos none, if_pos none]
        rfl
      · rw [if_neg none, if_neg none]
        split
        · rename_i found
          exact absurd (List.cons.inj found).1 (other _)
        · rfl

/-- The walk from the front of a list with nothing due is the pass. -/
theorem settle_zero {is : List Instruction} (fit : PopsFit is) :
    settle 0 is = coalescePops is := by
  rw [settle_eq_coalescePops fit, coalescePops, if_pos rfl]
  intro counts run
  rw [UInt32.toNat_zero, Nat.zero_add]
  exact fit counts run.isInfix

theorem storable_duePop (due : UInt32) : ∀ i ∈ duePop due, i.Storable := by
  intro i member
  rw [duePop] at member
  split at member
  · cases member
  · rw [List.mem_singleton.1 member]
    trivial

/-- What is settled of a list that can be stored can be stored. -/
theorem storable_settle {due : UInt32} {is : List Instruction} (stored : ∀ i ∈ is, i.Storable) :
    ∀ i ∈ settle due is, i.Storable := by
  fun_induction settle due is with
  | case1 due => exact storable_duePop due
  | case2 due count is ih => exact ih (List.forall_mem_cons.1 stored).2
  | case3 due i is _ ih =>
      obtain ⟨here, later⟩ := List.forall_mem_cons.1 stored
      exact List.forall_mem_append.2
        ⟨storable_duePop due, List.forall_mem_cons.2 ⟨here, ih later⟩⟩

namespace Builder

/-! ### Calls as they are asked for -/

/-- The operation emits; the others rework what was emitted. -/
def Operation.emits : Operation → Bool
  | .optimize .. | .remap _ | .filter _ => false
  | .push | .pop _ | .static _ | .parameter .. | .binding .. | .comment _ | .marker _ => true

/-- The instruction that an operation asks for, where the next free slot is `slot`.  A binding point
with too many defaults asks for none. -/
def Operation.instruction? (slot : Nat) : Operation → Option Instruction
  | .push => some .push
  | .pop count => some (.pop count)
  | .static t => some (.static t)
  | .parameter shape offset => some (.parameter shape offset)
  | .binding name defaults =>
    if defaults.length ≤ maxBindingDefaults then some (.binding name defaults) else none
  | .comment text => some (.comment (.ofText text))
  | .marker _ => some (.write (UInt32.ofNat slot))
  | .optimize .. | .remap _ | .filter _ => none

/-- The next free slot after an operation. -/
def Operation.slotAfter (slot : Nat) : Operation → Nat
  | .marker _ => slot + 1
  | _ => slot

/-- The instructions of the accepted operations, as they were asked for, where the first free slot
is `slot`. -/
def literalFrom (slot : Nat) : List Operation → List Instruction
  | [] => []
  | op :: ops => (op.instruction? slot).toList ++ literalFrom (op.slotAfter slot) ops

theorem literalFrom_isPrefix {slot : Nat} {front ops : List Operation} (part : front <+: ops) :
    literalFrom slot front <+: literalFrom slot ops := by
  obtain ⟨rest, rfl⟩ := part
  induction front generalizing slot with
  | nil => exact List.nil_prefix
  | cons op front ih => exact (List.prefix_append_right_inj _).2 ih

/-- What is asked for can be stored. -/
theorem storable_literalFrom (slot : Nat) (ops : List Operation) :
    ∀ i ∈ literalFrom slot ops, i.Storable := by
  induction ops generalizing slot with
  | nil => exact fun _ none => absurd none List.not_mem_nil
  | cons op ops ih =>
      refine List.forall_mem_append.2 ⟨fun i asked => ?_, ih _⟩
      cases op with
      | binding name defaults =>
          obtain ⟨few, same⟩ := Option.ite_none_right_eq_some.1 (Option.mem_toList.1 asked)
          obtain rfl := Option.some.inj same
          exact few
      | optimize | remap | filter => cases asked
      | push | pop | static | parameter | comment | marker =>
          rw [List.mem_singleton.1 asked]
          trivial

/-! ### One operation -/

variable {b : Builder}

theorem stream_eq (b : Builder) :
    b.stream = b.words ++ Instruction.encodeAll (duePop b.pendingPops) := by
  rw [stream, duePop]
  by_cases none : b.pendingPops = 0
  · rw [if_neg (none ▸ UInt32.lt_irrefl 0), if_pos none]
    exact (List.append_nil _).symm
  · rw [if_pos (UInt32.pos_iff_ne_zero.2 none), if_neg none]
    exact congrArg (b.words ++ ·) (List.append_nil _).symm

/-- An operation that emits is accepted exactly if it asks for an instruction. -/
theorem perform_eq_ok_iff {op : Operation} (emits : op.emits) :
    (b.perform op).2 = .ok () ↔ (op.instruction? b.nextSlot).isSome := by
  cases op with
  | binding name defaults =>
      rw [perform, binding, Operation.instruction?]
      by_cases few : defaults.length ≤ maxBindingDefaults
      · simp [few]
      · simp [few]
  | optimize | remap | filter => cases emits
  | push | pop | static | parameter | comment | marker => exact ⟨fun _ => rfl, fun _ => rfl⟩

/-- An instruction is written behind the pops that are due. -/
theorem stream_of_emit (b : Builder) {i : Instruction} (other : ∀ count, i ≠ .pop count)
    (is : List Instruction) :
    (b.emit i).words ++ Instruction.encodeAll (settle (b.emit i).pendingPops is) =
      b.words ++ Instruction.encodeAll (settle b.pendingPops (i :: is)) := by
  have settled : settle b.pendingPops (i :: is) = duePop b.pendingPops ++ i :: settle 0 is := by
    rw [settle]
    exact other
  rw [settled, show (b.emit i).words = b.stream ++ i.encode from rfl, stream_eq,
    show (b.emit i).pendingPops = 0 from rfl]
  simp only [Instruction.encodeAll, List.flatMap_append, List.flatMap_cons, List.append_assoc]

/-- **An operation that emits takes the first step of the walk.** -/
theorem stream_of_perform (b : Builder) {op : Operation} (emits : op.emits)
    (is : List Instruction) :
    (b.perform op).1.words ++ Instruction.encodeAll (settle (b.perform op).1.pendingPops is) =
      b.words ++ Instruction.encodeAll
        (settle b.pendingPops ((op.instruction? b.nextSlot).toList ++ is)) := by
  cases op with
  | pop count => rfl
  | binding name defaults =>
      rw [perform, binding, Operation.instruction?]
      by_cases few : defaults.length ≤ maxBindingDefaults
      · rw [if_pos few, if_pos few]
        exact stream_of_emit b (fun _ same => by cases same) is
      · rw [if_neg few, if_neg few]
        rfl
  | optimize | remap | filter => cases emits
  | push | static | parameter | comment | marker =>
      exact stream_of_emit b (fun _ same => by cases same) is

theorem nextSlot_perform (b : Builder) {op : Operation} (emits : op.emits) :
    (b.perform op).1.nextSlot = op.slotAfter b.nextSlot := by
  cases op with
  | marker tag => exact List.length_append
  | binding name defaults =>
      rw [perform, binding]
      by_cases few : defaults.length ≤ maxBindingDefaults
      · rw [if_pos few]
        rfl
      · rw [if_neg few]
        rfl
  | optimize | remap | filter => cases emits
  | push | pop | static | parameter | comment => rfl

/-! ### Histories -/

/-- **The builder is the walk**: it has written what is settled of the operations, except for the
pops that are due, and these it shows. -/
theorem stream_performAll (b : Builder) {ops : List Operation} (emit : ∀ op ∈ ops, op.emits) :
    (b.performAll ops).stream =
      b.words ++ Instruction.encodeAll (settle b.pendingPops (literalFrom b.nextSlot ops)) := by
  induction ops generalizing b with
  | nil => exact stream_eq b
  | cons op ops ih =>
      obtain ⟨here, later⟩ := List.forall_mem_cons.1 emit
      rw [literalFrom, ← stream_of_perform b here, ← nextSlot_perform b here]
      exact ih (b.perform op).1 later

/-- What a caller does. -/
inductive Call : Type 1 where
  /-- Have an operation performed. -/
  | operation (op : Operation)
  /-- Read the stream. -/
  | read

/-- The operation of a call, if it is one. -/
def Call.operation? : Call → Option Operation
  | .operation op => some op
  | .read => none

/-- The operations among some calls. -/
def operations (calls : List Call) : List Operation := calls.filterMap Call.operation?

/-- The builder after a call, and the words that were read. -/
def call (b : Builder) : Call → Builder × Option (List UInt32)
  | .operation op => ((b.perform op).1, none)
  | .read => (b, some b.stream)

/-- The builder after some calls. -/
def callAll (b : Builder) (calls : List Call) : Builder :=
  calls.foldl (fun b c => (b.call c).1) b

/-- Reading the stream leaves no trace. -/
theorem callAll_eq (b : Builder) (calls : List Call) :
    b.callAll calls = b.performAll (operations calls) := by
  induction calls generalizing b with
  | nil => rfl
  | cons c calls ih =>
      cases c with
      | operation op => exact ih (b.perform op).1
      | read => exact ih b

/-- **After any calls that emit, the stream is that of the joined list.**  Let no counts of pops
that are asked for in a row add up to more than a word.  Then after each call the stream that is
read, and that of the finished machine, decode to the instructions of the accepted calls, as they
were asked for, with their pops joined.  Calls that read the stream in between make no difference,
and a call is accepted exactly if it asks for an instruction. -/
theorem stream_coalesces {calls : List Call} (emit : ∀ op ∈ operations calls, op.emits)
    (fit : PopsFit (literalFrom 0 (operations calls))) {front : List Call}
    (part : front <+: calls) :
    let b := empty.callAll front
    let joined := coalescePops (literalFrom 0 (operations front))
    (∃ words, (b.call .read).2 = some words ∧ Instruction.decodeAll words = .ok joined) ∧
      Instruction.decodeAll b.finish.words = .ok joined ∧
      b = empty.performAll (operations front) ∧
      ∀ op : Operation, op.emits →
        ((b.perform op).2 = .ok () ↔ (op.instruction? b.nextSlot).isSome) := by
  intro b joined
  have operated : operations front <+: operations calls := part.filterMap _
  have fit := fit.of_isInfix (literalFrom_isPrefix operated).isInfix
  have performed : b = empty.performAll (operations front) := callAll_eq empty front
  have decoded : Instruction.decodeAll b.stream = .ok joined := by
    rw [performed, stream_performAll _ fun op member => emit op (operated.subset member)]
    show Instruction.decodeAll (Instruction.encodeAll (settle 0 (literalFrom 0 _))) = _
    rw [Instruction.decodeAll_encodeAll (storable_settle (storable_literalFrom 0 _)),
      settle_zero fit]
  exact ⟨⟨b.stream, rfl, decoded⟩, decoded, performed, fun _ => perform_eq_ok_iff⟩

/-- Pops in front of everything, around a binding point that is rejected, and at the end; the stream
is read between pops that belong together. -/
def waitingPops : List Call :=
  [.operation (.pop 2), .read, .operation (.pop 0), .operation (.pop 1), .operation .push,
    .operation (.marker ⟨"arm", "hand"⟩), .operation (.pop 1), .read,
    .operation (.binding 7 [.rotateX .one, .rotateY .one, .rotateZ .one, .rotateX .one]),
    .operation (.pop 3), .operation (.comment "tip"), .operation (.pop 0)]

/-- Whoever reads in front of the comment sees the pops joined around the binding point, and the pop
of nothing at the end is not written. -/
theorem stream_coalesces_waitingPops :
    (∃ words, ((empty.callAll (waitingPops.take 10)).call .read).2 = some words ∧
      Instruction.decodeAll words = .ok [.pop 3, .push, .write 0, .pop 4]) ∧
    Instruction.decodeAll (empty.callAll waitingPops).finish.words =
      .ok [.pop 3, .push, .write 0, .pop 4, .comment (.ofText "tip")] := by
  have emit : ∀ op ∈ operations waitingPops, op.emits := List.all_eq_true.1 rfl
  have fit : PopsFit (literalFrom 0 (operations waitingPops)) :=
    popsFit_of_closed_lt (by decide +kernel)
  obtain ⟨seen, -⟩ := stream_coalesces emit fit (List.take_prefix 10 waitingPops)
  obtain ⟨-, finished, -⟩ := stream_coalesces emit fit List.prefix_rfl
  have early : coalescePops (literalFrom 0 (operations (waitingPops.take 10))) =
      [.pop 3, .push, .write 0, .pop 4] := by decide +kernel
  have whole : coalescePops (literalFrom 0 (operations waitingPops)) =
      [.pop 3, .push, .write 0, .pop 4, .comment (.ofText "tip")] := by decide +kernel
  exact ⟨early ▸ seen, finished.trans (congrArg Except.ok whole)⟩

/-- Where the counts add up to more than a word, the two part: the builder has nothing left to
write, and the pass leaves a pop of nothing. -/
example :
    (empty.performAll [.pop 0x80000000, .pop 0x80000000]).stream = [] ∧
      coalescePops [.pop 0x80000000, .pop 0x80000000] = [.pop 0] := by
  decide +kernel

end Builder

end Armature
