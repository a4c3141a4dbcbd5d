/-
**What a valid stream guarantees.**

Checking a stream counts open frames, while running it and searching it for parents keep a stack of
them.  The three agree: where the count goes wrong, or decoding does, the others stop with the same
fault, unless something stopped them before that a stream alone does not decide: the limit of the
stack, or a parameter that is not there.

Main definitions:

* `Instruction.depthAfter`, `balance` — the number of open frames after an instruction and after a
  list, or the fault of a pop that closes too many;
* `opened`, `closed` — how many frames a list opens and closes in total;
* `Fault.Outside`, `Fault.OfWords` — a fault that depends on more than the stream, and one of reading
  its words;
* `Stream.Closable` — the check finds nothing, or only frames that are left open.

Main results:

* `Stream.validate_eq_balance` — checking a stream is counting the frames of its readable part;
* `balance_eq_ok_iff` — **counting goes through exactly if no prefix closes more frames than are
  open**;
* `Snapshot.balance_of_through`, `Lineage.balance_of_exec` — runs and searches count as well;
* `Stream.agrees_run`, `Stream.agrees_parents` — hence they end as the check does;
* `validity_guarantees` — **what a valid stream guarantees, and what an invalid one does**.
-/

import Mathlib.Algebra.GroupWithZero.Nat
import Armature.Proofs.Evaluate.Parents
import Armature.Proofs.Evaluate.Refinement

set_option autoImplicit false

namespace Armature

variable {M : Type} {s : Setting M}

/-! ### Counting frames -/

/-- The number of open frames after an instruction, or the fault of a pop that closes too many. -/
def Instruction.depthAfter (depth : Nat) : Instruction → Except Fault Nat
  | push => .ok (depth + 1)
  | pop count =>
    if count.toNat ≤ depth then .ok (depth - count.toNat) else .error (.stackUnderflow count depth)
  | static _ | parameter _ _ | write _ | writeStatic _ _ | writeParameter _ _ | binding _ _
  | comment _ => .ok depth

/-- The number of open frames after a list, or the fault of the first pop that closes too many. -/
def balance (depth : Nat) : List Instruction → Except Fault Nat
  | [] => .ok depth
  | i :: is =>
    match i.depthAfter depth with
    | .error fault => .error fault
    | .ok after => balance after is

theorem balance_cons_ok {depth after : Nat} {i : Instruction} (h : i.depthAfter depth = .ok after)
    (is : List Instruction) : balance depth (i :: is) = balance after is := by
  rw [balance, h]

theorem balance_cons_error {depth : Nat} {fault : Fault} {i : Instruction}
    (h : i.depthAfter depth = .error fault) (is : List Instruction) :
    balance depth (i :: is) = .error fault := by
  rw [balance, h]

/-- Counting fails only at a pop. -/
theorem underflow_of_balance_error {depth : Nat} {is : List Instruction} {fault : Fault}
    (failed : balance depth is = .error fault) : ∃ count d, fault = .stackUnderflow count d := by
  induction is generalizing depth with
  | nil => cases failed
  | cons i is ih =>
      cases counted : i.depthAfter depth with
      | ok after =>
          rw [balance_cons_ok counted] at failed
          exact ih failed
      | error fault' =>
          rw [balance_cons_error counted] at failed
          cases failed
          cases i with
          | pop count =>
              rw [Instruction.depthAfter] at counted
              split at counted
              · cases counted
              · cases counted
                exact ⟨count, depth, rfl⟩
          | _ => cases counted

/-- The frames that an instruction opens. -/
def Instruction.opens : Instruction → Nat
  | push => 1
  | _ => 0

/-- The frames that an instruction closes. -/
def Instruction.closes : Instruction → Nat
  | pop count => count.toNat
  | _ => 0

/-- The frames that a list opens, in total. -/
def opened (is : List Instruction) : Nat := (is.map Instruction.opens).sum

/-- The frames that a list closes, in total. -/
def closed (is : List Instruction) : Nat := (is.map Instruction.closes).sum

@[simp] theorem opened_nil : opened [] = 0 := rfl

@[simp] theorem closed_nil : closed [] = 0 := rfl

@[simp] theorem opened_cons (i : Instruction) (is : List Instruction) :
    opened (i :: is) = i.opens + opened is := List.sum_cons ..

@[simp] theorem closed_cons (i : Instruction) (is : List Instruction) :
    closed (i :: is) = i.closes + closed is := List.sum_cons ..

/-- An instruction may close as many frames as are open. -/
theorem Instruction.depthAfter_eq_ok_iff {i : Instruction} {depth after : Nat} :
    i.depthAfter depth = .ok after ↔
      i.closes ≤ depth + i.opens ∧ after = depth + i.opens - i.closes := by
  cases i with
  | pop count =>
      show (if count.toNat ≤ depth then _ else _) = _ ↔ count.toNat ≤ depth ∧ _ = depth - count.toNat
      by_cases enough : count.toNat ≤ depth
      · rw [if_pos enough]
        simp only [Except.ok.injEq, enough, true_and, eq_comm]
      · rw [if_neg enough]
        simp only [reduceCtorEq, enough, false_and]
  | push =>
      show Except.ok (depth + 1) = _ ↔ 0 ≤ depth + 1 ∧ after = depth + 1
      simp only [Except.ok.injEq, Nat.zero_le, true_and, eq_comm]
  | static | parameter | write | writeStatic | writeParameter | binding | comment =>
      show Except.ok depth = _ ↔ 0 ≤ depth ∧ after = depth
      simp only [Except.ok.injEq, Nat.zero_le, true_and, eq_comm]

/-- **Counting goes through exactly if no prefix closes more frames than are open.** -/
theorem balance_eq_ok_iff {depth final : Nat} {is : List Instruction} :
    balance depth is = .ok final ↔
      (∀ js, js <+: is → closed js ≤ depth + opened js) ∧
        final + closed is = depth + opened is := by
  induction is generalizing depth with
  | nil =>
      rw [balance, Except.ok.injEq]
      constructor
      · rintro rfl
        refine ⟨fun js front => ?_, rfl⟩
        rw [List.prefix_nil.1 front]
        exact Nat.zero_le _
      · intro h
        exact h.2.symm
  | cons i is ih =>
      cases counted : i.depthAfter depth with
      | ok after =>
          obtain ⟨enough, rfl⟩ := Instruction.depthAfter_eq_ok_iff.1 counted
          rw [balance_cons_ok counted, ih]
          constructor
          · rintro ⟨fronts, total⟩
            refine ⟨fun js front => ?_, ?_⟩
            · rcases List.prefix_cons_iff.1 front with rfl | ⟨ks, rfl, rest⟩
              · exact Nat.zero_le _
              · have := fronts ks rest
                rw [opened_cons, closed_cons]
                omega
            · rw [opened_cons, closed_cons]
              omega
          · rintro ⟨fronts, total⟩
            rw [opened_cons, closed_cons] at total
            refine ⟨fun js front => ?_, by omega⟩
            have := fronts (i :: js) (List.cons_prefix_cons.2 ⟨rfl, front⟩)
            rw [opened_cons, closed_cons] at this
            omega
      | error fault =>
          rw [balance_cons_error counted]
          -- the first instruction alone is a prefix that closes too many
          have missing : ¬ i.closes ≤ depth + i.opens := fun enough => by
            rw [Instruction.depthAfter_eq_ok_iff.2 ⟨enough, rfl⟩] at counted
            cases counted
          constructor
          · intro none
            cases none
          · intro h
            have front := h.1 [i] (List.cons_prefix_cons.2 ⟨rfl, List.nil_prefix⟩)
            rw [opened_cons, closed_cons] at front
            exact absurd front missing

/-! ### Checking -/

namespace Stream

theorem depthAfter_eq {length offset next : Nat} {w : UInt32} {rest : List UInt32}
    {i : Instruction} (decoded : Instruction.decodeFrom length offset (w :: rest) = .ok (i, next))
    (depth : Nat) : depthAfter depth i.opcode rest = i.depthAfter depth := by
  have front := Instruction.encode_append_drop_of_decodeFrom decoded
  cases i using Instruction.bracketCases with
  | push => rfl
  | pop count =>
      rw [← (List.cons.inj front).2]
      rfl
  | inside i hb =>
      rw [depthAfter_opcode hb]
      cases i with
      | push | pop => cases hb
      | _ => rfl

/-- Checking a stream is counting the frames of its readable part; then comes the fault of decoding,
and last that of frames that are left open. -/
theorem validateFrom_eq_balance (length offset depth : Nat) (words : List UInt32) :
    validateFrom length offset depth words =
      (balance depth (Program.readablePart length offset words).1).bind fun final =>
        match (Program.readablePart length offset words).2 with
        | some fault => .error fault
        | none => if final = 0 then .ok () else .error (.unbalanced final) := by
  fun_induction Program.readablePart length offset words generalizing depth with
  | case1 =>
      rw [validateFrom]
      rfl
  | case2 offset w rest fault failed =>
      rw [validateFrom, measure_of_decodeFrom_error failed]
      rfl
  | case3 offset w rest i next decoded is fault? part ih =>
      rw [validateFrom, measure_of_decodeFrom decoded]
      simp only [Instruction.read_of_decodeFrom decoded, depthAfter_eq decoded]
      cases counted : i.depthAfter depth with
      | error fault =>
          rw [balance_cons_error counted]
          rfl
      | ok after =>
          rw [balance_cons_ok counted]
          rw [part] at ih
          exact ih after

theorem validate_eq_balance (words : List UInt32) :
    validate words =
      (balance 0 (Program.readablePart words.length 0 words).1).bind fun final =>
        match (Program.readablePart words.length 0 words).2 with
        | some fault => .error fault
        | none => if final = 0 then .ok () else .error (.unbalanced final) :=
  validateFrom_eq_balance ..

end Stream

/-! ### Runs and searches -/

/-- The fault depends on more than the stream: on the limit of the stack, or on the parameters. -/
def Fault.Outside (limit : Nat) (fault : Fault) : Prop :=
  fault = .stackOverflow limit ∨
    ∃ offset size length, fault = .parameterOutOfRange offset size length

/-- A parameter can only be out of range. -/
theorem Setting.outOfRange_of_parameter {shape : Shape} {offset : UInt32} {fault : Fault}
    (failed : s.parameter shape offset = .error fault) :
    ∃ offset size length, fault = .parameterOutOfRange offset size length := by
  rw [parameter, ParameterBlock.readTransform, ParameterBlock.readScalars] at failed
  split at failed
  · cases failed
  · cases failed
    exact ⟨_, _, _, rfl⟩

/-- **An instruction counts the frames**, unless something outside stops it. -/
theorem Instruction.depthAfter_of_perform (x : Snapshot M) (i : Instruction) :
    match i.perform s x with
    | .ok y => i.depthAfter x.below.length = .ok y.below.length
    | .error fault => fault.Outside s.limit ∨ i.depthAfter x.below.length = .error fault := by
  cases i with
  | push =>
      rw [perform]
      by_cases room : x.below.length + 1 < s.limit
      · rw [if_pos room]
        exact rfl
      · rw [if_neg room]
        exact .inl (.inl rfl)
  | pop count =>
      rw [perform, depthAfter]
      cases left : (x.top :: x.below).drop count.toNat with
      | nil =>
          rw [List.drop_eq_nil_iff, List.length_cons] at left
          rw [if_neg (by omega)]
          exact .inr rfl
      | cons top below =>
          have count := congrArg List.length left
          rw [List.length_drop, List.length_cons, List.length_cons] at count
          rw [if_pos (by omega)]
          show Except.ok _ = Except.ok below.length
          exact congrArg _ (by omega)
  | parameter shape offset =>
      rw [perform]
      cases read : s.parameter shape offset with
      | error fault => exact .inl (.inr (Setting.outOfRange_of_parameter read))
      | ok value => exact rfl
  | writeParameter slot offset =>
      rw [perform]
      cases read : s.parameter .float4x4 offset with
      | error fault => exact .inl (.inr (Setting.outOfRange_of_parameter read))
      | ok value => exact rfl
  | static | write | writeStatic | binding | comment => exact rfl

/-- **A run counts the frames**, unless something outside stops it. -/
theorem Snapshot.balance_of_through (x : Snapshot M) (is : List Instruction) :
    match (x.through s is).1 with
    | .ok () => ∃ final, balance x.below.length is = .ok final
    | .error fault => fault.Outside s.limit ∨ balance x.below.length is = .error fault := by
  induction is generalizing x with
  | nil => exact ⟨_, rfl⟩
  | cons i is ih =>
      have counted := i.depthAfter_of_perform (s := s) x
      cases performed : i.perform s x with
      | ok y =>
          rw [performed] at counted
          rw [through_cons_ok performed, balance_cons_ok counted]
          exact ih y
      | error fault =>
          rw [performed] at counted
          rw [through_cons_error performed]
          exact counted.imp_right fun failed => balance_cons_error failed is

namespace Lineage

/-- An instruction counts the frames of a search, unless the limit stops it. -/
theorem depthAfter_of_act (limit : Nat) (l : Lineage) (i : Instruction) :
    match l.act limit i with
    | .ok l' => i.depthAfter l.frames.depth = .ok l'.frames.depth
    | .error fault =>
      fault = .stackOverflow limit ∨ i.depthAfter l.frames.depth = .error fault := by
  cases i with
  | push =>
      rw [act, Frames.push?]
      split
      · rename_i h
        split at h
        · cases h
          rfl
        · cases h
      · rename_i h
        split at h
        · cases h
        · cases h
          exact .inl rfl
  | pop count =>
      rw [act]
      cases left : l.frames.pop? count with
      | error fault =>
          obtain ⟨missing, rfl⟩ := Frames.pop?_eq_error_iff.1 left
          refine .inr ?_
          rw [Instruction.depthAfter, if_neg (by omega)]
      | ok frames =>
          have count := congrArg List.length (Frames.pop?_eq_ok_iff.1 left)
          rw [List.length_drop, List.length_cons, List.length_cons] at count
          show Instruction.depthAfter _ _ = .ok frames.below.length
          rw [Instruction.depthAfter, Frames.depth, if_pos (by omega)]
          exact congrArg _ (by omega)
  | write slot =>
      show Except.ok _ = Except.ok _
      rw [write]
      split <;> rfl
  | writeStatic slot _ | writeParameter slot _ =>
      show Except.ok _ = Except.ok _
      rw [writeTimes]
      split <;> rfl
  | static | parameter | binding | comment => exact rfl

/-- **A search counts the frames**, unless the limit stops it. -/
theorem balance_of_exec (limit : Nat) (l : Lineage) (is : List Instruction) :
    match (l.exec limit is).2 with
    | .ok () => ∃ final, balance l.frames.depth is = .ok final
    | .error fault => fault = .stackOverflow limit ∨ balance l.frames.depth is = .error fault := by
  induction is generalizing l with
  | nil => exact ⟨_, rfl⟩
  | cons i is ih =>
      have counted := depthAfter_of_act limit l i
      rw [exec]
      cases acted : l.act limit i with
      | ok l' =>
          rw [acted] at counted
          rw [balance_cons_ok counted]
          exact ih l'
      | error fault =>
          rw [acted] at counted
          exact counted.imp_right fun failed => balance_cons_error failed is

end Lineage

/-! ### Faults of words -/

/-- The fault is one of reading words as instructions. -/
inductive Fault.OfWords : Fault → Prop
  | unknownOpcode (word : UInt32) (offset : Nat) : OfWords (.unknownOpcode word offset)
  | truncated (offset needed length : Nat) : OfWords (.truncated offset needed length)
  | invalidBindingDefault (word : UInt32) (offset : Nat) :
      OfWords (.invalidBindingDefault word offset)

namespace Stream

variable {length offset : Nat} {fault : Fault}

theorem ofWords_of_read {w : UInt32} (failed : Opcode.read w offset = .error fault) :
    fault.OfWords := by
  rw [Opcode.read] at failed
  split at failed
  · cases failed
  · cases failed
    exact .unknownOpcode ..

theorem ofWords_of_skip {op : Opcode} {rest : List UInt32}
    (failed : skip length offset op rest = .error fault) : fault.OfWords := by
  rw [skip] at failed
  split at failed
  · cases failed
    exact .truncated ..
  · cases failed

theorem ofWords_of_skipDefaults {start n : Nat} {words : List UInt32}
    (failed : skipDefaults length start n offset words = .error fault) : fault.OfWords := by
  induction n generalizing offset words with
  | zero => cases failed
  | succ n ih =>
      cases words with
      | nil =>
          cases failed
          exact .truncated ..
      | cons w rest =>
          simp only [skipDefaults, bind, Except.bind] at failed
          split at failed
          · rename_i read
            cases failed
            exact ofWords_of_read read
          · split at failed
            · split at failed
              · rename_i skipped
                cases failed
                exact ofWords_of_skip skipped
              · exact ih failed
            · cases failed
              exact .invalidBindingDefault ..

theorem ofWords_of_measure {words : List UInt32}
    (failed : measure length offset words = .error fault) : fault.OfWords := by
  cases words with
  | nil =>
      cases failed
      exact .truncated ..
  | cons w rest =>
      simp only [measure, bind, Except.bind] at failed
      split at failed
      · rename_i read
        cases failed
        exact ofWords_of_read read
      · split at failed
        · rename_i skipped
          cases failed
          exact ofWords_of_skip skipped
        · exact ofWords_of_skipDefaults failed

/-- What ends the readable part of a stream is a fault of its words. -/
theorem ofWords_of_readablePart {words : List UInt32}
    (ends : (Program.readablePart length offset words).2 = some fault) : fault.OfWords := by
  fun_induction Program.readablePart length offset words with
  | case1 => cases ends
  | case2 offset w rest fault' failed =>
      cases ends
      exact ofWords_of_measure (measure_of_decodeFrom_error failed)
  | case3 offset w rest i next decoded is fault? part ih =>
      rw [part] at ih
      exact ih ends

end Stream

/-! ### Streams -/

namespace Stream

/-- The check of a stream finds nothing, or only frames that are left open. -/
def Closable (words : List UInt32) : Prop :=
  validate words = .ok () ∨ ∃ depth, validate words = .error (.unbalanced depth)

/-- Something ends as the check of the stream does, except that it may stop with a fault of some other
kind, and that it does not care for frames that are left open. -/
def Agrees (words : List UInt32) (Other : Fault → Prop) : Except Fault Unit → Prop
  | .ok () => Closable words
  | .error fault => Other fault ∨ validate words = .error fault ∧ ¬ Closable words

/-- **What counts the frames of a stream ends as the check does**, if it goes through the readable
part first and then finds what is wrong with the words behind it. -/
theorem agrees_of_counting {words : List UInt32} {Other : Fault → Prop}
    {through : Except Fault Unit}
    (counted : match through with
      | .ok () => ∃ final, balance 0 (Program.readablePart words.length 0 words).1 = .ok final
      | .error fault => Other fault ∨
          balance 0 (Program.readablePart words.length 0 words).1 = .error fault) :
    Agrees words Other (through.bind fun _ => (Instruction.decodeAll words).map fun _ => ()) := by
  have checked := validate_eq_balance words
  rw [Instruction.decodeAll, Program.decodeRest_eq_readablePart]
  cases through with
  | error fault =>
      -- the count went wrong in front of whatever the rest of the words holds
      refine counted.imp_right fun failed => ?_
      obtain ⟨count, depth, rfl⟩ := underflow_of_balance_error failed
      rw [failed] at checked
      refine ⟨checked, ?_⟩
      rintro (sound | ⟨_, left⟩)
      · cases checked.symm.trans sound
      · cases checked.symm.trans left
  | ok _ =>
      obtain ⟨final, counted⟩ := counted
      rw [counted] at checked
      cases last : (Program.readablePart words.length 0 words).2 with
      | some fault =>
          rw [last] at checked
          refine .inr ⟨checked, ?_⟩
          rintro (sound | ⟨depth, left⟩)
          · cases checked.symm.trans sound
          · cases checked.symm.trans left
            cases ofWords_of_readablePart last
      | none =>
          rw [last] at checked
          by_cases empty : final = 0
          · exact .inl (checked.trans (if_pos empty))
          · exact .inr ⟨final, checked.trans (if_neg empty)⟩

/-- A run ends as the check does, unless something outside stops it. -/
theorem agrees_run (s : Setting M) (count : Nat) (words : List UInt32) :
    Agrees words (Fault.Outside s.limit) (run s count words).status := by
  rw [(run_eq_through s count words).1]
  exact agrees_of_counting (Snapshot.balance_of_through ..)

/-- A search for parents ends as the check does, unless the limit stops it. -/
theorem agrees_parents (count : Nat) (words : List UInt32) :
    Agrees words (· = .stackOverflow maxStackDepth)
      ((parents words count).value.map fun _ => ()) := by
  have ends : Agrees words _ _ :=
    agrees_of_counting (Lineage.balance_of_exec maxStackDepth (.start count) _)
  rw [Instruction.decodeAll, Program.decodeRest_eq_readablePart] at ends
  rw [parents, Lineage.walk_eq_exec]
  generalize (Lineage.start count).exec maxStackDepth _ = found at ends ⊢
  rcases found with ⟨l, fault | ⟨⟩⟩
  · exact ends
  · cases last : (Program.readablePart words.length 0 words).2 with
    | none | some => rw [last] at ends; exact ends

/-- A stream is valid exactly if it is decoded, no prefix of it closes more frames than it opens, and
all in all it closes as many as it opens. -/
theorem validate_eq_ok_iff_balanced {words : List UInt32} :
    validate words = .ok () ↔
      ∃ is, Instruction.decodeAll words = .ok is ∧
        (∀ js, js <+: is → closed js ≤ opened js) ∧ opened is = closed is := by
  rw [validate_eq_balance, Instruction.decodeAll, Program.decodeRest_eq_readablePart]
  rcases Program.readablePart words.length 0 words with ⟨is, _ | fault⟩
  · have counted := @balance_eq_ok_iff 0 0 is
    simp only [Nat.zero_add] at counted
    simp only [Except.ok.injEq, exists_eq_left']
    rw [eq_comm (a := opened is), ← counted]
    cases balance 0 is with
    | error fault => simp [Except.bind]
    | ok final => simp [Except.bind]
  · cases balance 0 is <;> simp [Except.bind]

end Stream

/-- **What the check of a stream guarantees.**  If it finds nothing, or only frames that are left
open, then evaluation with any limit, block of parameters and number of slots fails only for want of
room or of parameters, and the search for parents only for want of room.  If it finds another fault,
then every evaluation ends with that fault, unless it wanted room or parameters before.  It finds
nothing exactly in streams that are decoded, where no prefix closes more frames than it opens, and
where as many frames are closed as opened. -/
theorem validity_guarantees (words : List UInt32) :
    (Stream.Closable words →
      (∀ limit block count fault,
        (Stream.runMatrices limit block count words).status = .error fault →
          fault.Outside limit) ∧
      ∀ count fault, (Stream.parents words count).value = .error fault →
        fault = .stackOverflow maxStackDepth) ∧
    (∀ fault, Stream.validate words = .error fault → (∀ depth, fault ≠ .unbalanced depth) →
      ∀ limit block count, ∃ fault',
        (Stream.runMatrices limit block count words).status = .error fault' ∧
          (fault' = fault ∨ fault'.Outside limit)) ∧
    (Stream.validate words = .ok () ↔
      ∃ is, Instruction.decodeAll words = .ok is ∧
        (∀ js, js <+: is → closed js ≤ opened js) ∧ opened is = closed is) := by
  refine ⟨fun closable => ⟨?_, ?_⟩, ?_, Stream.validate_eq_ok_iff_balanced⟩
  · intro limit block count fault failed
    have ends := Stream.agrees_run ⟨.matrices, block, limit⟩ count words
    rw [show (Stream.run _ count words).status = .error fault from failed] at ends
    exact ends.resolve_right fun other => other.2 closable
  · intro count fault failed
    have ends := Stream.agrees_parents count words
    rw [failed] at ends
    exact ends.resolve_right fun other => other.2 closable
  · intro fault found other limit block count
    have ends := Stream.agrees_run ⟨.matrices, block, limit⟩ count words
    cases status : (Stream.runMatrices limit block count words).status with
    | ok =>
        rw [show (Stream.run _ count words).status = .ok () from status] at ends
        rcases ends with sound | ⟨depth, open_⟩
        · rw [found] at sound
          cases sound
        · rw [found] at open_
          cases open_
          exact absurd rfl (other depth)
    | error fault' =>
        rw [show (Stream.run _ count words).status = .error fault' from status] at ends
        refine ⟨fault', rfl, ends.symm.imp_left fun same => ?_⟩
        rw [found] at same
        exact (Except.error.inj same.1).symm

/-- A stream that leaves a frame open may want room, but is never broken; one that closes a frame too
many is broken in every evaluation that has room for it. -/
theorem validity_of_open_and_broken :
    (∀ limit block count fault,
      (Stream.runMatrices limit block count (Instruction.encodeAll [.push, .write 0])).status =
        .error fault → fault.Outside limit) ∧
    ∀ limit block count, ∃ fault,
      (Stream.runMatrices limit block count (Instruction.encodeAll [.push, .pop 2])).status =
        .error fault ∧ (fault = .stackUnderflow 2 1 ∨ fault.Outside limit) := by
  have left : Stream.Closable (Instruction.encodeAll [.push, .write 0]) :=
    .inr ⟨1, by decide +kernel⟩
  have broken : Stream.validate (Instruction.encodeAll [.push, .pop 2]) =
      .error (.stackUnderflow 2 1) := by decide +kernel
  exact ⟨((validity_guarantees _).1 left).1,
    (validity_guarantees _).2.1 _ broken fun _ same => by cases same⟩

end Armature
