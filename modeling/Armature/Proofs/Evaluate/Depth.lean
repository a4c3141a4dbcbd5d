/-
**When a run goes to its end.**

Frames and slots do not matter for whether a run stops.  It goes to its end if the parameters that
are read are there, and if pushes and pops keep the number of open frames within its bounds.  Both
can be told from the list of instructions alone, the frames by counting them.

The first frame, which is never closed, is not counted; a limit of `n` frames leaves room for
`n - 1` others.

Main definitions:

* `Instruction.read?`, `reads` — the parameters that are read;
* `Instruction.climb?`, `finalDepth?` — the number of open frames after an instruction and after a
  list, if it stays within a limit;
* `Run.peak`, `Stream.peak` — the greatest number of open frames in the course of a run.

Main results:

* `finalDepth?_of_limit` — a limit that is not reached does not matter;
* `Run.exec_ok_iff` — **a run goes to its end exactly if the frames stay within the limit and the
  parameters are there**; `Stream.status_eq_ok_iff` is the same for a stream;
* `Run.peak_le_iff` — the greatest number of open frames is the least limit that is enough;
* `Stream.validate_eq_ok_iff` — **a stream is valid exactly if it can be decoded and counting from
  zero open frames comes back to zero**.
-/

import Armature.Proofs.Codec.Bijection
import Armature.Proofs.Evaluate.Journal

set_option autoImplicit false

namespace Armature

variable {M : Type} {s : Setting M}

/-! ### Parameters -/

/-- The parameter that an instruction reads. -/
def Instruction.read? : Instruction → Option (Shape × UInt32)
  | parameter shape offset => some (shape, offset)
  | writeParameter _ offset => some (.float4x4, offset)
  | push | pop _ | static _ | write _ | writeStatic _ _ | binding _ _ | comment _ => none

/-- The parameters that a list reads, in order. -/
def reads (is : List Instruction) : List (Shape × UInt32) := is.filterMap Instruction.read?

/-- The parameter is there. -/
def Setting.Supplies (s : Setting M) (p : Shape × UInt32) : Prop :=
  ∃ value, s.parameter p.1 p.2 = .ok value

/-- An instruction has an effect exactly if the parameter that it reads is there. -/
theorem Instruction.effect?_isSome_iff (top : M) {i : Instruction} :
    (i.effect? s top).isSome ↔ ∀ p ∈ i.read?, s.Supplies p := by
  cases i with
  | parameter shape offset =>
      simp only [effect?, read?, Option.isSome_map, Option.mem_def, Option.some.injEq,
        forall_eq', Setting.Supplies]
      cases s.parameter shape offset <;> simp [Except.toOption]
  | writeParameter slot offset =>
      simp only [effect?, read?, Option.isSome_map, Option.mem_def, Option.some.injEq,
        forall_eq', Setting.Supplies]
      cases s.parameter .float4x4 offset <;> simp [Except.toOption]
  | _ => simp [effect?, read?]

theorem forall_mem_reads_cons {i : Instruction} {is : List Instruction}
    {P : Shape × UInt32 → Prop} :
    (∀ p ∈ reads (i :: is), P p) ↔ (∀ p ∈ i.read?, P p) ∧ ∀ p ∈ reads is, P p := by
  rw [reads, reads, List.filterMap_cons]
  cases i.read? <;> simp

/-! ### Counting frames -/

/-- The number of open frames after an instruction, if at most `limit` are open then and no more
are closed than were. -/
def Instruction.climb? (limit depth : Nat) : Instruction → Option Nat
  | push => if depth < limit then some (depth + 1) else none
  | pop count => if count.toNat ≤ depth then some (depth - count.toNat) else none
  | static _ | parameter _ _ | write _ | writeStatic _ _ | writeParameter _ _ | binding _ _
  | comment _ => some depth

/-- The number of open frames after a list, if at most `limit` are ever open and no more are ever
closed than are. -/
def finalDepth? (limit depth : Nat) : List Instruction → Option Nat
  | [] => some depth
  | i :: is => (i.climb? limit depth).bind fun depth => finalDepth? limit depth is

theorem Instruction.climb?_of_not_bracket {i : Instruction} (h : i.isBracket = false)
    (limit depth : Nat) : i.climb? limit depth = some depth := by
  cases i with
  | push | pop => cases h
  | _ => rfl

theorem Instruction.climb?_push_eq_some_iff {limit depth after : Nat} :
    push.climb? limit depth = some after ↔ depth < limit ∧ after = depth + 1 := by
  rw [climb?]
  split
  · rename_i room
    simp only [Option.some.injEq, room, true_and, eq_comm]
  · rename_i full
    simp only [reduceCtorEq, full, false_and]

theorem Instruction.climb?_pop_eq_some_iff {count : UInt32} {limit depth after : Nat} :
    (pop count).climb? limit depth = some after ↔
      count.toNat ≤ depth ∧ after = depth - count.toNat := by
  rw [climb?]
  split
  · rename_i enough
    simp only [Option.some.injEq, enough, true_and, eq_comm]
  · rename_i missing
    simp only [reduceCtorEq, missing, false_and]

theorem finalDepth?_cons_eq_some_iff {limit depth final : Nat} {i : Instruction}
    {is : List Instruction} :
    finalDepth? limit depth (i :: is) = some final ↔
      ∃ after, i.climb? limit depth = some after ∧ finalDepth? limit after is = some final :=
  Option.bind_eq_some_iff

/-- An instruction keeps the number of open frames within the limit, and adds one at most. -/
theorem Instruction.climb?_le {i : Instruction} {limit depth after : Nat}
    (h : i.climb? limit depth = some after) :
    (depth ≤ limit → after ≤ limit) ∧ after ≤ depth + 1 := by
  cases i using Instruction.bracketCases with
  | push =>
      obtain ⟨room, rfl⟩ := climb?_push_eq_some_iff.1 h
      omega
  | pop count =>
      obtain ⟨_, rfl⟩ := climb?_pop_eq_some_iff.1 h
      omega
  | inside i hb =>
      rw [climb?_of_not_bracket hb, Option.some.injEq] at h
      omega

/-- Under another limit an instruction leaves as many frames open, if so many may be. -/
theorem Instruction.climb?_of_limit {i : Instruction} {limit limit' depth after : Nat}
    (h : i.climb? limit depth = some after) (within : depth ≤ limit') :
    i.climb? limit' depth = if after ≤ limit' then some after else none := by
  cases i using Instruction.bracketCases with
  | push =>
      obtain ⟨_, rfl⟩ := climb?_push_eq_some_iff.1 h
      rfl
  | pop count =>
      obtain ⟨enough, rfl⟩ := climb?_pop_eq_some_iff.1 h
      rw [if_pos (by omega), climb?, if_pos enough]
  | inside i hb =>
      rw [climb?_of_not_bracket hb, Option.some.injEq] at h
      rw [climb?_of_not_bracket hb, h, if_pos (h ▸ within)]

/-- A limit that is not reached does not matter. -/
theorem finalDepth?_of_limit {limit limit' depth final : Nat} {is : List Instruction}
    (h : finalDepth? limit depth is = some final) (within : depth ≤ limit')
    (enough : limit ≤ limit' ∧ depth ≤ limit ∨ depth + is.length ≤ limit') :
    finalDepth? limit' depth is = some final := by
  -- an instruction opens at most one frame, so that frames and instructions together become no more
  induction is generalizing depth with
  | nil => exact h
  | cons i is ih =>
      obtain ⟨after, step, rest⟩ := finalDepth?_cons_eq_some_iff.1 h
      obtain ⟨small, next⟩ := Instruction.climb?_le step
      rw [List.length_cons] at enough
      have fits : after ≤ limit' := by
        rcases enough with ⟨more, room⟩ | long
        · exact Nat.le_trans (small room) more
        · omega
      refine finalDepth?_cons_eq_some_iff.2 ⟨after, ?_, ih rest fits ?_⟩
      · rw [Instruction.climb?_of_limit step within, if_pos fits]
      · rcases enough with ⟨more, room⟩ | long
        · exact .inl ⟨more, small room⟩
        · exact .inr (by omega)

/-! ### Runs -/

namespace Run

theorem status_eq_ok_iff {r : Run M} : r.status = .ok () ↔ r.fault? = none := by
  rw [status]
  cases r.fault? <;> simp

/-- **An instruction is run exactly if the frames stay within the limit and its parameter is
there.** -/
theorem step_ok_iff {r : Run M} (running : r.fault? = none) {i : Instruction} {after : Nat} :
    (r.step s i).fault? = none ∧ (r.step s i).frames.depth = after ↔
      i.climb? (s.limit - 1) r.frames.depth = some after ∧ ∀ p ∈ i.read?, s.Supplies p := by
  rw [step_of_running s running]
  cases i using Instruction.bracketCases with
  | push =>
      rw [Instruction.climb?_push_eq_some_iff, act, push]
      cases opened : r.frames.push? s.limit with
      | ok frames =>
          obtain ⟨room, rfl⟩ := Frames.push?_eq_ok_iff.1 opened
          have room : r.frames.depth < s.limit - 1 := by omega
          simp only [continue?, visitTop, visit, running, Frames.depth, List.length_cons,
            Instruction.read?]
          simp only [Frames.depth] at room
          simp [room, eq_comm]
      | error fault =>
          have full : ¬ r.frames.depth < s.limit - 1 := by
            intro room
            have opens := Frames.push?_eq_ok_iff.2 ⟨show r.frames.depth + 1 < s.limit by omega, rfl⟩
            rw [opened] at opens
            cases opens
          simp [continue?, fail, full]
  | pop count =>
      rw [Instruction.climb?_pop_eq_some_iff, act, pop]
      cases closed : r.frames.pop? count with
      | ok frames =>
          have left := congrArg List.length (Frames.pop?_eq_ok_iff.1 closed)
          simp only [List.length_drop, List.length_cons] at left
          have enough : count.toNat ≤ r.frames.depth := by
            simp only [Frames.depth]
            omega
          have depth : frames.depth = r.frames.depth - count.toNat := by
            simp only [Frames.depth]
            omega
          simp [continue?, running, depth, enough, Instruction.read?, eq_comm]
      | error fault =>
          have missing := (Frames.pop?_eq_error_iff.1 closed).1
          have missing : ¬ count.toNat ≤ r.frames.depth := by omega
          simp [continue?, fail, missing]
  | inside i hb =>
      have acted := act_of_effect? (s := s) running hb
      rw [Instruction.climb?_of_not_bracket hb, ← Instruction.effect?_isSome_iff r.frames.top]
      cases effect : i.effect? s r.frames.top with
      | none =>
          rw [effect] at acted
          obtain ⟨fault, stopped⟩ := Option.isSome_iff_exists.1 acted
          simp [stopped]
      | some p =>
          rw [effect] at acted
          obtain ⟨fault, frames, _⟩ := acted
          simp [fault, frames, Frames.depth]

/-- A run that goes to the end of a list has not stopped before. -/
theorem running_of_exec {r : Run M} {is : List Instruction}
    (ends : (r.exec s is).fault? = none) : r.fault? = none := by
  by_contra stopped
  rw [exec_of_stopped s (Option.isSome_iff_ne_none.2 stopped)] at ends
  exact stopped ends

/-- **A run goes to its end exactly if the frames stay within the limit and the parameters are
there.** -/
theorem exec_ok_iff {r : Run M} (running : r.fault? = none) (is : List Instruction) (final : Nat) :
    (r.exec s is).fault? = none ∧ (r.exec s is).frames.depth = final ↔
      finalDepth? (s.limit - 1) r.frames.depth is = some final ∧ ∀ p ∈ reads is, s.Supplies p := by
  induction is generalizing r with
  | nil =>
      rw [exec_nil, finalDepth?, Option.some.injEq]
      exact ⟨fun ends => ⟨ends.2, fun _ none => absurd none List.not_mem_nil⟩,
        fun ends => ⟨running, ends.1⟩⟩
  | cons i is ih =>
      rw [exec_cons, finalDepth?_cons_eq_some_iff, forall_mem_reads_cons]
      constructor
      · rintro ⟨ends, depth⟩
        have goes := running_of_exec ends
        obtain ⟨climbs, supplied⟩ := (step_ok_iff running).1 ⟨goes, rfl⟩
        obtain ⟨rest, others⟩ := (ih goes).1 ⟨ends, depth⟩
        exact ⟨⟨_, climbs, rest⟩, supplied, others⟩
      · rintro ⟨⟨after, climbs, rest⟩, supplied, others⟩
        obtain ⟨goes, rfl⟩ := (step_ok_iff running).2 ⟨climbs, supplied⟩
        exact (ih goes).2 ⟨rest, others⟩

/-- The greatest number of open frames while a list is run. -/
def peak (s : Setting M) (r : Run M) : List Instruction → Nat
  | [] => r.frames.depth
  | i :: is => max r.frames.depth ((r.step s i).peak s is)

/-- **The greatest number of open frames is the least limit that is enough**, for a run that goes to
its end. -/
theorem peak_le_iff {r : Run M} (running : r.fault? = none) {is : List Instruction}
    (ends : (r.exec s is).fault? = none) {limit : Nat} :
    r.peak s is ≤ limit ↔
      r.frames.depth ≤ limit ∧ ∃ final, finalDepth? limit r.frames.depth is = some final := by
  induction is generalizing r with
  | nil => simp [peak, finalDepth?]
  | cons i is ih =>
      rw [exec_cons] at ends
      have goes := running_of_exec ends
      have climbs := ((step_ok_iff running).1 ⟨goes, rfl⟩).1
      rw [peak, Nat.max_le, ih goes ends, finalDepth?]
      refine and_congr_right fun within => ?_
      rw [Instruction.climb?_of_limit climbs within]
      split
      · rename_i fits
        simp only [fits, true_and, Option.bind_some]
      · rename_i high
        simp [high]

end Run

/-! ### Streams -/

namespace Stream

/-- The greatest number of open frames while a stream is run. -/
def peak (s : Setting M) (count : Nat) (words : List UInt32) : Nat :=
  (Run.start s.interpretation count).peak s (Program.readablePart words.length 0 words).1

/-- **A stream is run to its end exactly if it can be decoded, its frames stay within the limit and
its parameters are there.** -/
theorem status_eq_ok_iff {count : Nat} {words : List UInt32} :
    (run s count words).status = .ok () ↔
      ∃ is, Instruction.decodeAll words = .ok is ∧
        (∃ final, finalDepth? (s.limit - 1) 0 is = some final) ∧
        ∀ p ∈ reads is, s.Supplies p := by
  cases decoded : Instruction.decodeAll words with
  | error fault =>
      have stops : (run s count words).fault? ≠ none := by
        intro ends
        obtain ⟨is, decoded'⟩ := exists_decodeAll_of_run ends
        rw [decoded] at decoded'
        cases decoded'
      simp [Run.status_eq_ok_iff, stops]
  | ok is =>
      have ends := Run.exec_ok_iff (s := s) (r := Run.start s.interpretation count) rfl is
      rw [Run.status_eq_ok_iff, run_eq_exec s count decoded]
      simp only [Except.ok.injEq, exists_eq_left']
      constructor
      · intro fault
        obtain ⟨climbs, supplied⟩ := (ends _).1 ⟨fault, rfl⟩
        exact ⟨⟨_, climbs⟩, supplied⟩
      · rintro ⟨⟨final, climbs⟩, supplied⟩
        exact ((ends final).2 ⟨climbs, supplied⟩).1

/-- The greatest number of open frames is the least limit that is enough, for a stream that is run
to its end. -/
theorem peak_le_iff {count : Nat} {words : List UInt32} {is : List Instruction}
    (decoded : Instruction.decodeAll words = .ok is)
    (ends : (run s count words).status = .ok ()) {limit : Nat} :
    peak s count words ≤ limit ↔ ∃ final, finalDepth? limit 0 is = some final := by
  rw [Run.status_eq_ok_iff, run_eq_exec s count decoded] at ends
  rw [peak, Program.readablePart_eq_of_decodeRest decoded, Run.peak_le_iff rfl ends]
  exact and_iff_right (Nat.zero_le limit)

/-! ### Balance -/

/-- The opcode of an instruction that opens and closes no frame is none that does. -/
theorem depthAfter_opcode {i : Instruction} (h : i.isBracket = false) (depth : Nat)
    (operands : List UInt32) : depthAfter depth i.opcode operands = .ok depth := by
  cases i with
  | push | pop => cases h
  | binding name defaults =>
      simp only [Instruction.opcode, Opcode.ofDefaults?]
      split <;> rfl
  | _ => rfl

/-- Checking a stream counts the frames of its first instruction, and goes on behind it. -/
theorem validateFrom_cons_eq_ok_iff {length offset next : Nat} {w : UInt32} {rest : List UInt32}
    {i : Instruction} (decoded : Instruction.decodeFrom length offset (w :: rest) = .ok (i, next))
    {limit depth : Nat} (room : depth < limit) :
    validateFrom length offset depth (w :: rest) = .ok () ↔
      ∃ after, i.climb? limit depth = some after ∧
        validateFrom length next after (rest.drop (next - offset - 1)) = .ok () := by
  rw [validateFrom, measure_of_decodeFrom decoded]
  simp only [Instruction.read_of_decodeFrom decoded]
  cases i using Instruction.bracketCases with
  | push =>
      rw [Instruction.climb?, if_pos room]
      simp [Instruction.opcode, depthAfter]
  | pop count =>
      have operand : count :: rest.drop (next - offset - 1) = rest :=
        (List.cons.inj (Instruction.encode_append_drop_of_decodeFrom decoded)).2
      rw [Instruction.opcode, depthAfter, Instruction.climb?,
        show rest.headD 0 = count by rw [← operand, List.headD_cons]]
      by_cases enough : count.toNat ≤ depth <;> simp [enough]
  | inside i hb =>
      rw [depthAfter_opcode hb, Instruction.climb?_of_not_bracket hb]
      simp

theorem validateFrom_eq_ok_iff {length offset depth limit : Nat} {words : List UInt32}
    (room : depth + words.length ≤ limit) :
    validateFrom length offset depth words = .ok () ↔
      ∃ is, Instruction.decodeRest length offset words = .ok is ∧
        finalDepth? limit depth is = some 0 := by
  fun_induction Program.readablePart length offset words generalizing depth with
  | case1 =>
      rw [validateFrom]
      split
      · rename_i closed
        simp [Instruction.decodeRest, finalDepth?, closed]
      · rename_i left
        simp [Instruction.decodeRest, finalDepth?, left]
  | case2 offset w rest fault failed =>
      rw [validateFrom, measure_of_decodeFrom_error failed, Instruction.decodeRest, failed]
      simp
  | case3 offset w rest i next decoded _ _ _ ih =>
      rw [List.length_cons] at room
      -- open frames and words together become no more, so that the limit is not reached
      have fits {after : Nat} (climbs : i.climb? limit depth = some after) :
          after + (rest.drop (next - offset - 1)).length ≤ limit := by
        have step := (Instruction.climb?_le climbs).2
        rw [List.length_drop]
        omega
      have below : depth < limit := by omega
      rw [validateFrom_cons_eq_ok_iff decoded below, Instruction.decodeRest, decoded]
      simp only
      constructor
      · rintro ⟨after, climbs, valid⟩
        obtain ⟨is, found, counts⟩ := (ih (fits climbs)).1 valid
        refine ⟨i :: is, ?_, finalDepth?_cons_eq_some_iff.2 ⟨after, climbs, counts⟩⟩
        simp only [found]
      · rintro ⟨all, found, counts⟩
        cases others : Instruction.decodeRest length next (rest.drop (next - offset - 1)) with
        | error fault =>
            rw [others] at found
            cases found
        | ok is =>
            rw [others] at found
            cases found
            obtain ⟨after, climbs, counts⟩ := finalDepth?_cons_eq_some_iff.1 counts
            exact ⟨after, climbs, (ih (fits climbs)).2 ⟨is, others, counts⟩⟩

/-- **A stream is valid exactly if it can be decoded and counting from zero open frames comes back
to zero**, without a limit that is ever reached. -/
theorem validate_eq_ok_iff {words : List UInt32} {limit : Nat} (room : words.length ≤ limit) :
    validate words = .ok () ↔
      ∃ is, Instruction.decodeAll words = .ok is ∧ finalDepth? limit 0 is = some 0 :=
  validateFrom_eq_ok_iff (by rw [Nat.zero_add]; exact room)

end Stream

end Armature
