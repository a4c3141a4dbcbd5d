/-
**What a list of instructions writes.**

A run that goes to its end is described by the writes it makes, in their order, with the value of
each; the slots follow from them, since the last write to a slot counts.  The journal of a list is
this sequence, computed from a stack of frames.  Transformations of programs are compared by their
journals: nothing else of a run can be told apart by its slots.

Main definitions:

* `Instruction.effect?` — what an instruction does inside the current frame;
* `journal` — the writes of a list of instructions, if it runs through;
* `enter`, `lastWrite?`, `lastWriteTo?` — the slots after the writes of a journal, and the last
  value for a slot, or for any of several;
* `Keeps` — one list may stand for another: it runs through wherever the other does, and writes the
  same.

Main results:

* `Program.result_eq_ok_iff`, `Stream.result_eq_ok_iff` — **a run goes to its end exactly if there
  is a journal**, and its slots are those of the journal;
* `journal_withLimit` — a limit that is not reached does not matter;
* `Keeps.cons`, `Keeps.trans` — standing for one another is a congruence.
-/

import Armature.Proofs.Evaluate.Reference

set_option autoImplicit false

namespace Armature

variable {M : Type}

/-! ### One instruction -/

namespace Instruction

/-- The instruction opens or closes frames. -/
def isBracket : Instruction → Bool
  | push | pop _ => true
  | _ => false

/-- An instruction opens a frame, closes frames or acts inside the current one. -/
@[elab_as_elim]
theorem bracketCases {motive : Instruction → Prop} (push : motive push)
    (pop : ∀ count, motive (pop count)) (inside : ∀ i, i.isBracket = false → motive i)
    (i : Instruction) : motive i := by
  cases i with
  | push => exact push
  | pop count => exact pop count
  | _ => exact inside _ rfl

/-- An instruction that is neither a push nor a pop acts inside the current frame. -/
theorem isBracket_eq_false {i : Instruction} (notPush : i = push → False)
    (notPop : ∀ count, i = pop count → False) : i.isBracket = false := by
  cases i using bracketCases with
  | push => exact (notPush rfl).elim
  | pop count => exact (notPop count rfl).elim
  | inside i hi => exact hi

/-- What an instruction does inside the current frame, whose value is `top`: the value after it, and
what it writes.  There is none if a parameter is missing. -/
def effect? (s : Setting M) (top : M) : Instruction → Option (M × List (UInt32 × M))
  | push | pop _ | comment _ => some (top, [])
  | static t => some (s.interpretation.compose top (s.interpretation.ofTransform t), [])
  | parameter shape offset =>
    (s.parameter shape offset).toOption.map fun value =>
      (s.interpretation.compose top value, [])
  | write slot => some (top, [(slot, top)])
  | writeStatic slot matrix =>
    some (top, [(slot, s.interpretation.compose top
      (s.interpretation.ofTransform (.float4x4 matrix)))])
  | writeParameter slot offset =>
    (s.parameter .float4x4 offset).toOption.map fun value =>
      (top, [(slot, s.interpretation.compose top value)])
  | binding _ defaults =>
    some ((defaults.map s.interpretation.ofTransform).foldl s.interpretation.compose top, [])

/-- Whether there is an effect does not depend on the frame. -/
theorem effect?_isSome (s : Setting M) (a b : M) (i : Instruction) :
    (i.effect? s a).isSome = (i.effect? s b).isSome := by
  cases i <;> simp [effect?]

/-- An instruction without a slot writes nothing. -/
theorem written_eq_nil {s : Setting M} {top frame : M} {written : List (UInt32 × M)}
    {i : Instruction} (h : i.effect? s top = some (frame, written)) (ho : i.output? = none) :
    written = [] := by
  cases i with
  | parameter shape offset =>
      obtain ⟨_, _, e⟩ := Option.map_eq_some_iff.1 h
      cases e
      rfl
  | write | writeStatic | writeParameter => cases ho
  | push | pop | static | binding | comment => cases h; rfl

/-- An instruction that cannot change the frame leaves its value alone. -/
theorem frame_eq_top {s : Setting M} {top frame : M} {written : List (UInt32 × M)}
    {i : Instruction} (h : i.effect? s top = some (frame, written))
    (hm : i.modifiesFrame = false) : frame = top := by
  cases i with
  | static | parameter => cases hm
  | writeParameter slot offset =>
      obtain ⟨_, _, e⟩ := Option.map_eq_some_iff.1 h
      cases e
      rfl
  | binding name defaults =>
      cases defaults with
      | nil => cases h; rfl
      | cons => cases hm
  | push | pop | write | writeStatic | comment => cases h; rfl

end Instruction

/-! ### Journals -/

/-- The writes of a list of instructions that starts with the given frames, the current one first.
There are none if the list does not run through: a frame too many is opened or closed, or a
parameter is missing. -/
def journal (s : Setting M) : List M → List Instruction → Option (List (UInt32 × M))
  | [], _ => none
  | _ :: _, [] => some []
  | top :: below, i :: is =>
    match i with
    | .push => if below.length + 1 < s.limit then journal s (top :: top :: below) is else none
    | .pop count =>
      if count.toNat ≤ below.length then journal s ((top :: below).drop count.toNat) is else none
    | i => (i.effect? s top).bind fun (frame, written) =>
        (journal s (frame :: below) is).map (written ++ ·)

variable {s : Setting M}

@[simp] theorem journal_no_frames (is : List Instruction) : journal s [] is = none := by
  cases is <;> rfl

@[simp] theorem journal_nil (top : M) (below : List M) :
    journal s (top :: below) [] = some [] := rfl

theorem journal_push (top : M) (below : List M) (is : List Instruction) :
    journal s (top :: below) (.push :: is) =
      if below.length + 1 < s.limit then journal s (top :: top :: below) is else none := rfl

theorem journal_pop (top : M) (below : List M) (count : UInt32) (is : List Instruction) :
    journal s (top :: below) (.pop count :: is) =
      if count.toNat ≤ below.length then journal s ((top :: below).drop count.toNat) is
      else none := rfl

theorem journal_of_not_bracket {i : Instruction} (h : i.isBracket = false) (top : M)
    (below : List M) (is : List Instruction) :
    journal s (top :: below) (i :: is) =
      (i.effect? s top).bind fun (frame, written) =>
        (journal s (frame :: below) is).map (written ++ ·) := by
  cases i with
  | push | pop => cases h
  | _ => rfl

@[simp] theorem journal_static (top : M) (below : List M) (t : Transform)
    (is : List Instruction) :
    journal s (top :: below) (.static t :: is) =
      journal s (s.interpretation.compose top (s.interpretation.ofTransform t) :: below) is := by
  simp [journal, Instruction.effect?]

theorem journal_write (top : M) (below : List M) (slot : UInt32) (is : List Instruction) :
    journal s (top :: below) (.write slot :: is) =
      (journal s (top :: below) is).map ((slot, top) :: ·) := by
  simp [journal, Instruction.effect?]

/-! ### Taking a journal apart -/

theorem journal_push_eq_some_iff {frames : List M} {is : List Instruction}
    {ws : List (UInt32 × M)} :
    journal s frames (.push :: is) = some ws ↔
      frames.length < s.limit ∧
        ∃ top, frames.head? = some top ∧ journal s (top :: frames) is = some ws := by
  cases frames with
  | nil => simp
  | cons top below =>
      rw [journal_push, List.length_cons]
      by_cases room : below.length + 1 < s.limit
      · simp only [room, if_true, true_and, List.head?_cons, Option.some.injEq, exists_eq_left']
      · simp only [room, if_false, false_and, reduceCtorEq]

theorem journal_nil_eq_some_iff {frames : List M} {ws : List (UInt32 × M)} :
    journal s frames [] = some ws ↔ 0 < frames.length ∧ ws = [] := by
  cases frames with
  | nil => simp
  | cons top below => simp [eq_comm]

theorem journal_pop_eq_some_iff {frames : List M} {count : UInt32} {is : List Instruction}
    {ws : List (UInt32 × M)} :
    journal s frames (.pop count :: is) = some ws ↔
      count.toNat < frames.length ∧ journal s (frames.drop count.toNat) is = some ws := by
  cases frames with
  | nil => simp
  | cons top below =>
      rw [journal_pop, List.length_cons, Nat.lt_add_one_iff]
      by_cases enough : count.toNat ≤ below.length
      · simp only [enough, if_true, true_and]
      · simp only [enough, if_false, false_and, reduceCtorEq]

theorem journal_other_eq_some_iff {i : Instruction} (h : i.isBracket = false) {top : M}
    {below : List M} {is : List Instruction} {ws : List (UInt32 × M)} :
    journal s (top :: below) (i :: is) = some ws ↔
      ∃ frame written rest, i.effect? s top = some (frame, written) ∧
        journal s (frame :: below) is = some rest ∧ ws = written ++ rest := by
  rw [journal_of_not_bracket h]
  constructor
  · intro e
    obtain ⟨⟨frame, written⟩, he, hj⟩ := Option.bind_eq_some_iff.1 e
    obtain ⟨rest, hr, rfl⟩ := Option.map_eq_some_iff.1 hj
    exact ⟨frame, written, rest, he, hr, rfl⟩
  · rintro ⟨frame, written, rest, he, hr, rfl⟩
    simp [he, hr]

theorem ne_nil_of_journal {frames : List M} {is : List Instruction} {ws : List (UInt32 × M)}
    (h : journal s frames is = some ws) : ∃ top below, frames = top :: below := by
  cases frames with
  | nil => rw [journal_no_frames] at h; cases h
  | cons top below => exact ⟨top, below, rfl⟩

/-! ### The slots -/

/-- The slots after the writes of a journal; those that do not exist are passed over. -/
def enter (outputs : Array M) (ws : List (UInt32 × M)) : Array M :=
  ws.foldl (fun outputs w => outputs.setIfInBounds w.1.toNat w.2) outputs

@[simp] theorem enter_nil (outputs : Array M) : enter outputs [] = outputs := rfl

theorem enter_append (outputs : Array M) (ws vs : List (UInt32 × M)) :
    enter outputs (ws ++ vs) = enter (enter outputs ws) vs := List.foldl_append

@[simp] theorem size_enter (outputs : Array M) (ws : List (UInt32 × M)) :
    (enter outputs ws).size = outputs.size := by
  induction ws generalizing outputs with
  | nil => rfl
  | cons w ws ih => exact (ih _).trans (Array.size_setIfInBounds ..)

/-- The value last written to a slot. -/
def lastWrite? (slot : UInt32) : List (UInt32 × M) → Option M
  | [] => none
  | w :: ws => (lastWrite? slot ws).or (if w.1 = slot then some w.2 else none)

/-- The value last written to a slot with the property. -/
def lastWriteTo? (p : UInt32 → Prop) [DecidablePred p] (ws : List (UInt32 × M)) : Option M :=
  ((ws.filter fun w => p w.1).getLast?).map Prod.snd

@[simp] theorem lastWriteTo?_nil (p : UInt32 → Prop) [DecidablePred p] :
    lastWriteTo? p ([] : List (UInt32 × M)) = none := rfl

theorem lastWriteTo?_cons (p : UInt32 → Prop) [DecidablePred p] (w : UInt32 × M)
    (ws : List (UInt32 × M)) :
    lastWriteTo? p (w :: ws) = (lastWriteTo? p ws).or (if p w.1 then some w.2 else none) := by
  rw [lastWriteTo?, lastWriteTo?, List.filter_cons]
  by_cases here : p w.1
  · simp only [here, decide_true, if_true, List.getLast?_cons]
    cases (ws.filter fun w => p w.1).getLast? <;> rfl
  · simp only [here, decide_false, Bool.false_eq_true, if_false, Option.or_none]

/-- Later writes come before earlier ones. -/
theorem lastWriteTo?_append (p : UInt32 → Prop) [DecidablePred p] (us vs : List (UInt32 × M)) :
    lastWriteTo? p (us ++ vs) = (lastWriteTo? p vs).or (lastWriteTo? p us) := by
  induction us with
  | nil => simp
  | cons u us ih =>
      rw [List.cons_append, lastWriteTo?_cons, lastWriteTo?_cons, ih, Option.or_assoc]

theorem lastWriteTo?_eq_none_iff (p : UInt32 → Prop) [DecidablePred p] (ws : List (UInt32 × M)) :
    lastWriteTo? p ws = none ↔ ∀ slot ∈ ws.map Prod.fst, ¬ p slot := by
  induction ws with
  | nil => simp
  | cons w ws ih =>
      rw [lastWriteTo?_cons, Option.or_eq_none_iff, ih, List.map_cons, List.forall_mem_cons,
        and_comm]
      simp

/-- Only the slots that are written matter. -/
theorem lastWriteTo?_congr_of_mem {p q : UInt32 → Prop} [DecidablePred p] [DecidablePred q]
    {ws : List (UInt32 × M)} (same : ∀ slot ∈ ws.map Prod.fst, p slot ↔ q slot) :
    lastWriteTo? p ws = lastWriteTo? q ws := by
  rw [lastWriteTo?, lastWriteTo?, List.filter_congr fun w member =>
    decide_eq_decide.2 (same w.1 (List.mem_map_of_mem member))]

/-- Only the slots with the property matter. -/
theorem lastWriteTo?_congr {p q : UInt32 → Prop} [DecidablePred p] [DecidablePred q]
    (same : ∀ slot, p slot ↔ q slot) (ws : List (UInt32 × M)) :
    lastWriteTo? p ws = lastWriteTo? q ws :=
  lastWriteTo?_congr_of_mem fun slot _ => same slot

theorem lastWriteTo?_eq (slot : UInt32) (ws : List (UInt32 × M)) :
    lastWriteTo? (· = slot) ws = lastWrite? slot ws := by
  induction ws with
  | nil => rfl
  | cons w ws ih => rw [lastWriteTo?_cons, lastWrite?, ih]

/-- The slot in a place holds what was written to it last; there may be more places than numbers of
slots. -/
theorem enter_getElem?_place (outputs : Array M) (ws : List (UInt32 × M)) (place : Nat) :
    (enter outputs ws)[place]? =
      outputs[place]?.map fun old => (lastWriteTo? (·.toNat = place) ws).getD old := by
  induction ws generalizing outputs with
  | nil => simp
  | cons w ws ih =>
      have first : enter outputs (w :: ws) = enter (outputs.setIfInBounds w.1.toNat w.2) ws := rfl
      rw [first, ih, lastWriteTo?_cons]
      by_cases here : w.1.toNat = place
      · subst here
        -- where there is no such slot, nothing is found on either side
        rcases Nat.lt_or_ge w.1.toNat outputs.size with hlt | hge
        · simp [hlt]
        · simp [hge]
      · simp [here, Array.getElem?_setIfInBounds_ne here]

/-- A slot holds what was written to it last. -/
theorem enter_getElem? (outputs : Array M) (ws : List (UInt32 × M)) (slot : UInt32) :
    (enter outputs ws)[slot.toNat]? =
      outputs[slot.toNat]?.map fun old => (lastWrite? slot ws).getD old := by
  rw [enter_getElem?_place, ← lastWriteTo?_eq]
  simp only [UInt32.toNat_inj]

/-! ### Runs -/

namespace Run

/-- Several factors at once are their product on the frame. -/
theorem foldl_multiply (I : Interpretation M) (r : Run M) (values : List M) :
    values.foldl (multiply I) r =
      { r with frames := r.frames.setTop (values.foldl I.compose r.frames.top) } := by
  induction values generalizing r with
  | nil => rfl
  | cons value values ih => exact ih (r.multiply I value)

/-- A write enters its value, also if there is no such slot. -/
theorem store_spec (I : Interpretation M) (r : Run M) (slot : UInt32) :
    (r.store I slot).fault? = r.fault? ∧ (r.store I slot).frames = r.frames ∧
      (r.store I slot).outputs = enter r.outputs [(slot, r.frames.top)] := by
  unfold store
  split
  · exact ⟨rfl, rfl, rfl⟩
  · rename_i outside
    refine ⟨rfl, rfl, ?_⟩
    exact (Array.setIfInBounds_eq_of_size_le (Nat.le_of_not_lt outside)).symm

theorem storeTimes_spec (I : Interpretation M) (r : Run M) (op : Opcode) (slot : UInt32)
    (value : M) :
    (r.storeTimes I op slot value).fault? = r.fault? ∧
      (r.storeTimes I op slot value).frames = r.frames ∧
      (r.storeTimes I op slot value).outputs =
        enter r.outputs [(slot, I.compose r.frames.top value)] := by
  unfold storeTimes
  split
  · exact ⟨rfl, rfl, rfl⟩
  · rename_i outside
    refine ⟨rfl, rfl, ?_⟩
    exact (Array.setIfInBounds_eq_of_size_le (Nat.le_of_not_lt outside)).symm

/-- An instruction inside a frame has its effect on a run, or stops it. -/
theorem act_of_effect? {r : Run M} (h : r.fault? = none) {i : Instruction}
    (hb : i.isBracket = false) :
    match i.effect? s r.frames.top with
    | some (frame, written) =>
      (r.act s i).fault? = none ∧ (r.act s i).frames = ⟨frame, r.frames.below⟩ ∧
        (r.act s i).outputs = enter r.outputs written
    | none => (r.act s i).fault?.isSome := by
  cases i with
  | push | pop => cases hb
  | static => exact ⟨h, rfl, rfl⟩
  | comment => exact ⟨h, rfl, rfl⟩
  | parameter shape offset =>
      simp only [act, Instruction.effect?]
      cases s.parameter shape offset with
      | error fault => rfl
      | ok value => exact ⟨h, rfl, rfl⟩
  | write slot =>
      obtain ⟨fault, frames, outputs⟩ := store_spec s.interpretation r slot
      exact ⟨fault.trans h, frames, outputs⟩
  | writeStatic slot matrix =>
      obtain ⟨fault, frames, outputs⟩ := storeTimes_spec s.interpretation r .writeStatic slot
        (s.interpretation.ofTransform (.float4x4 matrix))
      exact ⟨fault.trans h, frames, outputs⟩
  | writeParameter slot offset =>
      simp only [act, Instruction.effect?]
      cases s.parameter .float4x4 offset with
      | error fault => rfl
      | ok value =>
          obtain ⟨fault, frames, outputs⟩ := storeTimes_spec s.interpretation r .writeParameter
            slot value
          exact ⟨fault.trans h, frames, outputs⟩
  | binding name defaults =>
      simp only [act, Instruction.effect?, foldl_multiply]
      exact ⟨h, rfl, rfl⟩

/-- A run that has not stopped goes to the end of a list exactly if there is a journal. -/
theorem exec_eq_journal {r : Run M} (h : r.fault? = none) (is : List Instruction) :
    match journal s (r.frames.top :: r.frames.below) is with
    | some ws => (r.exec s is).fault? = none ∧ (r.exec s is).outputs = enter r.outputs ws
    | none => (r.exec s is).fault?.isSome := by
  induction is generalizing r with
  | nil => exact ⟨h, rfl⟩
  | cons i is ih =>
      rw [exec_cons, step_of_running s h]
      cases i using Instruction.bracketCases with
      | push =>
          -- a run that stops here is not resumed, as there is no journal from here on
          rw [journal_push, act, push, Frames.push?]
          by_cases room : r.frames.below.length + 1 < s.limit
          · rw [if_pos room, if_pos (show r.frames.depth + 1 < s.limit from room)]
            exact ih (r := { r.visitTop s.interpretation with
              frames := ⟨r.frames.top, r.frames.top :: r.frames.below⟩ }) h
          · rw [if_neg room, if_neg (show ¬ r.frames.depth + 1 < s.limit from room),
              exec_of_stopped s rfl]
            rfl
      | pop count =>
          rw [journal_pop, act, pop, Frames.pop?]
          by_cases enough : count.toNat ≤ r.frames.below.length
          · rw [if_pos enough]
            cases hd : (r.frames.top :: r.frames.below).drop count.toNat with
            | nil =>
                -- the lowest frame stays open
                rw [List.drop_eq_nil_iff, List.length_cons] at hd
                omega
            | cons top below => exact ih (r := { r with frames := ⟨top, below⟩ }) h
          · have none : (r.frames.top :: r.frames.below).drop count.toNat = [] := by
              rw [List.drop_eq_nil_iff, List.length_cons]
              omega
            rw [if_neg enough, none, exec_of_stopped s rfl]
            rfl
      | inside i hb =>
          have acted := act_of_effect? (s := s) h hb
          rw [journal_of_not_bracket hb]
          cases he : i.effect? s r.frames.top with
          | none =>
              rw [he] at acted
              rw [exec_of_stopped s acted]
              exact acted
          | some p =>
              obtain ⟨frame, written⟩ := p
              rw [he] at acted
              obtain ⟨fault, frames, outputs⟩ := acted
              -- the rest is written after what this instruction writes
              have rest := ih fault
              rw [frames] at rest
              simp only [Option.bind_some]
              cases hj : journal s (frame :: r.frames.below) is with
              | none => rw [hj] at rest; exact rest
              | some ws =>
                  rw [hj] at rest
                  refine ⟨rest.1, ?_⟩
                  rw [rest.2, outputs, enter_append]

end Run

/-- **A run goes to its end exactly if there is a journal**, and its slots are those of the
journal. -/
theorem Program.result_eq_ok_iff {count : Nat} {is : List Instruction} {outputs : Array M} :
    (Program.exec s count is).result = .ok outputs ↔
      ∃ ws, journal s [s.interpretation.identity] is = some ws ∧
        outputs = enter (Array.replicate count s.interpretation.identity) ws := by
  have run := Run.exec_eq_journal (s := s) (r := Run.start s.interpretation count) rfl is
  simp only [Run.start, Frames.root] at run
  rw [Program.exec, Run.result, Run.start, Frames.root]
  cases hj : journal s [s.interpretation.identity] is with
  | none =>
      rw [hj] at run
      obtain ⟨fault, hf⟩ := Option.isSome_iff_exists.1 run
      simp only [hf, reduceCtorEq, false_and, exists_false]
  | some ws =>
      rw [hj] at run
      simp only [run.1, run.2, Except.ok.injEq, Option.some.injEq]
      exact ⟨fun e => ⟨ws, rfl, e.symm⟩, fun ⟨_, e, o⟩ => by rw [e, o]⟩

/-- **A stream is run to its end exactly if it can be decoded and its list has a journal.** -/
theorem Stream.result_eq_ok_iff {count : Nat} {words : List UInt32} {outputs : Array M} :
    (Stream.run s count words).result = .ok outputs ↔
      ∃ is ws, Instruction.decodeAll words = .ok is ∧
        journal s [s.interpretation.identity] is = some ws ∧
        outputs = enter (Array.replicate count s.interpretation.identity) ws := by
  constructor
  · intro run
    have ends : (Stream.run s count words).fault? = none := by
      rw [Run.result] at run
      cases stopped : (Stream.run s count words).fault? with
      | none => rfl
      | some fault =>
          rw [stopped] at run
          cases run
    obtain ⟨is, decoded⟩ := Stream.exists_decodeAll_of_run ends
    rw [Stream.run_eq_exec _ _ decoded] at run
    obtain ⟨ws, writes, entered⟩ := Program.result_eq_ok_iff.1 run
    exact ⟨is, ws, decoded, writes, entered⟩
  · rintro ⟨is, ws, decoded, writes, entered⟩
    rw [Stream.run_eq_exec _ _ decoded]
    exact Program.result_eq_ok_iff.2 ⟨ws, writes, entered⟩

/-! ### Limits -/

/-- A limit that is not reached does not matter. -/
theorem journal_withLimit {frames : List M} {is : List Instruction} {ws : List (UInt32 × M)}
    (h : journal s frames is = some ws) {limit : Nat}
    (enough : s.limit ≤ limit ∨ frames.length + is.length ≤ limit) :
    journal { s with limit := limit } frames is = some ws := by
  -- an instruction opens at most one frame, so that frames and instructions together become no more
  induction is generalizing frames ws with
  | nil =>
      obtain ⟨top, below, rfl⟩ := ne_nil_of_journal h
      exact h
  | cons i is ih =>
      obtain ⟨top, below, rfl⟩ := ne_nil_of_journal h
      simp only [List.length_cons] at enough
      cases i using Instruction.bracketCases with
      | push =>
          obtain ⟨room, top, current, hj⟩ := journal_push_eq_some_iff.1 h
          rw [List.length_cons] at room
          refine journal_push_eq_some_iff.2 ⟨?_, top, current, ih hj ?_⟩
          · show below.length + 1 < limit
            omega
          · simp only [List.length_cons]
            omega
      | pop count =>
          obtain ⟨opened, hj⟩ := journal_pop_eq_some_iff.1 h
          refine journal_pop_eq_some_iff.2 ⟨opened, ih hj ?_⟩
          simp only [List.length_drop, List.length_cons]
          omega
      | inside i hb =>
          obtain ⟨frame, written, rest, he, hj, rfl⟩ := (journal_other_eq_some_iff hb).1 h
          refine (journal_other_eq_some_iff hb).2 ⟨frame, written, rest, ?_, ih hj ?_, rfl⟩
          · cases i <;> exact he
          · simp only [List.length_cons]
            omega

/-- A limit that is not reached may be lowered. -/
theorem journal_lowered {frames : List M} {is : List Instruction} {ws : List (UInt32 × M)}
    {limit : Nat} (h : journal s frames is = some ws)
    (enough : s.limit ≤ limit ∨ frames.length + is.length ≤ limit) :
    journal { s with limit := min s.limit limit } frames is = some ws :=
  journal_withLimit h (by omega)

/-! ### Written slots -/

/-- The slots that a list writes, in order. -/
def writtenSlots (is : List Instruction) : List UInt32 := is.filterMap Instruction.output?

/-- The slots of the writes do not depend on what is written. -/
theorem map_fst_of_effect? {top frame : M} {written : List (UInt32 × M)} {i : Instruction}
    (h : i.effect? s top = some (frame, written)) :
    written.map Prod.fst = i.output?.toList := by
  cases i with
  | parameter shape offset | writeParameter slot offset =>
      obtain ⟨_, _, e⟩ := Option.map_eq_some_iff.1 h
      cases e
      rfl
  | push | pop | static | write | writeStatic | binding | comment => cases h; rfl

/-- A journal has a write for each instruction that writes. -/
theorem map_fst_of_journal {frames : List M} {is : List Instruction} {ws : List (UInt32 × M)}
    (h : journal s frames is = some ws) : ws.map Prod.fst = writtenSlots is := by
  induction is generalizing frames ws with
  | nil =>
      obtain ⟨top, below, rfl⟩ := ne_nil_of_journal h
      cases h
      rfl
  | cons i is ih =>
      obtain ⟨top, below, rfl⟩ := ne_nil_of_journal h
      cases i using Instruction.bracketCases with
      | push =>
          obtain ⟨_, _, _, hj⟩ := journal_push_eq_some_iff.1 h
          exact ih hj
      | pop count => exact ih (journal_pop_eq_some_iff.1 h).2
      | inside i hb =>
          obtain ⟨frame, written, rest, he, hj, rfl⟩ := (journal_other_eq_some_iff hb).1 h
          rw [List.map_append, map_fst_of_effect? he, ih hj, writtenSlots, writtenSlots,
            List.filterMap_cons]
          cases i.output? <;> rfl

/-! ### Standing for one another -/

/-- The list `js` may stand for `is`: from any frames that the limit allows, it runs through if `is`
does, and writes the same. -/
def Keeps (s : Setting M) (is js : List Instruction) : Prop :=
  ∀ ⦃frames : List M⦄ ⦃ws : List (UInt32 × M)⦄, frames.length ≤ max s.limit 1 →
    journal s frames is = some ws → journal s frames js = some ws

namespace Keeps

theorem refl (is : List Instruction) : Keeps s is is := fun _ _ _ h => h

theorem trans {is js ks : List Instruction} (h : Keeps s is js) (h' : Keeps s js ks) :
    Keeps s is ks := fun _ _ bound hj => h' bound (h bound hj)

/-- An instruction may stand in front. -/
theorem cons {is js : List Instruction} (i : Instruction) (h : Keeps s is js) :
    Keeps s (i :: is) (i :: js) := by
  intro frames ws bound run
  obtain ⟨top, below, rfl⟩ := ne_nil_of_journal run
  simp only [List.length_cons] at bound
  cases i using Instruction.bracketCases with
  | push =>
      obtain ⟨room, top, current, hj⟩ := journal_push_eq_some_iff.1 run
      refine journal_push_eq_some_iff.2 ⟨room, top, current, h ?_ hj⟩
      simp only [List.length_cons] at room ⊢
      omega
  | pop count =>
      obtain ⟨opened, hj⟩ := journal_pop_eq_some_iff.1 run
      refine journal_pop_eq_some_iff.2 ⟨opened, h ?_ hj⟩
      simp only [List.length_drop, List.length_cons]
      omega
  | inside i hb =>
      obtain ⟨frame, written, rest, he, hj, rfl⟩ := (journal_other_eq_some_iff hb).1 run
      exact (journal_other_eq_some_iff hb).2 ⟨frame, written, rest, he, h bound hj, rfl⟩

end Keeps

end Armature
