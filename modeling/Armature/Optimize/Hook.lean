/-
**Optimizing for any user of the slots.**

What takes the transforms that are folded into slots need not be a table.  The optimizer asks
whether a slot takes a transform and gives it one, and knows nothing else about who answers.  Asking
changes nothing; taking a transform may change anything, also what is answered for other slots.

A move therefore asks again at each of its users, with the folds at the users before it already
made.  It may find a slot closed that was open when the move was decided, and the list gets longer
by a wrapped write.  The moves come to an end nevertheless: such a move has folded into a slot for
the first time, which happens at most once for each plain write, and any other move goes as if
nothing could change and makes the list lighter.

Main definitions:

* `Hook` — the answers, and what becomes of them;
* `Hook.absorb` — a transform is moved to its users, who are asked one after another;
* `Hook.mergeFrom`, `Hook.mergeTransforms` — all moves;
* `Hook.runRounds`, `Hook.optimize` — the rounds, and the optimization of a stream;
* `FoldTable.hook` — the table as a hook.

Main results:

* `Hook.absorb_of_slots_nil` — a move that folds nothing is one for fixed answers;
* `Hook.mem_foldSlots_of_slots_cons` — the first fold is one that was foreseen;
* `Hook.plainSlots_absorb` — a move neither adds nor drops plain writes;
* `Hook.measure_absorb_lt` — a move folds into a slot for the first time, or makes the list lighter.
-/

import Armature.Optimize.Pipeline

set_option autoImplicit false

namespace Armature

/-- Who takes the transforms that are folded into slots, by what it answers and what becomes of it.
-/
structure Hook (σ : Type) where
  /-- The slot takes a transform. -/
  foldable : σ → UInt32 → Bool
  /-- The slot takes a matrix. -/
  fold : σ → UInt32 → Mat4 → σ

/-- A table is a hook. -/
def FoldTable.hook : Hook FoldTable := ⟨foldable, fold⟩

/-- The slots of the plain writes, in order. -/
def plainSlots (is : List Instruction) : List UInt32 := foldSlots (fun _ => true) is

theorem plainSlots_append (is js : List Instruction) :
    plainSlots (is ++ js) = plainSlots is ++ plainSlots js := List.filterMap_append

theorem mem_plainSlots_of_mem_foldSlots {foldable : UInt32 → Bool} {is : List Instruction}
    {slot : UInt32} (h : slot ∈ foldSlots foldable is) : slot ∈ plainSlots is := by
  obtain ⟨i, hi, hs⟩ := List.mem_filterMap.1 h
  refine List.mem_filterMap.2 ⟨i, hi, ?_⟩
  cases i with
  | write other =>
    simp only at hs
    split at hs
    · exact hs
    · cases hs
  | _ => cases hs

theorem plainSlots_moveTo (s : Transform) (foldable : UInt32 → Bool) (i : Instruction) :
    plainSlots (moveTo s foldable i) = plainSlots [i] := by
  cases i with
  | write slot =>
    rw [moveTo]
    split <;> rfl
  | _ => rfl

/-- The users are a part of the list. -/
theorem Reach.influenced_sublist (r : Reach) (is : List Instruction) :
    (r.influenced is).Sublist is := by
  induction is generalizing r with
  | nil => exact List.Sublist.slnil
  | cons i rest ih =>
    rw [influenced]
    split
    · exact (ih _).cons_cons i
    · exact (ih _).cons i

namespace Hook

variable {σ : Type} (hook : Hook σ)

/-! ### One move -/

/-- What a move leaves. -/
structure Moved (σ : Type) where
  /-- The state of the hook. -/
  state : σ
  /-- The slots that took the transform, in order. -/
  slots : List UInt32
  /-- The list. -/
  list : List Instruction

/-- The state of the hook after slots have taken the transform. -/
def foldAll (s : Transform) (state : σ) (slots : List UInt32) : σ :=
  slots.foldl (fun state slot => hook.fold state slot s.toMatrix) state

/-- The transform `s`, which reaches `r`, is moved to its users.  Each is asked when it is reached.
-/
def absorb (s : Transform) (state : σ) (r : Reach) : List Instruction → Moved σ
  | [] => ⟨state, [], []⟩
  | i :: rest =>
    if r.marks i then
      let slots := foldSlots (hook.foldable state) [i]
      let moved := absorb s (hook.foldAll s state slots) (r.step i) rest
      ⟨moved.state, slots ++ moved.slots, moveTo s (hook.foldable state) i ++ moved.list⟩
    else
      let moved := absorb s state (r.step i) rest
      ⟨moved.state, moved.slots, i :: moved.list⟩

variable {hook} {s : Transform} {state : σ} {r : Reach} {i : Instruction} {is : List Instruction}

theorem absorb_cons_of_marks (marked : r.marks i = true) (rest : List Instruction) :
    let slots := foldSlots (hook.foldable state) [i]
    let moved := hook.absorb s (hook.foldAll s state slots) (r.step i) rest
    hook.absorb s state r (i :: rest) =
      ⟨moved.state, slots ++ moved.slots, moveTo s (hook.foldable state) i ++ moved.list⟩ := by
  rw [absorb, if_pos marked]

theorem absorb_cons_of_not_marks (other : ¬ r.marks i = true) (rest : List Instruction) :
    let moved := hook.absorb s state (r.step i) rest
    hook.absorb s state r (i :: rest) = ⟨moved.state, moved.slots, i :: moved.list⟩ := by
  rw [absorb, if_neg other]

/-- What is read of a list piece by piece stays if it stays at each user, whoever is asked. -/
theorem read_absorb {α : Type} {read : List Instruction → List α}
    (append : ∀ is js, read (is ++ js) = read is ++ read js)
    (users : ∀ foldable i, read (moveTo s foldable i) = read [i]) :
    read (hook.absorb s state r is).list = read is := by
  induction is generalizing state r with
  | nil => rfl
  | cons i rest ih =>
    have split : ∀ js, read (i :: js) = read [i] ++ read js := append [i]
    by_cases marked : r.marks i = true
    · rw [absorb_cons_of_marks marked, append, users, ih, ← split]
    · rw [absorb_cons_of_not_marks marked, split rest, ← ih]
      exact split _

/-- A move neither adds nor drops plain writes. -/
theorem plainSlots_absorb : plainSlots (hook.absorb s state r is).list = plainSlots is :=
  read_absorb plainSlots_append (plainSlots_moveTo s)

/-- A move that folds nothing is one for fixed answers. -/
theorem absorb_of_slots_nil (none : (hook.absorb s state r is).slots = []) :
    (hook.absorb s state r is).list = Armature.absorb s (hook.foldable state) r is := by
  induction is generalizing r with
  | nil => rfl
  | cons i rest ih =>
    rw [Armature.absorb]
    by_cases marked : r.marks i = true
    · rw [absorb_cons_of_marks marked] at none ⊢
      obtain ⟨here, later⟩ := List.append_eq_nil_iff.1 none
      rw [here] at later ⊢
      rw [if_pos marked, ← ih later]
      rfl
    · rw [absorb_cons_of_not_marks marked] at none ⊢
      rw [if_neg marked, ← ih none]
      rfl

/-- The first fold of a move is one that was foreseen. -/
theorem mem_foldSlots_of_slots_cons {slot : UInt32} {slots : List UInt32}
    (first : (hook.absorb s state r is).slots = slot :: slots) :
    slot ∈ foldSlots (hook.foldable state) (r.influenced is) := by
  induction is generalizing r with
  | nil => cases first
  | cons i rest ih =>
    rw [Reach.influenced]
    by_cases marked : r.marks i = true
    · rw [absorb_cons_of_marks marked] at first
      rw [if_pos marked, ← List.singleton_append, foldSlots, List.filterMap_append, List.mem_append]
      change foldSlots _ [i] ++ _ = _ at first
      cases here : foldSlots (hook.foldable state) [i] with
      | nil =>
        rw [here] at first
        exact .inr (ih first)
      | cons other others =>
        rw [here] at first
        cases first
        refine .inl (?_ : slot ∈ foldSlots (hook.foldable state) [i])
        rw [here]
        exact List.mem_cons_self ..
    · rw [absorb_cons_of_not_marks marked] at first
      rw [if_neg marked]
      exact ih first

/-! ### Why the moves come to an end -/

/-- The number of plain writes of slots that have not been folded into. -/
def unfolded (taken : List UInt32) (is : List Instruction) : Nat :=
  (plainSlots is).countP fun slot => !taken.contains slot

/-- Taking more slots leaves less to fold, if one of them is new. -/
theorem countP_lt_of_mem {taken slots plain : List UInt32} {slot : UInt32} (written : slot ∈ plain)
    (new : slot ∉ taken) :
    plain.countP (fun other => !(slot :: slots ++ taken).contains other) <
      plain.countP fun other => !taken.contains other := by
  have fewer : ∀ other, (!(slot :: slots ++ taken).contains other) = true →
      (!taken.contains other) = true := by
    intro other
    simp only [Bool.not_eq_true', List.contains_eq_mem, decide_eq_false_iff_not, List.mem_append,
      not_or]
    exact And.right
  obtain ⟨front, rest, rfl⟩ := List.append_of_mem written
  have before := List.countP_mono_left (l := front) fun other _ => fewer other
  have after := List.countP_mono_left (l := rest) fun other _ => fewer other
  have here : (!(slot :: slots ++ taken).contains slot) = false := by simp
  have gone : (!taken.contains slot) = true := by simpa using new
  rw [List.countP_append, List.countP_append,
    List.countP_cons_of_pos (p := fun other => !taken.contains other) gone,
    List.countP_cons_of_neg (p := fun other => !(slot :: slots ++ taken).contains other)
      (Bool.eq_false_iff.1 here)]
  omega

theorem measure_cons_lt (taken : List UInt32) (i : Instruction) (rest : List Instruction) :
    Prod.Lex (· < ·) (· < ·) (unfolded taken rest, weight rest)
      (unfolded taken (i :: rest), weight (i :: rest)) := by
  have lighter := weight_lt_cons i rest
  have fewer : unfolded taken rest ≤ unfolded taken (i :: rest) := by
    rw [unfolded, unfolded, ← List.singleton_append, plainSlots_append, List.countP_append]
    omega
  rcases Nat.lt_or_eq_of_le fewer with lt | eq
  · exact .left _ _ lt
  · rw [eq]
    exact .right _ lighter

/-- A move folds into a slot for the first time, or makes the list lighter. -/
theorem measure_absorb_lt {taken : List UInt32} {rest : List Instruction}
    (moves : shouldMove (hook.foldable state) s rest = true)
    (fresh : firstRepeat? taken (foldSlots (hook.foldable state) (Reach.start.influenced rest)) =
      none) :
    let moved := hook.absorb s state .start rest
    Prod.Lex (· < ·) (· < ·)
      (unfolded (moved.slots ++ taken) moved.list, weight moved.list)
      (unfolded taken (.static s :: rest), weight (.static s :: rest)) := by
  intro moved
  have plain : plainSlots moved.list = plainSlots rest := plainSlots_absorb
  cases folded : moved.slots with
  | nil =>
    -- nobody took anything, so all answers were those of the start
    have same : unfolded ([] ++ taken) moved.list = unfolded taken (.static s :: rest) := by
      rw [unfolded, plain]
      rfl
    rw [same, absorb_of_slots_nil folded]
    exact .right _ (weight_absorb_lt moves)
  | cons slot slots =>
    -- later answers may have changed, but the first fold was checked against `taken`
    have foreseen := mem_foldSlots_of_slots_cons folded
    have untaken := (firstRepeat?_eq_none_iff.1 fresh).2 slot foreseen
    have written : slot ∈ plainSlots rest :=
      ((Reach.influenced_sublist .start rest).filterMap _).subset
        (mem_plainSlots_of_mem_foldSlots foreseen)
    refine .left _ _ ?_
    rw [unfolded, plain]
    exact countP_lt_of_mem written untaken

/-! ### All moves -/

variable (hook)

/-- Move static transforms from left to right.  The slots in `taken` have been folded into before;
the state is that of the hook when the moves end or fail. -/
def mergeFrom (state : σ) (taken : List UInt32) :
    List Instruction → σ × Except OptimizeFault (List Instruction)
  | [] => (state, .ok [])
  | .static s :: rest =>
    let users := Reach.start.influenced rest
    if users.isEmpty then mergeFrom state taken rest
    else if moves : shouldMove (hook.foldable state) s rest then
      match fresh : firstRepeat? taken (foldSlots (hook.foldable state) users) with
      | some slot => (state, .error (.duplicateFold slot))
      | none =>
        have := measure_absorb_lt moves fresh
        let moved := hook.absorb s state .start rest
        mergeFrom moved.state (moved.slots ++ taken) moved.list
    else
      let (state, result) := mergeFrom state taken rest
      (state, result.map (.static s :: ·))
  | i :: rest =>
    let (state, result) := mergeFrom state taken rest
    (state, result.map (i :: ·))
  termination_by is => (unfolded taken is, weight is)
  decreasing_by
    all_goals first
      | assumption
      | exact measure_cons_lt taken _ _

section

variable {hook} {taken : List UInt32} {rest : List Instruction}

theorem mergeFrom_rejected (used : ¬ (Reach.start.influenced rest).isEmpty = true)
    (moves : shouldMove (hook.foldable state) s rest = true) {slot : UInt32}
    (again : firstRepeat? taken (foldSlots (hook.foldable state) (Reach.start.influenced rest)) =
      some slot) :
    hook.mergeFrom state taken (.static s :: rest) = (state, .error (.duplicateFold slot)) := by
  rw [mergeFrom, if_neg used, dif_pos moves]
  split
  · rename_i other found
    rw [again] at found
    cases found
    rfl
  · rename_i none
    rw [again] at none
    cases none

theorem mergeFrom_moved (used : ¬ (Reach.start.influenced rest).isEmpty = true)
    (moves : shouldMove (hook.foldable state) s rest = true)
    (fresh : firstRepeat? taken (foldSlots (hook.foldable state) (Reach.start.influenced rest)) =
      none) :
    let moved := hook.absorb s state .start rest
    hook.mergeFrom state taken (.static s :: rest) =
      hook.mergeFrom moved.state (moved.slots ++ taken) moved.list := by
  rw [mergeFrom, if_neg used, dif_pos moves]
  split
  · rename_i other found
    rw [fresh] at found
    cases found
  · rfl

end

/-- Move static transforms to their first users, folding into the slots that the hook opens. -/
def mergeTransforms (state : σ) (is : List Instruction) :
    σ × Except OptimizeFault (List Instruction) := hook.mergeFrom state [] is

/-! ### Rounds -/

/-- A result or a failure, with the state of the hook and the events up to there. -/
structure Attempt (σ α : Type) where
  /-- The state of the hook. -/
  state : σ
  /-- The events in order. -/
  events : List Event
  /-- The result. -/
  result : Except OptimizeFault α

/-- One pass on a list.  Only moves have to do with the hook. -/
def runPass (config : OptimizerConfig) (state : σ) (is : List Instruction) :
    Pass → σ × Except OptimizeFault (List Instruction)
  | .merge => hook.mergeTransforms state is
  | pass => (state, (pass.run config .none is).2)

/-- Run passes one after another. -/
def runPasses (config : OptimizerConfig) (state : σ) (is : List Instruction) :
    List Pass → Attempt σ (List Instruction)
  | [] => ⟨state, [], .ok is⟩
  | pass :: passes =>
    match hook.runPass config state is pass with
    | (state, .error fault) => ⟨state, [], .error fault⟩
    | (state, .ok next) =>
      let report := Event.debug s!"{pass.title}: {is.length} -> {next.length} instructions"
      let rest := runPasses config state next passes
      { rest with events := report :: rest.events }

/-- Run rounds until one changes nothing, at most `fuel` times; `number` rounds came before. -/
def runRounds (config : OptimizerConfig) (fuel number : Nat) (state : σ) (is : List Instruction) :
    Attempt σ (List Instruction) :=
  match fuel with
  | 0 =>
    ⟨state, [.warn s!"optimizer still changing after {number} rounds; stopping"], .ok is⟩
  | fuel + 1 =>
    let round := hook.runPasses config state is Pass.round
    match round.result with
    | .error fault => ⟨round.state, round.events, .error fault⟩
    | .ok next =>
      if Instruction.eqvAll next is then
        let settled := Event.debug s!"optimizer settled after {number + 1} round(s)"
        ⟨round.state, round.events ++ [settled], .ok next⟩
      else
        let rest := runRounds config fuel (number + 1) round.state next
        { rest with events := round.events ++ rest.events }

/-- Optimize a list of instructions. -/
def optimizeInstructions (config : OptimizerConfig) (state : σ) (is : List Instruction) :
    Attempt σ (List Instruction) := hook.runRounds config maxRounds 0 state is

/-- Optimize a stream. -/
def optimize (config : OptimizerConfig) (state : σ) (words : List UInt32) :
    Attempt σ (List UInt32 × OptimizationStats) :=
  match Instruction.decodeAll words with
  | .error fault => ⟨state, [], .error (.stream fault)⟩
  | .ok is =>
    let before := Event.trace ("before optimization:\n" ++ disassemble words)
    let attempt := hook.optimizeInstructions config state is
    match attempt.result with
    | .error fault => ⟨attempt.state, before :: attempt.events, .error fault⟩
    | .ok next =>
      let result := Instruction.encodeAll next
      let after := Event.trace ("after optimization:\n" ++ disassemble result)
      let stats : OptimizationStats := ⟨is.length, next.length, words.length, result.length⟩
      ⟨attempt.state, before :: attempt.events ++ [after, .debug stats.text], .ok (result, stats)⟩

end Hook

end Armature
