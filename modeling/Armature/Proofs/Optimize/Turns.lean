/-
**The moves, turn by turn.**

The moves of a merging pass are made in a loop.  It stands at a position of the list and looks for
the positions that the transform there reaches; a move is recorded as edits at these positions,
which are carried out together, and then the loop looks at the same position again.  So neither does
the position always go on, nor does the list always become shorter, nor are there fewer transforms
in front of the loop: a copy in front of a blocker is a new one.  What does become smaller is the
weight of the rest of the list, which is at most twice its length.

Main definitions:

* `Reach.positions` — the first users by their positions;
* `moveEdits`, `editsOfMove` — the edits of a move, at one user and at all;
* `movesAt` — whether the transform at a position is moved;
* `MergeState`, `MergeState.turn`, `MergeState.run` — where the loop stands, one turn of it, and a
  number of turns;
* `MergeState.outcome`, `MergeState.Nearer` — what the moves come to from there, and what a turn may
  lead to.

Main results:

* `Edits.apply_editsOfMove` — **edits by position do what `absorb` does to the rest of the list**;
* `MergeState.turn_nearer` — a turn leads to the same outcome and makes the weight smaller;
* `mergeLoop_ends` — **the loop ends after at most two turns for each instruction**, with the
  outcome of the moves.
-/

import Armature.Optimize.Edits
import Armature.Optimize.Merge
import Mathlib.Data.List.Basic

set_option autoImplicit false

namespace Armature

/-! ### Edits from a position on -/

namespace Edits

variable {α : Type} {edits : Edits α} {k : Nat}

/-- The edits carried out on items of which the first one has the position `k`. -/
def applyFrom (edits : Edits α) (k : Nat) (items : List α) : List α :=
  (items.zipIdx k).flatMap fun (item, position) => applyTo (edits.here position) item

theorem applyFrom_cons (edits : Edits α) (k : Nat) (item : α) (items : List α) :
    edits.applyFrom k (item :: items) =
      applyTo (edits.here k) item ++ edits.applyFrom (k + 1) items := rfl

theorem applyFrom_append (edits : Edits α) (k : Nat) (items items' : List α) :
    edits.applyFrom k (items ++ items') =
      edits.applyFrom k items ++ edits.applyFrom (k + items.length) items' := by
  rw [applyFrom, List.zipIdx_append, List.flatMap_append]
  rfl

/-- Edits that are all recorded at one position are found there. -/
theorem here_eq_map (same : ∀ e ∈ edits, e.1 = k) : edits.here k = edits.map Prod.snd := by
  rw [here, ← List.filterMap_eq_map]
  exact List.filterMap_congr fun e he => if_pos (same e he)

/-- Items without edits stay. -/
theorem applyFrom_eq_self {items : List α}
    (none : ∀ position, k ≤ position → position < k + items.length → edits.here position = []) :
    edits.applyFrom k items = items := by
  induction items generalizing k with
  | nil => rfl
  | cons item items ih =>
      rw [applyFrom_cons, none k (Nat.le_refl k) (by rw [List.length_cons]; omega), ih]
      · rfl
      · intro position low high
        exact none position (by omega) (by rw [List.length_cons]; omega)

end Edits

/-! ### Users by position -/

namespace Reach

variable {r : Reach} {k p : Nat} {is whole : List Instruction}

/-- The positions of the first users, where the first instruction has the position `k`. -/
def positions (r : Reach) (k : Nat) : List Instruction → List Nat
  | [] => []
  | i :: rest =>
    if r.marks i then k :: (r.step i).positions (k + 1) rest else (r.step i).positions (k + 1) rest

/-- What is behind the first of some positions. -/
theorem drop_succ_of_drop_eq_cons {i : Instruction} {rest : List Instruction}
    (tail : whole.drop k = i :: rest) : whole[k]? = some i ∧ whole.drop (k + 1) = rest := by
  constructor
  · rw [← List.head?_drop, tail, List.head?_cons]
  · rw [← List.tail_drop, tail, List.tail_cons]

/-- At the positions stand the users. -/
theorem map_positions (tail : whole.drop k = is) :
    (r.positions k is).map (whole[·]?) = (r.influenced is).map some := by
  induction is generalizing r k with
  | nil => rfl
  | cons i rest ih =>
      obtain ⟨here, behind⟩ := drop_succ_of_drop_eq_cons tail
      rw [positions, influenced]
      split
      · rw [List.map_cons, here, ih behind, List.map_cons]
      · exact ih behind

/-- What follows the first of the first users. -/
theorem afterFirst_eq_drop {ps : List Nat} (tail : whole.drop k = is)
    (first : r.positions k is = p :: ps) : r.afterFirst is = whole.drop (p + 1) := by
  induction is generalizing r k with
  | nil => cases first
  | cons i rest ih =>
      obtain ⟨-, behind⟩ := drop_succ_of_drop_eq_cons tail
      rw [positions] at first
      rw [afterFirst]
      split at first
      · rename_i marked
        cases first
        rw [if_pos marked, behind]
      · rename_i unmarked
        rw [if_neg unmarked, ih behind first]

theorem zipIdx_flags (r : Reach) (k : Nat) (is : List Instruction) :
    ((r.flags is).zipIdx k).filterMap (fun (flag, p) => if flag then some p else none) =
      r.positions k is := by
  induction is generalizing r k with
  | nil => rfl
  | cons i rest ih =>
      rw [flags, List.zipIdx_cons, List.filterMap_cons, positions, ih]
      cases r.marks i <;> rfl

end Reach

/-- The positions that are found by looking ahead. -/
theorem influences_eq (is : List Instruction) (position : Nat) :
    influences is position = Reach.start.positions position (is.drop position) :=
  Reach.zipIdx_flags ..

/-- At the positions that are found by looking ahead stand the users. -/
theorem map_influences (is : List Instruction) (position : Nat) :
    (influences is position).map (is[·]?) =
      (Reach.start.influenced (is.drop position)).map some := by
  rw [influences_eq, Reach.map_positions rfl]

/-- Looking the positions up gives the users. -/
theorem filterMap_influences (is : List Instruction) (position : Nat) :
    (influences is position).filterMap (is[·]?) = Reach.start.influenced (is.drop position) := by
  have found := congrArg (List.filterMap id) (map_influences is position)
  rw [List.filterMap_map, List.filterMap_map] at found
  exact found.trans List.filterMap_some

/-! ### Edits of a move -/

/-- What is recorded at a user to which the transform `s` is moved. -/
def moveEdits (s : Transform) (foldable : UInt32 → Bool) (position : Nat) :
    Instruction → Edits Instruction
  | .static t => [(position, .replace [.static (s.merge t)])]
  | .write slot =>
    if foldable slot then []
    else [(position, .before [.push, .static s]), (position, .after [.pop 1])]
  | _ => [(position, .before [.static s])]

/-- What is recorded when the transform `s` at `position` is moved to its users. -/
def editsOfMove (s : Transform) (foldable : UInt32 → Bool) (is : List Instruction)
    (position : Nat) : Edits Instruction :=
  (influences is (position + 1)).flatMap
      (fun p => (is[p]?.map (moveEdits s foldable p)).getD []) ++ [Edits.remove position]

section Edits

variable {s : Transform} {foldable : UInt32 → Bool} {r : Reach} {k : Nat}
  {is whole rest : List Instruction} {i : Instruction}

/-- Edits of a user are recorded at its position. -/
theorem position_of_mem_moveEdits {e : Nat × Edit Instruction} (h : e ∈ moveEdits s foldable k i) :
    e.1 = k := by
  unfold moveEdits at h
  split at h
  · rw [List.mem_singleton.1 h]
  · split at h
    · cases h
    · simp only [List.mem_cons, List.not_mem_nil, or_false] at h
      rcases h with rfl | rfl
      · rfl
      · rfl
  · rw [List.mem_singleton.1 h]

/-- What becomes of a user. -/
theorem applyTo_moveEdits (s : Transform) (foldable : UInt32 → Bool) (k : Nat) (i : Instruction) :
    Edits.applyTo ((moveEdits s foldable k i).map Prod.snd) i = moveTo s foldable i := by
  cases i with
  | write slot =>
      rw [moveEdits, moveTo]
      split
      · rfl
      · rfl
  | _ => rfl

/-- The edits at all users, the first instruction having the position `k`. -/
def editsFrom (s : Transform) (foldable : UInt32 → Bool) (r : Reach) (k : Nat) :
    List Instruction → Edits Instruction
  | [] => []
  | i :: rest =>
    (if r.marks i then moveEdits s foldable k i else []) ++
      editsFrom s foldable (r.step i) (k + 1) rest

theorem flatMap_positions (tail : whole.drop k = is) :
    (r.positions k is).flatMap (fun p => (whole[p]?.map (moveEdits s foldable p)).getD []) =
      editsFrom s foldable r k is := by
  induction is generalizing r k with
  | nil => rfl
  | cons i rest ih =>
      obtain ⟨here, behind⟩ := Reach.drop_succ_of_drop_eq_cons tail
      rw [Reach.positions, editsFrom]
      split
      · rw [List.flatMap_cons, here, ih behind]
        rfl
      · rw [ih behind, List.nil_append]

theorem le_of_mem_editsFrom {e : Nat × Edit Instruction} (h : e ∈ editsFrom s foldable r k is) :
    k ≤ e.1 := by
  induction is generalizing r k with
  | nil => cases h
  | cons i rest ih =>
      rw [editsFrom, List.mem_append] at h
      rcases h with h | h
      · split at h
        · exact Nat.le_of_eq (position_of_mem_moveEdits h).symm
        · cases h
      · exact Nat.le_of_succ_le (ih h)

/-- Of all edits at users those at the first position are for the first instruction. -/
theorem here_editsFrom_cons :
    (editsFrom s foldable r k (i :: rest)).here k =
      if r.marks i then (moveEdits s foldable k i).map Prod.snd else [] := by
  have later : (editsFrom s foldable (r.step i) (k + 1) rest).here k = [] :=
    Edits.here_eq_nil fun e he same => by
      have := le_of_mem_editsFrom he
      omega
  rw [editsFrom, Edits.here_append, later, List.append_nil]
  split
  · exact Edits.here_eq_map fun e => position_of_mem_moveEdits
  · rfl

/-- The edits at the other positions are for the rest of the list. -/
theorem here_editsFrom_of_lt {p : Nat} (later : k < p) :
    (editsFrom s foldable r k (i :: rest)).here p =
      (editsFrom s foldable (r.step i) (k + 1) rest).here p := by
  have first : Edits.here (if r.marks i then moveEdits s foldable k i else []) p = [] := by
    refine Edits.here_eq_nil fun e he same => ?_
    split at he
    · have := position_of_mem_moveEdits he
      omega
    · cases he
  rw [editsFrom, Edits.here_append, first, List.nil_append]

/-- Edits at the users do to a list what moving the transform to them does. -/
theorem applyFrom_eq_absorb {edits : Edits Instruction}
    (same : ∀ p, k ≤ p → edits.here p = (editsFrom s foldable r k is).here p) :
    edits.applyFrom k is = absorb s foldable r is := by
  induction is generalizing r k with
  | nil => rfl
  | cons i rest ih =>
      have later : ∀ p, k + 1 ≤ p →
          edits.here p = (editsFrom s foldable (r.step i) (k + 1) rest).here p := by
        intro p behind
        rw [same p (by omega), here_editsFrom_of_lt behind]
      rw [Edits.applyFrom_cons, absorb, ih later, same k (Nat.le_refl k), here_editsFrom_cons]
      congr 1
      split
      · exact applyTo_moveEdits s foldable k i
      · rfl

/-- What stands in front of all edits stays. -/
theorem Edits.apply_append {edits : Edits Instruction} {front : List Instruction}
    (behind : ∀ e ∈ edits, front.length ≤ e.1) (items : List Instruction) :
    edits.apply (front ++ items) = front ++ edits.applyFrom front.length items := by
  show edits.applyFrom 0 (front ++ items) = _
  rw [applyFrom_append, applyFrom_eq_self, Nat.zero_add]
  intro position _ inside
  refine here_eq_nil fun e he same => ?_
  have := behind e he
  omega

/-- A transform that is removed by its position goes. -/
theorem Edits.apply_remove (front rest : List Instruction) (i : Instruction) :
    Edits.apply [Edits.remove front.length] (front ++ i :: rest) = front ++ rest := by
  rw [apply_append (by simp [Edits.remove]), applyFrom_cons, here_remove_self, applyFrom_eq_self]
  · rfl
  · exact fun position low _ => here_remove_of_ne (by omega)

/-- **The edits of a move remove the transform and move it to its users** in the rest of the list.
-/
theorem Edits.apply_editsOfMove (s : Transform) (foldable : UInt32 → Bool)
    (front rest : List Instruction) :
    (editsOfMove s foldable (front ++ .static s :: rest) front.length).apply
        (front ++ .static s :: rest) =
      front ++ absorb s foldable .start rest := by
  have tail : (front ++ .static s :: rest).drop (front.length + 1) = rest := by simp
  have recorded : editsOfMove s foldable (front ++ .static s :: rest) front.length =
      editsFrom s foldable .start (front.length + 1) rest ++ [Edits.remove front.length] := by
    rw [editsOfMove, influences_eq, flatMap_positions rfl, tail]
  have first : Edits.here (editsFrom s foldable .start (front.length + 1) rest ++
      [Edits.remove front.length]) front.length = [.replace []] := by
    rw [here_append, here_remove_self, here_eq_nil, List.nil_append]
    intro e he same
    have := le_of_mem_editsFrom he
    omega
  rw [recorded, apply_append, applyFrom_cons, first, applyFrom_eq_absorb]
  · rfl
  · intro p behind
    rw [here_append, here_remove_of_ne (by omega), List.append_nil]
  · intro e he
    rcases List.mem_append.1 he with he | he
    · exact Nat.le_of_succ_le (le_of_mem_editsFrom he)
    · rw [List.mem_singleton.1 he]
      exact Nat.le_refl _

end Edits

/-! ### The loop -/

/-- The transform `s` at `position` is moved.  If its only user is a static transform that stays
where it is, the two must join. -/
def movesAt (foldable : UInt32 → Bool) (s : Transform) (is : List Instruction)
    (position : Nat) : Bool :=
  let worth (positions : List Nat) : Bool := worthMerging foldable (positions.filterMap (is[·]?))
  let users := influences is (position + 1)
  match users with
  | [p] =>
    match is[p]? with
    | some (.static t) => if worth (influences is (p + 1)) then worth users else s.joins t
    | _ => worth users
  | _ => worth users

/-- The positions decide as the users do. -/
theorem movesAt_eq_shouldMove (foldable : UInt32 → Bool) (s : Transform) (is : List Instruction)
    (position : Nat) :
    movesAt foldable s is position = shouldMove foldable s (is.drop (position + 1)) := by
  have there := map_influences is (position + 1)
  rw [movesAt, shouldMove]
  simp only [filterMap_influences]
  cases users : Reach.start.influenced (is.drop (position + 1)) with
  | nil =>
      rw [users, List.map_nil, List.map_eq_nil_iff] at there
      rw [there, Bool.and_true]
  | cons i others =>
      rw [users, List.map_cons] at there
      obtain ⟨p, ps, split, here, there⟩ := List.map_eq_cons_iff.1 there
      rw [split]
      cases others with
      | cons j others =>
          obtain ⟨q, qs, rfl, -, -⟩ := List.map_eq_cons_iff.1 there
          cases i <;> exact (Bool.and_true _).symm
      | nil =>
          rw [List.map_nil, List.map_eq_nil_iff] at there
          subst there
          simp only [here]
          cases i with
          | static t =>
              -- to move a transform to another one is always worth it
              have worth : worthMerging foldable [.static t] = true := rfl
              have behind : Reach.start.afterFirst (is.drop (position + 1)) = is.drop (p + 1) :=
                Reach.afterFirst_eq_drop rfl (influences_eq is _ ▸ split)
              rw [worth, behind]
              cases worthMerging foldable (Reach.start.influenced (is.drop (p + 1))) <;> rfl
          | _ => exact (Bool.and_true _).symm

theorem mergeFrom_of_not_static {table : FoldTable} {taken : List UInt32} {i : Instruction}
    {is : List Instruction} (other : ∀ s, i ≠ .static s) :
    mergeFrom table taken (i :: is) =
      ((mergeFrom table taken is).1, (mergeFrom table taken is).2.map (i :: ·)) := by
  rw [mergeFrom]
  exact fun s => (other s ·)

theorem mergeFrom_static (table : FoldTable) (taken : List UInt32) (s : Transform)
    (is : List Instruction) :
    mergeFrom table taken (.static s :: is) =
      if (Reach.start.influenced is).isEmpty then mergeFrom table taken is
      else if shouldMove table.foldable s is then
        let slots := foldSlots table.foldable (Reach.start.influenced is)
        match firstRepeat? taken slots with
        | some slot => (table, .error (.duplicateFold slot))
        | none =>
          mergeFrom (slots.foldl (fun t slot => t.fold slot s.toMatrix) table) (slots ++ taken)
            (absorb s table.foldable .start is)
      else
        ((mergeFrom table taken is).1, (mergeFrom table taken is).2.map (.static s :: ·)) := by
  rw [mergeFrom]
  rfl

/-- Where the loop of moves stands. -/
structure MergeState where
  /-- The fold table. -/
  table : FoldTable
  /-- The slots that have been folded into. -/
  taken : List UInt32
  /-- The position of the instruction that is looked at. -/
  position : Nat
  /-- The list. -/
  list : List Instruction

namespace MergeState

/-- The loop stands at the front of a list. -/
def start (table : FoldTable) (is : List Instruction) : MergeState := ⟨table, [], 0, is⟩

/-- One turn of the loop: where it stands afterwards, or the outcome with which it ends. -/
def turn (st : MergeState) :
    MergeState ⊕ (FoldTable × Except OptimizeFault (List Instruction)) :=
  match st.list[st.position]? with
  | none => .inr (st.table, .ok st.list)
  | some (.static s) =>
    let users := influences st.list (st.position + 1)
    if users.isEmpty then
      .inl { st with list := Edits.apply [Edits.remove st.position] st.list }
    else if movesAt st.table.foldable s st.list st.position then
      let slots := foldSlots st.table.foldable (users.filterMap (st.list[·]?))
      match firstRepeat? st.taken slots with
      | some slot => .inr (st.table, .error (.duplicateFold slot))
      | none =>
        .inl
          { table := slots.foldl (fun t slot => t.fold slot s.toMatrix) st.table
            taken := slots ++ st.taken
            position := st.position
            list := (editsOfMove s st.table.foldable st.list st.position).apply st.list }
    else .inl { st with position := st.position + 1 }
  | some _ => .inl { st with position := st.position + 1 }

/-- The outcome of the loop if it ends within the given number of turns. -/
def run : Nat → MergeState → Option (FoldTable × Except OptimizeFault (List Instruction))
  | 0, _ => none
  | n + 1, st =>
    match st.turn with
    | .inr outcome => some outcome
    | .inl next => run n next

/-- The instructions from the position on. -/
def rest (st : MergeState) : List Instruction := st.list.drop st.position

/-- What the moves come to from where the loop stands: the instructions in front of it are done. -/
def outcome (st : MergeState) : FoldTable × Except OptimizeFault (List Instruction) :=
  let (table, result) := mergeFrom st.table st.taken st.rest
  (table, result.map (st.list.take st.position ++ ·))

section

variable {table : FoldTable} {taken : List UInt32} {front after : List Instruction}
  {s : Transform} {i : Instruction}

/-- The outcome, where the instructions in front of the loop are known. -/
theorem outcome_eq (table : FoldTable) (taken : List UInt32) (front after : List Instruction) :
    outcome ⟨table, taken, front.length, front ++ after⟩ =
      ((mergeFrom table taken after).1, (mergeFrom table taken after).2.map (front ++ ·)) := by
  rw [outcome, rest, List.drop_left, List.take_left]

/-- The loop goes on to the next instruction. -/
theorem outcome_succ (table : FoldTable) (taken : List UInt32) (front after : List Instruction)
    (i : Instruction) :
    outcome ⟨table, taken, front.length + 1, front ++ i :: after⟩ =
        ((mergeFrom table taken after).1,
          ((mergeFrom table taken after).2.map (i :: ·)).map (front ++ ·)) ∧
      rest ⟨table, taken, front.length + 1, front ++ i :: after⟩ = after := by
  have position : front.length + 1 = (front ++ [i]).length := by simp
  have list : front ++ i :: after = (front ++ [i]) ++ after := by simp
  rw [position, list, outcome_eq, rest, List.drop_left]
  refine ⟨?_, rfl⟩
  cases (mergeFrom table taken after).2 with
  | error fault => rfl
  | ok js =>
      exact congrArg (fun ks => (_, Except.ok ks)) (List.append_assoc front [i] js)

theorem turn_of_not_static (other : ∀ s, i ≠ .static s) :
    turn ⟨table, taken, front.length, front ++ i :: after⟩ =
      .inl ⟨table, taken, front.length + 1, front ++ i :: after⟩ := by
  have here : (front ++ i :: after)[front.length]? = some i := by simp
  rw [turn]
  simp only [here]

/-- At a static transform a turn depends on its users and changes the rest of the list. -/
theorem turn_static :
    turn ⟨table, taken, front.length, front ++ .static s :: after⟩ =
      if (Reach.start.influenced after).isEmpty then
        .inl ⟨table, taken, front.length, front ++ after⟩
      else if shouldMove table.foldable s after then
        let slots := foldSlots table.foldable (Reach.start.influenced after)
        match firstRepeat? taken slots with
        | some slot => .inr (table, .error (.duplicateFold slot))
        | none =>
          .inl ⟨slots.foldl (fun t slot => t.fold slot s.toMatrix) table, slots ++ taken,
            front.length, front ++ absorb s table.foldable .start after⟩
      else .inl ⟨table, taken, front.length + 1, front ++ .static s :: after⟩ := by
  have here : (front ++ .static s :: after)[front.length]? = some (.static s) := by simp
  have tail : (front ++ .static s :: after).drop (front.length + 1) = after := by simp
  have users := map_influences (front ++ .static s :: after) (front.length + 1)
  have empty := congrArg List.isEmpty users
  rw [List.isEmpty_map, List.isEmpty_map, tail] at empty
  rw [turn]
  simp only [here, empty, movesAt_eq_shouldMove, filterMap_influences, tail, Edits.apply_remove,
    Edits.apply_editsOfMove]

end

/-- What a turn leads to is nearer to the outcome: it is the outcome, or the loop stands where the
outcome is the same and the rest of the list lighter. -/
def Nearer (st : MergeState) :
    MergeState ⊕ (FoldTable × Except OptimizeFault (List Instruction)) → Prop
  | .inr outcome => outcome = st.outcome
  | .inl next => next.outcome = st.outcome ∧ weight next.rest < weight st.rest

/-- **A turn leads nearer to the outcome.** -/
theorem turn_nearer (st : MergeState) : st.Nearer st.turn := by
  obtain ⟨table, taken, position, list⟩ := st
  cases found : list[position]? with
  | none =>
      have beyond : list.length ≤ position := List.getElem?_eq_none_iff.1 found
      have ends : turn ⟨table, taken, position, list⟩ = .inr (table, .ok list) := by
        rw [turn]
        simp only [found]
      rw [ends, Nearer]
      simp only [outcome, rest, List.drop_eq_nil_of_le beyond, List.take_of_length_le beyond]
      rw [mergeFrom]
      exact congrArg (fun js => (table, Except.ok js)) (List.append_nil list).symm
  | some i =>
      obtain ⟨front, after, rfl, rfl⟩ :
          ∃ front after, list = front ++ i :: after ∧ position = front.length := by
        obtain ⟨inside, rfl⟩ := List.getElem?_eq_some_iff.1 found
        refine ⟨list.take position, list.drop (position + 1), ?_, ?_⟩
        · rw [← List.drop_eq_getElem_cons inside, List.take_append_drop]
        · rw [List.length_take_of_le (Nat.le_of_lt inside)]
      have before : rest ⟨table, taken, front.length, front ++ i :: after⟩ = i :: after :=
        List.drop_left
      have stands := outcome_eq table taken front (i :: after)
      obtain ⟨on, behind⟩ := outcome_succ table taken front after i
      by_cases static : ∃ s, i = .static s
      · obtain ⟨s, rfl⟩ := static
        rw [mergeFrom_static] at stands
        rw [turn_static]
        by_cases unused : (Reach.start.influenced after).isEmpty = true
        · rw [if_pos unused] at stands ⊢
          refine ⟨(outcome_eq table taken front after).trans stands.symm, ?_⟩
          rw [before, rest, List.drop_left]
          exact weight_lt_cons _ after
        rw [if_neg unused] at stands ⊢
        by_cases worth : shouldMove table.foldable s after = true
        · rw [if_pos worth] at stands ⊢
          cases again : firstRepeat? taken
              (foldSlots table.foldable (Reach.start.influenced after)) with
          | some slot =>
              simp only [again] at stands ⊢
              exact stands.symm
          | none =>
              simp only [again] at stands ⊢
              refine ⟨(outcome_eq ..).trans stands.symm, ?_⟩
              rw [before, rest, List.drop_left]
              exact weight_absorb_lt worth
        · rw [if_neg worth] at stands ⊢
          refine ⟨on.trans stands.symm, ?_⟩
          rw [before, behind]
          exact weight_lt_cons _ after
      · have other : ∀ s, i ≠ .static s := fun s same => static ⟨s, same⟩
        rw [mergeFrom_of_not_static other] at stands
        rw [turn_of_not_static other]
        refine ⟨on.trans stands.symm, ?_⟩
        rw [before, behind]
        exact weight_lt_cons i after

/-- **The loop ends**, after no more turns than the rest of the list weighs. -/
theorem run_eq (st : MergeState) :
    ∃ turns ≤ weight st.rest, ∀ n, st.run n = if turns < n then some st.outcome else none := by
  -- by induction on the weight of the rest, which a turn makes smaller
  induction heavy : weight st.rest using Nat.strongRecOn generalizing st with
  | _ w ih =>
      have spec := st.turn_nearer
      cases turn : st.turn with
      | inr outcome =>
          rw [turn] at spec
          refine ⟨0, Nat.zero_le _, fun n => ?_⟩
          cases n with
          | zero => rfl
          | succ n =>
              rw [run, turn, if_pos (Nat.succ_pos n), ← spec]
      | inl next =>
          rw [turn] at spec
          obtain ⟨same, lighter⟩ := spec
          obtain ⟨turns, few, ends⟩ := ih _ (heavy ▸ lighter) next rfl
          refine ⟨turns + 1, Nat.succ_le_of_lt (Nat.lt_of_le_of_lt few (heavy ▸ lighter)),
            fun n => ?_⟩
          cases n with
          | zero => rfl
          | succ n =>
              rw [run, turn, ← same]
              simp only [ends n, Nat.add_lt_add_iff_right]

end MergeState

/-- A list weighs at most two for each instruction. -/
theorem weight_le (is : List Instruction) : weight is ≤ 2 * is.length := by
  have loose : looseStatics is ≤ is.length := by
    induction is with
    | nil => exact Nat.le_refl 0
    | cons i rest ih =>
        rw [looseStatics, List.length_cons]
        split <;> omega
  rw [weight]
  omega

/-- **The loop of moves ends**, for every list and every table: after a number of turns, which is at
most two for each instruction, and with the outcome of the moves. -/
theorem mergeLoop_ends (table : FoldTable) (is : List Instruction) :
    ∃ turns ≤ 2 * is.length, ∀ n,
      (MergeState.start table is).run n =
        if turns < n then some (mergeTransforms table is) else none := by
  obtain ⟨turns, few, ends⟩ := (MergeState.start table is).run_eq
  have whole : (MergeState.start table is).outcome = mergeTransforms table is := by
    have front := MergeState.outcome_eq table [] [] is
    refine front.trans (Prod.ext rfl ?_)
    show Except.map id (mergeFrom table [] is).2 = _
    rw [mergeTransforms]
    cases (mergeFrom table [] is).2 <;> rfl
  exact ⟨turns, Nat.le_trans few (weight_le is), fun n => whole ▸ ends n⟩

end Armature
