/-
**An optimization introduces no failure.**

Where a stream is run to its end, the optimized stream is too, under the same limit and with the same
parameters; it never has more frames open; and a stream whose pushes and pops balance stays balanced.
All of this is about counting frames, and about the parameters that are read, of which an
optimization only drops some.

Only the removal of pushes touches pushes and pops.  It leaves a list that gets by with the limits
that were enough before, and that ends with no more open frames.  The counts of pops are words, so
that the frames that can be open must be countable in a word, which a limit or the size of the stream
guarantees.

Main definitions:

* `bracketView` — the view of pushes and pops;
* `Lowers` — a list gets by with the limits of another, and ends no deeper.

Main results:

* `lowers_removeRedundantPushes` — **removing pushes lowers the depth**;
* `lowers_optimizeInstructions` — so does an optimization;
* `optimize_introduces_no_failure` — **what is run to its end, and what is valid, stays so, and the
  greatest number of open frames becomes no greater**.
-/

import Armature.Proofs.Optimize.Order

set_option autoImplicit false

namespace Armature

variable {config : OptimizerConfig}

/-! ### Pushes and pops -/

/-- The view of pushes and pops. -/
def bracketView : View Instruction where
  see i := if i.isBracket then some i else none
  see_static _ := rfl
  see_writeStatic _ _ := rfl
  see_writeParameter _ _ := rfl

/-- Frames are counted by pushes and pops alone. -/
theorem finalDepth?_seen (limit depth : Nat) (is : List Instruction) :
    finalDepth? limit depth (bracketView.seen is) = finalDepth? limit depth is := by
  induction is generalizing depth with
  | nil => rfl
  | cons i is ih =>
      rw [View.seen_cons]
      by_cases bracket : i.isBracket
      · have shown : bracketView.see i = some i := if_pos bracket
        rw [shown, Option.toList_some, List.singleton_append, finalDepth?, finalDepth?]
        exact congrArg _ (funext ih)
      · have hidden : bracketView.see i = none := if_neg bracket
        rw [hidden, Option.toList_none, List.nil_append, ih, finalDepth?,
          Instruction.climb?_of_not_bracket (Bool.eq_false_iff.2 bracket)]
        rfl

/-! ### Lower lists -/

/-- The list `js` gets by with the limits of `is` that a word can count, and ends no deeper. -/
def Lowers (is js : List Instruction) : Prop :=
  ∀ ⦃limit depth final : Nat⦄, limit < UInt32.size → depth ≤ limit →
    finalDepth? limit depth is = some final →
      ∃ final', finalDepth? limit depth js = some final' ∧ final' ≤ final

namespace Lowers

theorem refl (is : List Instruction) : Lowers is is :=
  fun _ _ final _ _ counts => ⟨final, counts, Nat.le_refl final⟩

theorem trans {is js ks : List Instruction} (h : Lowers is js) (h' : Lowers js ks) :
    Lowers is ks := by
  intro limit depth final word within counts
  obtain ⟨middle, counts, less⟩ := h word within counts
  obtain ⟨last, counts, less'⟩ := h' word within counts
  exact ⟨last, counts, Nat.le_trans less' less⟩

/-- An instruction may stand in front. -/
theorem cons {is js : List Instruction} (i : Instruction) (h : Lowers is js) :
    Lowers (i :: is) (i :: js) := by
  intro limit depth final word within counts
  obtain ⟨after, climbs, counts⟩ := finalDepth?_cons_eq_some_iff.1 counts
  obtain ⟨final', counts, less⟩ := h word ((Instruction.climb?_le climbs).1 within) counts
  exact ⟨final', finalDepth?_cons_eq_some_iff.2 ⟨after, climbs, counts⟩, less⟩

/-- A list with the same pushes and pops is as deep. -/
theorem of_seen_eq {is js : List Instruction} (h : bracketView.seen js = bracketView.seen is) :
    Lowers is js := by
  intro limit depth final _ _ counts
  rw [← finalDepth?_seen, ← h, finalDepth?_seen] at counts
  exact ⟨final, counts, Nat.le_refl final⟩

/-- Where all frames are closed at the end, they go on to be. -/
theorem closing {is js : List Instruction} (h : Lowers is js) {limit depth : Nat}
    (word : limit < UInt32.size) (within : depth ≤ limit)
    (counts : finalDepth? limit depth is = some 0) : finalDepth? limit depth js = some 0 := by
  obtain ⟨final, counts, less⟩ := h word within counts
  rwa [Nat.le_zero.1 less] at counts

end Lowers

/-- A pop of nothing does nothing. -/
theorem lowers_pop_zero (is : List Instruction) : Lowers (.pop 0 :: is) is := by
  intro limit depth final _ _ counts
  obtain ⟨after, climbs, counts⟩ := finalDepth?_cons_eq_some_iff.1 counts
  obtain ⟨_, rfl⟩ := Instruction.climb?_pop_eq_some_iff.1 climbs
  exact ⟨final, counts, Nat.le_refl final⟩

/-- Two pops are one.  Their sum is a word, since the frames that are open can be counted. -/
theorem lowers_pop_pop (count more : UInt32) (is : List Instruction) :
    Lowers (.pop count :: .pop more :: is) (.pop (count + more) :: is) := by
  intro limit depth final word within counts
  obtain ⟨after, climbs, counts⟩ := finalDepth?_cons_eq_some_iff.1 counts
  obtain ⟨first, rfl⟩ := Instruction.climb?_pop_eq_some_iff.1 climbs
  obtain ⟨after, climbs, counts⟩ := finalDepth?_cons_eq_some_iff.1 counts
  obtain ⟨second, rfl⟩ := Instruction.climb?_pop_eq_some_iff.1 climbs
  have sum : (count + more).toNat = count.toNat + more.toNat := by
    have size : UInt32.size = 2 ^ 32 := rfl
    rw [UInt32.toNat_add, Nat.mod_eq_of_lt]
    omega
  have joined : (Instruction.pop (count + more)).climb? limit depth =
      some (depth - count.toNat - more.toNat) :=
    Instruction.climb?_pop_eq_some_iff.2 ⟨by omega, by omega⟩
  exact ⟨final, finalDepth?_cons_eq_some_iff.2 ⟨_, joined, counts⟩, Nat.le_refl final⟩

/-- A pop that closes one frame less leaves as many open where one less was. -/
theorem finalDepth?_oneLess {count : UInt32} (closes : 0 < count.toNat) {limit depth : Nat}
    (opened : count.toNat ≤ depth + 1) (is : List Instruction) :
    finalDepth? limit depth (oneLess count ++ is) =
      finalDepth? limit (depth + 1 - count.toNat) is := by
  rcases oneLess_cases closes with ⟨single, gone⟩ | ⟨less, several, _, left⟩
  · rw [gone, single]
    rfl
  · have climbs : (Instruction.pop less).climb? limit depth = some (depth + 1 - count.toNat) :=
      Instruction.climb?_pop_eq_some_iff.2 ⟨by omega, by omega⟩
    rw [left, List.singleton_append, finalDepth?, climbs, Option.bind_some]

/-- What follows a push is as deep without it, one frame lower until the pop that closes the frame,
and for good if there is none. -/
theorem finalDepth?_of_release? {inner : Nat} {changed : Bool} {is js : List Instruction}
    (h : release? inner changed is = some js) {limit below final : Nat}
    (counts : finalDepth? limit (below + inner + 1) is = some final) :
    ∃ final', finalDepth? limit (below + inner) js = some final' ∧ final' ≤ final := by
  fun_induction release? inner changed is generalizing js below with
  | case1 =>
      cases h
      cases counts
      exact ⟨_, rfl, Nat.le_succ _⟩
  | case2 inner changed rest ih =>
      obtain ⟨js, hjs, rfl⟩ := Option.map_eq_some_iff.1 h
      obtain ⟨after, climbs, counts⟩ := finalDepth?_cons_eq_some_iff.1 counts
      obtain ⟨room, rfl⟩ := Instruction.climb?_push_eq_some_iff.1 climbs
      obtain ⟨final', counts, less⟩ := ih hjs counts
      refine ⟨final', finalDepth?_cons_eq_some_iff.2 ⟨below + (inner + 1), ?_, counts⟩, less⟩
      exact Instruction.climb?_push_eq_some_iff.2 ⟨by omega, rfl⟩
  | case3 inner changed count rest enough ih =>
      obtain ⟨js, hjs, rfl⟩ := Option.map_eq_some_iff.1 h
      obtain ⟨after, climbs, counts⟩ := finalDepth?_cons_eq_some_iff.1 counts
      obtain ⟨_, rfl⟩ := Instruction.climb?_pop_eq_some_iff.1 climbs
      have inside : below + inner + 1 - count.toNat = below + (inner - count.toNat) + 1 := by omega
      rw [inside] at counts
      obtain ⟨final', counts, less⟩ := ih hjs counts
      refine ⟨final', finalDepth?_cons_eq_some_iff.2 ⟨_, ?_, counts⟩, less⟩
      exact Instruction.climb?_pop_eq_some_iff.2 ⟨by omega, by omega⟩
  | case4 inner changed count rest closes _ =>
      cases h
      obtain ⟨after, climbs, counts⟩ := finalDepth?_cons_eq_some_iff.1 counts
      obtain ⟨opened, rfl⟩ := Instruction.climb?_pop_eq_some_iff.1 climbs
      rw [finalDepth?_oneLess (by omega) opened]
      exact ⟨final, counts, Nat.le_refl final⟩
  | case5 => cases h
  | case6 inner changed i rest notPush notPop ih =>
      obtain ⟨js, hjs, rfl⟩ := Option.map_eq_some_iff.1 h
      have inside := Instruction.isBracket_eq_false notPush notPop
      rw [finalDepth?, Instruction.climb?_of_not_bracket inside] at counts
      rw [finalDepth?, Instruction.climb?_of_not_bracket inside]
      exact ih hjs counts

/-- A push that may be dropped is dropped. -/
theorem lowers_of_release? {is js : List Instruction} (released : release? 0 false is = some js) :
    Lowers (.push :: is) js := by
  intro limit depth final _ _ counts
  obtain ⟨after, climbs, counts⟩ := finalDepth?_cons_eq_some_iff.1 counts
  obtain ⟨_, rfl⟩ := Instruction.climb?_push_eq_some_iff.1 climbs
  exact finalDepth?_of_release? released counts

/-- Joining pops lowers the depth. -/
theorem lowers_coalescePops (is : List Instruction) : Lowers is (coalescePops is) :=
  coalescePops_induction Lowers .refl .trans .cons lowers_pop_zero lowers_pop_pop is

/-- **Removing pushes lowers the depth.** -/
theorem lowers_removeRedundantPushes (is : List Instruction) :
    Lowers is (removeRedundantPushes is) :=
  (lowers_coalescePops is).trans
    (releasePushes_induction Lowers .refl .trans .cons lowers_of_release? _)

/-! ### Optimizations -/

theorem lowers_eliminateDead (is : List Instruction) : Lowers is (eliminateDead is) := by
  refine .of_seen_eq (bracketView.seen_eliminateDead ?_ is)
  intro i transform
  exact if_neg (Bool.eq_false_iff.1 (isBracket_of_isTransform transform))

theorem lowers_pass {pass : Pass} {table table' : FoldTable} {is js : List Instruction}
    (run : pass.run config table is = (table', .ok js)) : Lowers is js := by
  cases pass with
  | dead => cases run; exact lowers_eliminateDead is
  | push => cases run; exact lowers_removeRedundantPushes is
  | merge | simplify | fuse =>
      exact .of_seen_eq (bracketView.seen_pass Pass.noConfusion Pass.noConfusion run)

/-- **An optimization lowers the depth.** -/
theorem lowers_optimizeInstructions {table : FoldTable} {is js : List Instruction}
    (ok : (optimizeInstructions config table is).result = .ok js) : Lowers is js :=
  optimizeInstructions_induction (fun is _ js => Lowers is js) Lowers.refl
    (fun _ _ _ _ _ first second => first.trans second)
    (fun _ _ _ _ _ _ run => lowers_pass run) rfl ok

/-- The result gets by with any limit that is enough for the list. -/
theorem exists_finalDepth?_optimizeInstructions {table : FoldTable} {is js : List Instruction}
    (ok : (optimizeInstructions config table is).result = .ok js) {limit final : Nat}
    (capacity : limit < UInt32.size ∨ is.length < UInt32.size)
    (counts : finalDepth? limit 0 is = some final) :
    ∃ final', finalDepth? limit 0 js = some final' ∧ final' ≤ final := by
  have lower := lowers_optimizeInstructions ok
  rcases Nat.le_total limit is.length with small | large
  · exact lower (by omega) (Nat.zero_le limit) counts
  · -- the list does not notice if the limit is lowered, nor the result if it is raised again
    rcases capacity with word | short
    · exact lower word (Nat.zero_le limit) counts
    · have low : finalDepth? is.length 0 is = some final :=
        finalDepth?_of_limit counts (Nat.zero_le _) (.inr (Nat.le_of_eq (Nat.zero_add _)))
      obtain ⟨final', counts, less⟩ := lower short (Nat.zero_le _) low
      exact ⟨final', finalDepth?_of_limit counts (Nat.zero_le _) (.inl ⟨large, Nat.zero_le _⟩), less⟩

/-! ### Streams -/

/-- What is optimized can be decoded. -/
theorem exists_decodeAll_of_optimize {table : FoldTable} {words next : List UInt32}
    {stats : OptimizationStats}
    (ok : (optimize config table words).result = .ok (next, stats)) :
    ∃ is, Instruction.decodeAll words = .ok is := by
  cases decoded : Instruction.decodeAll words with
  | ok is => exact ⟨is, rfl⟩
  | error fault =>
      simp only [optimize, decoded] at ok
      cases ok

/-- **An optimization introduces no failure.**  What is run to its end is run to its end afterwards,
under the same limit and with the same parameters, and never has more frames open; a limit that is
enough for the pushes and pops of the stream is enough for those of the result, which end no deeper;
and a valid stream stays valid. -/
theorem optimize_introduces_no_failure {table : FoldTable} {words next : List UInt32}
    {stats : OptimizationStats}
    (ok : (optimize config table words).result = .ok (next, stats)) :
    (∀ (M : Type) (s : Setting M) (count : Nat),
      s.limit ≤ UInt32.size ∨ words.length < UInt32.size →
      (Stream.run s count words).status = .ok () →
        (Stream.run s count next).status = .ok () ∧
          Stream.peak s count next ≤ Stream.peak s count words) ∧
    (∀ is limit final, Instruction.decodeAll words = .ok is →
      limit < UInt32.size ∨ words.length < UInt32.size →
      finalDepth? limit 0 is = some final →
        ∃ js final', Instruction.decodeAll next = .ok js ∧
          finalDepth? limit 0 js = some final' ∧ final' ≤ final) ∧
    (words.length < UInt32.size → Stream.validate words = .ok () →
      Stream.validate next = .ok ()) := by
  obtain ⟨is, decoded⟩ := exists_decodeAll_of_optimize ok
  obtain ⟨js, optimized, _, decoded'⟩ := exists_list_of_optimize decoded ok
  have size := Instruction.length_le_of_decodeAll decoded
  have lower {limit final : Nat} (capacity : limit < UInt32.size ∨ words.length < UInt32.size)
      (counts : finalDepth? limit 0 is = some final) :
      ∃ final', finalDepth? limit 0 js = some final' ∧ final' ≤ final :=
    exists_finalDepth?_optimizeInstructions optimized
      (capacity.imp_right fun short => Nat.lt_of_le_of_lt size short) counts
  refine ⟨fun M s count capacity ends => ?_, fun is' limit final found capacity counts => ?_,
    fun short valid => ?_⟩
  · have word : s.limit - 1 < UInt32.size ∨ words.length < UInt32.size := by
      have positive : 0 < UInt32.size := by decide
      omega
    obtain ⟨is', found, ⟨final, counts⟩, supplied⟩ := Stream.status_eq_ok_iff.1 ends
    cases decoded.symm.trans found
    obtain ⟨final', counts', _⟩ := lower word counts
    have ends' : (Stream.run s count next).status = .ok () :=
      Stream.status_eq_ok_iff.2 ⟨js, decoded', ⟨final', counts'⟩,
        fun p read => supplied p ((reads_optimizeInstructions optimized).subset read)⟩
    -- what the stream reached at most is a limit that is enough for it
    have reached := (Stream.peak_le_iff decoded ends).2 ⟨final, counts⟩
    obtain ⟨last, enough⟩ := (Stream.peak_le_iff decoded ends).1 (Nat.le_refl _)
    obtain ⟨last', enough', _⟩ := lower (by omega) enough
    exact ⟨ends', (Stream.peak_le_iff decoded' ends').2 ⟨last', enough'⟩⟩
  · cases decoded.symm.trans found
    obtain ⟨final', counts', less⟩ := lower capacity counts
    exact ⟨js, final', decoded', counts', less⟩
  · have room := Nat.le_max_left words.length next.length
    have room' := Nat.le_max_right words.length next.length
    obtain ⟨is', found, balanced⟩ := (Stream.validate_eq_ok_iff room).1 valid
    cases decoded.symm.trans found
    obtain ⟨final', counts', less⟩ := lower (.inr short) balanced
    rw [Nat.le_zero.1 less] at counts'
    exact (Stream.validate_eq_ok_iff room').2 ⟨js, decoded', counts'⟩

/-- Two frames that one pop closes, the inner one opened for nothing. -/
def nestedList : List Instruction :=
  [.push, .parameter .rotateX 0, .push, .write 0, .pop 2, .static (.uniformScale (-.one)), .write 1]

/-- Its optimization, with one frame only. -/
def nestedListOptimized : List Instruction :=
  [.push, .parameter .rotateX 0, .write 0, .pop 1, .static (.uniformScale (-.one)), .write 1]

/-- A run of it with room for two frames besides the first, and the turn in the parameters. -/
def nestedSetting : Setting Mat4 := ⟨.matrices, ⟨List.replicate 4 0⟩, 3⟩

/-- The list is run to its end and valid, and so is its optimization, with no more frames open. -/
theorem optimize_introduces_no_failure_nested :
    ∃ stats, (optimize .standard .none (Instruction.encodeAll nestedList)).result =
        .ok (Instruction.encodeAll nestedListOptimized, stats) ∧
      (Stream.run nestedSetting 2 (Instruction.encodeAll nestedListOptimized)).status = .ok () ∧
      Stream.peak nestedSetting 2 (Instruction.encodeAll nestedListOptimized) ≤
        Stream.peak nestedSetting 2 (Instruction.encodeAll nestedList) ∧
      (∃ js final, Instruction.decodeAll (Instruction.encodeAll nestedListOptimized) = .ok js ∧
        finalDepth? 2 0 js = some final ∧ final ≤ 0) ∧
      Stream.validate (Instruction.encodeAll nestedListOptimized) = .ok () := by
  have decoded : Instruction.decodeAll (Instruction.encodeAll nestedList) = .ok nestedList :=
    Instruction.decodeAll_encodeAll (by decide)
  have optimized : (optimizeInstructions .standard .none nestedList).result =
      .ok nestedListOptimized := by decide +kernel
  have ends : (Stream.run nestedSetting 2 (Instruction.encodeAll nestedList)).status = .ok () := by
    rw [Stream.run_eq_exec _ _ decoded]
    decide +kernel
  have short : (Instruction.encodeAll nestedList).length < UInt32.size := by decide +kernel
  obtain ⟨stats, ok, _⟩ := optimize_eq_ok decoded optimized
  obtain ⟨runs, limits, valid⟩ := optimize_introduces_no_failure ok
  obtain ⟨ends', lower⟩ := runs Mat4 nestedSetting 2 (.inr short) ends
  exact ⟨stats, ok, ends', lower, limits _ 2 0 decoded (.inr short) (by decide +kernel),
    valid short (by decide +kernel)⟩

end Armature
