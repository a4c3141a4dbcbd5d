/-
**The path to a write.**

What is stored at a write is the product of the local transforms on the way to it: those that act on
its frame, those that acted on the frame around it before it was opened, and so on outwards.  The
path of a write is the list of these transforms, the outermost first.  It is found by running the
list with paths in place of matrices; every other run is an image of that one.

Main definitions:

* `Interpretation.paths`, `Stream.paths?` — the interpretation by paths, and the paths to the writes
  of a stream;
* `Interpretation.along`, `product` — what a path comes to, in general and in a monoid;
* `Interpretation.Hom` — one interpretation is the image of another.

Main results:

* `journal_map` — **the image of a journal is the journal of the image**;
* `Stream.result_eq_ok_iff_paths` — **a run goes to its end exactly if there are paths, and stores
  what they come to**.
-/

import Armature.Proofs.Evaluate.Journal
import Armature.Proofs.Interpretation

set_option autoImplicit false

namespace Armature

/-! ### Images -/

/-- The interpretation `J` is the image of `I`. -/
structure Interpretation.Hom {M N : Type} (I : Interpretation M) (J : Interpretation N)
    (f : M → N) : Prop where
  /-- The first frame goes over to the first frame. -/
  identity : f I.identity = J.identity
  /-- To multiply by a transform goes over to the same. -/
  compose : ∀ x t, f (I.compose x (I.ofTransform t)) = J.compose (f x) (J.ofTransform t)

section Images

variable {M N : Type} {I : Interpretation M} {J : Interpretation N} {f : M → N}
  {block : ParameterBlock} {limit : Nat}

/-- The values of writes go over. -/
def mapWrites (f : M → N) (ws : List (UInt32 × M)) : List (UInt32 × N) := ws.map (Prod.map id f)

/-- Several factors at once go over as well. -/
theorem Interpretation.Hom.foldl (hom : I.Hom J f) (x : M) (ts : List Transform) :
    f ((ts.map I.ofTransform).foldl I.compose x) =
      (ts.map J.ofTransform).foldl J.compose (f x) := by
  induction ts generalizing x with
  | nil => rfl
  | cons t ts ih =>
      rw [List.map_cons, List.map_cons, List.foldl_cons, List.foldl_cons, ih, hom.compose]

/-- The effect of an instruction goes over. -/
theorem Instruction.effect?_map (hom : I.Hom J f) (top : M) (i : Instruction) :
    i.effect? ⟨J, block, limit⟩ (f top) =
      (i.effect? ⟨I, block, limit⟩ top).map (Prod.map f (mapWrites f)) := by
  cases i with
  | push | pop | comment | write => rfl
  | static t =>
      simp only [effect?, Option.map_some, Prod.map_apply, hom.compose]
      rfl
  | writeStatic slot matrix =>
      simp only [effect?, Option.map_some, Prod.map_apply, mapWrites, List.map_cons, List.map_nil,
        hom.compose, id]
  | binding name defaults =>
      simp only [effect?, Option.map_some, Prod.map_apply, hom.foldl]
      rfl
  | parameter shape offset =>
      simp only [effect?, Setting.parameter]
      cases block.readTransform shape offset with
      | error fault => rfl
      | ok t =>
          simp only [Except.map, Except.toOption, Option.map_some, Prod.map_apply, hom.compose]
          rfl
  | writeParameter slot offset =>
      simp only [effect?, Setting.parameter]
      cases block.readTransform .float4x4 offset with
      | error fault => rfl
      | ok t =>
          simp only [Except.map, Except.toOption, Option.map_some, Prod.map_apply, mapWrites,
            List.map_cons, List.map_nil, hom.compose, id]

/-- **The image of a journal is the journal of the image.** -/
theorem journal_map (hom : I.Hom J f) (frames : List M) (is : List Instruction) :
    journal ⟨J, block, limit⟩ (frames.map f) is =
      (journal ⟨I, block, limit⟩ frames is).map (mapWrites f) := by
  induction is generalizing frames with
  | nil => cases frames <;> rfl
  | cons i is ih =>
      cases frames with
      | nil => rfl
      | cons top below =>
          cases i using Instruction.bracketCases with
          | push =>
              rw [List.map_cons, journal_push, journal_push, List.length_map]
              split
              · exact ih (top :: top :: below)
              · rfl
          | pop count =>
              rw [List.map_cons, journal_pop, journal_pop, List.length_map]
              split
              · rw [← List.map_cons, ← List.map_drop]
                exact ih _
              · rfl
          | inside i hb =>
              rw [List.map_cons, journal_of_not_bracket hb, journal_of_not_bracket hb,
                Instruction.effect?_map hom]
              cases i.effect? ⟨I, block, limit⟩ top with
              | none => rfl
              | some p =>
                  obtain ⟨frame, written⟩ := p
                  simp only [Option.map_some, Option.bind_some, Prod.map_apply]
                  rw [← List.map_cons, ih]
                  cases journal ⟨I, block, limit⟩ (frame :: below) is with
                  | none => rfl
                  | some ws => simp only [Option.map_some, mapWrites, List.map_append]

end Images

/-! ### Paths -/

/-- Frames as the local transforms on the way to them, the outermost first. -/
def Interpretation.paths : Interpretation (List Transform) := ⟨[], (· ++ ·), fun t => [t]⟩

/-- What a path comes to, from the outermost transform on. -/
def Interpretation.along {M : Type} (I : Interpretation M) (path : List Transform) : M :=
  path.foldl (fun x t => I.compose x (I.ofTransform t)) I.identity

/-- Every interpretation is the image of paths. -/
theorem Interpretation.hom_along {M : Type} (I : Interpretation M) :
    Interpretation.paths.Hom I I.along where
  identity := rfl
  compose _ _ := List.foldl_concat ..

/-- What a path comes to in a monoid. -/
def product {M : Type} [Monoid M] (value : Mat4 → M) (path : List Transform) : M :=
  (path.map fun t => value t.toMatrix).prod

theorem along_ofMonoid {M : Type} [Monoid M] (value : Mat4 → M) (path : List Transform) :
    (Interpretation.ofMonoid value).along path = product value path := by
  rw [product, List.prod_eq_foldl, List.foldl_map]
  rfl

/-- The paths to the writes of a stream, with the slots of these. -/
def Stream.paths? (limit : Nat) (block : ParameterBlock) (words : List UInt32) :
    Option (List (UInt32 × List Transform)) :=
  (Instruction.decodeAll words).toOption.bind (journal ⟨.paths, block, limit⟩ [[]])

/-- **A run goes to its end exactly if there are paths to its writes**, and its slots hold what
these come to. -/
theorem Stream.result_eq_ok_iff_paths {M : Type} {s : Setting M} {count : Nat}
    {words : List UInt32} {outputs : Array M} :
    (Stream.run s count words).result = .ok outputs ↔
      ∃ ps, Stream.paths? s.limit s.block words = some ps ∧
        outputs = enter (Array.replicate count s.interpretation.identity)
          (mapWrites s.interpretation.along ps) := by
  have image (is : List Instruction) :
      journal s [s.interpretation.identity] is =
        (journal ⟨.paths, s.block, s.limit⟩ [[]] is).map (mapWrites s.interpretation.along) :=
    journal_map s.interpretation.hom_along [[]] is
  rw [Stream.result_eq_ok_iff, paths?]
  cases Instruction.decodeAll words with
  | error fault => simp [Except.toOption]
  | ok is =>
      simp only [Except.ok.injEq, image, Option.map_eq_some_iff, Except.toOption, Option.bind_some]
      constructor
      · rintro ⟨_, _, rfl, ⟨ps, found, rfl⟩, entered⟩
        exact ⟨ps, found, entered⟩
      · rintro ⟨ps, found, entered⟩
        exact ⟨is, _, rfl, ⟨ps, found, rfl⟩, entered⟩

end Armature
