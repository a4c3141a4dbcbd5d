/-
**Words and bytes.**

Streams are lists of 32-bit words.  Their byte image has each word with its lowest byte first, and
a list of bytes is the image of words exactly when its length is a multiple of four.

Main definitions:

* `Word.toBytes`, `Word.ofBytes` — the four bytes of one word;
* `Word.image`, `Word.parse` — the bytes of a list of words, and back.

Main results:

* `Word.parse_image`, `Word.image_parse` — words and whole words of bytes correspond.
-/

set_option autoImplicit false

namespace Armature.Word

/-- The byte of `w` at the given shift. -/
def byteAt (w shift : UInt32) : UInt8 := (w >>> shift).toUInt8

/-- The four bytes of a word, lowest first. -/
def toBytes (w : UInt32) : List UInt8 := [byteAt w 0, byteAt w 8, byteAt w 16, byteAt w 24]

/-- The word with these four bytes, lowest first. -/
def ofBytes (a b c d : UInt8) : UInt32 :=
  a.toUInt32 ||| b.toUInt32 <<< 8 ||| c.toUInt32 <<< 16 ||| d.toUInt32 <<< 24

/-- The bytes of the words, one after another. -/
def image (words : List UInt32) : List UInt8 := words.flatMap toBytes

/-- The words of which the bytes are the image; up to three bytes left over are not read. -/
def parse : List UInt8 → List UInt32
  | a :: b :: c :: d :: rest => ofBytes a b c d :: parse rest
  | _ => []

@[simp] theorem length_image (words : List UInt32) : (image words).length = 4 * words.length := by
  induction words with
  | nil => rfl
  | cons w words ih =>
    simp only [image, List.flatMap_cons, List.length_append, List.length_cons] at ih ⊢
    simp only [ih, toBytes, List.length_cons, List.length_nil]
    omega

theorem length_parse (bytes : List UInt8) : (parse bytes).length = bytes.length / 4 := by
  fun_induction parse bytes with
  | case1 a b c d rest ih => simp only [List.length_cons, ih]; omega
  | case2 bytes h =>
    match bytes, h with
    | [], _ | [_], _ | [_, _], _ | [_, _, _], _ => simp
    | a :: b :: c :: d :: rest, h => exact (h a b c d rest rfl).elim

/-- A byte of a word as a number. -/
theorem toNat_byteAt (w : UInt32) {shift : UInt32} (h : shift.toNat < 32) :
    (byteAt w shift).toNat = (w.toNat >>> shift.toNat) % 256 := by
  simp [byteAt, Nat.mod_eq_of_lt h]

/-- The four bytes are the digits of the word to the base 256. -/
theorem toNat_ofBytes (a b c d : UInt8) :
    (ofBytes a b c d).toNat = ((d.toNat * 256 + c.toNat) * 256 + b.toNat) * 256 + a.toNat := by
  have ha := a.toNat_lt
  have hb := b.toNat_lt
  have hc := c.toNat_lt
  have hd := d.toNat_lt
  have shifted : ∀ (x : UInt8) (k : Nat), k ≤ 24 → x.toNat <<< k < 4294967296 := by
    intro x k hk
    rw [Nat.shiftLeft_eq]
    calc x.toNat * 2 ^ k ≤ 255 * 2 ^ 24 :=
          Nat.mul_le_mul (by have := x.toNat_lt; omega) (Nat.pow_le_pow_right (by decide) hk)
      _ < 4294967296 := by decide
  simp only [ofBytes, UInt32.toNat_or, UInt32.toNat_shiftLeft, UInt8.toNat_toUInt32,
    UInt32.toNat_ofNat, Nat.reducePow, Nat.reduceMod]
  rw [Nat.mod_eq_of_lt (shifted b 8 (by decide)), Nat.mod_eq_of_lt (shifted c 16 (by decide)),
    Nat.mod_eq_of_lt (shifted d 24 (by decide)), Nat.or_comm a.toNat,
    ← Nat.shiftLeft_add_eq_or_of_lt (by omega), Nat.or_comm _ (c.toNat <<< 16),
    ← Nat.shiftLeft_add_eq_or_of_lt (by rw [Nat.shiftLeft_eq]; omega),
    Nat.or_comm _ (d.toNat <<< 24),
    ← Nat.shiftLeft_add_eq_or_of_lt (by simp only [Nat.shiftLeft_eq]; omega)]
  simp only [Nat.shiftLeft_eq]
  omega

@[simp] theorem toBytes_ofBytes (a b c d : UInt8) : toBytes (ofBytes a b c d) = [a, b, c, d] := by
  have ha := a.toNat_lt
  have hb := b.toNat_lt
  have hc := c.toNat_lt
  have hd := d.toNat_lt
  simp only [toBytes, List.cons.injEq, and_true, ← UInt8.toNat_inj]
  refine ⟨?_, ?_, ?_, ?_⟩ <;> rw [toNat_byteAt _ (by decide), toNat_ofBytes] <;> simp <;> omega

@[simp] theorem ofBytes_byteAt (w : UInt32) :
    ofBytes (byteAt w 0) (byteAt w 8) (byteAt w 16) (byteAt w 24) = w := by
  have hw := w.toNat_lt
  rw [← UInt32.toNat_inj, toNat_ofBytes]
  iterate 4 rw [toNat_byteAt _ (by decide)]
  simp
  omega

/-- Reading the image gives back the words. -/
@[simp] theorem parse_image (words : List UInt32) : parse (image words) = words := by
  induction words with
  | nil => rfl
  | cons w words ih =>
    rw [image] at ih
    simp [image, toBytes, parse, ih]

/-- Whole words read from bytes have these bytes as their image. -/
theorem image_parse {bytes : List UInt8} (h : bytes.length % 4 = 0) :
    image (parse bytes) = bytes := by
  fun_induction parse bytes with
  | case1 a b c d rest ih =>
    have := ih (by simp only [List.length_cons] at h; omega)
    rw [image] at this
    simp [image, this]
  | case2 bytes short =>
    match bytes, h, short with
    | [], _, _ => rfl
    | [_], h, _ | [_, _], h, _ | [_, _, _], h, _ => simp at h
    | a :: b :: c :: d :: rest, _, short => exact (short a b c d rest rfl).elim
end Armature.Word
