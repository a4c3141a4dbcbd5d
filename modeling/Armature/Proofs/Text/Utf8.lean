/-
**Reading back a text that was cut.**

The bytes of a text are read back as the text.  If only the first of them are left, then the
characters are read back whose bytes are all there; a character of which only some bytes are there
is read as one replacement, however many bytes these are.

Main definitions:

* `Utf8.Fits`, `Utf8.assemble` — bytes that can follow a first one, and the number they make up;
* `Utf8.Leads` — a first byte announces exactly the bytes that follow it;
* `Utf8.fitting` — as many whole characters of a text as there is room for.

Main results:

* `Utf8.encodeChar_cases` — a character is one byte below `0x80`, or a first byte and what it
  announces;
* `Utf8.decode_encode_append` — **a text is read back, whatever follows it**;
* `Utf8.fitting_longest` — what fits is the longest beginning for which there is room;
* `Utf8.decode_take_encode` — **a text that was cut is read back as far as there was room**, with a
  replacement behind it if the cut went through a character.
-/

import Armature.Text.Utf8
import Mathlib.Data.List.Basic

set_option autoImplicit false

namespace Armature.Text.Utf8

variable {low high b : UInt8} {part more tail : List UInt8} {n code room : Nat} {c : Char}
  {text other : List Char}

/-! ### Bytes that follow -/

/-- The bytes can follow a first one: the first of them is between `low` and `high`, and the others
are bytes of which any can follow. -/
def Fits (low high : UInt8) : List UInt8 → Prop
  | [] => True
  | b :: rest => low ≤ b ∧ b ≤ high ∧ Fits 0x80 0xbf rest

/-- The number that the bytes make up behind the leading bits. -/
def assemble (code : Nat) : List UInt8 → Nat
  | [] => code
  | b :: rest => assemble (code * 64 + b.toNat % 64) rest

theorem Fits.of_append (fits : Fits low high (part ++ more)) : Fits low high part := by
  induction part generalizing low high with
  | nil => trivial
  | cons b rest ih => exact ⟨fits.1, fits.2.1, ih fits.2.2⟩

/-- Bytes that are all there are read. -/
theorem follow_append (fits : Fits low high tail) (code : Nat) (more : List UInt8) :
    follow tail.length low high code (tail ++ more) = (tail.length, some (assemble code tail)) := by
  induction tail generalizing low high code with
  | nil => rfl
  | cons b rest ih =>
      obtain ⟨above, below, rest_fits⟩ := fits
      rw [List.length_cons, List.cons_append, follow, if_pos (by simp [above, below]),
        ih rest_fits]
      rfl

/-- Bytes of which the last are missing are gone over. -/
theorem follow_of_lt (fits : Fits low high part) (missing : part.length < n) (code : Nat) :
    follow n low high code part = (part.length, none) := by
  induction part generalizing low high code n with
  | nil =>
      cases n with
      | zero => cases missing
      | succ n => rfl
  | cons b rest ih =>
      obtain ⟨above, below, rest_fits⟩ := fits
      cases n with
      | zero => cases missing
      | succ n =>
          rw [follow, if_pos (by simp [above, below]),
            ih rest_fits (Nat.lt_of_succ_lt_succ missing)]
          rfl

/-! ### First bytes -/

/-- The byte begins a character of several bytes: it announces as many as there are in `tail`, these
can follow it, and together they make up the number. -/
structure Leads (b : UInt8) (tail : List UInt8) (code : Nat) : Prop where
  /-- The byte is no character of its own. -/
  long : 0x80 ≤ b
  /-- What it announces is what follows. -/
  announced : ∃ l, lead? b = some l ∧ l.following = tail.length ∧ Fits l.low l.high tail ∧
    assemble l.bits tail = code

theorem Fits.le_of_mem (fits : Fits low high tail) (above : 0x80 ≤ low) (mem : b ∈ tail) :
    0x80 ≤ b := by
  induction tail generalizing low high with
  | nil => cases mem
  | cons d rest ih =>
      obtain rfl | mem := List.mem_cons.mp mem
      · exact UInt8.le_trans above fits.1
      · exact ih fits.2.2 (UInt8.le_refl _) mem

theorem le_low_of_lead? {l : Lead} (lead : lead? b = some l) : 0x80 ≤ l.low := by
  unfold lead? at lead
  repeat' split at lead
  all_goals cases lead
  all_goals
    dsimp only
    decide

theorem Leads.le_of_mem {d : UInt8} (leads : Leads b tail code) (mem : d ∈ b :: tail) :
    0x80 ≤ d := by
  obtain ⟨l, lead, -, fits, -⟩ := leads.announced
  obtain rfl | mem := List.mem_cons.mp mem
  · exact leads.long
  · exact fits.le_of_mem (le_low_of_lead? lead) mem

/-- A character that is all there is read, and taken off with all its bytes. -/
theorem Leads.readChar_append (leads : Leads b tail code) (more : List UInt8) :
    readChar b (tail ++ more) = (Char.ofNat code, tail.length) := by
  obtain ⟨l, lead, following, fits, rfl⟩ := leads.announced
  rw [readChar, if_neg (UInt8.not_lt.mpr leads.long), lead]
  simp only [following, follow_append fits]

/-- A character whose last bytes are missing is replaced, and taken off with all that is there. -/
theorem Leads.readChar_of_lt (leads : Leads b tail code) (begins : part <+: tail)
    (missing : part.length < tail.length) : readChar b part = (replacement, part.length) := by
  obtain ⟨l, lead, following, fits, -⟩ := leads.announced
  obtain ⟨rest, rfl⟩ := begins
  rw [readChar, if_neg (UInt8.not_lt.mpr leads.long), lead]
  simp only [following, follow_of_lt fits.of_append missing]

theorem toNat_ofNat_of_lt (small : n < 256) : (UInt8.ofNat n).toNat = n := by
  rw [UInt8.toNat_ofNat', Nat.mod_eq_of_lt small]

/-- The byte that carries the lowest six bits of a number. -/
def sixBits (n : Nat) : UInt8 := UInt8.ofNat (n % 64 + 128)

theorem toNat_sixBits (n : Nat) : (sixBits n).toNat = n % 64 + 128 :=
  toNat_ofNat_of_lt (by omega)

theorem fits_sixBits_cons (above : low.toNat ≤ n % 64 + 128) (below : n % 64 + 128 ≤ high.toNat)
    (fits : Fits 0x80 0xbf tail) : Fits low high (sixBits n :: tail) := by
  refine ⟨?_, ?_, fits⟩
  · rwa [UInt8.le_iff_toNat_le, toNat_sixBits]
  · rwa [UInt8.le_iff_toNat_le, toNat_sixBits]

/-- A byte with six bits can follow wherever nothing more is asked. -/
theorem fits_sixBits (n : Nat) (fits : Fits 0x80 0xbf tail) : Fits 0x80 0xbf (sixBits n :: tail) :=
  fits_sixBits_cons (by simp only [UInt8.reduceToNat]; omega)
    (by simp only [UInt8.reduceToNat]; omega) fits

theorem lead?_two (above : 0xc2 ≤ b.toNat) (below : b.toNat < 0xe0) :
    lead? b = some ⟨1, 0x80, 0xbf, b.toNat % 32⟩ := by
  simp only [lead?, UInt8.lt_iff_toNat_lt, UInt8.reduceToNat]
  rw [if_neg (by omega), if_pos below]

theorem lead?_three (above : 0xe0 ≤ b.toNat) (below : b.toNat < 0xf0) :
    lead? b = some ⟨2, if b = 0xe0 then 0xa0 else 0x80, if b = 0xed then 0x9f else 0xbf,
      b.toNat % 16⟩ := by
  simp only [lead?, UInt8.lt_iff_toNat_lt, UInt8.reduceToNat]
  rw [if_neg (by omega), if_neg (by omega), if_pos below]

theorem lead?_four (above : 0xf0 ≤ b.toNat) (below : b.toNat < 0xf5) :
    lead? b = some ⟨3, if b = 0xf0 then 0x90 else 0x80, if b = 0xf4 then 0x8f else 0xbf,
      b.toNat % 8⟩ := by
  simp only [lead?, UInt8.lt_iff_toNat_lt, UInt8.reduceToNat]
  rw [if_neg (by omega), if_neg (by omega), if_neg (by omega), if_pos below]

theorem leads_two (above : 0x7f < n) (below : n ≤ 0x7ff) :
    Leads (UInt8.ofNat (n / 64 % 32 + 192)) [sixBits n] n := by
  have byte := toNat_ofNat_of_lt (show n / 64 % 32 + 192 < 256 by omega)
  refine ⟨?_, _, lead?_two (by omega) (by omega), rfl, fits_sixBits n trivial, ?_⟩
  · rw [UInt8.le_iff_toNat_le, byte]
    exact Nat.le_trans (by decide) (Nat.le_add_left 192 _)
  · simp only [assemble, byte, toNat_sixBits]
    omega

-- The bounds on the second byte leave out the long forms and the surrogates: that the number is
-- above the forms of two bytes, and no surrogate, is what the second byte needs.
theorem leads_three (above : 0x7ff < n) (below : n ≤ 0xffff) (valid : n < 0xd800 ∨ 0xdfff < n) :
    Leads (UInt8.ofNat (n / 4096 % 16 + 224)) [sixBits (n / 64), sixBits n] n := by
  have byte := toNat_ofNat_of_lt (show n / 4096 % 16 + 224 < 256 by omega)
  refine ⟨?_, _, lead?_three (by omega) (by omega), rfl,
    fits_sixBits_cons ?_ ?_ (fits_sixBits n trivial), ?_⟩
  · rw [UInt8.le_iff_toNat_le, byte]
    exact Nat.le_trans (by decide) (Nat.le_add_left 224 _)
  · simp only [← UInt8.toNat_inj, byte, UInt8.reduceToNat]
    split <;> simp only [UInt8.reduceToNat] <;> omega
  · simp only [← UInt8.toNat_inj, byte, UInt8.reduceToNat]
    split <;> simp only [UInt8.reduceToNat] <;> omega
  · simp only [assemble, byte, toNat_sixBits]
    omega

theorem leads_four (above : 0xffff < n) (valid : n < 0x110000) :
    Leads (UInt8.ofNat (n / 262144 % 8 + 240)) [sixBits (n / 4096), sixBits (n / 64), sixBits n]
      n := by
  have byte := toNat_ofNat_of_lt (show n / 262144 % 8 + 240 < 256 by omega)
  refine ⟨?_, _, lead?_four (by omega) (by omega), rfl,
    fits_sixBits_cons ?_ ?_ (fits_sixBits _ (fits_sixBits n trivial)), ?_⟩
  · rw [UInt8.le_iff_toNat_le, byte]
    exact Nat.le_trans (by decide) (Nat.le_add_left 240 _)
  · simp only [← UInt8.toNat_inj, byte, UInt8.reduceToNat]
    split <;> simp only [UInt8.reduceToNat] <;> omega
  · simp only [← UInt8.toNat_inj, byte, UInt8.reduceToNat]
    split <;> simp only [UInt8.reduceToNat] <;> omega
  · simp only [assemble, byte, toNat_sixBits]
    omega

/-! ### Characters -/

/-- The bytes of a character, by the size of its number. -/
theorem encodeChar_eq (c : Char) : String.utf8EncodeChar c =
    if c.toNat ≤ 0x7f then [UInt8.ofNat c.toNat]
    else if c.toNat ≤ 0x7ff then [UInt8.ofNat (c.toNat / 64 % 32 + 192), sixBits c.toNat]
    else if c.toNat ≤ 0xffff then
      [UInt8.ofNat (c.toNat / 4096 % 16 + 224), sixBits (c.toNat / 64), sixBits c.toNat]
    else
      [UInt8.ofNat (c.toNat / 262144 % 8 + 240), sixBits (c.toNat / 4096), sixBits (c.toNat / 64),
        sixBits c.toNat] := rfl

/-- A character is one byte, or a first byte and what it announces. -/
theorem encodeChar_cases (c : Char) :
    (c.toNat < 0x80 ∧ String.utf8EncodeChar c = [UInt8.ofNat c.toNat]) ∨
      ∃ b tail, String.utf8EncodeChar c = b :: tail ∧ Leads b tail c.toNat := by
  have valid : c.toNat < 0xd800 ∨ 0xdfff < c.toNat ∧ c.toNat < 0x110000 := c.valid
  rw [encodeChar_eq]
  split
  · exact .inl ⟨by omega, rfl⟩
  · split
    · exact .inr ⟨_, _, rfl, leads_two (by omega) (by omega)⟩
    · split
      · exact .inr ⟨_, _, rfl, leads_three (by omega) (by omega) (by omega)⟩
      · exact .inr ⟨_, _, rfl, leads_four (by omega) (by omega)⟩

theorem decode_cons (b : UInt8) (rest : List UInt8) :
    decode (b :: rest) = (readChar b rest).1 :: decode (rest.drop (readChar b rest).2) := by
  rw [decode]

/-- A character is read back, whatever follows it. -/
theorem decode_encodeChar_append (c : Char) (more : List UInt8) :
    decode (String.utf8EncodeChar c ++ more) = c :: decode more := by
  obtain ⟨short, bytes⟩ | ⟨b, tail, bytes, leads⟩ := encodeChar_cases c
  · have byte := toNat_ofNat_of_lt (show c.toNat < 256 by omega)
    have read : readChar (UInt8.ofNat c.toNat) more = (c, 0) := by
      rw [readChar, if_pos (by rw [UInt8.lt_iff_toNat_lt, byte]; exact short), byte,
        Char.ofNat_toNat]
    rw [bytes, List.singleton_append, decode_cons, read, List.drop_zero]
  · rw [bytes, List.cons_append, decode_cons, leads.readChar_append, Char.ofNat_toNat,
      List.drop_left]

/-- A character that was cut is read as one replacement. -/
theorem decode_take_encodeChar (some_left : 0 < n) (missing : n < c.utf8Size) :
    decode ((String.utf8EncodeChar c).take n) = [replacement] := by
  rw [← String.length_utf8EncodeChar] at missing
  obtain ⟨-, bytes⟩ | ⟨b, tail, bytes, leads⟩ := encodeChar_cases c
  · rw [bytes, List.length_singleton] at missing
    omega
  · obtain ⟨n, rfl⟩ : ∃ m, n = m + 1 := ⟨n - 1, by omega⟩
    rw [bytes, List.length_cons] at missing
    have left : (tail.take n).length = n := List.length_take_of_le (by omega)
    rw [bytes, List.take_succ_cons, decode_cons,
      leads.readChar_of_lt (List.take_prefix n tail) (by omega), left,
      List.drop_of_length_le (Nat.le_of_eq left), decode]

/-! ### Texts -/

@[simp] theorem encode_nil : encode [] = [] := rfl

@[simp] theorem encode_cons (c : Char) (text : List Char) :
    encode (c :: text) = String.utf8EncodeChar c ++ encode text := List.flatMap_cons

theorem encode_append (text other : List Char) :
    encode (text ++ other) = encode text ++ encode other := List.flatMap_append

theorem length_encode_cons (c : Char) (text : List Char) :
    (encode (c :: text)).length = c.utf8Size + (encode text).length := by
  rw [encode_cons, List.length_append, String.length_utf8EncodeChar]

theorem length_encode_toList (text : String) : (encode text.toList).length = text.utf8ByteSize := by
  rw [← String.size_toByteArray, ← String.utf8Encode_toList, List.utf8Encode, encode]
  simp

/-- **A text is read back, whatever follows it.** -/
theorem decode_encode_append (text : List Char) (more : List UInt8) :
    decode (encode text ++ more) = text ++ decode more := by
  induction text with
  | nil => rfl
  | cons c rest ih =>
      rw [encode_cons, List.append_assoc, decode_encodeChar_append, ih, List.cons_append]

/-- Only the character `U+0000` has a byte that is zero. -/
theorem zero_not_mem_encodeChar (plain : c ≠ '\x00') : 0 ∉ String.utf8EncodeChar c := by
  obtain ⟨short, bytes⟩ | ⟨b, tail, bytes, leads⟩ := encodeChar_cases c
  · rw [bytes, List.mem_singleton]
    intro zero
    have byte := toNat_ofNat_of_lt (show c.toNat < 256 by omega)
    rw [← zero] at byte
    exact plain (Char.toNat_inj.mp byte.symm)
  · rw [bytes]
    exact fun mem => absurd (leads.le_of_mem mem) (by decide)

theorem zero_not_mem_encode (plain : '\x00' ∉ text) : 0 ∉ encode text := by
  intro mem
  obtain ⟨c, c_mem, byte_mem⟩ := List.mem_flatMap.mp mem
  exact zero_not_mem_encodeChar (fun eq => plain (eq ▸ c_mem)) byte_mem

/-- As many whole characters of a text as there is room for. -/
def fitting (room : Nat) : List Char → List Char
  | [] => []
  | c :: rest => if c.utf8Size ≤ room then c :: fitting (room - c.utf8Size) rest else []

theorem fitting_isPrefix (room : Nat) (text : List Char) : fitting room text <+: text := by
  induction text generalizing room with
  | nil => exact List.prefix_rfl
  | cons c rest ih =>
      rw [fitting]
      split
      · exact (List.prefix_cons_inj c).mpr (ih _)
      · exact List.nil_prefix

theorem length_encode_fitting_le (room : Nat) (text : List Char) :
    (encode (fitting room text)).length ≤ room := by
  induction text generalizing room with
  | nil => exact Nat.zero_le room
  | cons c rest ih =>
      rw [fitting]
      split
      · rw [length_encode_cons]
        have := ih (room - c.utf8Size)
        omega
      · exact Nat.zero_le room

/-- What fits is the longest beginning for which there is room. -/
theorem fitting_longest (begins : other <+: text) (fits : (encode other).length ≤ room) :
    other <+: fitting room text := by
  induction text generalizing other room with
  | nil => exact begins
  | cons c rest ih =>
      obtain rfl | ⟨other, rfl, rest_begins⟩ := List.prefix_cons_iff.mp begins
      · exact List.nil_prefix
      · rw [length_encode_cons] at fits
        rw [fitting, if_pos (by omega)]
        exact (List.prefix_cons_inj c).mpr (ih rest_begins (by omega))

theorem fitting_of_le (fits : (encode text).length ≤ room) : fitting room text = text :=
  (fitting_isPrefix room text).eq_of_length_le (fitting_longest List.prefix_rfl fits).length_le

/-- Behind what fits stands nothing, or a character for which there is no room any more. -/
theorem exists_rest_of_fitting (room : Nat) (text : List Char) :
    ∃ rest, text = fitting room text ++ rest ∧
      ∀ c ∈ rest.head?, room < (encode (fitting room text)).length + c.utf8Size := by
  induction text generalizing room with
  | nil => exact ⟨[], rfl, nofun⟩
  | cons c text ih =>
      by_cases whole : c.utf8Size ≤ room
      · obtain ⟨rest, split, full⟩ := ih (room - c.utf8Size)
        rw [fitting, if_pos whole]
        refine ⟨rest, congrArg (c :: ·) split, fun next first => ?_⟩
        have := full next first
        rw [length_encode_cons]
        omega
      · rw [fitting, if_neg whole]
        refine ⟨c :: text, rfl, fun next first => ?_⟩
        cases first
        rw [encode_nil, List.length_nil]
        omega

/-- **A text that was cut is read back as far as there was room**, with a replacement behind it if
the cut went through a character. -/
theorem decode_take_encode (room : Nat) (text : List Char) :
    decode ((encode text).take room) = fitting room text ++
      if (encode (fitting room text)).length < min room (encode text).length then [replacement]
      else [] := by
  have fits := length_encode_fitting_le room text
  obtain ⟨rest, split, full⟩ := exists_rest_of_fitting room text
  generalize fitting room text = shown at fits split full ⊢
  subst split
  -- what fits is read back, and what is left are the first bytes of the character behind it
  rw [encode_append, List.take_append, List.take_of_length_le fits, decode_encode_append,
    List.length_append]
  congr 1
  cases rest with
  | nil => rw [encode_nil, List.take_nil, List.length_nil, if_neg (by omega), decode]
  | cons c rest =>
      have size := String.length_utf8EncodeChar c
      have large := full c rfl
      rw [length_encode_cons, encode_cons, List.take_append_of_le_length (by omega)]
      by_cases cut : (encode shown).length < room
      · rw [decode_take_encodeChar (Nat.sub_pos_of_lt cut) (by omega), if_pos (by omega)]
      · rw [Nat.sub_eq_zero_of_le (Nat.le_of_not_lt cut), List.take_zero, decode,
          if_neg (by omega)]

end Armature.Text.Utf8
