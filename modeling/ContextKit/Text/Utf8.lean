import Mathlib.Data.List.Basic
import Mathlib.Tactic.Common

/-!
# UTF-8 read into UTF-16

Bytes are decoded into the units of UTF-16, a byte that begins no character into the replacement
character.  What is received of a text is a beginning of its encoding, which may end within a
character.

* `decode_encode_append`: a text is decoded to itself, whatever comes after it;
* `encode_append_inj`: characters are not beginnings of each other;
* `split_at`: a byte that is a character by itself cuts the encoding of a text between characters.
-/

namespace Utf8

/-- The bytes of a text. -/
def encode (s : List Char) : List UInt8 := s.flatMap String.utf8EncodeChar

/-- The units of a character in UTF-16. -/
def units (c : Char) : List ℕ :=
  if c.toNat < 0x10000 then [c.toNat]
  else [0xD800 + (c.toNat - 0x10000) / 0x400, 0xDC00 + (c.toNat - 0x10000) % 0x400]

/-- The character that the bytes begin with. -/
def decodeChar (bytes : List UInt8) : Option Char := bytes.toByteArray.utf8DecodeChar? 0

def replacementCharacter : ℕ := 0xFFFD

/-- The units of the text that the bytes stand for, after the given number of bytes. -/
def decodeFrom : ℕ → List UInt8 → List ℕ
  | _, [] => []
  | skip + 1, _ :: bytes => decodeFrom skip bytes
  | 0, b :: bytes =>
    match decodeChar (b :: bytes) with
    | some c => units c ++ decodeFrom (c.utf8Size - 1) bytes
    | none => replacementCharacter :: decodeFrom 0 bytes

def decode (bytes : List UInt8) : List ℕ := decodeFrom 0 bytes

@[simp] theorem encode_nil : encode [] = [] := rfl

@[simp] theorem encode_cons (c : Char) (s : List Char) :
    encode (c :: s) = String.utf8EncodeChar c ++ encode s := List.flatMap_cons

@[simp] theorem encode_append (s t : List Char) : encode (s ++ t) = encode s ++ encode t :=
  List.flatMap_append

@[simp] theorem decodeChar_encode (c : Char) (bytes : List UInt8) :
    decodeChar (String.utf8EncodeChar c ++ bytes) = some c := by
  rw [decodeChar, List.toByteArray_append]
  exact ByteArray.utf8DecodeChar?_utf8EncodeChar_append

/-- The first byte of a character, and the rest. -/
theorem exists_utf8EncodeChar_eq (c : Char) :
    ∃ b tail, String.utf8EncodeChar c = b :: tail ∧ tail.length = c.utf8Size - 1 := by
  have hlength := String.length_utf8EncodeChar c
  cases h : String.utf8EncodeChar c with
  | nil => exact absurd h String.utf8EncodeChar_ne_nil
  | cons b tail =>
    refine ⟨b, tail, rfl, ?_⟩
    rw [h, List.length_cons] at hlength
    omega

@[simp] theorem decode_nil : decode [] = [] := rfl

theorem decodeFrom_append (skipped bytes : List UInt8) :
    decodeFrom skipped.length (skipped ++ bytes) = decode bytes := by
  induction skipped with
  | nil => rfl
  | cons b skipped ih => exact ih

theorem decode_encodeChar_append (c : Char) (bytes : List UInt8) :
    decode (String.utf8EncodeChar c ++ bytes) = units c ++ decode bytes := by
  obtain ⟨b, tail, htail, hlength⟩ := exists_utf8EncodeChar_eq c
  have hchar := decodeChar_encode c bytes
  rw [htail, List.cons_append] at hchar ⊢
  rw [decode, decodeFrom, hchar]
  simp only [← hlength, decodeFrom_append]

/-- A text is decoded to itself, whatever comes after it. -/
theorem decode_encode_append (s : List Char) (bytes : List UInt8) :
    decode (encode s ++ bytes) = s.flatMap units ++ decode bytes := by
  induction s with
  | nil => rfl
  | cons c s ih =>
    rw [encode_cons, List.append_assoc, decode_encodeChar_append, ih, List.flatMap_cons,
      List.append_assoc]

theorem decode_encode (s : List Char) : decode (encode s) = s.flatMap units := by
  simpa using decode_encode_append s []

/-- UTF-16 takes no more units than UTF-8 takes bytes. -/
theorem length_units_le (c : Char) : (units c).length ≤ (String.utf8EncodeChar c).length := by
  rw [String.length_utf8EncodeChar, units]
  split_ifs with h
  · exact c.utf8Size_pos
  · have hlong : c.utf8Size = 4 := by
      rw [Char.utf8Size_eq_four_iff, UInt32.lt_iff_toNat_lt]
      exact Nat.lt_of_succ_le (Nat.le_of_not_lt h)
    simp [hlong]

theorem length_decode_encode_le (s : List Char) :
    (decode (encode s)).length ≤ (encode s).length := by
  rw [decode_encode]
  induction s with
  | nil => simp
  | cons c s ih =>
    rw [List.flatMap_cons, encode_cons, List.length_append, List.length_append]
    exact Nat.add_le_add (length_units_le c) ih

/-- No character is encoded by the beginning of another one. -/
theorem encode_append_inj {c d : Char} {x y : List UInt8}
    (h : String.utf8EncodeChar c ++ x = String.utf8EncodeChar d ++ y) : c = d ∧ x = y := by
  obtain rfl : c = d := by
    have hchar := decodeChar_encode c x
    rw [h, decodeChar_encode] at hchar
    exact (Option.some.inj hchar).symm
  exact ⟨rfl, List.append_cancel_left h⟩

/-- A byte that is a character by itself occurs in no other one. -/
theorem eq_of_mem_utf8EncodeChar {a c : Char} {b : UInt8} (ha : String.utf8EncodeChar a = [b])
    (h : b ∈ String.utf8EncodeChar c) : c = a := by
  obtain ⟨i, hi, rfl⟩ := List.mem_iff_getElem.1 h
  -- It is a first byte, so it is the first one of the character.
  have hfirst : (String.utf8EncodeChar c)[i].IsUTF8FirstByte := by
    have hsingle := UInt8.isUTF8FirstByte_getElem_zero_utf8EncodeChar (c := a)
    simpa [ha] using hsingle
  obtain rfl := UInt8.isUTF8FirstByte_getElem_utf8EncodeChar.1 hfirst
  obtain ⟨b, tail, htail, -⟩ := exists_utf8EncodeChar_eq c
  have heq : String.utf8EncodeChar c ++ [] = String.utf8EncodeChar a ++ tail := by
    rw [ha]
    simp [htail]
  exact (encode_append_inj heq).1

theorem mem_of_mem_encode {a : Char} {b : UInt8} (ha : String.utf8EncodeChar a = [b])
    {s : List Char} (h : b ∈ encode s) : a ∈ s := by
  obtain ⟨c, hc, hb⟩ := List.mem_flatMap.1 h
  rwa [← eq_of_mem_utf8EncodeChar ha hb]

/-- **The first byte of its kind** in the encoding of a text stands for the first character of its
kind. -/
theorem split_at {a : Char} {b : UInt8} (ha : String.utf8EncodeChar a = [b]) {s : List Char}
    {line bytes : List UInt8} (h : encode s = line ++ b :: bytes) (hline : b ∉ line) :
    ∃ l r, s = l ++ a :: r ∧ line = encode l ∧ bytes = encode r := by
  induction s generalizing line with
  | nil => simp at h
  | cons c s ih =>
    rw [encode_cons] at h
    by_cases hc : c = a
    · subst hc
      rw [ha] at h
      cases line with
      | nil => exact ⟨[], s, rfl, rfl, (List.cons.inj h).2.symm⟩
      | cons d line =>
        obtain ⟨rfl, -⟩ := List.cons.inj h
        exact absurd List.mem_cons_self hline
    · have hnotMem : b ∉ String.utf8EncodeChar c := fun hb => hc (eq_of_mem_utf8EncodeChar ha hb)
      -- The character ends before the byte.
      obtain ⟨line', rfl⟩ : String.utf8EncodeChar c <+: line := by
        rcases List.append_eq_append_iff.1 h with ⟨line', hline', -⟩ | ⟨x, hx, hx'⟩
        · exact ⟨line', hline'.symm⟩
        · cases x with
          | nil => exact ⟨[], by simpa using hx⟩
          | cons d x =>
            obtain ⟨rfl, -⟩ := List.cons.inj hx'
            exact absurd (hx ▸ by simp) hnotMem
      rw [List.append_assoc] at h
      obtain ⟨l, r, rfl, rfl, hr⟩ :=
        ih (List.append_cancel_left h) fun hb => hline (List.mem_append_right _ hb)
      exact ⟨c :: l, r, rfl, rfl, hr⟩

end Utf8
