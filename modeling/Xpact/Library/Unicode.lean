import Mathlib.Data.List.Basic

/-!
# Encodings of Unicode texts

A text is a sequence of Unicode scalar values.  Its UTF-8 form is the one of Lean, its UTF-16 form
consists of units of two bytes in either order.  Bytes that are not the UTF-16 form of a text begin
with one, behind which a unit or a pair is cut off or a surrogate has no partner.
-/

namespace Xpact.Library.Unicode

/-- The UTF-8 form of a text. -/
def utf8 (text : List Char) : List UInt8 := text.flatMap String.utf8EncodeChar

/-- The UTF-16 code units of a character. -/
def utf16Units (c : Char) : List Nat :=
  if c.toNat < 0x10000 then [c.toNat]
  else [0xD800 + (c.toNat - 0x10000) / 0x400, 0xDC00 + (c.toNat - 0x10000) % 0x400]

/-- The two bytes of a unit. -/
def unitBytes (bigEndian : Bool) (unit : Nat) : List UInt8 :=
  if bigEndian then [UInt8.ofNat (unit / 256), UInt8.ofNat (unit % 256)]
  else [UInt8.ofNat (unit % 256), UInt8.ofNat (unit / 256)]

def utf16Char (bigEndian : Bool) (c : Char) : List UInt8 :=
  (utf16Units c).flatMap (unitBytes bigEndian)

/-- The UTF-16 form of a text, without a mark. -/
def utf16 (bigEndian : Bool) (text : List Char) : List UInt8 :=
  text.flatMap (utf16Char bigEndian)

def byteOrderMark (bigEndian : Bool) : List UInt8 := unitBytes bigEndian 0xFEFF

def IsHighSurrogate (unit : Nat) : Prop := 0xD800 ≤ unit ∧ unit ≤ 0xDBFF

def IsLowSurrogate (unit : Nat) : Prop := 0xDC00 ≤ unit ∧ unit ≤ 0xDFFF

/-- The end of the bytes cuts off a unit or a pair of surrogates. -/
def CutOff (bigEndian : Bool) (bytes : List UInt8) : Prop :=
  bytes.length = 1 ∨
    ∃ unit rest, IsHighSurrogate unit ∧ bytes = unitBytes bigEndian unit ++ rest ∧ rest.length < 2

/-- A surrogate without partner comes first. -/
def Unpaired (bigEndian : Bool) (bytes : List UInt8) : Prop :=
  ∃ unit rest, bytes = unitBytes bigEndian unit ++ rest ∧
    (IsLowSurrogate unit ∨ IsHighSurrogate unit ∧ ∃ next rest', next < 0x10000 ∧
      rest = unitBytes bigEndian next ++ rest' ∧ ¬ IsLowSurrogate next)

/-! ## Characters -/

theorem scalar (c : Char) :
    c.toNat < 0xD800 ∨ 0xDFFF < c.toNat ∧ c.toNat < 0x110000 := c.valid

theorem exists_char {n : Nat} (h : n < 0xD800 ∨ 0xDFFF < n ∧ n < 0x110000) :
    ∃ c : Char, c.toNat = n := ⟨Char.ofNatAux n h, rfl⟩

theorem utf8_cons (c : Char) (text : List Char) :
    utf8 (c :: text) = String.utf8EncodeChar c ++ utf8 text := List.flatMap_cons

theorem utf16_cons (bigEndian : Bool) (c : Char) (text : List Char) :
    utf16 bigEndian (c :: text) = utf16Char bigEndian c ++ utf16 bigEndian text :=
  List.flatMap_cons

/-! ## Units -/

section

variable {bigEndian : Bool} {unit : Nat} {bytes : List UInt8}

theorem length_unitBytes : (unitBytes bigEndian unit).length = 2 := by
  unfold unitBytes
  cases bigEndian <;> rfl

/-- Two bytes are a unit. -/
theorem exists_unit (bigEndian : Bool) (h : 2 ≤ bytes.length) :
    ∃ unit rest, unit < 0x10000 ∧ bytes = unitBytes bigEndian unit ++ rest := by
  obtain ⟨a, bytes, rfl⟩ := List.exists_cons_of_length_pos (show 0 < bytes.length by omega)
  rw [List.length_cons] at h
  obtain ⟨b, rest, rfl⟩ := List.exists_cons_of_length_pos (show 0 < bytes.length by omega)
  have ha := a.toNat_lt
  have hb := b.toNat_lt
  cases bigEndian with
  | true =>
    refine ⟨a.toNat * 256 + b.toNat, rest, by omega, ?_⟩
    show a :: b :: rest = UInt8.ofNat _ :: UInt8.ofNat _ :: rest
    rw [show (a.toNat * 256 + b.toNat) / 256 = a.toNat by omega,
      show (a.toNat * 256 + b.toNat) % 256 = b.toNat by omega, UInt8.ofNat_toNat,
      UInt8.ofNat_toNat]
  | false =>
    refine ⟨b.toNat * 256 + a.toNat, rest, by omega, ?_⟩
    show a :: b :: rest = UInt8.ofNat _ :: UInt8.ofNat _ :: rest
    rw [show (b.toNat * 256 + a.toNat) / 256 = b.toNat by omega,
      show (b.toNat * 256 + a.toNat) % 256 = a.toNat by omega, UInt8.ofNat_toNat,
      UInt8.ofNat_toNat]

theorem utf16Char_of_lt {c : Char} (h : c.toNat < 0x10000) :
    utf16Char bigEndian c = unitBytes bigEndian c.toNat := by
  unfold utf16Char utf16Units
  rw [if_pos h, List.flatMap_singleton]

theorem utf16Char_of_le {c : Char} (h : 0x10000 ≤ c.toNat) :
    utf16Char bigEndian c =
      unitBytes bigEndian (0xD800 + (c.toNat - 0x10000) / 0x400) ++
        unitBytes bigEndian (0xDC00 + (c.toNat - 0x10000) % 0x400) := by
  unfold utf16Char utf16Units
  rw [if_neg (by omega), List.flatMap_cons, List.flatMap_singleton]

theorem length_utf16Char (c : Char) : (utf16Char bigEndian c).length % 2 = 0 := by
  by_cases h : c.toNat < 0x10000
  · rw [utf16Char_of_lt h, length_unitBytes]
  · rw [utf16Char_of_le (by omega), List.length_append, length_unitBytes, length_unitBytes]

theorem length_utf16Char_pos (c : Char) : 0 < (utf16Char bigEndian c).length := by
  by_cases h : c.toNat < 0x10000
  · rw [utf16Char_of_lt h, length_unitBytes]
    omega
  · rw [utf16Char_of_le (by omega), List.length_append, length_unitBytes]
    omega

theorem length_utf16 (text : List Char) : (utf16 bigEndian text).length % 2 = 0 := by
  induction text with
  | nil => rfl
  | cons c text ih =>
    have hc := @length_utf16Char bigEndian c
    rw [utf16_cons, List.length_append]
    omega

/-! ## What bytes begin with -/

/-- Bytes are empty or begin with a character, or with what is not one. -/
theorem utf16_cases (bigEndian : Bool) (bytes : List UInt8) :
    bytes = [] ∨ (∃ c rest, bytes = utf16Char bigEndian c ++ rest) ∨ CutOff bigEndian bytes ∨
      Unpaired bigEndian bytes := by
  by_cases hempty : bytes.length = 0
  · exact Or.inl (List.length_eq_zero_iff.1 hempty)
  by_cases hone : bytes.length = 1
  · exact Or.inr (Or.inr (Or.inl (Or.inl hone)))
  obtain ⟨unit, rest, hunit, rfl⟩ := exists_unit bigEndian (show 2 ≤ bytes.length by omega)
  by_cases hlow : IsLowSurrogate unit
  · exact Or.inr (Or.inr (Or.inr ⟨unit, rest, rfl, Or.inl hlow⟩))
  by_cases hhigh : IsHighSurrogate unit
  · by_cases hcut : rest.length < 2
    · exact Or.inr (Or.inr (Or.inl (Or.inr ⟨unit, rest, hhigh, rfl, hcut⟩)))
    obtain ⟨next, rest', hnext, rfl⟩ := exists_unit bigEndian (show 2 ≤ rest.length by omega)
    by_cases hpair : IsLowSurrogate next
    · unfold IsLowSurrogate IsHighSurrogate at *
      obtain ⟨code, hcode⟩ : ∃ code, code = 0x10000 + (unit - 0xD800) * 0x400 + (next - 0xDC00) :=
        ⟨_, rfl⟩
      obtain ⟨c, hc⟩ := exists_char (show code < 0xD800 ∨ 0xDFFF < code ∧ code < 0x110000 by omega)
      refine Or.inr (Or.inl ⟨c, rest', ?_⟩)
      rw [utf16Char_of_le (by omega), hc, show 0xD800 + (code - 0x10000) / 0x400 = unit by omega,
        show 0xDC00 + (code - 0x10000) % 0x400 = next by omega, List.append_assoc]
    · exact Or.inr (Or.inr (Or.inr
        ⟨unit, _, rfl, Or.inr ⟨hhigh, next, rest', hnext, rfl, hpair⟩⟩))
  · unfold IsLowSurrogate IsHighSurrogate at *
    obtain ⟨c, hc⟩ := exists_char (show unit < 0xD800 ∨ 0xDFFF < unit ∧ unit < 0x110000 by omega)
    refine Or.inr (Or.inl ⟨c, rest, ?_⟩)
    rw [utf16Char_of_lt (by omega), hc]

/-- Behind the longest text come only bytes that do not begin with a character. -/
theorem exists_text (bigEndian : Bool) (bytes : List UInt8) :
    ∃ text rest, bytes = utf16 bigEndian text ++ rest ∧
      (rest = [] ∨ CutOff bigEndian rest ∨ Unpaired bigEndian rest) := by
  induction hn : bytes.length using Nat.strongRecOn generalizing bytes with
  | ind n ih =>
    rcases utf16_cases bigEndian bytes with rfl | ⟨c, rest, rfl⟩ | hcut | hunpaired
    · exact ⟨[], [], rfl, Or.inl rfl⟩
    · have hpos := @length_utf16Char_pos bigEndian c
      rw [List.length_append] at hn
      obtain ⟨text, tail, hrest, htail⟩ := ih rest.length (by omega) rest rfl
      refine ⟨c :: text, tail, ?_, htail⟩
      rw [utf16_cons, List.append_assoc, ← hrest]
    · exact ⟨[], bytes, rfl, Or.inr (Or.inl hcut)⟩
    · exact ⟨[], bytes, rfl, Or.inr (Or.inr hunpaired)⟩

end

end Xpact.Library.Unicode
