import Xpact.Native.Utf8
import Xpact.Parser.Input

/-!
# UTF-16 in both classes

The native layer and the engine decode UTF-16 with loops of their own.  Both read the longest text at
the beginning.  Behind it the native layer fails; the engine fails at a surrogate without partner, and
drops what the end of the input cuts off.
-/

namespace Xpact

open Library Library.Unicode

/-! ## Units -/

section

variable {input rest : String8} {i unit : Nat} {bigEndian : Bool}

/-- The two bytes of a unit. -/
theorem RestAt.codes (h : RestAt input i (unitBytes bigEndian unit ++ rest))
    (hunit : unit < 0x10000) :
    (if bigEndian then input.code i * 256 + input.code (i + 1)
      else input.code (i + 1) * 256 + input.code i) = unit := by
  cases bigEndian with
  | true =>
    have hfirst := h.code_eq
    have hsecond := RestAt.code_eq h.cons
    rw [toNat_byte (by omega)] at hfirst hsecond
    rw [if_pos rfl, hfirst, hsecond]
    omega
  | false =>
    have hfirst := h.code_eq
    have hsecond := RestAt.code_eq h.cons
    rw [toNat_byte (by omega)] at hfirst hsecond
    rw [if_neg Bool.false_ne_true, hfirst, hsecond]
    omega

theorem RestAt.utf16UnitAt (h : RestAt input i (unitBytes bigEndian unit ++ rest))
    (hunit : unit < 0x10000) : utf16UnitAt input i bigEndian = unit := h.codes hunit

theorem RestAt.nativeUnitAt (h : RestAt input i (unitBytes bigEndian unit ++ rest))
    (hunit : unit < 0x10000) : Native.utf16UnitAt input i (!bigEndian) = unit := by
  rw [← h.codes hunit]
  unfold Native.utf16UnitAt
  cases bigEndian with
  | true => rfl
  | false => exact Nat.add_comm _ _

theorem RestAt.unit_le (h : RestAt input i (unitBytes bigEndian unit ++ rest)) :
    i + 2 + rest.length = input.length + 1 := by
  have hindex := h.index
  rw [List.length_append, length_unitBytes] at hindex
  omega

theorem RestAt.behindUnit (h : RestAt input i (unitBytes bigEndian unit ++ rest)) :
    RestAt input (i + 2) rest := by
  have happend := h.append
  rwa [length_unitBytes] at happend

end

/-! ## The engine -/

section

variable {input rest : String8} {i n : Nat} {bigEndian : Bool}

/-- One character is decoded to its UTF-8 form. -/
theorem utf16AsUtf8From_char {c : Char} (h : RestAt input i (utf16Char bigEndian c ++ rest)) :
    utf16AsUtf8From input bigEndian (n + 1) i =
      (String.utf8EncodeChar c ++
          (utf16AsUtf8From input bigEndian n (i + (utf16Char bigEndian c).length)).1,
        (utf16AsUtf8From input bigEndian n (i + (utf16Char bigEndian c).length)).2) := by
  have hscalar := scalar c
  rw [← utf8Bytes_toNat]
  rw [utf16AsUtf8From]
  by_cases hone : c.toNat < 0x10000
  · rw [utf16Char_of_lt hone] at h ⊢
    have hle := h.unit_le
    rw [length_unitBytes, if_neg (by omega)]
    simp only [h.utf16UnitAt hone]
    rw [if_neg (by omega), if_neg (by omega)]
  · rw [utf16Char_of_le (by omega)] at h ⊢
    rw [List.append_assoc] at h
    have hle := h.unit_le
    have hle' := h.behindUnit.unit_le
    rw [List.length_append, length_unitBytes, length_unitBytes, if_neg (by omega)]
    simp only [h.utf16UnitAt (show _ < 0x10000 by omega),
      h.behindUnit.utf16UnitAt (show _ < 0x10000 by omega)]
    rw [if_pos (by omega), if_pos (by omega), if_pos (by omega)]
    rw [show 0x10000 + (0xD800 + (c.toNat - 0x10000) / 0x400 - 0xD800) * 1024 +
      (0xDC00 + (c.toNat - 0x10000) % 0x400 - 0xDC00) = c.toNat by omega]

/-- A text is decoded to its UTF-8 form, and the scan goes on behind it. -/
theorem utf16AsUtf8From_text {text : List Char}
    (h : RestAt input i (utf16 bigEndian text ++ rest))
    (hn : (utf16 bigEndian text).length + rest.length < n) :
    ∃ n' j, RestAt input j rest ∧ rest.length < n' ∧
      utf16AsUtf8From input bigEndian n i =
        (utf8 text ++ (utf16AsUtf8From input bigEndian n' j).1,
          (utf16AsUtf8From input bigEndian n' j).2) := by
  induction text generalizing i n with
  | nil => exact ⟨n, i, h, by omega, rfl⟩
  | cons c text ih =>
    obtain ⟨n, rfl⟩ : ∃ m, n = m + 1 := ⟨n - 1, by omega⟩
    rw [utf16_cons, List.length_append] at hn
    rw [utf16_cons, List.append_assoc] at h
    have hpos := @length_utf16Char_pos bigEndian c
    obtain ⟨n', j, hj, hn', htail⟩ := ih h.append (n := n) (by omega)
    refine ⟨n', j, hj, hn', ?_⟩
    rw [utf16AsUtf8From_char h, htail, utf8_cons, List.append_assoc]

theorem utf16AsUtf8From_nil (h : RestAt input i []) (hn : 0 < n) :
    utf16AsUtf8From input bigEndian n i = ([], false) := by
  obtain ⟨n, rfl⟩ : ∃ m, n = m + 1 := ⟨n - 1, by omega⟩
  have hend := h.lt_of_nil
  rw [utf16AsUtf8From]
  rw [if_pos (by omega)]

/-- What the end cuts off is dropped. -/
theorem utf16AsUtf8From_cutOff (h : RestAt input i rest) (hcut : CutOff bigEndian rest)
    (hn : 0 < n) : utf16AsUtf8From input bigEndian n i = ([], false) := by
  obtain ⟨n, rfl⟩ : ∃ m, n = m + 1 := ⟨n - 1, by omega⟩
  have hindex := h.index
  rw [utf16AsUtf8From]
  rcases hcut with hone | ⟨unit, tail, hhigh, rfl, hshort⟩
  · rw [if_pos (by omega)]
  · have hle := h.unit_le
    unfold IsHighSurrogate at hhigh
    rw [if_neg (by omega)]
    simp only [h.utf16UnitAt (show unit < 0x10000 by omega)]
    rw [if_pos (by omega), if_neg (by omega)]

/-- A surrogate without partner is an error. -/
theorem utf16AsUtf8From_unpaired (h : RestAt input i rest) (hunpaired : Unpaired bigEndian rest)
    (hn : 0 < n) : utf16AsUtf8From input bigEndian n i = ([], true) := by
  obtain ⟨n, rfl⟩ : ∃ m, n = m + 1 := ⟨n - 1, by omega⟩
  rw [utf16AsUtf8From]
  obtain ⟨unit, tail, rfl, hlow | ⟨hhigh, next, tail', hnext, rfl, hlow⟩⟩ := hunpaired
  · have hle := h.unit_le
    unfold IsLowSurrogate at hlow
    rw [if_neg (by omega)]
    simp only [h.utf16UnitAt (show unit < 0x10000 by omega)]
    rw [if_neg (by omega), if_pos (by omega)]
  · have hle := h.unit_le
    have hle' := h.behindUnit.unit_le
    unfold IsHighSurrogate at hhigh
    unfold IsLowSurrogate at hlow
    rw [if_neg (by omega)]
    simp only [h.utf16UnitAt (show unit < 0x10000 by omega), h.behindUnit.utf16UnitAt hnext]
    rw [if_pos (by omega), if_pos (by omega), if_neg (by omega)]

end

/-! ## The native layer -/

namespace Native

section

variable {input rest output : String8} {i n : Nat} {bigEndian : Bool}

/-- Behind the first unit, one character is appended. -/
theorem decodedUtf16From_char {c : Char} (hi : i ≠ 1)
    (h : RestAt input i (utf16Char bigEndian c ++ rest)) :
    decodedUtf16From input input.length (!bigEndian) (n + 1) i output =
      decodedUtf16From input input.length (!bigEndian) n
        (i + (utf16Char bigEndian c).length) (output ++ String.utf8EncodeChar c) := by
  have hscalar := scalar c
  rw [← utf8Bytes_toNat, ← appendUtf8Codepoint_eq, decodedUtf16From]
  by_cases hone : c.toNat < 0x10000
  · rw [utf16Char_of_lt hone] at h ⊢
    have hle := h.unit_le
    rw [length_unitBytes, if_neg (by omega)]
    simp only [h.nativeUnitAt hone]
    rw [if_neg (by omega), if_neg (by omega), if_neg (by omega)]
  · rw [utf16Char_of_le (by omega)] at h ⊢
    rw [List.append_assoc] at h
    have hle := h.unit_le
    have hle' := h.behindUnit.unit_le
    rw [List.length_append, length_unitBytes, length_unitBytes, if_neg (by omega)]
    simp only [h.nativeUnitAt (show _ < 0x10000 by omega),
      h.behindUnit.nativeUnitAt (show _ < 0x10000 by omega)]
    rw [if_neg (by omega), if_pos (by omega), if_neg (by omega), if_neg (by omega)]
    rw [show 65536 + (0xD800 + (c.toNat - 0x10000) / 0x400 - 55296) * 1024 +
      (0xDC00 + (c.toNat - 0x10000) % 0x400 - 56320) = c.toNat by omega]

/-- A text is appended in its UTF-8 form, and the scan goes on behind it. -/
theorem decodedUtf16From_text {text : List Char} (hi : 1 < i)
    (h : RestAt input i (utf16 bigEndian text ++ rest))
    (hn : (utf16 bigEndian text).length + rest.length < n) :
    ∃ n' j, 1 < j ∧ RestAt input j rest ∧ rest.length < n' ∧
      decodedUtf16From input input.length (!bigEndian) n i output =
        decodedUtf16From input input.length (!bigEndian) n' j (output ++ utf8 text) := by
  induction text generalizing i n output with
  | nil => exact ⟨n, i, hi, h, by omega, by rw [utf8, List.flatMap_nil, List.append_nil]⟩
  | cons c text ih =>
    obtain ⟨n, rfl⟩ : ∃ m, n = m + 1 := ⟨n - 1, by omega⟩
    rw [utf16_cons, List.length_append] at hn
    rw [utf16_cons, List.append_assoc] at h
    have hpos := @length_utf16Char_pos bigEndian c
    obtain ⟨n', j, hj, hrest, hn', htail⟩ :=
      @ih (output ++ String.utf8EncodeChar c) (i + (utf16Char bigEndian c).length) n (by omega)
        h.append (by omega)
    refine ⟨n', j, hj, hrest, hn', ?_⟩
    rw [decodedUtf16From_char (by omega) h, htail, utf8_cons, List.append_assoc]

theorem decodedUtf16From_nil {littleEndian : Bool} (h : RestAt input i []) (hn : 0 < n) :
    decodedUtf16From input input.length littleEndian n i output = .ok output := by
  obtain ⟨n, rfl⟩ : ∃ m, n = m + 1 := ⟨n - 1, by omega⟩
  rw [decodedUtf16From, if_pos h.lt_of_nil]

/-- A pair that the end cuts off is an error. -/
theorem decodedUtf16From_cutOff (h : RestAt input i rest)
    (hcut : CutOff bigEndian rest) (heven : rest.length % 2 = 0) (hn : 0 < n) :
    decodedUtf16From input input.length (!bigEndian) n i output = .error .partialChar := by
  obtain ⟨n, rfl⟩ : ∃ m, n = m + 1 := ⟨n - 1, by omega⟩
  rw [decodedUtf16From]
  rcases hcut with hone | ⟨unit, tail, hhigh, rfl, hshort⟩
  · omega
  · have hle := h.unit_le
    unfold IsHighSurrogate at hhigh
    rw [List.length_append, length_unitBytes] at heven
    rw [if_neg (by omega)]
    simp only [h.nativeUnitAt (show unit < 0x10000 by omega)]
    rw [if_neg (by omega), if_pos (by omega), if_pos (by omega)]

theorem decodedUtf16From_unpaired (h : RestAt input i rest)
    (hunpaired : Unpaired bigEndian rest) (hn : 0 < n) :
    decodedUtf16From input input.length (!bigEndian) n i output = .error .invalidToken := by
  obtain ⟨n, rfl⟩ : ∃ m, n = m + 1 := ⟨n - 1, by omega⟩
  rw [decodedUtf16From]
  obtain ⟨unit, tail, rfl, hlow | ⟨hhigh, next, tail', hnext, rfl, hlow⟩⟩ := hunpaired
  · have hle := h.unit_le
    unfold IsLowSurrogate at hlow
    rw [if_neg (by omega)]
    simp only [h.nativeUnitAt (show unit < 0x10000 by omega)]
    rw [if_neg (by omega), if_neg (by omega), if_pos (by omega)]
  · have hle := h.unit_le
    have hle' := h.behindUnit.unit_le
    unfold IsHighSurrogate at hhigh
    unfold IsLowSurrogate at hlow
    rw [if_neg (by omega)]
    simp only [h.nativeUnitAt (show unit < 0x10000 by omega), h.behindUnit.nativeUnitAt hnext]
    rw [if_neg (by omega), if_pos (by omega), if_neg (by omega), if_pos (by omega)]

end

end Native

/-! ## Documents with a mark -/

section

variable {bigEndian : Bool} {bytes : String8}

theorem restAt_mark (bigEndian : Bool) (bytes : String8) :
    RestAt (byteOrderMark bigEndian ++ bytes) 3 bytes := by
  have hwhole : RestAt (byteOrderMark bigEndian ++ bytes) 1 (byteOrderMark bigEndian ++ bytes) :=
    ⟨by omega, by omega, rfl⟩
  exact hwhole.behindUnit

theorem length_mark (bigEndian : Bool) (bytes : String8) :
    (byteOrderMark bigEndian ++ bytes).length = bytes.length + 2 := by
  rw [List.length_append, byteOrderMark, length_unitBytes, Nat.add_comm]

/-- The scan of the native layer begins behind the mark. -/
theorem Native.decodedUtf16Input_mark (heven : bytes.length % 2 = 0) :
    Native.decodedUtf16Input (byteOrderMark bigEndian ++ bytes) (!bigEndian) =
      Native.decodedUtf16From (byteOrderMark bigEndian ++ bytes)
        (byteOrderMark bigEndian ++ bytes).length (!bigEndian) (bytes.length + 2) 3 [] := by
  have hwhole : RestAt (byteOrderMark bigEndian ++ bytes) 1 (unitBytes bigEndian 0xFEFF ++ bytes) :=
    ⟨by omega, by rw [byteOrderMark]; omega, rfl⟩
  have hlength := length_mark bigEndian bytes
  unfold Native.decodedUtf16Input
  rw [if_neg (by omega), hlength, Native.decodedUtf16From, if_neg (by omega)]
  simp only [hwhole.nativeUnitAt (show 0xFEFF < 0x10000 by omega)]
  rw [if_pos (by simp)]

/-- The scan of the engine gets behind the text that begins the document. -/
theorem utf16AsUtf8From_mark (text : List Char) (rest : String8)
    (hbytes : bytes = utf16 bigEndian text ++ rest) :
    ∃ n i, RestAt (byteOrderMark bigEndian ++ bytes) i rest ∧ 0 < n ∧
      utf16AsUtf8From (byteOrderMark bigEndian ++ bytes) bigEndian
          ((byteOrderMark bigEndian ++ bytes).length + 1) 3 =
        (utf8 text ++ (utf16AsUtf8From (byteOrderMark bigEndian ++ bytes) bigEndian n i).1,
          (utf16AsUtf8From (byteOrderMark bigEndian ++ bytes) bigEndian n i).2) := by
  have hat : RestAt (byteOrderMark bigEndian ++ bytes) 3 (utf16 bigEndian text ++ rest) := by
    rw [← hbytes]
    exact restAt_mark bigEndian bytes
  have hlength := congrArg List.length hbytes
  rw [List.length_append] at hlength
  obtain ⟨n, i, hend, hn, hread⟩ := utf16AsUtf8From_text hat
    (n := (byteOrderMark bigEndian ++ bytes).length + 1) (by rw [length_mark]; omega)
  exact ⟨n, i, hend, by omega, hread⟩

/-- Every text is decoded by the native layer. -/
theorem Native.decodedUtf16Input_text (bigEndian : Bool) (text : List Char) :
    Native.decodedUtf16Input (byteOrderMark bigEndian ++ utf16 bigEndian text) (!bigEndian) =
      .ok (utf8 text) := by
  have hrest : RestAt (byteOrderMark bigEndian ++ utf16 bigEndian text) 3
      (utf16 bigEndian text ++ []) := by
    rw [List.append_nil]
    exact restAt_mark bigEndian _
  obtain ⟨n, i, -, hend, hn, hread⟩ := @Native.decodedUtf16From_text _ _ [] _
    ((utf16 bigEndian text).length + 2) _ _ (by omega) hrest (by rw [List.length_nil]; omega)
  rw [Native.decodedUtf16Input_mark (length_utf16 text), hread,
    Native.decodedUtf16From_nil hend (by omega), List.nil_append]

/-- The engine decodes a text, also when something is cut off behind it. -/
theorem utf16AsUtf8From_mark_text {text : List Char} {rest : String8}
    (hbytes : bytes = utf16 bigEndian text ++ rest) (hrest : rest = [] ∨ CutOff bigEndian rest) :
    utf16AsUtf8From (byteOrderMark bigEndian ++ bytes) bigEndian
      ((byteOrderMark bigEndian ++ bytes).length + 1) 3 = (utf8 text, false) := by
  obtain ⟨n, i, hend, hn, hread⟩ := utf16AsUtf8From_mark text rest hbytes
  rw [hread]
  rcases hrest with rfl | hcut
  · rw [utf16AsUtf8From_nil hend hn, List.append_nil]
  · rw [utf16AsUtf8From_cutOff hend hcut hn, List.append_nil]

/-- Bytes that are not the UTF-16 form of a text are not decoded by the native layer. -/
theorem Native.decodedUtf16Input_of_malformed
    (hbytes : ¬ ∃ text, bytes = utf16 bigEndian text) :
    ∃ code, Native.decodedUtf16Input (byteOrderMark bigEndian ++ bytes) (!bigEndian) =
      .error code := by
  by_cases hodd : bytes.length % 2 ≠ 0
  · have hlength := length_mark bigEndian bytes
    unfold Native.decodedUtf16Input
    rw [if_pos (by omega)]
    split
    · split
      · exact ⟨_, rfl⟩
      · split <;> exact ⟨_, rfl⟩
    · exact ⟨_, rfl⟩
  obtain ⟨text, rest, hsplit, hrest⟩ := exists_text bigEndian bytes
  have hmark := restAt_mark bigEndian bytes
  rw [Native.decodedUtf16Input_mark (by omega)]
  rw [hsplit, List.length_append] at hodd
  have hlength := @length_utf16 bigEndian text
  have hat : RestAt (byteOrderMark bigEndian ++ bytes) 3 (utf16 bigEndian text ++ rest) := by
    rw [← hsplit]
    exact hmark
  obtain ⟨n, i, hi, hend, hn, hread⟩ := @Native.decodedUtf16From_text _ _ [] _
    (bytes.length + 2) _ _ (by omega) hat (by rw [hsplit, List.length_append]; omega)
  rw [hread]
  rcases hrest with rfl | hcut | hunpaired
  · rw [List.append_nil] at hsplit
    exact absurd ⟨text, hsplit⟩ hbytes
  · exact ⟨_, Native.decodedUtf16From_cutOff hend hcut (by omega) (by omega)⟩
  · exact ⟨_, Native.decodedUtf16From_unpaired hend hunpaired (by omega)⟩

end

end Xpact
