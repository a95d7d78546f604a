import Xpact.Grammar.Names
import Xpact.Native.Decoding

/-!
# UTF-8 in both classes

The engine recognizes UTF-8 sequences, and the native layer appends them.  What is recognized is the
UTF-8 form of a character of XML, and what is appended is recognized.
-/

namespace Xpact

open Library

/-- The shape of a UTF-8 sequence: a leading byte and the continuation bytes that it asks for. -/
def IsUtf8Shape (bytes : String8) : Prop :=
  ∃ lead tail, bytes = lead :: tail ∧ (∀ c ∈ tail, 0x80 ≤ c.toNat ∧ c.toNat ≤ 0xBF) ∧
    (lead.toNat < 0x80 ∧ tail.length = 0 ∨
      0xC2 ≤ lead.toNat ∧ lead.toNat ≤ 0xDF ∧ tail.length = 1 ∨
      0xE0 ≤ lead.toNat ∧ lead.toNat ≤ 0xEF ∧ tail.length = 2 ∨
      0xF0 ≤ lead.toNat ∧ lead.toNat ≤ 0xF4 ∧ tail.length = 3)

/-! ## One character -/

/-- The converter of the source and Lean agree on the bytes of a character. -/
theorem utf8Bytes_toNat (c : Char) : utf8Bytes c.toNat = String.utf8EncodeChar c := by
  have hscalar := Unicode.scalar c
  have hval : c.val.toNat = c.toNat := rfl
  unfold utf8Bytes String.utf8EncodeChar
  simp only [hval]
  rw [show c.toNat / 64 % 32 + 192 = 192 + c.toNat / 64 % 32 by omega,
    show c.toNat / 4096 % 16 + 224 = 224 + c.toNat / 4096 % 16 by omega,
    show c.toNat / 262144 % 8 + 240 = 240 + c.toNat / 262144 % 8 by omega,
    show c.toNat / 4096 % 64 + 128 = 128 + c.toNat / 4096 % 64 by omega,
    show c.toNat / 64 % 64 + 128 = 128 + c.toNat / 64 % 64 by omega,
    show c.toNat % 64 + 128 = 128 + c.toNat % 64 by omega]
  split
  · rfl
  split
  · rw [show c.toNat / 64 % 32 = c.toNat / 64 by omega]
  split
  · rw [show c.toNat / 4096 % 16 = c.toNat / 4096 by omega]
  · rw [show c.toNat / 262144 % 8 = c.toNat / 262144 by omega]

/-- The characters of XML are Unicode scalar values. -/
theorem exists_char_of_isXmlCharacterCode {code : Nat} (h : isXmlCharacterCode code = true) :
    ∃ c : Char, c.toNat = code := by
  unfold isXmlCharacterCode at h
  simp only [Bool.or_eq_true, Bool.and_eq_true, beq_iff_eq, decide_eq_true_eq] at h
  exact Unicode.exists_char (by omega)

theorem utf8Bytes_ne_nil (code : Nat) : utf8Bytes code ≠ [] := by
  unfold utf8Bytes
  split
  · exact List.cons_ne_nil _ _
  split
  · exact List.cons_ne_nil _ _
  split <;> exact List.cons_ne_nil _ _

/-- Appending is appending the UTF-8 form. -/
theorem Native.appendUtf8Codepoint_eq (output : String8) (code : Nat) :
    Native.appendUtf8Codepoint output code = output ++ utf8Bytes code := by
  unfold Native.appendUtf8Codepoint utf8Bytes
  split
  · rfl
  split
  · rfl
  split <;> rfl

/-! ## Recognizing -/

/-- Exactly the characters of XML are recognized, in their UTF-8 form. -/
theorem utf8CharacterLength_eq_character_iff {input : String8} {i n code : Nat} (hpos : 1 ≤ i)
    (hin : i ≤ input.length) :
    utf8CharacterLength input i = .character n code ↔
      0 < n ∧ isXmlCharacterCode code = true ∧
        input.substring i (i + n - 1) = utf8Bytes code := by
  have hrest := RestAt.of_index hpos (show i ≤ input.length + 1 by omega)
  have hlength := List.length_pos_iff.2 (utf8Bytes_ne_nil code)
  constructor
  · intro h
    obtain ⟨hcode, hn, v, hv⟩ := hrest.of_character hin h
    rw [hv] at hrest
    exact ⟨by omega, hcode, by rw [hn, hrest.substring]⟩
  · rintro ⟨hn, hcode, hsub⟩
    -- A substring that is not empty lies inside of the input.
    have hinside : i + n - 1 ≤ input.length := by
      by_contra hbeyond
      unfold String8.substring at hsub
      rw [if_neg (by omega)] at hsub
      exact utf8Bytes_ne_nil code hsub.symm
    obtain ⟨hsplit, hend⟩ := hrest.of_substring (show i ≤ i + n by omega) (by omega)
    rw [hsub] at hsplit hend
    rw [hsplit] at hrest
    rw [hrest.utf8CharacterLength hcode, show n = (utf8Bytes code).length by omega]

/-- Only continuation bytes were read when the end came. -/
theorem utf8Continue_eq_none {n code : Nat} {rest : String8}
    (h : utf8Continue n code rest = some none) :
    rest.length < n ∧ ∀ c ∈ rest, 0x80 ≤ c.toNat ∧ c.toNat ≤ 0xBF := by
  induction n generalizing code rest with
  | zero => cases h
  | succ n ih =>
    cases rest with
    | nil => exact ⟨by simp, fun c hc ↦ nomatch hc⟩
    | cons c rest =>
      unfold utf8Continue at h
      split at h
      · rename_i hbyte
        obtain ⟨hlength, hall⟩ := ih h
        unfold isUtf8ContinuationByte at hbyte
        rw [Bool.and_eq_true, decide_eq_true_eq, decide_eq_true_eq] at hbyte
        refine ⟨by rw [List.length_cons]; omega, fun d hd ↦ ?_⟩
        rcases List.mem_cons.1 hd with rfl | hd
        · exact hbyte
        · exact hall d hd
      · cases h

/-- A sequence that is cut off: a leading byte above ASCII, and too few continuation bytes. -/
theorem bytes_of_cutOff {input : String8} {i : Nat}
    (h : utf8CharacterLength input i = .cutOff) :
    128 ≤ input.code i ∧ (input.drop i).length < utf8TrailingCount (input.code i) ∧
      ∀ c ∈ input.drop i, 0x80 ≤ c.toNat ∧ c.toNat ≤ 0xBF := by
  unfold utf8CharacterLength at h
  dsimp only at h
  generalize (if utf8TrailingCount (input.code i) = 1 then 128
    else if utf8TrailingCount (input.code i) = 2 then 2048 else 65536) = minimum at h
  split at h
  · split at h <;> cases h
  rename_i hwide
  split at h
  · cases h
  split at h
  · cases h
  · rename_i hread
    exact ⟨by omega, utf8Continue_eq_none hread⟩
  · split at h <;> cases h

/-- What is cut off could go on. -/
theorem exists_shape_of_cutOff {input : String8} {i : Nat} (hpos : 1 ≤ i) (hin : i ≤ input.length)
    (h : utf8CharacterLength input i = .cutOff) :
    ∃ shape, IsUtf8Shape shape ∧ input.substring i input.length <+: shape ∧
      input.substring i input.length ≠ shape := by
  have hrest := RestAt.of_index hpos (show i ≤ input.length + 1 by omega)
  obtain ⟨v, hv⟩ := hrest.exists_cons hin
  rw [hv] at hrest
  have hwhole := hrest.substring_length
  obtain ⟨-, hshort, hall⟩ := bytes_of_cutOff h
  rw [hrest.drop_eq] at hshort hall
  obtain ⟨missing, hmissing⟩ : ∃ m, m = List.replicate
    (utf8TrailingCount (input.code i) - v.length) (UInt8.ofNat 0x80) := ⟨_, rfl⟩
  have hlength : (v ++ missing).length = utf8TrailingCount (input.code i) := by
    rw [hmissing, List.length_append, List.length_replicate]
    omega
  refine ⟨input.item i :: (v ++ missing), ⟨_, _, rfl, ?_, ?_⟩, ?_, ?_⟩
  · intro c hc
    rcases List.mem_append.1 hc with hc | hc
    · exact hall c hc
    · rw [hmissing] at hc
      rw [(List.mem_replicate.1 hc).2]
      decide
  · have hcode : (input.item i).toNat = input.code i := rfl
    rw [hlength, hcode]
    rcases utf8TrailingCount_cases (input.code i) with hnone | hlead | hlead | hlead <;> omega
  · rw [hwhole, ← List.cons_append]
    exact List.prefix_append _ _
  · rw [hwhole]
    intro heq
    have htotal := congrArg List.length heq
    rw [List.length_cons, List.length_cons, hlength] at htotal
    omega

/-! ## Both classes -/

/-- `utf8_character_length` recognizes exactly the UTF-8 forms of the characters of XML, and those
that `append_utf8_codepoint` appends are among them. -/
theorem utf8_validation_inverse :
    (∀ (input : String8) (i : Nat), 1 ≤ i → i ≤ input.length →
      (∀ n code, utf8CharacterLength input i = .character n code ↔
        0 < n ∧ ∃ c : Char, c.toNat = code ∧ isXmlCharacterCode c.toNat = true ∧
          input.substring i (i + n - 1) = String.utf8EncodeChar c) ∧
      (utf8CharacterLength input i = .cutOff →
        ∃ shape, IsUtf8Shape shape ∧ input.substring i input.length <+: shape ∧
          input.substring i input.length ≠ shape)) ∧
    ∀ (output : String8) (code : Nat), isXmlCharacterCode code = true →
      ∃ n, 0 < n ∧ (Native.appendUtf8Codepoint output code).length = output.length + n ∧
        (Native.appendUtf8Codepoint output code).take output.length = output ∧
        utf8CharacterLength (Native.appendUtf8Codepoint output code) (output.length + 1) =
          .character n code := by
  refine ⟨fun input i hpos hin ↦ ⟨fun n code ↦ ?_, exists_shape_of_cutOff hpos hin⟩, ?_⟩
  · rw [utf8CharacterLength_eq_character_iff hpos hin]
    constructor
    · rintro ⟨hn, hcode, hsub⟩
      obtain ⟨c, rfl⟩ := exists_char_of_isXmlCharacterCode hcode
      rw [utf8Bytes_toNat] at hsub
      exact ⟨hn, c, rfl, hcode, hsub⟩
    · rintro ⟨hn, c, rfl, hcode, hsub⟩
      rw [utf8Bytes_toNat]
      exact ⟨hn, hcode, hsub⟩
  · intro output code hcode
    have hlength := List.length_pos_iff.2 (utf8Bytes_ne_nil code)
    rw [Native.appendUtf8Codepoint_eq]
    refine ⟨(utf8Bytes code).length, hlength, List.length_append, List.take_left, ?_⟩
    have hrest : RestAt (output ++ utf8Bytes code) (output.length + 1) (utf8Bytes code ++ []) := by
      refine ⟨by omega, ?_, ?_⟩
      · rw [List.append_nil, List.length_append]
        omega
      · rw [Nat.add_sub_cancel, List.drop_left, List.append_nil]
    exact hrest.utf8CharacterLength hcode

/-- The euro sign, and its first two bytes alone. -/
theorem utf8_validation_inverse_euro :
    utf8CharacterLength [226, 130, 172] 1 = .character 3 0x20AC ∧
      (∃ shape, IsUtf8Shape shape ∧ String8.substring [226, 130] 1 2 <+: shape ∧
        String8.substring [226, 130] 1 2 ≠ shape) ∧
      ∃ n, utf8CharacterLength (Native.appendUtf8Codepoint [] 0x20AC) 1 = .character n 0x20AC := by
  refine ⟨?_, ?_, ?_⟩
  · refine ((utf8_validation_inverse.1 [226, 130, 172] 1 (by decide) (by decide)).1 3 0x20AC).2 ?_
    exact ⟨by decide, '€', by decide, by decide, by decide⟩
  · exact (utf8_validation_inverse.1 [226, 130] 1 (by decide) (by decide)).2 (by decide)
  · obtain ⟨n, -, -, -, h⟩ := utf8_validation_inverse.2 [] 0x20AC (by decide)
    exact ⟨n, h⟩

end Xpact
