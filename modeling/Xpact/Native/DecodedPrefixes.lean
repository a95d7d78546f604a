import Xpact.Native.DeclaredEncoding
import Xpact.Native.Utf8

/-!
# Decoding a part of the input

The bytes that have arrived are decoded again whenever more of them arrive.  What a part was decoded
to stays: it is the beginning of what all of the input is decoded to.
-/

namespace Xpact.Native

section

variable {part input text output : String8} {littleEndian : Bool}

/-! ## Signatures -/

theorem hasUtf16leSignature_iff :
    hasUtf16leSignature input = true ↔
      2 ≤ input.length ∧ (input.code 1 = 255 ∧ input.code 2 = 254 ∨
        (input.item 1 = '<' ∨ isXmlSpace (input.item 1) = true) ∧ input.code 2 = 0) := by
  unfold hasUtf16leSignature
  simp only [Bool.or_eq_true, Bool.and_eq_true, decide_eq_true_eq, beq_iff_eq]
  constructor
  · rintro ((((h | h) | h) | h) | h)
    · exact ⟨h.1.1, Or.inl ⟨h.1.2, h.2⟩⟩
    · exact ⟨h.1.1, Or.inr ⟨h.1.2, h.2⟩⟩
    · exact ⟨by omega, Or.inr ⟨Or.inl h.1.1.1.2, h.1.1.2⟩⟩
    · exact ⟨by omega, Or.inr ⟨Or.inl h.1.1.1.2, h.1.1.2⟩⟩
    · exact ⟨by omega, Or.inr ⟨Or.inl h.1.1.1.2, h.1.1.2⟩⟩
  · rintro ⟨hlength, h | h⟩
    · exact Or.inl (Or.inl (Or.inl (Or.inl ⟨⟨hlength, h.1⟩, h.2⟩)))
    · exact Or.inl (Or.inl (Or.inl (Or.inr ⟨⟨hlength, h.1⟩, h.2⟩)))

theorem hasUtf16beSignature_iff :
    hasUtf16beSignature input = true ↔
      2 ≤ input.length ∧ (input.code 1 = 254 ∧ input.code 2 = 255 ∨
        input.code 1 = 0 ∧ (input.item 2 = '<' ∨ isXmlSpace (input.item 2) = true)) := by
  unfold hasUtf16beSignature
  simp only [Bool.or_eq_true, Bool.and_eq_true, decide_eq_true_eq, beq_iff_eq]
  constructor
  · rintro ((((h | h) | h) | h) | h)
    · exact ⟨h.1.1, Or.inl ⟨h.1.2, h.2⟩⟩
    · exact ⟨h.1.1, Or.inr ⟨h.1.2, h.2⟩⟩
    · exact ⟨by omega, Or.inr ⟨h.1.1.1.2, Or.inl h.1.1.2⟩⟩
    · exact ⟨by omega, Or.inr ⟨h.1.1.1.2, Or.inl h.1.1.2⟩⟩
    · exact ⟨by omega, Or.inr ⟨h.1.1.1.2, Or.inl h.1.1.2⟩⟩
  · rintro ⟨hlength, h | h⟩
    · exact Or.inl (Or.inl (Or.inl (Or.inl ⟨⟨hlength, h.1⟩, h.2⟩)))
    · exact Or.inl (Or.inl (Or.inl (Or.inr ⟨⟨hlength, h.1⟩, h.2⟩)))

theorem item_of_prefix (h : part <+: input) {i : Nat} (hi : 1 ≤ i) (hin : i ≤ part.length) :
    part.item i = input.item i := by
  rw [List.prefix_iff_eq_take.1 h]
  exact String8.item_take hi hin

/-- Two bytes decide about the signature. -/
theorem signatures_of_prefix (h : part <+: input) (hlength : 2 ≤ part.length) :
    hasUtf16leSignature part = hasUtf16leSignature input ∧
      hasUtf16beSignature part = hasUtf16beSignature input := by
  have hle := h.length_le
  have hcode (i : Nat) : String8.code part i = (part.item i).toNat := rfl
  have hcode' (i : Nat) : String8.code input i = (input.item i).toNat := rfl
  have hone := item_of_prefix h (Nat.le_refl 1) (by omega)
  have htwo := item_of_prefix h (show 1 ≤ 2 by omega) hlength
  constructor
  · rw [Bool.eq_iff_iff, hasUtf16leSignature_iff, hasUtf16leSignature_iff, hcode, hcode, hcode',
      hcode', hone, htwo]
    exact and_congr_left fun _ ↦ ⟨fun _ ↦ by omega, fun _ ↦ hlength⟩
  · rw [Bool.eq_iff_iff, hasUtf16beSignature_iff, hasUtf16beSignature_iff, hcode, hcode, hcode',
      hcode', hone, htwo]
    exact and_congr_left fun _ ↦ ⟨fun _ ↦ by omega, fun _ ↦ hlength⟩

/-- A part of an input without a signature has none. -/
theorem not_signature_of_prefix (h : part <+: input)
    (hle : hasUtf16leSignature input = false) (hbe : hasUtf16beSignature input = false) :
    hasUtf16leSignature part = false ∧ hasUtf16beSignature part = false := by
  by_cases hlength : 2 ≤ part.length
  · obtain ⟨hle', hbe'⟩ := signatures_of_prefix h hlength
    exact ⟨hle'.trans hle, hbe'.trans hbe⟩
  · constructor
    · rw [← Bool.not_eq_true, hasUtf16leSignature_iff]
      exact fun hsign ↦ hlength hsign.1
    · rw [← Bool.not_eq_true, hasUtf16beSignature_iff]
      exact fun hsign ↦ hlength hsign.1

/-! ## UTF-16 -/

/-- The scan appends to what it has. -/
theorem prefix_decodedUtf16From {n limit i : Nat}
    (h : decodedUtf16From input limit littleEndian n i output = .ok text) : output <+: text := by
  have happend (s : String8) (code : Nat) : s <+: appendUtf8Codepoint s code := by
    rw [appendUtf8Codepoint_eq]
    exact List.prefix_append _ _
  induction n generalizing i output with
  | zero =>
    cases h
    exact List.prefix_rfl
  | succ n ih =>
    rw [decodedUtf16From] at h
    have hstep {j code : Nat}
        (hrest : decodedUtf16From input limit littleEndian n j (appendUtf8Codepoint output code) =
          .ok text) : output <+: text := (happend output code).trans (ih hrest)
    split at h
    · cases h
      exact List.prefix_rfl
    dsimp only at h
    split at h
    · exact ih h
    split at h
    · split at h
      · cases h
      split at h
      · cases h
      · exact hstep h
    split at h
    · cases h
    · exact hstep h

/-- A unit that stands in a part. -/
theorem utf16UnitAt_take {k i : Nat} (hi : 1 ≤ i) (hk : i + 1 ≤ k) :
    utf16UnitAt (input.take k) i littleEndian = utf16UnitAt input i littleEndian := by
  unfold utf16UnitAt String8.code
  rw [String8.item_take hi (by omega), String8.item_take (by omega) hk]

/-- The scan of whole units up to `k` gives the beginning of the text, unless it ends in the first
half of a pair. -/
theorem decodedUtf16From_take {k m n i : Nat} (hi : 1 ≤ i) (hodd : i % 2 = 1) (heven : k % 2 = 0)
    (hik : i ≤ k + 1) (hk : k ≤ input.length) (hm : k + 1 < m + i) (hn : input.length + 1 < n + i)
    (hcut : 2 ≤ k → 55296 ≤ utf16UnitAt input (k - 1) littleEndian →
      utf16UnitAt input (k - 1) littleEndian ≤ 56319 → k + 2 ≤ input.length ∧
        (utf16UnitAt input (k + 1) littleEndian < 56320 ∨
          57343 < utf16UnitAt input (k + 1) littleEndian))
    (h : decodedUtf16From input input.length littleEndian n i output = .ok text) :
    ∃ t, decodedUtf16From (input.take k) k littleEndian m i output = .ok t ∧ t <+: text := by
  induction n generalizing m i output with
  | zero => omega
  | succ n ih =>
    obtain ⟨m, rfl⟩ : ∃ m', m = m' + 1 := ⟨m - 1, by omega⟩
    have houtput := prefix_decodedUtf16From h
    rw [decodedUtf16From] at h ⊢
    by_cases hend : k < i
    · rw [if_pos hend]
      exact ⟨output, rfl, houtput⟩
    rw [if_neg hend]
    rw [if_neg (by omega)] at h
    dsimp only at h ⊢
    rw [utf16UnitAt_take hi (by omega)]
    by_cases hmark : i = 1 ∧ utf16UnitAt input i littleEndian = 65279
    · rw [if_pos hmark] at h ⊢
      exact ih (by omega) (by omega) (by omega) (by omega) (by omega) h
    rw [if_neg hmark] at h ⊢
    by_cases hhigh : 55296 ≤ utf16UnitAt input i littleEndian ∧
        utf16UnitAt input i littleEndian ≤ 56319
    · rw [if_pos hhigh] at h ⊢
      by_cases hshort : input.length < i + 3
      · rw [if_pos hshort] at h
        cases h
      rw [if_neg hshort] at h
      by_cases hlow : utf16UnitAt input (i + 2) littleEndian < 56320 ∨
          57343 < utf16UnitAt input (i + 2) littleEndian
      · rw [if_pos hlow] at h
        cases h
      rw [if_neg hlow] at h
      -- The second half is a low surrogate, so the part does not end between the halves.
      have hwhole : ¬ k < i + 3 := by
        intro hends
        obtain rfl : i = k - 1 := by omega
        have hbehind := (hcut (by omega) hhigh.1 hhigh.2).2
        rw [show k + 1 = k - 1 + 2 by omega] at hbehind
        exact hlow hbehind
      rw [if_neg hwhole, utf16UnitAt_take (by omega) (by omega), if_neg hlow]
      exact ih (by omega) (by omega) (by omega) (by omega) (by omega) h
    · rw [if_neg hhigh] at h ⊢
      split at h
      · cases h
      rename_i hlow
      rw [if_neg hlow]
      exact ih (by omega) (by omega) (by omega) (by omega) (by omega) h

/-- Whole units without a cut pair, of an input that is decoded. -/
theorem decodedUtf16_take {k : Nat} (heven : k % 2 = 0) (hk : k ≤ input.length)
    (hcut : 2 ≤ k → 55296 ≤ utf16UnitAt input (k - 1) littleEndian →
      utf16UnitAt input (k - 1) littleEndian ≤ 56319 → k + 2 ≤ input.length ∧
        (utf16UnitAt input (k + 1) littleEndian < 56320 ∨
          57343 < utf16UnitAt input (k + 1) littleEndian))
    (h : (Decoder.decodedUtf16 input littleEndian).1 = .ok text) :
    ∃ t, (Decoder.decodedUtf16 (input.take k) littleEndian).1 = .ok t ∧ t <+: text := by
  have hlength : (input.take k).length = k := by
    rw [List.length_take]
    omega
  unfold Decoder.decodedUtf16 decodedUtf16Input at h ⊢
  dsimp only at h ⊢
  split at h
  · split at h
    · split at h
      · cases h
      · split at h <;> cases h
    · cases h
  rw [hlength, if_neg (by omega)]
  exact decodedUtf16From_take (Nat.le_refl 1) rfl heven (by omega) hk (by omega) (by omega) hcut h

/-- The units before what the end of a part cuts off. -/
theorem completeUnits {d : Decoder} (hexplicit : d.explicitEncoding = none) (h : part <+: input)
    (hsigned : (hasUtf16leSignature part || hasUtf16beSignature part) = true)
    (hend : hasUtf16leSignature part = littleEndian) :
    ∃ k, d.completeEncodedPrefixCount part = k ∧ k % 2 = 0 ∧ k ≤ part.length ∧
      (2 ≤ k → 55296 ≤ utf16UnitAt input (k - 1) littleEndian →
        utf16UnitAt input (k - 1) littleEndian ≤ 56319 → k + 2 ≤ input.length ∧
          (utf16UnitAt input (k + 1) littleEndian < 56320 ∨
            57343 < utf16UnitAt input (k + 1) littleEndian)) := by
  have hle := h.length_le
  have hunit (i : Nat) (hi : 1 ≤ i) (hin : i + 1 ≤ part.length) :
      utf16UnitAt part i littleEndian = utf16UnitAt input i littleEndian := by
    rw [List.prefix_iff_eq_take.1 h]
    exact utf16UnitAt_take hi hin
  have hnone (names : List String8) : d.explicitEncodingIs names = false := by
    unfold Decoder.explicitEncodingIs
    rw [hexplicit]
    rfl
  unfold Decoder.completeEncodedPrefixCount Decoder.explicitEncodingIsUtf16le
    Decoder.explicitEncodingIsUtf16be Decoder.explicitEncodingIsUtf16
  simp only [hnone, Bool.or_false]
  rw [if_pos hsigned, hend]
  generalize hcount : part.length - part.length % 2 = count
  by_cases hhigh : 2 ≤ count ∧ 55296 ≤ utf16UnitAt part (count - 1) littleEndian ∧
      utf16UnitAt part (count - 1) littleEndian ≤ 56319
  · rw [if_pos hhigh]
    rw [hunit (count - 1) (by omega) (by omega)] at hhigh
    refine ⟨count - 2, rfl, by omega, by omega, fun _ _ _ ↦ ⟨by omega, ?_⟩⟩
    rw [show count - 2 + 1 = count - 1 by omega]
    omega
  · rw [if_neg hhigh]
    refine ⟨count, rfl, by omega, by omega, fun htwo hlow hup ↦ ?_⟩
    rw [hunit (count - 1) (by omega) (by omega)] at hhigh
    exact absurd ⟨htwo, hlow, hup⟩ hhigh

/-! ## Encodings of single bytes -/

theorem decodedLatin1Input_eq (input : String8) :
    decodedLatin1Input input = input.flatMap fun c ↦ utf8Bytes c.toNat := by
  have hfold (s output : String8) :
      s.foldl (fun (output : String8) (c : Character8) ↦ appendUtf8Codepoint output c.toNat) output =
        output ++ s.flatMap fun c ↦ utf8Bytes c.toNat := by
    induction s generalizing output with
    | nil => exact (List.append_nil output).symm
    | cons c s ih =>
      rw [List.foldl_cons, ih, appendUtf8Codepoint_eq, List.flatMap_cons, List.append_assoc]
  exact hfold input []

theorem decodedLatin1Input_prefix (h : part <+: input) :
    decodedLatin1Input part <+: decodedLatin1Input input := by
  obtain ⟨more, rfl⟩ := h
  rw [decodedLatin1Input_eq, decodedLatin1Input_eq, List.flatMap_append]
  exact List.prefix_append _ _

/-- ASCII is Latin-1 and UTF-8. -/
theorem decodedLatin1Input_of_ascii (h : ∀ c ∈ input, c.toNat < 128) :
    decodedLatin1Input input = input := by
  rw [decodedLatin1Input_eq]
  induction input with
  | nil => rfl
  | cons c input ih =>
    rw [List.flatMap_cons, ih fun d hd ↦ h d (List.mem_cons_of_mem c hd),
      Grammar.utf8Bytes_ascii (h c List.mem_cons_self), UInt8.ofNat_toNat]
    rfl

/-! ## All encodings -/

/-- The declaration of the encoding is ASCII. -/
def HasAsciiDeclaration (input : String8) : Prop :=
  ∃ declaration, declaration <+: input ∧ (∀ c ∈ declaration, c.toNat < 128) ∧
    declaredXmlEncoding declaration = declaredXmlEncoding input

/-- Without an encoding in its beginning, a part does not spell UTF-16 either. -/
theorem not_hasUtf16Declaration_of_prefix {d : Decoder} (hexplicit : d.explicitEncoding = none)
    (hhandler : d.unknownEncodingHandler = none)
    (hle : hasUtf16leSignature input = false) (hbe : hasUtf16beSignature input = false)
    (hfinal : (d.decodedSource input).1 = .ok text) (h : part <+: input)
    (hnone : declaredXmlEncoding part = none) : hasUtf16DeclarationInUtf8Input part = false := by
  rw [← Bool.not_eq_true]
  intro hmarked
  rw [d.decodedSource_eq hexplicit, hle, hbe, if_neg Bool.false_ne_true,
    if_neg Bool.false_ne_true] at hfinal
  split at hfinal
  · cases hfinal
  cases hdeclared : declaredXmlEncoding input with
  | none =>
    rw [hdeclared] at hfinal
    obtain ⟨hinitial, marker, hmarker, hinfix⟩ := hasUtf16DeclarationInUtf8Input_iff.1 hmarked
    have hlength := length_of_utf16Declaration hmarker
    have hlong := hinfix.length_le
    have hwhole : hasUtf16DeclarationInUtf8Input input = true :=
      hasUtf16DeclarationInUtf8Input_iff.2
        ⟨by rw [hasInitialXmlDeclaration_longer h (by omega), hinitial], marker, hmarker,
          hinfix.trans h.isInfix⟩
    dsimp only at hfinal
    rw [if_pos hwhole] at hfinal
    cases hfinal
  | some value =>
    have hlong := length_of_hasUtf16Declaration h hnone hdeclared hmarked
    have hother (names : List String8) (hnames : ∀ name ∈ names, name.length < 17) :
        names.contains value = false := by
      rw [← Bool.not_eq_true, List.contains_iff_mem]
      intro hmem
      have := hnames value hmem
      omega
    rw [hdeclared] at hfinal
    dsimp only at hfinal
    rw [show isLatin1EncodingName value = false from hother _ (by decide),
      show isAsciiEncodingName value = false from hother _ (by decide),
      show isUtf8EncodingName value = false from hother _ (by decide), if_neg Bool.false_ne_true,
      if_neg Bool.false_ne_true, if_neg Bool.false_ne_true] at hfinal
    unfold Decoder.decodedUnknownEncodingInput at hfinal
    rw [hhandler] at hfinal
    cases hfinal

/-- A signature decides. -/
theorem decodedSource_of_signature {d : Decoder} (hexplicit : d.explicitEncoding = none)
    (hsigned : (hasUtf16leSignature input || hasUtf16beSignature input) = true) :
    d.decodedSource input = Decoder.decodedUtf16 input (hasUtf16leSignature input) := by
  rw [d.decodedSource_eq hexplicit]
  cases hle : hasUtf16leSignature input with
  | true => rw [if_pos rfl]
  | false =>
    rw [hle, Bool.false_or] at hsigned
    rw [if_neg Bool.false_ne_true, if_pos hsigned]

/-- Of an input with a signature, the complete units are decoded. -/
theorem decodedInput_of_signature {d : Decoder} (hexplicit : d.explicitEncoding = none)
    (hsigned : (hasUtf16leSignature input || hasUtf16beSignature input) = true)
    (hfinal : (d.decodedSource input).1 = .ok text) (h : part <+: input)
    (hlength : 2 ≤ part.length) :
    ∃ t, (d.decodedInput false part).1 = .ok t ∧ t <+: text := by
  rw [decodedSource_of_signature hexplicit hsigned] at hfinal
  obtain ⟨hle, hbe⟩ := signatures_of_prefix h hlength
  obtain ⟨k, hcount, heven, hk, hcut⟩ := completeUnits hexplicit h (by rw [hle, hbe, hsigned]) rfl
  have hshorter := h.length_le
  have hsource : d.source false part = input.take k := by
    unfold Decoder.source
    rw [if_neg Bool.false_ne_true, hcount, List.prefix_iff_eq_take.1 h, List.take_take,
      Nat.min_eq_left hk]
  unfold Decoder.decodedInput
  rw [hsource]
  by_cases hnothing : k = 0
  · rw [hnothing, List.take_zero, Decoder.decodedSource_nil hexplicit]
    exact ⟨[], rfl, List.nil_prefix⟩
  have htwo : 2 ≤ (input.take k).length := by
    rw [List.length_take]
    omega
  obtain ⟨hle', hbe'⟩ := signatures_of_prefix (List.take_prefix k input) htwo
  rw [decodedSource_of_signature hexplicit (by rw [hle', hbe', hsigned]), hle']
  rw [hle] at hcut
  exact decodedUtf16_take heven (by omega) hcut hfinal

/-- White space in front of UTF-16 is decoded when its first byte has arrived. -/
theorem prefix_of_space {c : Character8} {rest : String8} (hspace : isXmlSpace c = true)
    (hfinal : (Decoder.decodedUtf16 (c :: 0 :: rest) true).1 = .ok text) : [c] <+: text := by
  have hlow : c.toNat < 128 := by
    unfold isXmlSpace at hspace
    simp only [Bool.or_eq_true, beq_iff_eq] at hspace
    rcases hspace with ((rfl | rfl) | rfl) | rfl <;> decide
  have hunit : utf16UnitAt (c :: 0 :: rest) 1 true = c.toNat := by
    have hfirst : String8.code (c :: 0 :: rest) 1 = c.toNat := rfl
    have hsecond : String8.code (c :: 0 :: rest) (1 + 1) = 0 := rfl
    unfold utf16UnitAt
    rw [if_pos rfl, hfirst, hsecond]
    omega
  obtain ⟨t, ht, hprefix⟩ := decodedUtf16_take (k := 2) rfl
    (by rw [List.length_cons, List.length_cons]; omega)
    (fun _ hhigh _ ↦ by rw [hunit] at hhigh; omega) hfinal
  have hspaces : (Decoder.decodedUtf16 [c, 0] true).1 = .ok [c] := by
    unfold isXmlSpace at hspace
    simp only [Bool.or_eq_true, beq_iff_eq] at hspace
    rcases hspace with ((rfl | rfl) | rfl) | rfl <;> decide +kernel
  rw [show (c :: 0 :: rest).take 2 = [c, 0] from rfl, hspaces] at ht
  rwa [Except.ok.inj ht]

/-- A single byte is decoded to itself, or waits. -/
theorem decodedInput_singleton {d : Decoder} (hexplicit : d.explicitEncoding = none)
    (c : Character8) :
    (d.decodedInput false [c]).1 = .ok [] ∨ (d.decodedInput false [c]).1 = .ok [c] := by
  unfold Decoder.decodedInput Decoder.source
  rw [if_neg Bool.false_ne_true]
  cases hcount : d.completeEncodedPrefixCount [c] with
  | zero =>
    rw [List.take_zero, Decoder.decodedSource_nil hexplicit]
    exact Or.inl rfl
  | succ k =>
    rw [List.take_succ_cons, List.take_nil, d.decodedSource_eq hexplicit]
    exact Or.inr rfl

/-- Of an input without a signature, the bytes before a cut character are decoded. -/
theorem decodedSource_of_prefix {d : Decoder} (hexplicit : d.explicitEncoding = none)
    (hhandler : d.unknownEncodingHandler = none)
    (hle : hasUtf16leSignature input = false) (hbe : hasUtf16beSignature input = false)
    (hfinal : (d.decodedSource input).1 = .ok text)
    (hlatin1 : ∀ encoding ∈ declaredXmlEncoding input, isLatin1EncodingName encoding = true →
      HasAsciiDeclaration input) (h : part <+: input) :
    ∃ t, (d.decodedSource part).1 = .ok t ∧ t <+: text := by
  obtain ⟨hle', hbe'⟩ := not_signature_of_prefix h hle hbe
  have hspelled := fun hnone ↦
    not_hasUtf16Declaration_of_prefix hexplicit hhandler hle hbe hfinal h hnone
  rw [d.decodedSource_eq hexplicit, hle, hbe, if_neg Bool.false_ne_true,
    if_neg Bool.false_ne_true] at hfinal
  rw [d.decodedSource_eq hexplicit, hle', hbe', if_neg Bool.false_ne_true,
    if_neg Bool.false_ne_true]
  have hasciiPart {u : String8} (hascii : (decodedAsciiInput u).toOption = some text) :
      (∀ c ∈ u, c.toNat ≤ 127) ∧ u = text := by
    unfold decodedAsciiInput at hascii
    split at hascii
    · cases hascii
    · rename_i hany
      rw [Bool.not_eq_true, List.any_eq_false] at hany
      refine ⟨fun c hc ↦ ?_, Option.some.inj hascii⟩
      have hsmall := hany c hc
      rw [decide_eq_true_eq] at hsmall
      omega
  cases hpart : declaredXmlEncoding part with
  | some encoding =>
    rw [declaredXmlEncoding_longer h hpart] at hfinal
    split at hfinal
    · cases hfinal
    rename_i hutf16
    rw [if_neg hutf16]
    dsimp only at hfinal ⊢
    split at hfinal
    · rename_i hname
      cases hfinal
      rw [if_pos hname]
      exact ⟨_, rfl, decodedLatin1Input_prefix h⟩
    rename_i hname
    rw [if_neg hname]
    split at hfinal
    · rename_i hname'
      obtain ⟨hall, rfl⟩ := hasciiPart (u := input) (by
        show (decodedAsciiInput input).toOption = some text
        rw [show decodedAsciiInput input = .ok text from hfinal]
        rfl)
      rw [if_pos hname']
      refine ⟨part, ?_, h⟩
      show decodedAsciiInput part = .ok part
      unfold decodedAsciiInput
      rw [if_neg]
      rw [Bool.not_eq_true, List.any_eq_false]
      intro c hc
      have hsmall := hall c (h.subset hc)
      rw [decide_eq_true_eq]
      omega
    rename_i hname'
    rw [if_neg hname']
    split at hfinal
    · rename_i hname''
      cases hfinal
      rw [if_pos hname'']
      exact ⟨part, rfl, h⟩
    · unfold Decoder.decodedUnknownEncodingInput at hfinal
      rw [hhandler] at hfinal
      cases hfinal
  | none =>
    rw [if_neg (by rw [Option.any_none]; exact Bool.false_ne_true)]
    dsimp only
    rw [hspelled hpart, if_neg Bool.false_ne_true]
    refine ⟨part, rfl, ?_⟩
    split at hfinal
    · cases hfinal
    split at hfinal
    swap
    · split at hfinal
      · cases hfinal
      · cases hfinal
        exact h
    rename_i encoding hdeclared
    split at hfinal
    · rename_i hname
      cases hfinal
      -- The part ends in the declaration, where it is ASCII.
      obtain ⟨declaration, hprefix, hascii, hsame⟩ := hlatin1 encoding hdeclared hname
      have hinside : part <+: declaration := by
        rcases List.prefix_or_prefix_of_prefix h hprefix with hinside | hbehind
        · exact hinside
        · rw [hdeclared] at hsame
          rw [declaredXmlEncoding_longer hbehind hsame] at hpart
          cases hpart
      have hshort := decodedLatin1Input_prefix h
      rwa [decodedLatin1Input_of_ascii fun c hc ↦ hascii c (hinside.subset hc)] at hshort
    split at hfinal
    · obtain ⟨-, rfl⟩ := hasciiPart (u := input) (by
        show (decodedAsciiInput input).toOption = some text
        rw [show decodedAsciiInput input = .ok text from hfinal]
        rfl)
      exact h
    split at hfinal
    · cases hfinal
      exact h
    · unfold Decoder.decodedUnknownEncodingInput at hfinal
      rw [hhandler] at hfinal
      cases hfinal

/-- What a part of an input is decoded to is the beginning of what all of it is decoded to. -/
theorem decodedInput_monotone {d : Decoder} (hexplicit : d.explicitEncoding = none)
    (hhandler : d.unknownEncodingHandler = none)
    (hfinal : (d.decodedInput true input).1 = .ok text)
    (hlatin1 : ∀ encoding ∈ declaredXmlEncoding input, isLatin1EncodingName encoding = true →
      HasAsciiDeclaration input) (h : part <+: input)
    (hwaits : d.hasPartialEncodingSignaturePrefix part = false) :
    ∃ t, (d.decodedInput false part).1 = .ok t ∧ t <+: text := by
  have hsource : (d.decodedSource input).1 = .ok text := hfinal
  by_cases hsigned : (hasUtf16leSignature input || hasUtf16beSignature input) = true
  swap
  · rw [Bool.not_eq_true, Bool.or_eq_false_iff] at hsigned
    have htake : d.source false part <+: input := by
      unfold Decoder.source
      exact (List.take_prefix _ part).trans h
    exact decodedSource_of_prefix hexplicit hhandler hsigned.1 hsigned.2 hsource hlatin1 htake
  by_cases hlength : 2 ≤ part.length
  · exact decodedInput_of_signature hexplicit hsigned hsource h hlength
  cases part with
  | nil =>
    have hempty : d.source false [] = [] := List.take_nil
    unfold Decoder.decodedInput
    rw [hempty, Decoder.decodedSource_nil hexplicit]
    exact ⟨[], rfl, List.nil_prefix⟩
  | cons c rest =>
    obtain rfl : rest = [] := by
      rw [List.length_cons] at hlength
      exact List.length_eq_zero_iff.1 (by omega)
    rcases decodedInput_singleton hexplicit c with hnothing | hitself
    · exact ⟨[], hnothing, List.nil_prefix⟩
    refine ⟨[c], hitself, ?_⟩
    -- Of the signatures, only white space in front is not waited for.
    obtain ⟨hzero, hless, hmarks⟩ : c.toNat ≠ 0 ∧ c ≠ '<' ∧ c.toNat ≠ 254 ∧ c.toNat ≠ 255 := by
      have hone : String8.code [c] 1 = c.toNat := rfl
      have hitem : String8.item [c] 1 = c := rfl
      unfold Decoder.hasPartialEncodingSignaturePrefix at hwaits
      rw [hone, hitem] at hwaits
      simp only [Bool.or_eq_false_iff, Bool.and_eq_false_iff, beq_eq_false_iff_ne] at hwaits
      obtain ⟨hbad | ⟨⟨⟨⟨⟨-, hzero⟩, hless⟩, -⟩, hlow⟩, hhigh⟩, -⟩ := hwaits
      · exact absurd rfl hbad
      · exact ⟨hzero, hless, hlow, hhigh⟩
    obtain ⟨more, rfl⟩ := h
    have hfirst : String8.code ([c] ++ more) 1 = c.toNat := rfl
    have hfirst' : String8.item ([c] ++ more) 1 = c := rfl
    have hbe : hasUtf16beSignature ([c] ++ more) = false := by
      rw [← Bool.not_eq_true, hasUtf16beSignature_iff, hfirst]
      omega
    have hle : hasUtf16leSignature ([c] ++ more) = true := by
      rwa [hbe, Bool.or_false] at hsigned
    rw [decodedSource_of_signature hexplicit hsigned, hle] at hsource
    rw [hasUtf16leSignature_iff, hfirst, hfirst'] at hle
    obtain ⟨htwo, hmark | ⟨hbegin, hsecond⟩⟩ := hle
    · exact absurd hmark.1 hmarks.2
    obtain ⟨second, rest, rfl⟩ : ∃ second rest, more = second :: rest := by
      cases more with
      | nil =>
        rw [List.append_nil, List.length_singleton] at htwo
        omega
      | cons second rest => exact ⟨second, rest, rfl⟩
    obtain rfl : second = 0 := UInt8.toNat_inj.1 hsecond
    exact prefix_of_space (hbegin.resolve_left hless) hsource

end

/-- A text in ISO 8859-1, before its last character has arrived: its other character is decoded, and
what there is of the text is the beginning of the decoded one. -/
theorem decodedInput_monotone_latin1 :
    (({} : Decoder).decodedInput false
        (str "<?xml version='1.0' encoding='iso-8859-1'?>" ++ [228])).1 =
      .ok (str "<?xml version='1.0' encoding='iso-8859-1'?>" ++ [195, 164]) ∧
    str "<?xml version='1.0' encoding='iso-8859-1'?>" ++ [195, 164] <+:
      str "<?xml version='1.0' encoding='iso-8859-1'?>" ++ [195, 164, 195, 169] := by
  have hascii : HasAsciiDeclaration
      (str "<?xml version='1.0' encoding='iso-8859-1'?>" ++ [228, 233]) :=
    ⟨str "<?xml version='1.0' encoding='iso-8859-1'?>", ⟨[228, 233], by decide +kernel⟩,
      by decide +kernel, by decide +kernel⟩
  have hfinal : (({} : Decoder).decodedInput true
      (str "<?xml version='1.0' encoding='iso-8859-1'?>" ++ [228, 233])).1 =
        .ok (str "<?xml version='1.0' encoding='iso-8859-1'?>" ++ [195, 164, 195, 169]) := by
    decide +kernel
  have hpart : (({} : Decoder).decodedInput false
      (str "<?xml version='1.0' encoding='iso-8859-1'?>" ++ [228])).1 =
        .ok (str "<?xml version='1.0' encoding='iso-8859-1'?>" ++ [195, 164]) := by
    decide +kernel
  have hprefix : str "<?xml version='1.0' encoding='iso-8859-1'?>" ++ [228] <+:
      str "<?xml version='1.0' encoding='iso-8859-1'?>" ++ [228, 233] := by
    decide +kernel
  obtain ⟨t, ht, hprefix⟩ :=
    decodedInput_monotone rfl rfl hfinal (fun _ _ _ ↦ hascii) hprefix (by decide)
  obtain rfl := Except.ok.inj (ht.symm.trans hpart)
  exact ⟨hpart, hprefix⟩

end Xpact.Native
