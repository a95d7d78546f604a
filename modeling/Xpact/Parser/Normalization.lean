import Xpact.Native.Utf8
import Xpact.Parser.Input
import Xpact.Parser.Recognizers

/-!
# Line ends

The text that is parsed is the decoded input with its line ends normalized.  A text that needs no
change is not copied, but it is checked in the same way.
-/

namespace Xpact

open Library Library.Unicode Library.Program Routine

/-! ## Normalized line ends -/

section

variable {α : Type} [DecidableEq α]

/-- XML 1.0, section 2.11: a carriage return becomes a line feed, and a line feed directly behind it
is dropped. -/
def lineEnds (carriageReturn lineFeed : α) : Bool → List α → List α
  | _, [] => []
  | behindReturn, c :: rest =>
    if c = carriageReturn then lineFeed :: lineEnds carriageReturn lineFeed true rest
    else if behindReturn ∧ c = lineFeed then lineEnds carriageReturn lineFeed false rest
    else c :: lineEnds carriageReturn lineFeed false rest

variable {cr lf : α} {rest : List α}

/-- Only a line feed is dropped behind a carriage return. -/
theorem lineEnds_behindReturn (h : rest.head? ≠ some lf) :
    lineEnds cr lf true rest = lineEnds cr lf false rest := by
  cases rest with
  | nil => rfl
  | cons c rest =>
    have hc : c ≠ lf := fun hc ↦ h (congrArg some hc)
    unfold lineEnds
    rw [if_neg (show ¬ ((true : Bool) = true ∧ c = lf) from fun hboth ↦ hc hboth.2),
      if_neg (show ¬ ((false : Bool) = true ∧ c = lf) from fun hboth ↦ hc hboth.2)]

/-- Characters of other lines stay. -/
theorem lineEnds_append {u : List α} (hu : ∀ c ∈ u, c ≠ cr ∧ c ≠ lf) (hne : u ≠ []) (b : Bool) :
    lineEnds cr lf b (u ++ rest) = u ++ lineEnds cr lf false rest := by
  induction u generalizing b with
  | nil => exact absurd rfl hne
  | cons c u ih =>
    obtain ⟨hcr, hlf⟩ := hu c List.mem_cons_self
    rw [List.cons_append, lineEnds, if_neg hcr, if_neg (fun hboth ↦ hlf hboth.2)]
    by_cases hu' : u = []
    · rw [hu']
      rfl
    · rw [ih (fun d hd ↦ hu d (List.mem_cons_of_mem c hd)) hu']
      rfl

/-- No carriage return is left. -/
theorem not_mem_lineEnds (hne : cr ≠ lf) (b : Bool) : cr ∉ lineEnds cr lf b rest := by
  induction rest generalizing b with
  | nil => exact List.not_mem_nil
  | cons c rest ih =>
    unfold lineEnds
    split
    · rw [List.mem_cons, not_or]
      exact ⟨hne, ih true⟩
    rename_i hc
    split
    · exact ih false
    · rw [List.mem_cons, not_or]
      exact ⟨fun h ↦ hc h.symm, ih false⟩

/-- Everything in the result is a line feed or was there before. -/
theorem forall_lineEnds {P : α → Prop} (hlf : P lf) (h : ∀ c ∈ rest, P c) (b : Bool) :
    ∀ c ∈ lineEnds cr lf b rest, P c := by
  induction rest generalizing b with
  | nil => exact fun c hc ↦ absurd hc List.not_mem_nil
  | cons d rest ih =>
    have hrest := fun c hc ↦ h c (List.mem_cons_of_mem d hc)
    unfold lineEnds
    split
    · intro c hc
      rcases List.mem_cons.1 hc with rfl | hc
      · exact hlf
      · exact ih hrest true c hc
    split
    · exact ih hrest false
    · intro c hc
      rcases List.mem_cons.1 hc with rfl | hc
      · exact h c List.mem_cons_self
      · exact ih hrest false c hc

end

/-- The line ends of a text of bytes. -/
def normalizedLineEnds (s : String8) : String8 := lineEnds '\r' '\n' false s

/-- The bytes of an ASCII character are the character, those of another are not ASCII. -/
theorem utf8EncodeChar_cases (c : Char) :
    c.toNat < 128 ∧ String.utf8EncodeChar c = [UInt8.ofNat c.toNat] ∨
      128 ≤ c.toNat ∧ ∀ b ∈ String.utf8EncodeChar c, 128 ≤ b.toNat := by
  have hscalar := scalar c
  rw [← utf8Bytes_toNat]
  by_cases h : c.toNat < 128
  · exact Or.inl ⟨h, Grammar.utf8Bytes_ascii h⟩
  · exact Or.inr ⟨by omega, Grammar.utf8Bytes_wide (by omega) (by omega)⟩

theorem byte_eq_iff {n m : Nat} (hn : n < 256) (hm : m < 256) :
    UInt8.ofNat n = UInt8.ofNat m ↔ n = m := by
  constructor
  · intro h
    have := congrArg UInt8.toNat h
    rwa [toNat_byte hn, toNat_byte hm] at this
  · exact fun h ↦ h ▸ rfl

/-- Normalizing the bytes of a text is normalizing the text. -/
theorem lineEnds_utf8 (b : Bool) (text : List Char) :
    lineEnds ('\r' : Character8) '\n' b (utf8 text) = utf8 (lineEnds '\r' '\n' b text) := by
  induction text generalizing b with
  | nil => rfl
  | cons c text ih =>
    rw [utf8_cons]
    rcases utf8EncodeChar_cases c with ⟨hascii, hbytes⟩ | ⟨hwide, hbytes⟩
    · have hreturn : UInt8.ofNat c.toNat = (('\r' : Char) : Character8) ↔ c = '\r' := by
        rw [← Char.toNat_inj]
        exact byte_eq_iff (by omega) (by decide)
      have hfeed : UInt8.ofNat c.toNat = (('\n' : Char) : Character8) ↔ c = '\n' := by
        rw [← Char.toNat_inj]
        exact byte_eq_iff (by omega) (by decide)
      rw [hbytes, List.singleton_append, lineEnds, lineEnds]
      by_cases hr : c = '\r'
      · rw [if_pos (hreturn.2 hr), if_pos hr, utf8_cons, ih true]
        rfl
      rw [if_neg (fun h ↦ hr (hreturn.1 h)), if_neg hr]
      by_cases hdropped : b = true ∧ c = '\n'
      · rw [if_pos hdropped, if_pos ⟨hdropped.1, hfeed.2 hdropped.2⟩, ih false]
      · rw [if_neg hdropped, if_neg (fun h ↦ hdropped ⟨h.1, hfeed.1 h.2⟩), utf8_cons, hbytes,
          ih false]
        rfl
    · have hother (u : Character8) (hu : u ∈ String.utf8EncodeChar c) :
          u ≠ ('\r' : Char) ∧ u ≠ ('\n' : Char) := by
        have hlarge := hbytes u hu
        constructor
        · rintro rfl
          exact absurd hlarge (by decide)
        · rintro rfl
          exact absurd hlarge (by decide)
      have hne : c ≠ '\r' ∧ c ≠ '\n' := by
        constructor
        · rintro rfl
          exact absurd hwide (by decide)
        · rintro rfl
          exact absurd hwide (by decide)
      rw [lineEnds_append hother String.utf8EncodeChar_ne_nil, lineEnds, if_neg hne.1,
        if_neg (fun h ↦ hne.2 h.2), utf8_cons, ih false]

/-! ## The two scans -/

section

variable {source rest : String8} {i n : Nat}

/-- A text that the first scan passes is copied as it is, and what it rejects is rejected. -/
theorem checkAliasFrom_spec (h : RestAt source i rest) (hn : rest.length < n) :
    ((checkAliasFrom source n i).2 = true → (normalizedFrom source n i).2 = true) ∧
      (checkAliasFrom source n i = (false, false) → normalizedFrom source n i = (rest, false)) := by
  induction n generalizing i rest with
  | zero => omega
  | succ n ih =>
    rw [checkAliasFrom, normalizedFrom]
    by_cases hend : source.length < i
    · rw [if_pos hend, if_pos hend]
      have hnil : rest = [] := by
        have hindex := h.index
        exact List.length_eq_zero_iff.1 (by omega)
      rw [hnil]
      exact ⟨fun hf ↦ hf, fun _ ↦ rfl⟩
    obtain ⟨v, hv⟩ := h.exists_cons (by omega)
    rw [hv] at h hn ⊢
    rw [List.length_cons] at hn
    rw [if_neg hend, if_neg hend]
    by_cases hreturn : source.item i = '\r'
    · rw [if_pos hreturn]
      exact ⟨fun hf ↦ (nomatch hf), fun hf ↦ (nomatch hf)⟩
    rw [if_neg hreturn, if_neg hreturn]
    by_cases hascii : source.code i < 128
    · rw [if_pos hascii, if_pos hascii]
      by_cases hcode : isXmlCharacterCode (source.code i) = true
      · obtain ⟨hfailed, hcopied⟩ := ih h.cons (by omega)
        rw [if_pos hcode, if_pos hcode]
        refine ⟨hfailed, fun hcheck ↦ ?_⟩
        rw [hcopied hcheck]
      · rw [if_neg hcode, if_neg hcode]
        exact ⟨fun hf ↦ hf, fun hf ↦ (nomatch hf)⟩
    · rw [if_neg hascii, if_neg hascii]
      cases hread : utf8CharacterLength source i with
      | malformed => exact ⟨fun hf ↦ hf, fun hf ↦ (nomatch hf)⟩
      | cutOff =>
        refine ⟨fun hf ↦ (nomatch hf), fun _ ↦ ?_⟩
        rw [← h.drop]
      | character length code =>
        obtain ⟨-, hlength, u, hu⟩ := h.of_character (by omega) hread
        have hpos := List.length_pos_iff.2 (utf8Bytes_ne_nil code)
        have htotal := congrArg List.length hu
        rw [List.length_cons, List.length_append] at htotal
        rw [hu] at h ⊢
        obtain ⟨hfailed, hcopied⟩ := ih h.append (by omega)
        rw [hlength]
        dsimp only
        refine ⟨hfailed, fun hcheck ↦ ?_⟩
        rw [hcopied hcheck, h.drop, List.take_left]

/-- A text of XML, and perhaps a sequence behind it that the end cuts off. -/
def IsXmlText (s tail : String8) : Prop :=
  ∃ text : List Char, s = utf8 text ++ tail ∧ (∀ c ∈ text, isXmlCharacterCode c.toNat = true) ∧
    (tail = [] ∨ ∃ shape, IsUtf8Shape shape ∧ tail <+: shape ∧ tail ≠ shape)

theorem IsXmlText.nil : IsXmlText [] [] :=
  ⟨[], rfl, fun _ hc ↦ absurd hc List.not_mem_nil, Or.inl rfl⟩

theorem IsXmlText.cons {s tail : String8} {code : Nat} (h : IsXmlText s tail)
    (hcode : isXmlCharacterCode code = true) : IsXmlText (utf8Bytes code ++ s) tail := by
  obtain ⟨text, rfl, htext, htail⟩ := h
  obtain ⟨c, rfl⟩ := exists_char_of_isXmlCharacterCode hcode
  refine ⟨c :: text, ?_, ?_, htail⟩
  · rw [utf8_cons, utf8Bytes_toNat, List.append_assoc]
  · intro d hd
    rcases List.mem_cons.1 hd with rfl | hd
    · exact hcode
    · exact htext d hd

/-- An ASCII character in front. -/
theorem IsXmlText.cons_ascii {s tail : String8} {c : Character8} (h : IsXmlText s tail)
    (hascii : c.toNat < 128) (hcode : isXmlCharacterCode c.toNat = true) :
    IsXmlText (c :: s) tail := by
  have hcons := h.cons hcode
  rwa [Grammar.utf8Bytes_ascii hascii, UInt8.ofNat_toNat] at hcons

theorem lineEnds_cons_of_ne {c : Character8} {s : String8} (hc : c ≠ '\r') :
    normalizedLineEnds (c :: s) = c :: normalizedLineEnds s := by
  unfold normalizedLineEnds
  rw [lineEnds, if_neg hc, if_neg (fun h ↦ Bool.false_ne_true h.1)]

/-- Bytes above ASCII are no line ends. -/
theorem lineEnds_append_of_wide {u s : String8} (hu : ∀ c ∈ u, 128 ≤ c.toNat) :
    normalizedLineEnds (u ++ s) = u ++ normalizedLineEnds s := by
  by_cases hne : u = []
  · rw [hne]
    rfl
  · refine lineEnds_append (fun _ hc ↦ ?_) hne false
    have hlarge := hu _ hc
    constructor
    · rintro rfl
      exact absurd hlarge (by decide)
    · rintro rfl
      exact absurd hlarge (by decide)

/-- What is copied has its line ends normalized, and consists of characters of XML up to a sequence
that the end cuts off. -/
theorem normalizedFrom_spec (h : RestAt source i rest) (hn : rest.length < n)
    (haccepted : (normalizedFrom source n i).2 = false) :
    (normalizedFrom source n i).1 = normalizedLineEnds rest ∧ ∃ tail, IsXmlText rest tail := by
  induction n generalizing i rest with
  | zero => omega
  | succ n ih =>
    rw [normalizedFrom] at haccepted ⊢
    by_cases hend : source.length < i
    · have hnil : rest = [] := by
        have hindex := h.index
        exact List.length_eq_zero_iff.1 (by omega)
      rw [if_pos hend, hnil]
      exact ⟨rfl, [], .nil⟩
    obtain ⟨v, hv⟩ := h.exists_cons (by omega)
    rw [hv] at h hn ⊢
    rw [List.length_cons] at hn
    rw [if_neg hend] at haccepted ⊢
    by_cases hreturn : source.item i = '\r'
    · rw [if_pos hreturn] at haccepted ⊢
      dsimp only at haccepted ⊢
      unfold normalizedLineEnds
      rw [lineEnds, if_pos hreturn]
      by_cases hfeed : i + 1 ≤ source.length ∧ source.item (i + 1) = '\n'
      · rw [if_pos hfeed] at haccepted ⊢
        obtain ⟨w, hw⟩ := h.cons.exists_cons hfeed.1
        rw [hw] at h hn ⊢
        rw [List.length_cons] at hn
        obtain ⟨hout, tail, htail⟩ := ih h.cons.cons (by omega) haccepted
        rw [hout, hfeed.2, hreturn, lineEnds, if_neg (by decide), if_pos ⟨rfl, rfl⟩]
        exact ⟨rfl, tail, (htail.cons_ascii (by decide) (by decide)).cons_ascii (by decide)
          (by decide)⟩
      · rw [if_neg hfeed] at haccepted ⊢
        obtain ⟨hout, tail, htail⟩ := ih h.cons (by omega) haccepted
        have hhead : v.head? ≠ some (('\n' : Char) : Character8) := by
          intro hhead
          obtain ⟨w, rfl⟩ := List.head?_eq_some_iff.1 hhead
          exact hfeed ⟨h.cons.le, h.cons.item⟩
        rw [hout, hreturn, lineEnds_behindReturn hhead]
        exact ⟨rfl, tail, htail.cons_ascii (by decide) (by decide)⟩
    rw [if_neg hreturn] at haccepted ⊢
    by_cases hascii : source.code i < 128
    · rw [if_pos hascii] at haccepted ⊢
      by_cases hcode : isXmlCharacterCode (source.code i) = true
      · rw [if_pos hcode] at haccepted ⊢
        obtain ⟨hout, tail, htail⟩ := ih h.cons (by omega) haccepted
        dsimp only
        rw [hout, lineEnds_cons_of_ne hreturn]
        exact ⟨rfl, tail, htail.cons_ascii hascii hcode⟩
      · rw [if_neg hcode] at haccepted
        cases haccepted
    · rw [if_neg hascii] at haccepted ⊢
      cases hread : utf8CharacterLength source i with
      | malformed =>
        rw [hread] at haccepted
        cases haccepted
      | cutOff =>
        obtain ⟨hwide, -, hall⟩ := bytes_of_cutOff hread
        obtain ⟨shape, hshape⟩ := exists_shape_of_cutOff h.pos (by omega) hread
        rw [h.drop_eq] at hall
        rw [h.substring_length] at hshape
        dsimp only
        refine ⟨?_, _, [], rfl, fun _ hc ↦ absurd hc List.not_mem_nil, Or.inr ⟨shape, hshape⟩⟩
        have hbytes : ∀ c ∈ source.item i :: v, 128 ≤ c.toNat := by
          intro c hc
          rcases List.mem_cons.1 hc with rfl | hc
          · exact hwide
          · exact (hall c hc).1
        have hsame := lineEnds_append_of_wide (s := []) hbytes
        rw [List.append_nil] at hsame
        rw [h.drop, hsame]
        exact (List.append_nil _).symm
      | character length code =>
        obtain ⟨hcode, hlength, u, hu⟩ := h.of_character (by omega) hread
        have hpos := List.length_pos_iff.2 (utf8Bytes_ne_nil code)
        have htotal := congrArg List.length hu
        rw [List.length_cons, List.length_append] at htotal
        rw [hread, hlength] at haccepted
        rw [hu] at h ⊢
        obtain ⟨hout, tail, htail⟩ := ih h.append (by omega) haccepted
        have hwide : 128 ≤ code := by
          by_contra hsmall
          rw [Grammar.utf8Bytes_ascii (by omega), List.singleton_append] at h
          rw [h.code_eq, toNat_byte (by omega)] at hascii
          omega
        rw [hlength]
        dsimp only
        rw [hout, h.drop, List.take_left,
          lineEnds_append_of_wide (Grammar.utf8Bytes_wide (isXmlCharacterCode_le hcode) hwide)]
        exact ⟨rfl, tail, htail.cons hcode⟩

end

/-! ## The runs -/

theorem run_config {p : Parser} :
    Routine.config.run Parser.routineMachine p = some (p.config, p) := rfl

/-- Decoding ends, and leaves what it does not convert. -/
theorem recognizes_decodedInput (cfg : Config) (isUtf8 : Bool) (input : String8) :
    Recognizes cfg (decodedInput isUtf8 input) fun d ↦ d.2 = true → d.1 = input := by
  unfold decodedInput
  apply Judges.ite
  · exact fun _ ↦ Judges.pure fun _ ↦ rfl
  intro _
  apply Judges.ite
  · intro _
    have htext : Recognizes cfg (utf16AsUtf8 input (input.code 1 == 254)) fun _ ↦ True := by
      unfold utf16AsUtf8
      dsimp only
      apply Judges.ite
      · exact fun _ ↦ Judges.bind (Recognizes.setError _ (P := fun _ ↦ True)) fun _ ↦
          Judges.pure fun _ ↦ trivial
      · exact fun _ ↦ Judges.pure trivial
    apply Judges.bind htext
    intro text
    dsimp only
    apply Judges.ite
    · exact fun _ ↦ Judges.bind (Recognizes.setError _ (P := fun _ ↦ True)) fun _ ↦
        Judges.pure fun _ _ h ↦ (nomatch h)
    · exact fun _ ↦ Judges.pure fun _ h ↦ (nomatch h)
  intro _
  dsimp only
  apply Judges.ite
  · exact fun _ ↦ Recognizes.failAt _ _
  intro _
  apply Judges.ite
  · exact fun _ ↦ Recognizes.failAt _ _
  intro _
  apply Judges.ite
  · exact fun _ ↦ Judges.pure fun h ↦ (nomatch h)
  intro _
  apply Judges.ite
  · exact fun _ ↦ Recognizes.failAt _ _
  · exact fun _ ↦ Judges.pure fun _ ↦ rfl

/-- Does the text begin with a mark of its own that is still to be dropped? -/
def holdsMark (cfg : Config) (source : String8) (same : Bool) : Bool :=
  !cfg.inputByteOrderMarkRemoved && same && startsWithUtf8Mark source

/-- Where the text begins behind its mark. -/
def textStart (cfg : Config) (source : String8) (same : Bool) : Nat :=
  if holdsMark cfg source same then 4 else 1

section

variable {p r : Parser} {input source : String8} {isUtf8 same allowAlias : Bool}

/-- After a failed conversion nothing is read. -/
theorem run_normalizedInput_of_error
    (hdecoded : (decodedInput isUtf8 input).run Parser.routineMachine p = some ((source, same), r))
    (hr : r.core.hasError = true) :
    (normalizedInput isUtf8 input allowAlias).run Parser.routineMachine p = some ([], r) := by
  have hhas : hasError.run Parser.routineMachine r = some (true, r) := by rw [run_hasError, hr]
  unfold normalizedInput
  rw [run_bind, hdecoded, Option.bind_some]
  dsimp only
  rw [run_bind_of_read run_config]
  split
  · rw [run_bind_of_read hhas, if_pos rfl, run_bind_of_read hhas, Bool.not_true, Bool.and_false,
      if_neg Bool.false_ne_true, run_bind_of_read hhas, if_pos rfl]
    rfl
  · rw [run_bind_of_read hhas, Bool.not_true, Bool.and_false, if_neg Bool.false_ne_true,
      run_bind_of_read hhas, if_pos rfl]
    rfl

/-- The outcome of a copy. -/
def copied (r : Parser) (source : String8) (start : Nat) : String8 × Parser :=
  ((normalizedFrom source (source.length + 1) start).1,
    if (normalizedFrom source (source.length + 1) start).2 then r.setError "invalid XML character"
    else r)

/-- A text that may not be returned itself, or begins with a mark, is copied. -/
theorem run_normalizedInput_of_copy
    (hdecoded : (decodedInput isUtf8 input).run Parser.routineMachine p = some ((source, same), r))
    (hr : r.core.hasError = false)
    (hcopy : (allowAlias && same && !holdsMark r.config source same) = false) :
    (normalizedInput isUtf8 input allowAlias).run Parser.routineMachine p =
      some (copied r source (textStart r.config source same)) := by
  have hhas : hasError.run Parser.routineMachine r = some (false, r) := by rw [run_hasError, hr]
  unfold normalizedInput
  rw [run_bind, hdecoded, Option.bind_some]
  dsimp only
  rw [run_bind_of_read run_config]
  rw [show (!r.config.inputByteOrderMarkRemoved && same && startsWithUtf8Mark source) =
    holdsMark r.config source same from rfl, if_neg (by rw [hcopy]; exact Bool.false_ne_true),
    run_bind_of_read hhas, Bool.not_false, Bool.and_true,
    if_neg (by rw [hcopy]; exact Bool.false_ne_true), run_bind_of_read hhas,
    if_neg Bool.false_ne_true]
  unfold copied textStart
  generalize normalizedFrom source _ _ = scan
  obtain ⟨text, failed⟩ := scan
  cases failed <;> rfl

/-- Another text is checked first, and returned when nothing is to be changed. -/
theorem run_normalizedInput_of_check
    (hdecoded : (decodedInput isUtf8 input).run Parser.routineMachine p = some ((source, same), r))
    (hr : r.core.hasError = false)
    (hcheck : (allowAlias && same && !holdsMark r.config source same) = true) :
    (normalizedInput isUtf8 input allowAlias).run Parser.routineMachine p =
      if (checkAliasFrom source (source.length + 1) 1).2 then
        some ([], r.setError "invalid XML character")
      else if (checkAliasFrom source (source.length + 1) 1).1 then
        some (copied r source 1)
      else
        some (input, r) := by
  have hhas : hasError.run Parser.routineMachine r = some (false, r) := by rw [run_hasError, hr]
  have halias : (allowAlias && same) = true := (Bool.and_eq_true_iff.1 hcheck).1
  have hmarked : holdsMark r.config source same = false := by
    rw [← Bool.not_eq_true']
    exact (Bool.and_eq_true_iff.1 hcheck).2
  unfold normalizedInput
  rw [run_bind, hdecoded, Option.bind_some]
  dsimp only
  rw [run_bind_of_read run_config, show (!r.config.inputByteOrderMarkRemoved && same &&
    startsWithUtf8Mark source) = holdsMark r.config source same from rfl, if_pos hcheck,
    run_bind_of_read hhas, if_neg Bool.false_ne_true, hmarked, halias]
  generalize checkAliasFrom source (source.length + 1) 1 = check
  obtain ⟨needsCopy, failed⟩ := check
  cases failed with
  | true =>
    have herror := Parser.setError_hasError r "invalid XML character"
    have hhas' : hasError.run Parser.routineMachine (r.setError "invalid XML character") =
        some (true, r.setError "invalid XML character") := by rw [run_hasError, herror]
    dsimp only
    rw [if_pos rfl, if_pos rfl, run_bind]
    show (hasError >>= _).run Parser.routineMachine (r.setError "invalid XML character") = _
    rw [run_bind_of_read hhas', Bool.not_true, Bool.and_false, if_neg Bool.false_ne_true,
      run_bind_of_read hhas', if_pos rfl]
    rfl
  | false =>
    dsimp only
    rw [if_neg Bool.false_ne_true, if_neg Bool.false_ne_true, run_bind_of_read hhas]
    cases needsCopy with
    | true =>
      rw [if_neg (by decide), run_bind_of_read hhas, if_neg Bool.false_ne_true, if_pos rfl,
        if_neg Bool.false_ne_true]
      unfold copied
      generalize normalizedFrom source _ _ = scan
      obtain ⟨text, failed⟩ := scan
      cases failed <;> rfl
    | false =>
      rw [if_pos (by decide), if_neg Bool.false_ne_true]
      rfl

theorem copied_hasError (hr : r.core.hasError = false) (start : Nat) :
    (copied r source start).2.core.hasError =
      (normalizedFrom source (source.length + 1) start).2 := by
  unfold copied
  cases hfailed : (normalizedFrom source (source.length + 1) start).2 with
  | true =>
    dsimp only
    rw [if_pos rfl]
    exact Parser.setError_hasError r _
  | false =>
    dsimp only
    rw [if_neg Bool.false_ne_true]
    exact hr

theorem copied_snd (hr : r.core.hasError = false) {start : Nat}
    (h : (copied r source start).2.core.hasError = false) : (copied r source start).2 = r := by
  rw [copied_hasError hr] at h
  unfold copied
  dsimp only
  rw [h, if_neg Bool.false_ne_true]

/-- Both ways to read an unmarked text agree: the check fails where the copy fails, and returns what
the copy holds. -/
theorem check_agrees (hr : r.core.hasError = false) (hsame : same = true → source = input)
    (hcheck : (allowAlias && same && !holdsMark r.config source same) = true)
    (hdecoded : (decodedInput isUtf8 input).run Parser.routineMachine p = some ((source, same), r)) :
    ∃ text q, (normalizedInput isUtf8 input allowAlias).run Parser.routineMachine p =
        some (text, q) ∧ q.core.hasError = (copied r source 1).2.core.hasError ∧
      (q.core.hasError = false → text = (copied r source 1).1 ∧ q = r) := by
  have halias := Bool.and_eq_true_iff.1 (Bool.and_eq_true_iff.1 hcheck).1
  have hwhole : RestAt source 1 source := ⟨by omega, by omega, rfl⟩
  obtain ⟨hfails, hcopies⟩ := checkAliasFrom_spec (n := source.length + 1) hwhole (by omega)
  have hread := run_normalizedInput_of_check hdecoded hr hcheck
  by_cases hfailed : (checkAliasFrom source (source.length + 1) 1).2 = true
  · have herror := Parser.setError_hasError r "invalid XML character"
    rw [if_pos hfailed] at hread
    refine ⟨_, _, hread, ?_, fun h ↦ ?_⟩
    · rw [herror, copied_hasError hr, hfails hfailed]
    · rw [herror] at h
      cases h
  rw [if_neg hfailed] at hread
  by_cases hneeds : (checkAliasFrom source (source.length + 1) 1).1 = true
  · rw [if_pos hneeds] at hread
    exact ⟨(copied r source 1).1, (copied r source 1).2, hread, rfl, fun h ↦
      ⟨rfl, copied_snd hr h⟩⟩
  · have hcopy : normalizedFrom source (source.length + 1) 1 = (source, false) := hcopies
      (Prod.ext (Bool.not_eq_true _ ▸ hneeds) (Bool.not_eq_true _ ▸ hfailed))
    rw [if_neg hneeds] at hread
    refine ⟨_, _, hread, ?_, fun _ ↦ ⟨?_, rfl⟩⟩
    · rw [copied_hasError hr, hcopy, hr]
    · unfold copied
      rw [hcopy, hsame halias.2]

end

/-! ## Normalized input -/

/-- The text does not end inside a UTF-8 sequence. -/
def EndsInCharacter (source : String8) : Prop :=
  ∀ (text : List Char) (tail shape : String8), source = utf8 text ++ tail → IsUtf8Shape shape →
    tail <+: shape → tail ≠ shape → tail = []

/-- The parser, when somebody else has removed the mark. -/
def Parser.withMarkRemoved (p : Parser) : Parser :=
  { p with config := { p.config with inputByteOrderMarkRemoved := true } }

/-- A text of XML without a carriage return passes the check. -/
theorem checkAliasFrom_of_text {source : String8} {i n : Nat} {text : List Char}
    (h : RestAt source i (utf8 text)) (htext : ∀ c ∈ text, isXmlCharacterCode c.toNat = true)
    (hreturn : '\r' ∉ text) (hn : (utf8 text).length < n) :
    checkAliasFrom source n i = (false, false) := by
  induction text generalizing i n with
  | nil =>
    obtain ⟨n, rfl⟩ : ∃ m, n = m + 1 := ⟨n - 1, by omega⟩
    have hindex := h.index
    have hnil : (utf8 []).length = 0 := rfl
    rw [checkAliasFrom, if_pos (by omega)]
  | cons c text ih =>
    obtain ⟨n, rfl⟩ : ∃ m, n = m + 1 := ⟨n - 1, by omega⟩
    have hcode := htext c List.mem_cons_self
    have hrest := fun d hd ↦ htext d (List.mem_cons_of_mem c hd)
    rw [List.mem_cons, not_or] at hreturn
    rw [utf8_cons] at h hn
    rw [List.length_append] at hn
    have hne := List.length_pos_iff.2 (@String.utf8EncodeChar_ne_nil c)
    have hle := h.index
    rw [List.length_append] at hle
    rw [checkAliasFrom, if_neg (by omega)]
    rcases utf8EncodeChar_cases c with ⟨hascii, hbytes⟩ | ⟨hwide, hbytes⟩
    · rw [hbytes, List.singleton_append] at h
      rw [hbytes, List.length_singleton] at hn
      have hbyte : source.code i = c.toNat := by
        rw [h.code_eq, toNat_byte (by omega)]
      have hother : source.item i ≠ '\r' := by
        intro heq
        rw [h.item] at heq
        exact hreturn.1 (Char.toNat_inj.1 ((byte_eq_iff (by omega) (by decide)).1 heq)).symm
      rw [if_neg hother, hbyte, if_pos hascii, if_pos hcode]
      exact ih h.cons hrest hreturn.2 (by omega)
    · obtain ⟨b, tail, hcons⟩ := List.exists_cons_of_ne_nil (@String.utf8EncodeChar_ne_nil c)
      have hlead := hbytes b (hcons ▸ List.mem_cons_self)
      have hread := h
      rw [← utf8Bytes_toNat] at hread
      have hlength := hread.utf8CharacterLength hcode
      have hnext := h.append
      rw [hcons, List.cons_append] at h
      have hbyte : source.code i = b.toNat := h.code_eq
      have hother : source.item i ≠ '\r' := by
        intro heq
        rw [h.item] at heq
        rw [heq] at hlead
        exact absurd hlead (by decide)
      rw [if_neg hother, if_neg (by omega), hlength, utf8Bytes_toNat]
      exact ih hnext hrest hreturn.2 (by omega)

/-- Normalizing such a text changes nothing. -/
theorem run_normalizedInput_of_text {p : Parser} (hp : p.core.hasError = false) {text : List Char}
    (htext : ∀ c ∈ text, isXmlCharacterCode c.toNat = true) (hreturn : '\r' ∉ text)
    (allowAlias : Bool) :
    (normalizedInput true (utf8 text) allowAlias).run Parser.routineMachine p.withMarkRemoved =
      some (utf8 text, p.withMarkRemoved) := by
  have hwhole : RestAt (utf8 text) 1 (utf8 text) := ⟨by omega, by omega, rfl⟩
  have hcheck := checkAliasFrom_of_text hwhole htext hreturn (Nat.lt_succ_self _)
  have hcopy := (checkAliasFrom_spec hwhole (Nat.lt_succ_self _)).2 hcheck
  have hdecoded : (decodedInput true (utf8 text)).run Parser.routineMachine p.withMarkRemoved =
      some ((utf8 text, true), p.withMarkRemoved) := rfl
  have hmarked : holdsMark p.withMarkRemoved.config (utf8 text) true = false := rfl
  cases allowAlias with
  | true =>
    rw [run_normalizedInput_of_check hdecoded hp (by rw [hmarked]; rfl), hcheck,
      if_neg Bool.false_ne_true, if_neg Bool.false_ne_true]
  | false =>
    rw [run_normalizedInput_of_copy hdecoded hp rfl]
    unfold copied textStart
    rw [hmarked, if_neg Bool.false_ne_true, hcopy, if_neg Bool.false_ne_true]

/-- Behind the mark, a text ends in a character where the whole text does. -/
theorem EndsInCharacter.behindMark {cfg : Config} {source tail : String8} {same : Bool}
    (h : EndsInCharacter source)
    (htail : IsXmlText (source.drop (textStart cfg source same - 1)) tail) :
    IsXmlText (source.drop (textStart cfg source same - 1)) [] := by
  obtain ⟨text, hsplit, htext, hend⟩ := htail
  have hnil : tail = [] := by
    rcases hend with hend | ⟨shape, hshape, hprefix, hne⟩
    · exact hend
    unfold textStart at hsplit
    by_cases hmark : holdsMark cfg source same = true
    · rw [if_pos hmark] at hsplit
      unfold holdsMark startsWithUtf8Mark at hmark
      simp only [Bool.and_eq_true, decide_eq_true_eq, beq_iff_eq] at hmark
      obtain ⟨-, ⟨⟨hlength, hone⟩, htwo⟩, hthree⟩ := hmark
      obtain ⟨a, b, c, rest, rfl⟩ : ∃ a b c rest, source = a :: b :: c :: rest := by
        match source, hlength with
        | a :: b :: c :: rest, _ => exact ⟨a, b, c, rest, rfl⟩
      have hmarkBytes : [a, b, c] = String.utf8EncodeChar (Char.ofNat 0xFEFF) := by
        rw [show a = 239 from UInt8.toNat_inj.1 hone, show b = 187 from UInt8.toNat_inj.1 htwo,
          show c = 191 from UInt8.toNat_inj.1 hthree]
        decide
      apply h (Char.ofNat 0xFEFF :: text) tail shape ?_ hshape hprefix hne
      rw [utf8_cons, ← hmarkBytes, List.append_assoc, ← hsplit]
      rfl
    · rw [if_neg hmark] at hsplit
      exact h text tail shape hsplit hshape hprefix hne
  rw [hnil] at hsplit
  exact ⟨text, hsplit, htext, Or.inl rfl⟩

/-- What a copy accepts is the normalized text, and normalizing it again changes nothing. -/
theorem copied_spec {p r : Parser} (hp : p.core.hasError = false) (hr : r.core.hasError = false)
    {source : String8} {same : Bool}
    (haccepted : (copied r source (textStart r.config source same)).2.core.hasError = false)
    (hend : EndsInCharacter source) :
    (copied r source (textStart r.config source same)).1 =
        normalizedLineEnds (source.drop (textStart r.config source same - 1)) ∧
      (∃ text : List Char, (copied r source (textStart r.config source same)).1 = utf8 text ∧
        ∀ c ∈ text, isXmlCharacterCode c.toNat = true) ∧
      ∀ allowAlias,
        (normalizedInput true (copied r source (textStart r.config source same)).1 allowAlias).run
          Parser.routineMachine p.withMarkRemoved =
            some ((copied r source (textStart r.config source same)).1, p.withMarkRemoved) := by
  rw [copied_hasError hr] at haccepted
  have hinside : textStart r.config source same ≤ source.length + 1 := by
    unfold textStart
    split
    · rename_i hmark
      unfold holdsMark startsWithUtf8Mark at hmark
      simp only [Bool.and_eq_true, decide_eq_true_eq] at hmark
      omega
    · omega
  have hpos : 1 ≤ textStart r.config source same := by
    unfold textStart
    split <;> omega
  obtain ⟨hout, tail, htail⟩ := normalizedFrom_spec (RestAt.of_index hpos hinside)
    (by rw [List.length_drop]; omega) haccepted
  obtain ⟨text, hsplit, htext, -⟩ := hend.behindMark htail
  rw [List.append_nil] at hsplit
  have hbytes : (copied r source (textStart r.config source same)).1 =
      utf8 (lineEnds '\r' '\n' false text) := by
    show (normalizedFrom _ _ _).1 = _
    rw [hout, hsplit]
    exact lineEnds_utf8 false text
  have hall : ∀ c ∈ lineEnds '\r' '\n' false text, isXmlCharacterCode c.toNat = true :=
    forall_lineEnds (by decide) htext false
  have hreturn : '\r' ∉ lineEnds '\r' '\n' false text := not_mem_lineEnds (by decide) false
  refine ⟨hout, ⟨_, hbytes, hall⟩, fun allowAlias ↦ ?_⟩
  rw [hbytes]
  exact run_normalizedInput_of_text hp hall hreturn allowAlias

/-- Both ways to normalize accept the same inputs and return the same text of them: the decoded text
behind its mark, with its line ends normalized. -/
theorem normalizedInput_correct {p : Parser} (hp : p.core.hasError = false) (isUtf8 : Bool)
    (input : String8) :
    ∃ source same r aliased q copy q',
      (decodedInput isUtf8 input).run Parser.routineMachine p = some ((source, same), r) ∧
      (normalizedInput isUtf8 input true).run Parser.routineMachine p = some (aliased, q) ∧
      (normalizedInput isUtf8 input false).run Parser.routineMachine p = some (copy, q') ∧
      q.core.hasError = q'.core.hasError ∧
      (q'.core.hasError = false → aliased = copy ∧ (EndsInCharacter source →
        copy = normalizedLineEnds (source.drop (textStart p.config source same - 1)) ∧
        (∃ text : List Char, copy = utf8 text ∧
          ∀ c ∈ text, isXmlCharacterCode c.toNat = true) ∧
        ∀ allowAlias, (normalizedInput true copy allowAlias).run Parser.routineMachine
          p.withMarkRemoved = some (copy, p.withMarkRemoved))) := by
  obtain ⟨⟨source, same⟩, r, hdecoded, hstate, hsame⟩ :=
    recognizes_decodedInput p.config isUtf8 input p rfl
  have hcfg : r.config = p.config := by
    rcases hstate with rfl | ⟨message, rfl⟩
    · rfl
    · unfold Parser.setError
      split <;> rfl
  by_cases hr : r.core.hasError = true
  · refine ⟨source, same, r, [], r, [], r, hdecoded, run_normalizedInput_of_error hdecoded hr,
      run_normalizedInput_of_error hdecoded hr, rfl, fun haccepted ↦ ?_⟩
    rw [hr] at haccepted
    cases haccepted
  have hr' : r.core.hasError = false := Bool.not_eq_true _ ▸ hr
  have hcopy := @run_normalizedInput_of_copy _ _ _ _ _ _ false hdecoded hr' rfl
  have hspec := @copied_spec p r hp hr' source same
  rw [← hcfg]
  by_cases hcheck : (true && same && !holdsMark r.config source same) = true
  · have hstart : textStart r.config source same = 1 := by
      have hmark := (Bool.and_eq_true_iff.1 hcheck).2
      rw [Bool.not_eq_true'] at hmark
      unfold textStart
      rw [if_neg (by rw [hmark]; exact Bool.false_ne_true)]
    obtain ⟨text, q, hread, herror, htext⟩ := check_agrees hr' (fun h ↦ hsame hr h) hcheck hdecoded
    rw [hstart] at hcopy hspec
    refine ⟨source, same, r, text, q, _, _, hdecoded, hread, hcopy, herror, fun haccepted ↦ ?_⟩
    rw [hstart]
    exact ⟨(htext (herror.trans haccepted)).1, hspec haccepted⟩
  · have hread := run_normalizedInput_of_copy hdecoded hr' (Bool.not_eq_true _ ▸ hcheck)
    exact ⟨source, same, r, _, _, _, _, hdecoded, hread, hcopy, rfl, fun haccepted ↦
      ⟨rfl, hspec haccepted⟩⟩

/-- A shape that begins with an ASCII character has no part but itself. -/
theorem endsInCharacter_of_ascii {source : String8} (h : ∀ c ∈ source, c.toNat < 128) :
    EndsInCharacter source := by
  intro text tail shape hsource hshape hpart hne
  cases tail with
  | nil => rfl
  | cons c rest =>
    exfalso
    have hc : c.toNat < 128 := h c (by rw [hsource]; simp)
    obtain ⟨more, rfl⟩ := hpart
    obtain ⟨lead, following, hcons, -, hlead⟩ := hshape
    obtain ⟨rfl, hfollowing⟩ := List.cons.inj hcons
    have hnone : following = [] := List.length_eq_zero_iff.1 (by omega)
    obtain ⟨rfl, rfl⟩ := List.append_eq_nil_iff.1 (hfollowing.trans hnone)
    exact hne rfl

/-- A line of two: both ways return the text with its line ends normalized, and a second pass as
UTF-8 leaves it as it is. -/
theorem normalizedInput_correct_line :
    ∃ q q',
      (normalizedInput false (str "a\r\nb") true).run Parser.routineMachine
        (Parser.make {} .null) = some (str "a\nb", q) ∧
      (normalizedInput false (str "a\r\nb") false).run Parser.routineMachine
        (Parser.make {} .null) = some (str "a\nb", q') ∧
      q.core.hasError = false ∧
      ∀ allowAlias, (normalizedInput true (str "a\nb") allowAlias).run Parser.routineMachine
        (Parser.make {} .null).withMarkRemoved =
          some (str "a\nb", (Parser.make {} .null).withMarkRemoved) := by
  obtain ⟨source, same, r₀, aliased, q, copy, q', hdecoded, halias, hcopy, herror, haccepted⟩ :=
    normalizedInput_correct (p := Parser.make {} .null) rfl false (str "a\r\nb")
  obtain ⟨r, hrun, hr⟩ : ∃ r, (normalizedInput false (str "a\r\nb") false).run
      Parser.routineMachine (Parser.make {} .null) = some (str "a\nb", r) ∧
        r.core.hasError = false := ⟨_, rfl, rfl⟩
  obtain ⟨rfl, rfl⟩ := Prod.mk.inj (Option.some.inj (hrun.symm.trans hcopy))
  obtain ⟨rfl, hfrom⟩ := haccepted hr
  obtain ⟨rfl, -⟩ : source = str "a\r\nb" ∧ same = true := by
    obtain ⟨r', hsource⟩ : ∃ r', (decodedInput false (str "a\r\nb")).run Parser.routineMachine
        (Parser.make {} .null) = some ((str "a\r\nb", true), r') := ⟨_, rfl⟩
    exact Prod.mk.inj (Prod.mk.inj (Option.some.inj (hdecoded.symm.trans hsource))).1
  exact ⟨q, r, halias, hcopy, herror.trans hr,
    (hfrom (endsInCharacter_of_ascii (by decide))).2.2⟩

/-- Of a text that is refused, the copy holds what came before the error; and a result that still
declares an encoding is converted once more unless it is read as UTF-8. -/
theorem normalizedInput_refused_and_again :
    (∃ q, (normalizedInput false [97, 1] true).run Parser.routineMachine (Parser.make {} .null) =
      some ([], q)) ∧
    (∃ q, (normalizedInput false [97, 1] false).run Parser.routineMachine (Parser.make {} .null) =
      some ([97], q)) ∧
    (∃ q, (normalizedInput false (str "<?xml version='1.0' encoding='latin1'?>" ++ [233])
      false).run Parser.routineMachine (Parser.make {} .null) =
        some (str "<?xml version='1.0' encoding='latin1'?>" ++ [195, 169], q)) ∧
    ∃ q, (normalizedInput false (str "<?xml version='1.0' encoding='latin1'?>" ++ [195, 169])
      false).run Parser.routineMachine (Parser.make {} .null).withMarkRemoved =
        some (str "<?xml version='1.0' encoding='latin1'?>" ++ [195, 131, 194, 169], q) :=
  ⟨⟨_, rfl⟩, ⟨_, rfl⟩, ⟨_, rfl⟩, ⟨_, rfl⟩⟩

end Xpact
