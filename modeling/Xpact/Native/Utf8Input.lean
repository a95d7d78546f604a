import Xpact.Native.DeclaredEncoding
import Xpact.Parser.XmlDeclaration

/-!
# Input that is UTF-8

An input without a UTF-16 signature whose declaration, if there is one, names no other encoding is
taken as it is.  The exception is an input that spells a declaration of UTF-16 somewhere behind a
declaration without an encoding.
-/

namespace Xpact.Native

open Grammar Computability

/-! ## Where the bytes declare an encoding -/

/-- The bytes begin with an XML or text declaration, and `declared` is its encoding. -/
def BeginsWithDeclaration (input : String8) (declared : Option String8) : Prop :=
  ∃ declaration rest, input = declaration ++ rest ∧
    ((∃ version standalone, declaration ∈ xmlDecl version declared standalone) ∨
      ∃ version encoding, declared = some encoding ∧ declaration ∈ textDecl version encoding)

/-- The bytes do not begin like a declaration. -/
def BeginsWithoutDeclaration (input : String8) : Prop :=
  ¬ ∃ c rest, input = str "<?xml" ++ c :: rest ∧ isXmlSpace c = true

section

variable {input value part text w : String8} {version encoding : Option String8}
  {standalone : Option Bool} {c : Character8}

theorem hasInitialXmlDeclaration_iff :
    hasInitialXmlDeclaration input = true ↔
      input = str "<?xml" ∨ ∃ c rest, input = str "<?xml" ++ c :: rest ∧ isXmlSpace c = true := by
  unfold hasInitialXmlDeclaration
  simp only [Bool.and_eq_true, decide_eq_true_eq, beq_iff_eq, Bool.or_eq_true]
  constructor
  · rintro ⟨⟨⟨⟨⟨⟨hlength, h1⟩, h2⟩, h3⟩, h4⟩, h5⟩, hspace⟩
    obtain ⟨a, b, d, e, f, rest, rfl⟩ :
        ∃ a b d e f rest, input = a :: b :: d :: e :: f :: rest := by
      match input, hlength with
      | a :: b :: d :: e :: f :: rest, _ => exact ⟨a, b, d, e, f, rest, rfl⟩
    have hfive : [a, b, d, e, f] = str "<?xml" := by
      rw [show a = '<' from h1, show b = '?' from h2, show d = 'x' from h3, show e = 'm' from h4,
        show f = 'l' from h5]
      rfl
    rw [← hfive]
    cases rest with
    | nil => exact Or.inl rfl
    | cons c rest =>
      right
      rcases hspace with hshort | hspace
      · simp only [List.length_cons] at hshort
        omega
      · exact ⟨c, rest, rfl, hspace⟩
  · rintro (rfl | ⟨c, rest, rfl, hspace⟩)
    · decide
    · have hfive : (str "<?xml").length = 5 := rfl
      refine ⟨⟨⟨⟨⟨⟨?_, rfl⟩, rfl⟩, rfl⟩, rfl⟩, rfl⟩, Or.inr hspace⟩
      rw [List.length_append]
      omega

/-! ## The characters of a declaration -/

theorem not_mem_pseudoAttribute {keyword : String} (h : part ∈ pseudoAttribute keyword value)
    (hspace : isXmlSpace c = false) (hquote : isQuote c = false) (hequals : c ≠ '=')
    (hkeyword : c ∉ str keyword) (hvalue : c ∉ value) : c ∉ part := by
  obtain ⟨spaces, before, after, q, -, hspaces, hbefore, hafter, hq, rfl⟩ :=
    exists_parts_of_pseudoAttribute h
  have hnone {gap : String8} (hgap : ∀ d ∈ gap, isXmlSpace d = true) : c ∉ gap := by
    intro hmem
    rw [hgap c hmem] at hspace
    cases hspace
  have hother : c ≠ q := by
    rintro rfl
    rw [hq] at hquote
    cases hquote
  simp only [List.mem_append, List.mem_cons, List.not_mem_nil, or_false, not_or]
  exact ⟨hnone hspaces, hkeyword, hnone hbefore, hequals, hnone hafter, hother, hvalue, hother⟩

/-- Two characters that tell the keyword of the encoding and the end of the declaration. -/
def IsTelling (c : Character8) : Prop := c = 'c' ∨ c = '>'

theorem IsTelling.plain (h : IsTelling c) :
    isXmlSpace c = false ∧ isQuote c = false ∧ c ≠ '=' := by
  rcases h with rfl | rfl <;> decide

theorem not_mem_optionalSpace (h : text ∈ optionalSpace) (hc : IsTelling c) : c ∉ text := by
  intro hmem
  have hspace := mem_optionalSpace.1 h c hmem
  rw [hc.plain.1] at hspace
  cases hspace

theorem not_mem_version (h : part ∈ given versionInfo version) (hc : IsTelling c) : c ∉ part := by
  cases version with
  | none =>
    rw [show part = [] from h]
    exact List.not_mem_nil
  | some value =>
    obtain ⟨hvalue, hpart⟩ := h
    obtain ⟨hspace, hquote, hequals⟩ := hc.plain
    apply not_mem_pseudoAttribute hpart hspace hquote hequals
    · rcases hc with rfl | rfl <;> decide
    have hvalid := mem_versionNum.1 hvalue
    obtain ⟨_, rfl, digits, -, rfl⟩ := hvalue
    have hall : isValidVersionNumber (str "1." ++ digits) = true := hvalid
    unfold isValidVersionNumber at hall
    simp only [Bool.and_eq_true, List.all_eq_true] at hall
    intro hmem
    rcases List.mem_append.1 hmem with hmem | hmem
    · rcases hc with rfl | rfl <;> exact absurd hmem (by decide)
    · have hdigit := hall.2 c hmem
      rcases hc with rfl | rfl <;> exact absurd hdigit (by decide)

theorem not_mem_standalone (h : part ∈ given sdDecl standalone) (hc : IsTelling c) : c ∉ part := by
  cases standalone with
  | none =>
    rw [show part = [] from h]
    exact List.not_mem_nil
  | some answer =>
    obtain ⟨hspace, hquote, hequals⟩ := hc.plain
    apply not_mem_pseudoAttribute h hspace hquote hequals
    · rcases hc with rfl | rfl <;> decide
    · cases answer <;> rcases hc with rfl | rfl <;> decide

theorem not_mem_encoding (h : part ∈ given encodingDecl encoding) :
    (('>' : Char) : Character8) ∉ part := by
  cases encoding with
  | none =>
    rw [show part = [] from h]
    exact List.not_mem_nil
  | some value =>
    obtain ⟨hvalue, hpart⟩ := h
    apply not_mem_pseudoAttribute hpart (by decide) (by decide) (by decide) (by decide)
    have hvalid := mem_encName.1 hvalue
    intro hmem
    cases value with
    | nil => cases hmem
    | cons d rest =>
      unfold isValidEncodingName at hvalid
      rw [Bool.and_eq_true, List.all_eq_true] at hvalid
      rcases List.mem_cons.1 hmem with rfl | hmem
      · exact absurd hvalid.1 (by decide)
      · exact absurd (hvalid.2 _ hmem) (by decide)

/-! ## The encoding of a declaration is found -/

theorem findSequenceIn_here {marker : String8} (hmarker : marker ≠ []) (rest : String8) (i : Nat) :
    findSequenceIn marker (marker ++ rest) i = i := by
  obtain ⟨c, u, rfl⟩ := List.exists_cons_of_ne_nil hmarker
  rw [List.cons_append, findSequenceIn, if_pos]
  exact List.isPrefixOf_iff_prefix.2 ⟨rest, rfl⟩

theorem exists_space_of_pseudoAttribute {keyword : String}
    (h : part ∈ pseudoAttribute keyword value) :
    ∃ c rest, part = c :: rest ∧ isXmlSpace c = true := by
  obtain ⟨spaces, before, after, q, hne, hspaces, -, -, -, rfl⟩ := exists_parts_of_pseudoAttribute h
  obtain ⟨c, rest, rfl⟩ := List.exists_cons_of_ne_nil hne
  exact ⟨c, _, rfl, hspaces c List.mem_cons_self⟩

theorem exists_attributesText (h : BeginsWithDeclaration input encoding) :
    ∃ version standalone c text rest, input = str "<?xml" ++ c :: text ++ (str "?>" ++ rest) ∧
      isXmlSpace c = true ∧ c :: text ∈ attributesText version encoding standalone := by
  obtain ⟨declaration, rest, rfl, ⟨version, standalone, hmem⟩ | ⟨version, e, rfl, hmem⟩⟩ := h
  · obtain ⟨c, text, rfl, hc⟩ : ∃ c text, declaration = str "<?xml" ++ c :: text ++ str "?>" ∧
        isXmlSpace c = true := by
      have hsplit := hmem
      unfold xmlDecl at hsplit
      simp only [mul_assoc] at hsplit
      obtain ⟨_, rfl, _, ⟨a, ha, _, ⟨b, -, _, ⟨d, -, _, ⟨f, -, _, rfl, rfl⟩, rfl⟩, rfl⟩, rfl⟩, rfl⟩ :=
        hsplit
      obtain ⟨c, a, rfl, hc⟩ := exists_space_of_pseudoAttribute ha.2
      exact ⟨c, a ++ (b ++ (d ++ f)), by simp only [List.append_assoc, List.cons_append], hc⟩
    exact ⟨some version, standalone, c, text, rest, List.append_assoc _ _ _, hc,
      mem_xmlDecl.1 hmem⟩
  · obtain ⟨c, text, rfl, hc⟩ : ∃ c text, declaration = str "<?xml" ++ c :: text ++ str "?>" ∧
        isXmlSpace c = true := by
      have hsplit := hmem
      unfold textDecl at hsplit
      simp only [mul_assoc] at hsplit
      obtain ⟨_, rfl, _, ⟨a, ha, _, ⟨b, hb, _, ⟨d, -, _, rfl, rfl⟩, rfl⟩, rfl⟩, rfl⟩ := hsplit
      obtain ⟨c, b, rfl, hc⟩ := exists_space_of_pseudoAttribute hb.2
      cases version with
      | none =>
        rw [show a = [] from ha]
        exact ⟨c, b ++ d, by simp only [List.append_assoc, List.cons_append, List.nil_append], hc⟩
      | some version =>
        obtain ⟨c', a, rfl, hc'⟩ := exists_space_of_pseudoAttribute ha.2
        exact ⟨c', a ++ (c :: b ++ d), by simp only [List.append_assoc, List.cons_append], hc'⟩
    exact ⟨version, none, c, text, rest, List.append_assoc _ _ _, hc, mem_textDecl.1 hmem⟩

/-- The first `?>` is the end of the declaration. -/
theorem declarationHead_of_attributesText {rest : String8}
    (htext : text ∈ attributesText version encoding standalone) :
    declarationHead (str "<?xml" ++ text ++ (str "?>" ++ rest)) =
      str "<?xml" ++ text ++ [('?' : Character8)] := by
  have hclose : (('>' : Char) : Character8) ∉ str "<?xml" ++ text := by
    obtain ⟨a, ha, _, ⟨b, hb, _, ⟨d, hd, f, hf, rfl⟩, rfl⟩, rfl⟩ := htext
    simp only [List.mem_append, not_or]
    exact ⟨by decide, not_mem_version ha (Or.inr rfl), not_mem_encoding hb,
      not_mem_standalone hd (Or.inr rfl), not_mem_optionalSpace hf (Or.inr rfl)⟩
  have hfound : findSequence (str "<?xml" ++ text ++ (str "?>" ++ rest)) (str "?>") 1 =
      1 + (str "<?xml" ++ text).length := by
    have hskip := @findSequenceIn_skip (str "?>") (str "<?xml" ++ text) (str "?>" ++ rest) '>' 1 1
      rfl hclose (by show _ ∉ [_]; decide)
    exact hskip.trans (findSequenceIn_here (by decide) rest _)
  unfold declarationHead declarationEnd
  rw [hfound, if_neg (by omega), show str "<?xml" ++ text ++ (str "?>" ++ rest) =
    str "<?xml" ++ text ++ [('?' : Character8)] ++ ('>' : Character8) :: rest by
      simp only [List.append_assoc, List.cons_append, List.nil_append]
      rfl]
  apply List.take_left'
  rw [List.length_append, List.length_singleton]
  omega

/-- What a declaration declares is found. -/
theorem declaredXmlEncoding_of_beginsWith (h : BeginsWithDeclaration input encoding) :
    hasInitialXmlDeclaration input = true ∧ declaredXmlEncoding input = encoding := by
  obtain ⟨version, standalone, c, text, rest, rfl, hc, htext⟩ := exists_attributesText h
  have hinitial : hasInitialXmlDeclaration (str "<?xml" ++ c :: text ++ (str "?>" ++ rest)) =
      true := hasInitialXmlDeclaration_iff.2 (Or.inr ⟨c, _, List.append_assoc _ _ _, hc⟩)
  refine ⟨hinitial, ?_⟩
  have hhead := @declarationHead_of_attributesText _ _ _ _ rest htext
  generalize c :: text = attributes at htext hhead hinitial ⊢
  obtain ⟨a, ha, _, ⟨b, hb, _, ⟨d, hd, f, hf, rfl⟩, rfl⟩, rfl⟩ := htext
  cases encoding with
  | none =>
    generalize str "<?xml" ++ (a ++ (b ++ (d ++ f))) ++ (str "?>" ++ rest) = input at hhead hinitial ⊢
    cases hfound : declaredXmlEncoding input with
    | none => rfl
    | some value =>
      obtain ⟨-, u, gap, gap', q, v, -, hsplit, -⟩ := declaredXmlEncoding_eq_some_iff.1 hfound
      rw [hhead, show b = [] from hb] at hsplit
      -- The keyword would bring a letter that nothing else in the declaration has.
      have hmem : (('c' : Char) : Character8) ∈
          str "<?xml" ++ (a ++ ([] ++ (d ++ f))) ++ [('?' : Character8)] := by
        rw [hsplit]
        simp only [List.mem_append]
        exact Or.inr (Or.inl (by decide))
      simp only [List.mem_append, List.mem_singleton, List.not_mem_nil, false_or] at hmem
      rcases hmem with (hmem | hmem | hmem | hmem) | hmem
      · exact absurd hmem (by decide)
      · exact absurd hmem (not_mem_version ha (Or.inl rfl))
      · exact absurd hmem (not_mem_standalone hd (Or.inl rfl))
      · exact absurd hmem (not_mem_optionalSpace hf (Or.inl rfl))
      · exact absurd hmem (by decide)
  | some value =>
    obtain ⟨hvalue, hpart⟩ := hb
    obtain ⟨spaces, before, after, q, -, hspaces, hbefore, hafter, hquote, rfl⟩ :=
      exists_parts_of_pseudoAttribute hpart
    rw [declaredXmlEncoding_eq_some_iff, hhead]
    refine ⟨hinitial, str "<?xml" ++ a ++ spaces, before, after, q, d ++ f ++ [('?' : Character8)],
      ?_, ?_, hbefore, hafter, hquote, fun hmem ↦ ?_⟩
    · have hskip := @findSequenceIn_skip (str "encoding") (str "<?xml" ++ a ++ spaces)
        (str "encoding" ++ (before ++ ('=' : Character8) :: (after ++ q :: (value ++ q ::
          (d ++ f ++ [('?' : Character8)]))))) 'c' 2 1 rfl
        (by
          simp only [List.mem_append, not_or]
          exact ⟨⟨by decide, not_mem_version ha (Or.inl rfl)⟩,
            fun hmem ↦ absurd (hspaces _ hmem) (by decide)⟩)
        (by show _ ∉ str "en"; decide)
      rw [findSequenceIn_here (by decide)] at hskip
      rw [← hskip]
      unfold findSequence
      simp only [List.append_assoc, List.cons_append, List.nil_append, Nat.sub_self, List.drop_zero]
    · simp only [List.append_assoc, List.cons_append, List.nil_append]
    · have hnone := not_isQuote_of_encodingName (mem_encName.1 hvalue) q hmem
      rw [hquote] at hnone
      cases hnone

/-! ## The choice of the encoding -/

/-- Without a declaration nothing is declared. -/
theorem BeginsWithoutDeclaration.declares (h : BeginsWithoutDeclaration input) :
    declaredXmlEncoding input = none ∧ hasUtf16DeclarationInUtf8Input input = false := by
  by_cases hinitial : hasInitialXmlDeclaration input = true
  · obtain rfl : input = str "<?xml" := by
      rcases hasInitialXmlDeclaration_iff.1 hinitial with hall | hmore
      · exact hall
      · exact absurd hmore h
    decide
  · constructor
    · rw [declaredXmlEncoding_eq, if_neg hinitial]
    · unfold hasUtf16DeclarationInUtf8Input
      rw [Bool.not_eq_true] at hinitial
      rw [hinitial, Bool.false_and]

/-- The names of other encodings are not spellings of `utf-8`. -/
theorem encodingName_of_utf8 (h : value.map asLower = str "utf-8") :
    isLatin1EncodingName value = false ∧ isAsciiEncodingName value = false ∧
      isUtf16EncodingName value = false ∧
        (isUtf8EncodingName value = true ↔ value = str "UTF-8" ∨ value = str "utf-8") := by
  have hnone (names : List String8) (hnames : ∀ name ∈ names, name.map asLower ≠ str "utf-8") :
      names.contains value = false := by
    rw [← Bool.not_eq_true, List.contains_iff_mem]
    exact fun hmem ↦ hnames value hmem h
  refine ⟨hnone _ (by decide), hnone _ (by decide), hnone _ (by decide), ?_⟩
  unfold isUtf8EncodingName
  rw [List.contains_iff_mem]
  simp only [List.mem_cons, List.not_mem_nil, or_false]
  have hother : value ≠ str "UTF8" ∧ value ≠ str "utf8" := by
    constructor <;> rintro rfl <;> exact absurd h (by decide)
  simp only [hother.1, hother.2, or_false]

/-- Without a signature and an encoding that somebody has asked for, bytes whose declaration is
absent or names no encoding or `utf-8` are taken as they are if and only if no spelling of UTF-16
stands anywhere behind a declaration without an encoding, and `utf-8` is written in small or in
capital letters or decoded by the application in the same way. -/
theorem utf8Input_unchanged_iff {d : Decoder} (hexplicit : d.explicitEncoding = none)
    (hle : hasUtf16leSignature input = false) (hbe : hasUtf16beSignature input = false)
    {declared : Option String8}
    (hdeclared : declared = none ∧ BeginsWithoutDeclaration input ∨
      BeginsWithDeclaration input declared)
    (hutf8 : ∀ encoding ∈ declared, encoding.map asLower = str "utf-8") :
    d.decodedInput true input = (.ok input, false) ↔
      (declared = none → BeginsWithoutDeclaration input ∨
        ∀ marker ∈ utf16Declarations, ¬ marker <:+: input) ∧
      ∀ encoding ∈ declared, encoding = str "UTF-8" ∨ encoding = str "utf-8" ∨
        ∃ decode, d.unknownEncodingHandler = some decode ∧ decode input encoding = .ok input := by
  have hchoice : d.decodedInput true input = d.decodedSource input := rfl
  have hfound : declaredXmlEncoding input = declared := by
    rcases hdeclared with ⟨rfl, hwithout⟩ | hwith
    · exact hwithout.declares.1
    · exact (declaredXmlEncoding_of_beginsWith hwith).2
  rw [hchoice, Decoder.decodedSource_eq hexplicit, hle, hbe, if_neg Bool.false_ne_true,
    if_neg Bool.false_ne_true, hfound]
  cases declared with
  | none =>
    rw [if_neg (by decide)]
    have hsearch : hasUtf16DeclarationInUtf8Input input = false ↔
        BeginsWithoutDeclaration input ∨ ∀ marker ∈ utf16Declarations, ¬ marker <:+: input := by
      constructor
      · intro h
        by_cases hwithout : BeginsWithoutDeclaration input
        · exact Or.inl hwithout
        · right
          intro marker hmarker hinfix
          have hwith := hdeclared.resolve_left fun hleft ↦ hwithout hleft.2
          have hinitial := (declaredXmlEncoding_of_beginsWith hwith).1
          rw [hasUtf16DeclarationInUtf8Input_iff.2 ⟨hinitial, marker, hmarker, hinfix⟩] at h
          cases h
      · rintro (hwithout | hnone)
        · exact hwithout.declares.2
        · rw [← Bool.not_eq_true, hasUtf16DeclarationInUtf8Input_iff]
          rintro ⟨-, marker, hmarker, hinfix⟩
          exact hnone marker hmarker hinfix
    dsimp only
    constructor
    · intro h
      refine ⟨fun _ ↦ hsearch.1 ?_, fun e he ↦ (nomatch he)⟩
      by_contra hmarked
      rw [if_pos (Bool.not_eq_false _ ▸ hmarked)] at h
      cases h
    · intro h
      rw [hsearch.2 (h.1 rfl), if_neg Bool.false_ne_true]
  | some encoding =>
    obtain ⟨hlatin1, hascii, hutf16, hname⟩ := encodingName_of_utf8 (hutf8 encoding rfl)
    rw [Option.any_some, hutf16, if_neg Bool.false_ne_true]
    dsimp only
    rw [hlatin1, hascii, if_neg Bool.false_ne_true, if_neg Bool.false_ne_true]
    constructor
    · intro h
      refine ⟨fun hnone ↦ (nomatch hnone), fun e he ↦ ?_⟩
      obtain rfl := Option.mem_some_iff.1 he
      by_cases hspelled : isUtf8EncodingName encoding = true
      · rcases hname.1 hspelled with hspelled | hspelled
        · exact Or.inl hspelled
        · exact Or.inr (Or.inl hspelled)
      · rw [if_neg hspelled] at h
        unfold Decoder.decodedUnknownEncodingInput at h
        right
        right
        cases hhandler : d.unknownEncodingHandler with
        | none =>
          rw [hhandler] at h
          cases h
        | some decode =>
          rw [hhandler] at h
          exact ⟨decode, rfl, (Prod.mk.inj h).1⟩
    · rintro ⟨-, hall⟩
      by_cases hspelled : isUtf8EncodingName encoding = true
      · rw [if_pos hspelled]
      · have hneither := not_or.1 fun h ↦ hspelled (hname.2 h)
        obtain ⟨decode, hhandler, hdecode⟩ := ((hall encoding rfl).resolve_left
          hneither.1).resolve_left hneither.2
        unfold Decoder.decodedUnknownEncodingInput
        rw [if_neg hspelled, hhandler]
        dsimp only
        rw [hdecode]

end

/-! ## Some documents -/

theorem beginsWithDeclaration_version (rest : String8) :
    BeginsWithDeclaration (str "<?xml version='1.0'?>" ++ rest) none := by
  have hnothing : [] ∈ optionalSpace := mem_optionalSpace.2 (fun c hc ↦ nomatch hc)
  have hversion : str " version='1.0'" ∈ pseudoAttribute "version" (str "1.0") :=
    @mem_pseudoAttribute (str " ") [] [] (str "1.0") 39 "version" (by decide) (by decide)
      (by decide) (by decide) (by decide)
  have hwritten : str " version='1.0'" ++ [] ∈ attributesText (some (str "1.0")) none none :=
    mem_given_some ⟨mem_versionNum.2 (by decide), hversion⟩
      (mem_given_none.2 (mem_given_none.2 (mem_given_none.2 hnothing)))
  exact ⟨_, rest, rfl, Or.inl ⟨str "1.0", none, mem_xmlDecl.2 hwritten⟩⟩

theorem beginsWithDeclaration_encoding (rest : String8) :
    BeginsWithDeclaration (str "<?xml encoding='utf-8'?>" ++ rest) (some (str "utf-8")) := by
  have hnothing : [] ∈ optionalSpace := mem_optionalSpace.2 (fun c hc ↦ nomatch hc)
  have hencoding : str " encoding='utf-8'" ∈ pseudoAttribute "encoding" (str "utf-8") :=
    @mem_pseudoAttribute (str " ") [] [] (str "utf-8") 39 "encoding" (by decide) (by decide)
      (by decide) (by decide) (by decide)
  have hwritten : str " encoding='utf-8'" ++ [] ∈ attributesText none (some (str "utf-8")) none :=
    mem_given_none.2 (mem_given_some ⟨mem_encName.2 (by decide), hencoding⟩
      (mem_given_none.2 (mem_given_none.2 hnothing)))
  exact ⟨_, rest, rfl, Or.inr ⟨none, str "utf-8", rfl, mem_textDecl.2 hwritten⟩⟩

/-- A declaration without an encoding, before an element that only mentions UTF-16; and one with an
encoding, before an element that spells a declaration of UTF-16. -/
theorem utf8Input_unchanged_iff_element :
    ({} : Decoder).decodedInput true (str "<?xml version='1.0'?><a b='utf-16'/>") =
        (.ok (str "<?xml version='1.0'?><a b='utf-16'/>"), false) ∧
      ({} : Decoder).decodedInput true
          (str "<?xml encoding='utf-8'?><a b=\"encoding='utf-16'\"/>") =
        (.ok (str "<?xml encoding='utf-8'?><a b=\"encoding='utf-16'\"/>"), false) := by
  constructor
  · exact (utf8Input_unchanged_iff rfl (by decide) (by decide)
      (Or.inr (beginsWithDeclaration_version (str "<a b='utf-16'/>"))) (fun e he ↦ (nomatch he))).2
        ⟨fun _ ↦ Or.inr (by decide +kernel), fun e he ↦ (nomatch he)⟩
  · refine (utf8Input_unchanged_iff rfl (by decide) (by decide)
      (Or.inr (beginsWithDeclaration_encoding (str "<a b=\"encoding='utf-16'\"/>"))) ?_).2
        ⟨fun h ↦ (nomatch h), ?_⟩
    · intro e he
      obtain rfl := Option.mem_some_iff.1 he
      decide
    · intro e he
      exact Or.inr (Or.inl (Option.mem_some_iff.1 he).symm)

/-- An attribute value spells a declaration of UTF-16. -/
theorem utf8Input_refused :
    hasUtf16leSignature (str "<?xml version='1.0'?><a b=\"encoding='utf-16'\"/>") = false ∧
      hasUtf16beSignature (str "<?xml version='1.0'?><a b=\"encoding='utf-16'\"/>") = false ∧
      BeginsWithDeclaration (str "<?xml version='1.0'?><a b=\"encoding='utf-16'\"/>") none ∧
      ({} : Decoder).decodedInput true (str "<?xml version='1.0'?><a b=\"encoding='utf-16'\"/>") =
        (.error .incorrectEncoding, false) := by
  exact ⟨by decide, by decide,
    beginsWithDeclaration_version (str "<a b=\"encoding='utf-16'\"/>"), by decide +kernel⟩

end Xpact.Native
