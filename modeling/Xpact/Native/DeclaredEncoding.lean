import Xpact.Grammar.Names
import Xpact.Native.Decoding
import Xpact.Text.Suffixes

/-!
# The declared encoding

The search for the encoding of a declaration reads up to the first `?>`.  What it finds in a part of
the input it finds in all of it.
-/

namespace Xpact

/-! ## Parts of a text -/

theorem String8.item_take {input : String8} {n i : Nat} (hi : 1 ≤ i) (hn : i ≤ n) :
    String8.item (input.take n) i = input.item i := by
  unfold String8.item
  rw [List.getD_eq_getElem?_getD, List.getD_eq_getElem?_getD, List.getElem?_take,
    if_pos (by omega)]

theorem String8.substring_take {input : String8} {n i j : Nat} (hn : j ≤ n) :
    String8.substring (input.take n) i j = input.substring i j := by
  unfold String8.substring
  rw [List.length_take]
  by_cases h : 1 ≤ i ∧ i ≤ j ∧ j ≤ input.length
  · rw [if_pos h, if_pos (by omega), List.drop_take, List.take_take, Nat.min_eq_left (by omega)]
  · rw [if_neg h, if_neg (by omega)]

open Grammar

namespace Native

/-! ## The search in a declaration -/

/-- The `?` of the first `?>`, or the end of the input. -/
def declarationEnd (input : String8) : Nat :=
  if findSequence input (str "?>") 1 = 0 then input.length else findSequence input (str "?>") 1

/-- The text that is searched for an encoding. -/
def declarationHead (input : String8) : String8 := input.take (declarationEnd input)

/-- The search, in the text that it reads. -/
def encodingIn (head : String8) : Option String8 :=
  let keyword := findSequence head (str "encoding") 1
  if 0 < keyword then
    let equals := skipSpaces head (keyword + 8)
    if equals ≤ head.length ∧ head.item equals = '=' then
      let quote := skipSpaces head (equals + 1)
      if quote ≤ head.length ∧ isQuote (head.item quote) then
        let close := findCharacter head (head.item quote) (quote + 1)
        if 0 < close then some (head.substring (quote + 1) (close - 1)) else none
      else none
    else none
  else
    none

theorem declarationEnd_le (input : String8) : declarationEnd input ≤ input.length := by
  unfold declarationEnd
  split
  · omega
  · rename_i hfound
    have hle := findSequenceIn_le Nat.one_pos hfound
    have hlength : (str "?>").length = 2 := rfl
    have hdrop : (input.drop (1 - 1)).length = input.length := rfl
    unfold findSequence
    omega

theorem length_declarationHead (input : String8) :
    (declarationHead input).length = declarationEnd input := by
  have hle := declarationEnd_le input
  unfold declarationHead
  rw [List.length_take]
  omega

/-- The keyword that begins in the text ends in it, since it has no `?`. -/
theorem findSequence_declarationHead (input : String8) :
    findSequence (declarationHead input) (str "encoding") 1 =
      if 0 < findSequence input (str "encoding") 1 ∧
          findSequence input (str "encoding") 1 < declarationEnd input then
        findSequence input (str "encoding") 1
      else 0 := by
  have htake := @findSequenceIn_take (str "encoding") (by decide) input (declarationEnd input) 1
    (by omega)
  have hshow : findSequence (declarationHead input) (str "encoding") 1 =
      findSequenceIn (str "encoding") (input.take (declarationEnd input)) 1 := rfl
  have hsame : findSequenceIn (str "encoding") input 1 = findSequence input (str "encoding") 1 := rfl
  have height : (str "encoding").length = 8 := rfl
  rw [hshow, htake, hsame, height]
  by_cases hkeyword : 0 < findSequence input (str "encoding") 1
  swap
  · rw [if_neg (show ¬ (0 < findSequence input (str "encoding") 1 ∧
      findSequence input (str "encoding") 1 < declarationEnd input) from fun h ↦ hkeyword h.1)]
    split <;> omega
  by_cases hfits : findSequence input (str "encoding") 1 + 8 ≤ 1 + declarationEnd input
  · rw [if_pos hfits, if_pos ⟨hkeyword, by omega⟩]
  rw [if_neg hfits, if_neg]
  rintro ⟨-, hlt⟩
  obtain ⟨u, v, hinput, hfound⟩ := exists_of_findSequenceIn (show findSequenceIn (str "encoding")
    input 1 ≠ 0 by rw [hsame]; omega)
  rw [hsame] at hfound
  have hlength := congrArg List.length hinput
  rw [List.length_append, List.length_append, height] at hlength
  unfold declarationEnd at hfits hlt
  by_cases hclose : findSequence input (str "?>") 1 = 0
  · rw [if_pos hclose] at hfits
    omega
  rw [if_neg hclose] at hfits hlt
  obtain ⟨u', v', hinput', hfound'⟩ := exists_of_findSequenceIn (show findSequenceIn (str "?>")
    input 1 ≠ 0 from hclose)
  have hsame' : findSequenceIn (str "?>") input 1 = findSequence input (str "?>") 1 := rfl
  rw [hsame'] at hfound'
  -- The `?` would be one of the letters of the keyword.
  have hmark : input[u'.length]? = some (('?' : Char) : Character8) := by
    rw [hinput', List.getElem?_append_right (Nat.le_refl _), Nat.sub_self]
    rfl
  rw [hinput, List.getElem?_append_right (by omega), List.getElem?_append_left (by omega)] at hmark
  have hletters : ∀ d < 8, (str "encoding")[d]? ≠ some (('?' : Char) : Character8) := by decide
  exact hletters _ (by omega) hmark

theorem declaredXmlEncoding_eq (input : String8) :
    declaredXmlEncoding input =
      if hasInitialXmlDeclaration input then encodingIn (declarationHead input) else none := by
  unfold declaredXmlEncoding encodingIn
  by_cases hinitial : hasInitialXmlDeclaration input = true
  swap
  · rw [if_neg hinitial, if_neg hinitial]
  rw [if_pos hinitial, if_pos hinitial]
  dsimp only
  have hlength := length_declarationHead input
  have hstop : (if findSequence input (str "?>") 1 = 0 then input.length
      else findSequence input (str "?>") 1) = declarationEnd input := rfl
  have hitem {i : Nat} (hi : 1 ≤ i) (hle : i ≤ declarationEnd input) :
      (declarationHead input).item i = input.item i := String8.item_take hi hle
  rw [hstop, findSequence_declarationHead, hlength]
  generalize findSequence input (str "encoding") 1 = keyword
  by_cases hkeyword : 0 < keyword ∧ keyword < declarationEnd input
  swap
  · rw [if_neg hkeyword, if_neg hkeyword, if_neg (Nat.lt_irrefl 0)]
  rw [if_pos hkeyword, if_pos hkeyword, if_pos hkeyword.1]
  unfold skipSpacesUpTo
  rw [show input.take (declarationEnd input) = declarationHead input from rfl]
  have hpos := le_skipSpaces (declarationHead input) (keyword + 8)
  generalize skipSpaces (declarationHead input) (keyword + 8) = equals at hpos ⊢
  by_cases hequals : equals ≤ declarationEnd input ∧ input.item equals = '='
  swap
  · rw [if_neg hequals, if_neg]
    rintro ⟨hle, heq⟩
    rw [hitem (by omega) hle] at heq
    exact hequals ⟨hle, heq⟩
  have hequals' := hequals
  rw [← hitem (by omega) hequals.1] at hequals'
  rw [if_pos hequals, if_pos hequals']
  have hpos' := le_skipSpaces (declarationHead input) (equals + 1)
  generalize skipSpaces (declarationHead input) (equals + 1) = quote at hpos' ⊢
  by_cases hquote : quote ≤ declarationEnd input ∧ isQuote (input.item quote) = true
  swap
  · rw [if_neg hquote, if_neg]
    rintro ⟨hle, hq⟩
    rw [hitem (by omega) hle] at hq
    exact hquote ⟨hle, hq⟩
  have hquote' := hquote
  rw [← hitem (by omega) hquote.1] at hquote'
  rw [if_pos hquote, if_pos hquote', hitem (by omega) hquote.1]
  by_cases hclose : 0 < findCharacter (declarationHead input) (input.item quote) (quote + 1)
  swap
  · rw [if_neg hclose, if_neg hclose]
  rw [if_pos hclose, if_pos hclose]
  have hrest := RestAt.of_index (show 1 ≤ quote + 1 by omega)
    (show quote + 1 ≤ (declarationHead input).length + 1 by omega)
  obtain ⟨u, v, hsplit, -, hat⟩ := hrest.exists_of_findCharacter (Nat.ne_of_gt hclose)
  have hindex := hrest.index
  rw [hsplit, List.length_append, List.length_cons] at hindex
  rw [show (declarationHead input).substring (quote + 1) _ = input.substring (quote + 1) _ from
    String8.substring_take (by omega)]

/-! ## What is found -/

/-- The first `encoding` in `head` is set to `value`. -/
def SetsEncoding (head value : String8) : Prop :=
  ∃ u gap gap' q v, findSequence head (str "encoding") 1 = 1 + u.length ∧
    head = u ++ (str "encoding" ++
      (gap ++ ('=' : Character8) :: (gap' ++ q :: (value ++ q :: v)))) ∧
    (∀ c ∈ gap, isXmlSpace c = true) ∧ (∀ c ∈ gap', isXmlSpace c = true) ∧ isQuote q = true ∧
      q ∉ value

theorem encodingIn_eq_some_iff {head value : String8} :
    encodingIn head = some value ↔ SetsEncoding head value := by
  have hequalsSign : isXmlSpace '=' = false := by decide
  constructor
  · intro h
    unfold encodingIn at h
    dsimp only at h
    split at h
    swap
    · cases h
    rename_i hkeyword
    obtain ⟨u, v, hhead, hfound⟩ := exists_of_findSequenceIn (show findSequenceIn (str "encoding")
      head 1 ≠ 0 from Nat.ne_of_gt hkeyword)
    have hat : findSequence head (str "encoding") 1 = 1 + u.length := hfound
    have hwhole : RestAt head 1 (u ++ (str "encoding" ++ v)) :=
      ⟨by omega, by rw [← hhead]; omega, hhead⟩
    have hbehind := hwhole.append.append
    rw [hat] at h
    obtain ⟨gap, w, hw, hgap, -, hskip, hrest⟩ := hbehind.exists_spaces
    rw [show 1 + u.length + (str "encoding").length = 1 + u.length + 8 from rfl] at hskip hrest
    split at h
    swap
    · cases h
    rename_i hequals
    obtain ⟨w', hw'⟩ := hrest.exists_cons hequals.1
    rw [hequals.2] at hw'
    rw [hw'] at hrest hw
    obtain ⟨gap', x, hx, hgap', -, hskip', hrest'⟩ := hrest.cons.exists_spaces
    split at h
    swap
    · cases h
    rename_i hquote
    obtain ⟨y, hy⟩ := hrest'.exists_cons hquote.1
    rw [hy] at hrest'
    split at h
    swap
    · cases h
    rename_i hclose
    obtain ⟨value', z, hz, hnot, hclose'⟩ := hrest'.cons.exists_of_findCharacter (Nat.ne_of_gt hclose)
    have hvalue := hrest'.cons
    rw [hz] at hvalue
    have hsub := hvalue.substring
    rw [← hclose'] at hsub
    rw [hsub] at h
    cases h
    refine ⟨u, gap, gap', _, z, hat, ?_, hgap, hgap', hquote.2, hnot⟩
    exact hhead.trans (by rw [hw, hx, hy, hz])
  · rintro ⟨u, gap, gap', q, v, hat, hhead, hgap, hgap', hquote, hnot⟩
    have hspace : isXmlSpace q = false := by
      rcases isQuote_cases hquote with rfl | rfl <;> decide
    have hwhole : RestAt head 1 (u ++ (str "encoding" ++
        (gap ++ ('=' : Character8) :: (gap' ++ q :: (value ++ q :: v))))) :=
      ⟨by omega, by rw [← hhead]; omega, hhead⟩
    have hbehind := hwhole.append.append
    rw [show 1 + u.length + (str "encoding").length = 1 + u.length + 8 from rfl] at hbehind
    have hskip := hbehind.skipSpaces hgap fun c hc ↦ by
      rw [List.head?_cons, Option.mem_some_iff] at hc
      rw [← hc, hequalsSign]
    have hequals := hbehind.append
    have hskip' := hequals.cons.skipSpaces hgap' fun c hc ↦ by
      rw [List.head?_cons, Option.mem_some_iff] at hc
      rw [← hc, hspace]
    have hvalue := hequals.cons.append
    have hclose := hvalue.cons.findCharacter hnot
    unfold encodingIn
    dsimp only
    rw [hat, if_pos (by omega), hskip, if_pos ⟨hequals.le, hequals.item⟩, hskip', hvalue.item,
      if_pos ⟨hvalue.le, hquote⟩, hclose, if_pos (by omega), hvalue.cons.substring]

/-- An encoding that is set stays when more bytes arrive. -/
theorem SetsEncoding.append {head value : String8} (h : SetsEncoding head value) (more : String8) :
    SetsEncoding (head ++ more) value := by
  obtain ⟨u, gap, gap', q, v, hat, hhead, hrest⟩ := h
  have hfound : findSequenceIn (str "encoding") head 1 ≠ 0 := by
    have hsame : findSequenceIn (str "encoding") head 1 = 1 + u.length := hat
    omega
  refine ⟨u, gap, gap', q, v ++ more, (findSequenceIn_append hfound more).trans hat, ?_, hrest⟩
  rw [hhead]
  simp only [List.append_assoc, List.cons_append]

/-! ## Longer inputs -/

section

variable {part input value : String8}

theorem declarationHead_cases (h : part <+: input) :
    declarationHead part = declarationHead input ∨
      declarationHead part = part ∧ part <+: declarationHead input := by
  obtain ⟨more, rfl⟩ := h
  have hsame (s : String8) : findSequenceIn (str "?>") s 1 = findSequence s (str "?>") 1 := rfl
  by_cases hfound : findSequence part (str "?>") 1 = 0
  · right
    have hend : declarationEnd part = part.length := if_pos hfound
    have hlonger : part.length ≤ declarationEnd (part ++ more) := by
      have htake := @findSequenceIn_take (str "?>") (by decide) (part ++ more) part.length 1
        (by omega)
      have htwo : (str "?>").length = 2 := rfl
      rw [List.take_left, hsame, hsame, hfound, htwo] at htake
      unfold declarationEnd
      split
      · rw [List.length_append]
        omega
      · split at htake <;> omega
    unfold declarationHead
    rw [hend, List.take_length]
    exact ⟨rfl, List.prefix_take_iff.2 ⟨List.prefix_append part more, hlonger⟩⟩
  · left
    have hlater : findSequence (part ++ more) (str "?>") 1 = findSequence part (str "?>") 1 :=
      findSequenceIn_append hfound more
    have hle := declarationEnd_le part
    have hend : declarationEnd (part ++ more) = declarationEnd part := by
      unfold declarationEnd
      rw [hlater, if_neg hfound, if_neg hfound]
    unfold declarationHead
    rw [hend, List.take_append_of_le_length hle]

/-- The beginning of a declaration has been read after six characters. -/
theorem hasInitialXmlDeclaration_longer (h : part <+: input) (hlength : 6 ≤ part.length) :
    hasInitialXmlDeclaration input = hasInitialXmlDeclaration part := by
  have hle := h.length_le
  have hitem (i : Nat) (hi : 1 ≤ i) (h6 : i ≤ 6) : part.item i = input.item i := by
    rw [List.prefix_iff_eq_take.1 h]
    exact String8.item_take hi (by omega)
  have hfive : (part.length == 5) = false := by
    rw [beq_eq_false_iff_ne]
    omega
  have hfive' : (input.length == 5) = false := by
    rw [beq_eq_false_iff_ne]
    omega
  unfold hasInitialXmlDeclaration
  rw [hitem 1 (by omega) (by omega), hitem 2 (by omega) (by omega), hitem 3 (by omega) (by omega),
    hitem 4 (by omega) (by omega), hitem 5 (by omega) (by omega), hitem 6 (by omega) (by omega),
    hfive, hfive', decide_eq_true (show 5 ≤ part.length by omega),
    decide_eq_true (show 5 ≤ input.length by omega)]

theorem SetsEncoding.length_le {head : String8} (h : SetsEncoding head value) :
    8 ≤ head.length := by
  obtain ⟨u, gap, gap', q, v, -, hhead, -⟩ := h
  have height : (str "encoding").length = 8 := rfl
  rw [hhead, List.length_append, List.length_append, height]
  omega

theorem declaredXmlEncoding_eq_some_iff :
    declaredXmlEncoding input = some value ↔
      hasInitialXmlDeclaration input = true ∧ SetsEncoding (declarationHead input) value := by
  rw [declaredXmlEncoding_eq, ← encodingIn_eq_some_iff]
  split
  · rename_i hinitial
    exact ⟨fun h ↦ ⟨hinitial, h⟩, fun h ↦ h.2⟩
  · rename_i hinitial
    exact ⟨fun h ↦ (nomatch h), fun h ↦ absurd h.1 hinitial⟩

/-- What a part declares the whole input declares. -/
theorem declaredXmlEncoding_longer (h : part <+: input)
    (hpart : declaredXmlEncoding part = some value) : declaredXmlEncoding input = some value := by
  rw [declaredXmlEncoding_eq_some_iff] at hpart ⊢
  obtain ⟨hinitial, hsets⟩ := hpart
  have hlength := hsets.length_le
  rw [length_declarationHead] at hlength
  have hle := declarationEnd_le part
  refine ⟨by rw [hasInitialXmlDeclaration_longer h (by omega), hinitial], ?_⟩
  rcases declarationHead_cases h with hhead | ⟨hhead, more, hmore⟩
  · rwa [← hhead]
  · rw [hhead] at hsets
    rw [← hmore]
    exact hsets.append more

/-! ## A spelling of UTF-16 in front of the value -/

theorem exists_of_utf16Declaration {marker : String8} (h : marker ∈ utf16Declarations) :
    ∃ q name, isQuote q = true ∧ name.length = 6 ∧
      marker = str "encoding" ++ ('=' : Character8) :: q :: (name ++ [q]) := by
  have hquote : isQuote 39 = true ∧ isQuote 34 = true := by decide
  unfold utf16Declarations at h
  simp only [List.mem_cons, List.not_mem_nil, or_false] at h
  rcases h with rfl | rfl | rfl | rfl
  · exact ⟨39, str "utf-16", hquote.1, rfl, rfl⟩
  · exact ⟨34, str "utf-16", hquote.2, rfl, rfl⟩
  · exact ⟨39, str "UTF-16", hquote.1, rfl, rfl⟩
  · exact ⟨34, str "UTF-16", hquote.2, rfl, rfl⟩

theorem length_of_utf16Declaration {marker : String8} (h : marker ∈ utf16Declarations) :
    marker.length = 17 := by
  obtain ⟨q, name, -, hname, rfl⟩ := exists_of_utf16Declaration h
  have height : (str "encoding").length = 8 := rfl
  simp only [List.length_append, List.length_cons, List.length_nil, hname, height]

/-- The search for UTF-16 finds its spellings anywhere. -/
theorem hasUtf16DeclarationInUtf8Input_iff :
    hasUtf16DeclarationInUtf8Input input = true ↔
      hasInitialXmlDeclaration input = true ∧ ∃ marker ∈ utf16Declarations, marker <:+: input := by
  unfold hasUtf16DeclarationInUtf8Input
  rw [Bool.and_eq_true, List.any_eq_true]
  refine and_congr_right fun _ ↦ exists_congr fun marker ↦ and_congr_right fun hmarker ↦ ?_
  rw [bne_iff_ne]
  have hlength := length_of_utf16Declaration hmarker
  have hsame : findSequenceIn marker input 1 = findSequence input marker 1 := rfl
  constructor
  · intro hfound
    rw [← hsame] at hfound
    obtain ⟨u, v, rfl, -⟩ := exists_of_findSequenceIn hfound
    exact ⟨u, v, List.append_assoc _ _ _⟩
  · rintro ⟨u, v, rfl⟩
    have hne : marker ≠ [] := by
      rintro rfl
      cases hlength
    have hfound := (@findSequenceIn_inside marker u v hne 1 Nat.one_pos).1
    rw [← List.append_assoc] at hfound
    exact Nat.ne_of_gt hfound

/-- Up to the end of the value that `encoding` is set to, `encoding='utf-16'` can stand in the value
only. -/
theorem length_le_of_marker {gap gap' name before after : String8} {q r : Character8}
    (hgap : ∀ c ∈ gap, isXmlSpace c = true) (hgap' : ∀ c ∈ gap', isXmlSpace c = true)
    (hquote : isQuote q = true) (hnot : q ∉ value) (hquote' : isQuote r = true)
    (h : before ++ (str "encoding" ++ ('=' : Character8) :: r :: (name ++ [r]) ++ after) <+:
      str "encoding" ++ (gap ++ ('=' : Character8) :: (gap' ++ q :: value))) :
    name.length + 11 ≤ value.length := by
  have hspaceQuote : ∀ c : Character8, isQuote c = true → isXmlSpace c = false ∧ c ≠ 'e' := by
    apply forall_byte
    decide +kernel
  have height : (str "encoding").length = 8 := rfl
  have hlength := h.length_le
  simp only [List.length_append, List.length_cons, List.length_nil, height] at hlength
  by_cases hbehind : 8 + gap.length + 1 + gap'.length + 1 ≤ before.length
  · omega
  exfalso
  cases before with
  | nil =>
    rw [List.nil_append, List.append_assoc, List.prefix_append_right_inj] at h
    cases gap with
    | cons c gap =>
      have hc := hgap c List.mem_cons_self
      simp only [List.cons_append, List.cons_prefix_cons] at h
      rw [← h.1] at hc
      exact absurd hc (by decide)
    | nil =>
      rw [List.nil_append, List.cons_append, List.cons_prefix_cons] at h
      cases gap' with
      | cons c gap' =>
        have hc := hgap' c List.mem_cons_self
        simp only [List.cons_append, List.cons_prefix_cons] at h
        rw [← h.2.1, (hspaceQuote r hquote').1] at hc
        cases hc
      | nil =>
        rw [List.nil_append, List.cons_append, List.cons_prefix_cons] at h
        obtain ⟨-, rfl, hname⟩ := h
        apply hnot
        apply hname.subset
        rw [List.mem_append, List.mem_append, List.mem_singleton]
        exact Or.inl (Or.inr rfl)
  | cons c before =>
    -- Behind its first letter neither the keyword nor what follows it has an `e`.
    obtain ⟨key, hkey⟩ : ∃ key, key = str "ncoding" ++ (gap ++ ('=' : Character8) :: (gap' ++ [q])) :=
      ⟨_, rfl⟩
    have htext : str "encoding" ++ (gap ++ ('=' : Character8) :: (gap' ++ q :: value)) =
        ('e' : Character8) :: (key ++ value) := by
      rw [hkey]
      simp only [List.append_assoc, List.cons_append, List.nil_append]
      rfl
    have hnone : (('e' : Char) : Character8) ∉ key := by
      rw [hkey]
      simp only [List.mem_append, List.mem_cons, List.not_mem_nil, or_false]
      rintro (hmem | hmem | hmem | hmem | hmem)
      · exact absurd hmem (by decide)
      · exact absurd (hgap _ hmem) (by decide)
      · exact absurd hmem (by decide)
      · exact absurd (hgap' _ hmem) (by decide)
      · exact (hspaceQuote q hquote).2 hmem.symm
    have hinside : before.length < key.length := by
      have hseven : (str "ncoding").length = 7 := rfl
      rw [hkey]
      simp only [List.length_append, List.length_cons, List.length_nil, hseven]
      rw [List.length_cons] at hbehind
      omega
    rw [htext, List.cons_append, List.cons_prefix_cons] at h
    obtain ⟨more, hmore⟩ := h.2
    have hat : (key ++ value)[before.length]? = some (('e' : Char) : Character8) := by
      rw [← hmore, List.append_assoc, List.getElem?_append_right (Nat.le_refl _), Nat.sub_self]
      rfl
    rw [List.getElem?_append_left hinside] at hat
    exact hnone (List.mem_of_getElem? hat)

/-- Before the encoding has been read, a spelling of UTF-16 stands in its value only. -/
theorem length_of_hasUtf16Declaration (h : part <+: input)
    (hpart : declaredXmlEncoding part = none) (hinput : declaredXmlEncoding input = some value)
    (hmarked : hasUtf16DeclarationInUtf8Input part = true) : 17 ≤ value.length := by
  unfold hasUtf16DeclarationInUtf8Input at hmarked
  rw [Bool.and_eq_true, List.any_eq_true] at hmarked
  obtain ⟨hinitial, marker, hmarker, hfound⟩ := hmarked
  rw [bne_iff_ne] at hfound
  obtain ⟨r, name, hquote', hname, hspelling⟩ := exists_of_utf16Declaration hmarker
  obtain ⟨before, after, hsplit, -⟩ := exists_of_findSequenceIn
    (show findSequenceIn marker part 1 ≠ 0 from hfound)
  have hnone : ¬ SetsEncoding (declarationHead part) value := by
    intro hsets
    rw [declaredXmlEncoding_eq_some_iff.2 ⟨hinitial, hsets⟩] at hpart
    cases hpart
  rw [declaredXmlEncoding_eq_some_iff] at hinput
  obtain ⟨u, gap, gap', q, v, hat, hhead, hgap, hgap', hquote, hnot⟩ := hinput.2
  rcases declarationHead_cases h with hsame | ⟨hwhole, hshort⟩
  · rw [hsame] at hnone
    exact absurd hinput.2 hnone
  rw [hwhole] at hnone
  -- The part ends before the quote that closes the value.
  obtain ⟨key, hkey⟩ : ∃ key, key = str "encoding" ++
    (gap ++ ('=' : Character8) :: (gap' ++ q :: value)) := ⟨_, rfl⟩
  have hclosed : declarationHead input = u ++ (key ++ q :: v) := by
    rw [hhead, hkey]
    simp only [List.append_assoc, List.cons_append]
  have hkeyword : (str "encoding") ≠ [] := by decide
  have height : (str "encoding").length = 8 := rfl
  have hopen : part.length ≤ u.length + key.length := by
    by_contra hlong
    obtain ⟨v', hv'⟩ : u ++ (key ++ [q]) <+: part := by
      apply List.prefix_of_prefix_length_le _ hshort
      · simp only [List.length_append, List.length_cons, List.length_nil]
        omega
      · rw [hclosed]
        exact ⟨v, by simp only [List.append_assoc, List.cons_append, List.nil_append]⟩
    have htake := findSequenceIn_take hkeyword (declarationHead input) part.length (Nat.le_refl 1)
    rw [← List.prefix_iff_eq_take.1 hshort,
      show findSequenceIn (str "encoding") (declarationHead input) 1 = 1 + u.length from hat, height,
      if_pos] at htake
    · refine hnone ⟨u, gap, gap', q, v', htake, ?_, hgap, hgap', hquote, hnot⟩
      rw [← hv', hkey]
      simp only [List.append_assoc, List.cons_append, List.nil_append]
    · rw [hkey, List.length_append, height] at hlong
      omega
  -- The first keyword stands where the value is set, so the spelling stands there or behind.
  rw [hspelling] at hsplit
  have hfirst : u.length ≤ before.length := by
    obtain ⟨more, hmore⟩ := hshort
    have hle := (@findSequenceIn_inside (str "encoding") before
      (('=' : Character8) :: r :: (name ++ [r]) ++ after ++ more) hkeyword 1 Nat.one_pos).2
    rw [show before ++ (str "encoding" ++ (('=' : Character8) :: r :: (name ++ [r]) ++ after ++ more))
      = declarationHead input by
        rw [← hmore, hsplit]
        simp only [List.append_assoc, List.cons_append],
      show findSequenceIn (str "encoding") (declarationHead input) 1 = 1 + u.length from hat] at hle
    omega
  obtain ⟨before', hbefore⟩ : u <+: before := by
    apply List.prefix_of_prefix_length_le _ _ hfirst
    · exact declarationHead input
    · rw [hhead]
      exact List.prefix_append _ _
    · apply List.IsPrefix.trans _ hshort
      rw [hsplit]
      exact List.prefix_append _ _
  have hinside : part <+: u ++ key := by
    apply List.prefix_of_prefix_length_le hshort
    · rw [hclosed, ← List.append_assoc]
      exact List.prefix_append _ _
    · rw [List.length_append]
      exact hopen
  rw [hsplit, ← hbefore, List.append_assoc, List.prefix_append_right_inj, hkey] at hinside
  have hlong := length_le_of_marker hgap hgap' hquote hnot hquote' hinside
  omega

/-! ## The choice -/

/-- The choice, when nobody has asked for an encoding. -/
theorem Decoder.decodedSource_eq {d : Decoder} (hexplicit : d.explicitEncoding = none)
    (source : String8) :
    d.decodedSource source =
      if hasUtf16leSignature source then decodedUtf16 source true
      else if hasUtf16beSignature source then decodedUtf16 source false
      else if (declaredXmlEncoding source).any isUtf16EncodingName then
        (.error .incorrectEncoding, false)
      else
        match declaredXmlEncoding source with
        | some declared =>
          if isLatin1EncodingName declared then (.ok (decodedLatin1Input source), false)
          else if isAsciiEncodingName declared then (decodedAsciiInput source, false)
          else if isUtf8EncodingName declared then (.ok source, false)
          else d.decodedUnknownEncodingInput source declared
        | none =>
          if hasUtf16DeclarationInUtf8Input source then (.error .incorrectEncoding, false)
          else (.ok source, false) := by
  have hnone : d.explicitEncodingIsUtf16 = false := by
    unfold Decoder.explicitEncodingIsUtf16 Decoder.explicitEncodingIs
    rw [hexplicit]
    rfl
  unfold Decoder.decodedSource
  rw [hexplicit, hnone, Bool.false_or]
  rfl

/-- Nothing is decoded to nothing. -/
theorem Decoder.decodedSource_nil {d : Decoder} (hexplicit : d.explicitEncoding = none) :
    d.decodedSource [] = (.ok [], false) := by
  rw [d.decodedSource_eq hexplicit]
  rfl

end

end Native

end Xpact
