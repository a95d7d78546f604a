import Xpact.Parser.ContentContracts
import Xpact.Parser.ElementDeclarations

/-!
# Contracts of element declarations

The routines that read a content model keep their contracts on every declaration but one kind: where
the declaration ends within the names of mixed content, the loop goes round once more behind the
last of them, and its variant stays as it is.
-/

namespace Xpact

open Grammar Library Checked Routine

/-! ## Names without an end -/

/-- Mixed content without the end of its group. -/
def UnclosedNames (legacy : Bool) (w : String8) : Prop :=
  ∃ a x names b, w = str "(" ++ a ++ str "#PCDATA" ++ x ++ b ∧ a ∈ optionalSpace ∧
    MixedNames legacy x names ∧ b ∈ optionalSpace

/-- Declarations whose content specification is mixed content without the end of its group. -/
def HasUnclosedNames (legacy : Bool) (rest : String8) : Prop :=
  ∃ s n t w v, rest = str "<!ELEMENT" ++ (s ++ (n ++ (t ++ (w ++ ('>' : Character8) :: v)))) ∧
    s ∈ space ∧ n ∈ name legacy ∧ t ∈ space ∧ UnclosedNames legacy w

theorem UnclosedNames.ordinary {legacy : Bool} {w : String8} (h : UnclosedNames legacy w) :
    ∀ c ∈ w, isOrdinary c = true := by
  obtain ⟨a, x, names, b, rfl, ha, hnames, hb⟩ := h
  have hopen : ∀ c ∈ str "(", isOrdinary c = true := by decide
  have hmarker : ∀ c ∈ str "#PCDATA", isOrdinary c = true := by decide
  exact ordinary_append (ordinary_append (ordinary_append (ordinary_append hopen
    (ordinary_optionalSpace a ha)) hmarker) (ordinary_mixedNames legacy hnames))
    (ordinary_optionalSpace b hb)

theorem UnclosedNames.exists_cons {legacy : Bool} {w : String8} (h : UnclosedNames legacy w) :
    ∃ u, w = ('(' : Character8) :: u := by
  obtain ⟨a, x, names, b, rfl, -⟩ := h
  exact ⟨_, rfl⟩

section

variable {cfg : Config} {subset w : String8} {start stop : Nat}

/-- The loop of mixed content comes to the end of the declaration on these texts and no others. -/
theorem mixedRunsOut_iff (hat : InContent subset stop start w) :
    startsMixed subset start ∧ MixedRunsOut cfg subset start stop ↔
      UnclosedNames cfg.usesLegacyNameCharacterRanges w := by
  constructor
  · rintro ⟨hmixed, s, hleads, hdone, hbehind⟩
    obtain ⟨a, u, rfl, ha⟩ := (startsMixed_iff hat).1 hmixed
    obtain ⟨hinside, hstart⟩ := mixedStart_eq hat ha
    obtain ⟨b, u, rfl, hb, hends⟩ := exists_spaces u
    rw [hinside.min_skipSpaces hb hends] at hstart
    rw [hstart] at hleads
    obtain ⟨names, v, -, hend, hholds⟩ := holdsNames_of_reads hleads rfl hinside.append
    obtain ⟨x, d, hsplit, hnames, hd⟩ := hholds b hb
    -- Nothing is left behind the index.
    have hnil : v = [] := by
      have hstop := hend.stop_eq
      exact List.length_eq_zero_iff.1 (by omega)
    subst hnil
    rw [hdone, if_neg Bool.false_ne_true, List.append_nil] at hsplit
    refine ⟨a, x, names, d, ?_, mem_optionalSpace.2 ha, hnames, mem_optionalSpace.2 hd⟩
    rw [hsplit]
    simp only [List.append_assoc]
    rfl
  · rintro ⟨a, x, names, b, rfl, ha, hnames, hb⟩
    have hspaces := spaces_of_optionalSpace ha
    have hinside : InContent subset stop start
        (('(' : Character8) :: (a ++ (str "#PCDATA" ++ (x ++ (b ++ []))))) := by
      simp only [List.append_assoc, List.append_nil] at hat ⊢
      exact hat
    obtain ⟨hbehind, hstart⟩ := mixedStart_eq hinside hspaces
    have hends : EndsNames [] := ⟨fun c hc ↦ (nomatch hc), fun c hc ↦ (nomatch hc)⟩
    have hreads := reads_mixedNames hnames (s := mixedStart subset start stop) (by rw [hstart])
      (spaces_of_optionalSpace hb) hends hbehind (by rw [hstart])
    refine ⟨(startsMixed_iff hinside).2 ⟨a, _, rfl, hspaces⟩, _, hreads, by rw [hstart], ?_⟩
    have hlast := hbehind.append.append.lt_of_nil
    exact hlast

end

/-! ## Content specifications -/

section

variable {cfg : Config} {subset w : String8} {start stop close i : Nat} {r : ContentOutcome}

theorem checkedContentSpec_eq (hat : InContent subset (close - 1) i w) :
    checkedContentSpec cfg subset close i =
      if hasKeywordAt subset i (str "EMPTY") = true then .ok none
      else if hasKeywordAt subset i (str "ANY") = true then .ok none
      else if i ≤ close - 1 ∧ subset.item i = '(' then
        (do return some (← checkedContentParticle cfg subset (close - 1) i))
      else .ok none := by
  have hpos := hat.pos
  have hle := hat.le
  have hin := hat.stop_lt
  have hkeyword (keyword : String8) : callHasKeywordAt subset i keyword =
      .ok (hasKeywordAt subset i keyword) := by
    unfold callHasKeywordAt
    rw [require_of ⟨hpos, by omega⟩]
    rfl
  unfold checkedContentSpec
  rw [hkeyword, hkeyword, holdsUpTo_eq hpos (by omega), ok_bind]
  simp only [Bool.and_eq_true, decide_eq_true_eq, beq_iff_eq, ok_bind]
  split
  · rfl
  split
  · rfl
  split <;> rfl

theorem isXmlSpace_close (hat : InContent subset stop i w) :
    isXmlSpace (subset.item (stop + 1)) = false := by
  have hitem : subset.item (stop + 1) = ('>' : Character8) := UInt8.toNat_inj.1 hat.code_stop
  rw [hitem]
  decide

theorem checkedContentSpec_ok (hat : InContent subset (close - 1) i w)
    (hends : ¬ UnclosedNames cfg.usesLegacyNameCharacterRanges w) :
    ∃ r, checkedContentSpec cfg subset close i = .ok r := by
  rw [checkedContentSpec_eq hat]
  split
  · exact ⟨_, rfl⟩
  split
  · exact ⟨_, rfl⟩
  split
  · rename_i hopen
    obtain ⟨r, -, hr⟩ := checkedContentParticle_ok hat.pos hopen.1 hat.stop_lt
      (isXmlSpace_close hat) fun hmixed hruns ↦ hends ((mixedRunsOut_iff hat).1 ⟨hmixed, hruns⟩)
    rw [hr]
    exact ⟨_, rfl⟩
  · exact ⟨_, rfl⟩

theorem checkedContentSpec_error (hat : InContent subset (close - 1) i w)
    (hends : UnclosedNames cfg.usesLegacyNameCharacterRanges w) :
    checkedContentSpec cfg subset close i = .error .variant := by
  obtain ⟨hmixed, hruns⟩ := (mixedRunsOut_iff hat).2 hends
  obtain ⟨u, rfl⟩ := hends.exists_cons
  have hempty : hasKeywordAt subset i (str "EMPTY") = false :=
    not_hasKeywordAt hat (by decide) (by decide)
  have hany : hasKeywordAt subset i (str "ANY") = false :=
    not_hasKeywordAt hat (by decide) (by decide)
  rw [checkedContentSpec_eq hat, if_neg (Bool.eq_false_iff.1 hempty),
    if_neg (Bool.eq_false_iff.1 hany), if_pos ⟨hat.le_stop, hat.item⟩,
    checkedContentParticle_error hat.pos hat.le_stop hat.stop_lt (isXmlSpace_close hat) hmixed
      hruns]
  rfl

end

/-! ## Declarations -/

section

variable {cfg : Config} {subset rest n : String8} {start close i : Nat}

theorem callRequiredSpaces_eq (hstart : 1 ≤ start) (hin : start ≤ subset.length + 1) :
    callRequiredSpaces subset start =
      .ok (if start ≤ subset.length ∧ isXmlSpace (subset.item start) = true then
        some (skipSpaces subset start) else none) := by
  unfold callRequiredSpaces
  rw [require_of ⟨hstart, hin⟩, ok_bind]
  simp only [Bool.and_eq_true, decide_eq_true_eq]
  split <;> rfl

/-- Behind its head a declaration is checked as its content specification is. -/
theorem checked_of_headEnds (hpos : 1 ≤ start)
    (hkeyword : hasAt subset start (str "<!ELEMENT") = true)
    (h : HeadEnds cfg subset start close n i) :
    checkedElementDeclaration cfg subset start = checkedContentSpec cfg subset close i := by
  have hclose := (findMarkupDeclarationEnd_spec h.close_eq h.closed).1
  have hbefore := h.before
  have hlength := add_length_le_of_hasAt hkeyword (by decide) hpos
  rw [length_keyword] at hlength
  have hge := le_skipSpaces subset (start + 9)
  have hlater : skipSpaces subset (start + 9) <
      (scannedName cfg subset (skipSpaces subset (start + 9))).1 := lt_scannedName (by omega)
  have hle : (scannedName cfg subset (skipSpaces subset (start + 9))).1 ≤ subset.length + 1 :=
    scannedName_le (by omega)
  unfold checkedElementDeclaration
  rw [require_of hkeyword, ok_bind]
  dsimp only
  rw [h.close_eq, if_neg h.closed, callRequiredSpaces_eq (by omega) (by omega),
    if_pos h.firstSpace, ok_bind]
  dsimp only
  rw [holdsUpTo_eq (by omega) (by omega), h.first, decide_eq_true (by omega), ok_bind,
    if_neg (by decide), callScanName_eq (by omega) (by omega), ok_bind,
    substringAt_eq (by omega) (by omega) (by omega), ok_bind, h.scanned, Option.isSome_none,
    if_neg Bool.false_ne_true, callRequiredSpaces_eq (by omega) hle, if_pos h.secondSpace,
    ← h.index]
  rfl

/-- A declaration without a head breaks no contract. -/
theorem checked_without_head (hpos : 1 ≤ start)
    (hkeyword : hasAt subset start (str "<!ELEMENT") = true)
    (h : ∀ close n i, ¬ HeadEnds cfg subset start close n i) :
    checkedElementDeclaration cfg subset start = .ok none := by
  have hlength := add_length_le_of_hasAt hkeyword (by decide) hpos
  rw [length_keyword] at hlength
  have hge := le_skipSpaces subset (start + 9)
  unfold checkedElementDeclaration
  rw [require_of hkeyword, ok_bind]
  dsimp only
  by_cases hclosed : findMarkupDeclarationEnd subset start = 0
  · rw [if_pos hclosed]
    rfl
  have hclose := (findMarkupDeclarationEnd_spec rfl hclosed).1
  rw [if_neg hclosed, callRequiredSpaces_eq (by omega) (by omega)]
  by_cases hspace : start + 9 ≤ subset.length ∧ isXmlSpace (subset.item (start + 9)) = true
  · rw [if_pos hspace, ok_bind]
    dsimp only
    rw [holdsUpTo_eq (by omega) (by omega), ok_bind]
    by_cases hname : skipSpaces subset (start + 9) < findMarkupDeclarationEnd subset start ∧
        isNameStartCharacter (subset.item (skipSpaces subset (start + 9))) = true
    · have hbefore := hname.1
      have hlater : skipSpaces subset (start + 9) <
          (scannedName cfg subset (skipSpaces subset (start + 9))).1 := lt_scannedName (by omega)
      have hle : (scannedName cfg subset (skipSpaces subset (start + 9))).1 ≤ subset.length + 1 :=
        scannedName_le (by omega)
      rw [hname.2, decide_eq_true (by omega), if_neg (by decide),
        callScanName_eq (by omega) (by omega), ok_bind,
        substringAt_eq (by omega) (by omega) (by omega), ok_bind]
      cases hscan : (scannedName cfg subset (skipSpaces subset (start + 9))).2 with
      | some message => rfl
      | none =>
        rw [Option.isSome_none, if_neg Bool.false_ne_true, callRequiredSpaces_eq (by omega) hle,
          if_neg fun hsecond ↦ h _ _ _ ⟨rfl, hclosed, hspace, hbefore, hname.2, hscan, rfl, hsecond,
            rfl⟩]
        rfl
    · have hnot :
          (decide (skipSpaces subset (start + 9) ≤ findMarkupDeclarationEnd subset start - 1) &&
            isNameStartCharacter (subset.item (skipSpaces subset (start + 9)))) = false := by
        rw [← Bool.not_eq_true, Bool.and_eq_true, decide_eq_true_eq]
        rintro ⟨hle, hfirst⟩
        exact hname ⟨by omega, hfirst⟩
      rw [hnot]
      rfl
  · rw [if_neg hspace]
    rfl

/-- A declaration breaks a contract if and only if it ends within the names of mixed content. -/
theorem checkedElementDeclaration_ok_iff (hat : RestAt subset start rest)
    (hkeyword : hasAt subset start (str "<!ELEMENT") = true) :
    (∃ r, checkedElementDeclaration cfg subset start = .ok r) ↔
      ¬ HasUnclosedNames cfg.usesLegacyNameCharacterRanges rest := by
  have hpos := hat.pos
  constructor
  · rintro ⟨r, hr⟩ ⟨s, n, t, w, v, rfl, hs, hn, ht, hends⟩
    have hfirst : ∀ c ∈ w.head?, isXmlSpace c = false := by
      obtain ⟨u, rfl⟩ := hends.exists_cons
      rintro c ⟨⟩
      decide
    obtain ⟨hhead, hin⟩ := headEnds_of_text hat hs hn ht hends.ordinary hfirst rfl
    rw [checked_of_headEnds hpos hkeyword hhead, checkedContentSpec_error hin hends] at hr
    cases hr
  · intro hends
    by_cases hhead : ∃ close n i, HeadEnds cfg subset start close n i
    · obtain ⟨close, n, i, hhead⟩ := hhead
      obtain ⟨s, t, w, v, rfl, hs, hn, ht, hin⟩ := text_of_headEnds hat hkeyword hhead
      rw [checked_of_headEnds hpos hkeyword hhead]
      exact checkedContentSpec_ok hin fun hnames ↦ hends ⟨s, n, t, w, v, rfl, hs, hn, ht, hnames⟩
    · exact ⟨none, checked_without_head hpos hkeyword fun close n i h ↦ hhead ⟨close, n, i, h⟩⟩

end

theorem checkedElementDeclaration_ok_iff_closed :
    ¬ HasUnclosedNames false (str "<!ELEMENT a (#PCDATA)>") := by
  have hat : RestAt (str "<!ELEMENT a (#PCDATA)>") 1 (str "<!ELEMENT a (#PCDATA)>") :=
    ⟨by decide, by decide, rfl⟩
  have hchecked : ∃ r, checkedElementDeclaration {} (str "<!ELEMENT a (#PCDATA)>") 1 = .ok r :=
    ⟨_, rfl⟩
  exact (checkedElementDeclaration_ok_iff hat (by decide)).1 hchecked

/-- The round behind `#PCDATA` begins at the `>` and ends there. -/
theorem not_forall_checkedElementDeclaration_ok :
    ¬ ∀ (cfg : Config) (subset : String8) (start : Nat), 1 ≤ start →
      hasAt subset start (str "<!ELEMENT") = true →
        ∃ r, checkedElementDeclaration cfg subset start = .ok r := by
  intro h
  have hbroken : checkedElementDeclaration {} (str "<!ELEMENT a (#PCDATA>") 1 =
      .error .variant := rfl
  obtain ⟨r, hr⟩ := h {} (str "<!ELEMENT a (#PCDATA>") 1 (Nat.le_refl 1) (by decide)
  rw [hbroken] at hr
  cases hr

end Xpact
