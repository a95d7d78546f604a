import Xpact.Parser.ContentRounds
import Xpact.Text.Contracts

/-!
# Contracts of the content model routines

The routines that read a content model once more, with what their contracts ask: preconditions,
postconditions and invariants, valid indices, and the variant of the mixed loop.  The loop of
`parse_content_particle` declares no variant; it is given one, which shows that it terminates.
-/

namespace Xpact

open Library Checked

section

variable (cfg : Config) (subset : String8) (stop : Nat)

/-! ## The routines -/

/-- A call of `scan_name`: its index, and the message of its error. -/
def callScanName (start : Nat) : Checked (Nat × Option String) := do
  require (1 ≤ start ∧ start ≤ subset.length)
  return scannedName cfg subset start

/-- `i <= a_end_index and then p (a_subset.item (i))`. -/
def holdsUpTo (p : Character8 → Bool) (i : Nat) : Checked Bool :=
  if i ≤ stop then do return p (← itemAt subset i) else .ok false

/-- The body of `apply_content_quantifier`. -/
def checkedQuantifierAt (model : ContentModel) (start : Nat) : Checked (Nat × ContentModel) := do
  if stop < start then
    return (start, model)
  else if (← itemAt subset start) = '?' then
    return (start + 1, model.setQuantifier .optional)
  else if (← itemAt subset start) = '*' then
    return (start + 1, model.setQuantifier .repetition)
  else if (← itemAt subset start) = '+' then
    return (start + 1, model.setQuantifier .plus)
  else
    return (start, model)

/-- `apply_content_quantifier`. -/
def checkedContentQuantifier (model : ContentModel) (start : Nat) :
    Checked (Nat × ContentModel) := do
  require (1 ≤ start ∧ start ≤ stop + 1)
  let r ← checkedQuantifierAt subset stop model start
  ensure (start ≤ r.1 ∧ r.1 ≤ stop + 1)
  return r

def checkedChildRound (s : ContentScan) (i : Nat) : Checked (ContentScan × Option String) := do
  if (← itemAt subset i) = '(' then
    let group : ContentModel := .node .sequence .none none []
    return ({ s with index := i + 1, groups := (group, (' ' : Character8)) :: s.groups }, none)
  else if isNameStartCharacter (← itemAt subset i) then do
    let scan ← callScanName cfg subset i
    if scan.2.isSome then return (s, scan.2)
    else do
      let nameEnd := min scan.1 (stop + 1)
      let name ← substringAt subset i (nameEnd - 1)
      let next ← checkedContentQuantifier subset stop (nameModel name) nameEnd
      return (s.finish next.1 next.2, none)
  else
    return (s, some "invalid element content particle")

/-- The top of a stack, which must not be empty, and what is below it. -/
def innermost {α : Type} : List α → Checked (α × List α)
  | [] => .error .precondition
  | a :: below => .ok (a, below)

def checkedSeparatorRound (s : ContentScan) (i : Nat) : Checked (ContentScan × Option String) := do
  let c ← itemAt subset i
  if c = ',' ∨ c = '|' then do
    let ((group, separator), outer) ← innermost s.groups
    let next := { s with index := i + 1, expectsChild := true }
    if separator = ' ' then do
      -- `first` of the members.
      require (c = '|' → group.children.isEmpty = false)
      let group := if c = '|' then .node .choice .none none (group.children.take 1) else group
      return ({ next with groups := (group, c) :: outer }, none)
    else if separator ≠ c then
      return (next, some "invalid element content separator")
    else
      return (next, none)
  else if c = ')' then do
    let ((group, _), outer) ← innermost s.groups
    let next ← checkedContentQuantifier subset stop group (i + 1)
    return ({ s with groups := outer }.finish next.1 next.2, none)
  else
    return (s, some "invalid element content separator")

def checkedContentRound (s : ContentScan) : Checked (ContentScan × Option String) := do
  let i := min (← callSkipSpaces subset s.index) (stop + 1)
  if stop < i then return ({ s with index := i }, some "unterminated element content model")
  else if s.expectsChild then checkedChildRound cfg subset stop s i
  else checkedSeparatorRound subset stop s i

/-- The characters that are left, and one more; none when an error ends the loop. -/
def contentVariant (v : ContentScan × Option String) : Int :=
  if v.2.isSome then 0 else (stop : Int) - v.1.index + 2

def checkedContentLoop (s : ContentScan) : Checked (ContentScan × Option String) :=
  loop (contentVariant stop) (fun v ↦ .ok (v.1.isDone || v.2.isSome))
    (fun v ↦ checkedContentRound cfg subset stop v.1) (s, none)

def checkedMixedRound (s : MixedScan) : Checked (MixedScan × Option String) := do
  let fail := ({ s with index := stop + 1 }, some "invalid mixed content model")
  if ← holdsUpTo subset stop (· == ')') s.index then
    return ({ s with index := s.index + 1, isDone := true }, none)
  else if ← holdsUpTo subset stop (· == '|') s.index then do
    let i := min (← callSkipSpaces subset (s.index + 1)) (stop + 1)
    if ← holdsUpTo subset stop isNameStartCharacter i then do
      let scan ← callScanName cfg subset i
      let nameEnd := min scan.1 (stop + 1)
      let name ← substringAt subset i (nameEnd - 1)
      let next ← callSkipSpaces subset nameEnd
      return ({ s with index := min next (stop + 1), names := s.names ++ [name] }, scan.2)
    else
      return fail
  else
    return fail

/-- The variant that `parse_mixed_content_particle` declares. -/
def mixedVariant (v : MixedScan × Option String) : Int := (stop : Int) - v.1.index + 2

def checkedMixedLoop (s : MixedScan) : Checked (MixedScan × Option String) :=
  loop (mixedVariant stop)
    (fun v ↦ do
      maintain (1 ≤ v.1.index ∧ v.1.index ≤ stop + 1)
      return v.1.isDone || v.2.isSome)
    (fun v ↦ checkedMixedRound cfg subset stop v.1) (s, none)

/-- What `parse_mixed_content_particle` does behind its loop. -/
def checkedMixedEnd (s : MixedScan) (e : Option String) : Checked ContentOutcome := do
  if e.isSome then
    return ((stop + 1, none), e)
  else if ← holdsUpTo subset stop (· == '*') s.index then
    return ((s.index + 1, some (mixedModel s.names .repetition)), none)
  else if !s.names.isEmpty then
    return ((stop + 1, none), some "mixed content with element names must end with )*")
  else if ← holdsUpTo subset stop (fun c ↦ c == '?' || c == '+') s.index then
    return ((stop + 1, none), some "invalid quantifier on mixed content")
  else
    return ((s.index, some (mixedModel s.names .none)), none)

/-- The precondition of the two routines. -/
def validContentBounds (start : Nat) : Checked Unit :=
  require (1 ≤ start ∧ start ≤ stop ∧ stop < subset.length)

/-- The postconditions of the two routines. -/
def contentPostconditions (start : Nat) (r : ContentOutcome) : Checked Unit := do
  ensure (start < r.1.1 ∧ r.1.1 ≤ stop + 1)
  ensure (r.2.isSome = true → r.1.1 = stop + 1)

/-- `parse_mixed_content_particle`.  The source keeps an older reader of element content behind the
test for `#PCDATA`; that it is never reached is asked here. -/
def checkedMixedContentParticle (start : Nat) : Checked ContentOutcome := do
  validContentBounds subset stop start
  require ((← itemAt subset start) = '(')
  let pcdata := min (← callSkipSpaces subset (start + 1)) (stop + 1)
  require ((← callHasAt subset pcdata (str "#PCDATA")) = true)
  let i ← callSkipSpaces subset (pcdata + 7)
  let v ← checkedMixedLoop cfg subset stop { index := min i (stop + 1) }
  let r ← checkedMixedEnd subset stop v.1 v.2
  contentPostconditions stop start r
  return r

/-- The test for `#PCDATA` of `parse_content_particle`. -/
def checkedStartsMixed (start : Nat) : Checked Bool := do
  if (← itemAt subset start) = '(' then do
    let i ← callSkipSpaces subset (start + 1)
    callHasAt subset i (str "#PCDATA")
  else
    return false

/-- `parse_content_particle`. -/
def checkedContentParticle (start : Nat) : Checked ContentOutcome := do
  validContentBounds subset stop start
  if ← checkedStartsMixed subset start then do
    let r ← checkedMixedContentParticle cfg subset stop start
    contentPostconditions stop start r
    return r
  else do
    let v ← checkedContentLoop cfg subset stop { index := start }
    let r := contentOutcome stop v.1 v.2
    contentPostconditions stop start r
    return r

/-- A call of `skip_required_spaces`; without white space it sets an error. -/
def callRequiredSpaces (start : Nat) : Checked (Option Nat) := do
  require (1 ≤ start ∧ start ≤ subset.length + 1)
  if start ≤ subset.length && isXmlSpace (subset.item start) then
    return some (skipSpaces subset start)
  else
    return none

/-- A call of `has_keyword_at`. -/
def callHasKeywordAt (i : Nat) (keyword : String8) : Checked Bool := do
  require (1 ≤ i ∧ i ≤ subset.length + 1)
  return hasKeywordAt subset i keyword

/-- The content specification at `i`: what its particle comes to, if it has one. -/
def checkedContentSpec (close i : Nat) : Checked (Option ContentOutcome) := do
  if ← callHasKeywordAt subset i (str "EMPTY") then
    return none
  else if ← callHasKeywordAt subset i (str "ANY") then
    return none
  else if ← holdsUpTo subset (close - 1) (· == '(') i then
    return some (← checkedContentParticle cfg subset (close - 1) i)
  else
    return none

/-- `parse_element_declaration` up to the end of its content model. -/
def checkedElementDeclaration (start : Nat) : Checked (Option ContentOutcome) := do
  require (hasAt subset start (str "<!ELEMENT") = true)
  let close := findMarkupDeclarationEnd subset start
  if close = 0 then
    return none
  else do
    match ← callRequiredSpaces subset (start + 9) with
    | none => return none
    | some i =>
      if !(← holdsUpTo subset (close - 1) isNameStartCharacter i) then
        return none
      else do
        let scan ← callScanName cfg subset i
        let _ ← substringAt subset i (scan.1 - 1)
        if scan.2.isSome then
          return none
        else
          match ← callRequiredSpaces subset scan.1 with
          | none => return none
          | some i => checkedContentSpec cfg subset close i

end

/-! ## Rounds without a violation -/

section

variable {cfg : Config} {subset : String8} {start stop i : Nat}

theorem callScanName_eq (hi : 1 ≤ i) (hin : i ≤ subset.length) :
    callScanName cfg subset i = .ok (scannedName cfg subset i) := by
  unfold callScanName
  rw [require_of ⟨hi, hin⟩]
  rfl

theorem holdsUpTo_eq {p : Character8 → Bool} (hi : 1 ≤ i) (hin : stop ≤ subset.length) :
    holdsUpTo subset stop p i = .ok (decide (i ≤ stop) && p (subset.item i)) := by
  unfold holdsUpTo
  by_cases hstop : i ≤ stop
  · rw [if_pos hstop, itemAt_eq hi (Nat.le_trans hstop hin), decide_eq_true hstop, Bool.true_and]
    rfl
  · rw [if_neg hstop, decide_eq_false hstop, Bool.false_and]

theorem substringAt_eq {j : Nat} (hi : 1 ≤ i) (hij : i ≤ j + 1) (hj : j ≤ subset.length) :
    substringAt subset i j = .ok (subset.substring i j) :=
  if_pos ⟨hi, hij, hj⟩

theorem checkedContentQuantifier_eq (hi : 1 ≤ i) (hle : i ≤ stop + 1) (hin : stop ≤ subset.length)
    (model : ContentModel) :
    checkedContentQuantifier subset stop model i =
      .ok (applyContentQuantifier model subset i stop) := by
  have hresult : checkedQuantifierAt subset stop model i =
      .ok (applyContentQuantifier model subset i stop) := by
    unfold checkedQuantifierAt applyContentQuantifier
    split
    · rfl
    rw [itemAt_eq hi (by omega), ok_bind]
    split
    · rfl
    rw [ok_bind]
    split
    · rfl
    rw [ok_bind]
    split <;> rfl
  unfold checkedContentQuantifier
  rw [require_of ⟨hi, hle⟩, ok_bind, hresult, ok_bind,
    ensure_of (applyContentQuantifier_bounds model subset hle)]
  rfl

theorem checkedChildRound_eq {s : ContentScan} (hi : 1 ≤ i) (hle : i ≤ stop)
    (hin : stop < subset.length) :
    checkedChildRound cfg subset stop s i = .ok (childRound cfg subset stop s i) := by
  have hlater : i < (scannedName cfg subset i).1 := lt_scannedName (by omega)
  unfold checkedChildRound childRound
  rw [itemAt_eq hi (by omega), ok_bind]
  split
  · rfl
  rw [ok_bind]
  split
  · rw [callScanName_eq hi (by omega), ok_bind]
    dsimp only
    split
    · rfl
    · rw [substringAt_eq hi (by omega) (by omega), ok_bind,
        checkedContentQuantifier_eq (by omega) (by omega) (by omega)]
      rfl
  · rfl

theorem checkedSeparatorRound_eq {s : ContentScan} (hs : s.Within start stop) (hi : 1 ≤ i)
    (hle : i ≤ stop) (hin : stop < subset.length) (hexpects : s.expectsChild = false)
    (hresult : s.result = none) :
    checkedSeparatorRound subset stop s i = .ok (separatorRound subset stop s i) := by
  obtain ⟨group, separator, outer, hgroups, hmember⟩ := hs.member hexpects hresult
  have hfirst : group.children.isEmpty = false := List.isEmpty_eq_false_iff.2 hmember
  unfold checkedSeparatorRound separatorRound
  rw [itemAt_eq hi (by omega), ok_bind, hgroups]
  dsimp only [innermost]
  split
  · rw [ok_bind]
    dsimp only
    split
    · rw [require_of fun _ ↦ hfirst]
      rfl
    split <;> rfl
  split
  · rw [ok_bind]
    dsimp only
    rw [checkedContentQuantifier_eq (by omega) (by omega) (by omega)]
    rfl
  · rfl

theorem checkedContentRound_eq {s : ContentScan} (hs : s.Within start stop) (hstart : 1 ≤ start)
    (hin : stop < subset.length) (hresult : s.result = none) :
    checkedContentRound cfg subset stop s = .ok (contentRound cfg subset stop s) := by
  have hge := hs.ge
  have hle := hs.le
  have hskip : s.index ≤ skipSpaces subset s.index := le_skipSpaces _ _
  unfold checkedContentRound contentRound
  rw [callSkipSpaces_eq (by omega) (by omega), ok_bind]
  dsimp only
  split
  · rfl
  cases hexpects : s.expectsChild with
  | true =>
    rw [if_pos rfl, if_pos rfl]
    exact checkedChildRound_eq (by omega) (by omega) hin
  | false =>
    rw [if_neg Bool.false_ne_true, if_neg Bool.false_ne_true]
    exact checkedSeparatorRound_eq hs (by omega) (by omega) hin hexpects hresult

theorem checkedMixedRound_eq {s : MixedScan} (hs : s.Within start stop)
    (hin : stop < subset.length) :
    checkedMixedRound cfg subset stop s = .ok (mixedRound cfg subset stop s) := by
  obtain ⟨hge, hle⟩ := hs
  have hskip : s.index + 1 ≤ skipSpaces subset (s.index + 1) := le_skipSpaces _ _
  unfold checkedMixedRound mixedRound
  rw [holdsUpTo_eq (by omega) (by omega), ok_bind]
  simp only [Bool.and_eq_true, decide_eq_true_eq, beq_iff_eq]
  split
  · rfl
  rw [holdsUpTo_eq (by omega) (by omega), ok_bind]
  simp only [Bool.and_eq_true, decide_eq_true_eq, beq_iff_eq]
  split
  · rename_i hbar
    rw [callSkipSpaces_eq (by omega) (by omega), ok_bind, holdsUpTo_eq (by omega) (by omega),
      ok_bind]
    simp only [Bool.and_eq_true, decide_eq_true_eq]
    unfold mixedNameRound
    split
    · have hlater : min (skipSpaces subset (s.index + 1)) (stop + 1) <
          (scannedName cfg subset (min (skipSpaces subset (s.index + 1)) (stop + 1))).1 :=
        lt_scannedName (by omega)
      rw [callScanName_eq (by omega) (by omega), ok_bind,
        substringAt_eq (by omega) (by omega) (by omega), ok_bind,
        callSkipSpaces_eq (by omega) (by omega)]
      rfl
    · rfl
  · rfl

/-! ## Loops -/

theorem contentLoop_monitors (hstart : 1 ≤ start) (hin : stop < subset.length) :
    Monitors ContentScan.isDone (contentRound cfg subset stop) (ContentScan.Within start stop)
      (fun _ ↦ False) (contentVariant stop) (fun v ↦ .ok (v.1.isDone || v.2.isSome))
      (fun v ↦ checkedContentRound cfg subset stop v.1) where
  finished _ _ _ := rfl
  body s hs hdone := checkedContentRound_eq hs hstart hin (ContentScan.result_of_isDone hdone)
  keeps := (contentRound_progresses cfg hin).keeps
  nonneg s e hs := by
    have hle := hs.le
    unfold contentVariant
    split
    · exact Int.le_refl 0
    · dsimp only
      omega
  decreases s hs hdone _ := by
    have hle := hs.le
    obtain ⟨hwithin, hless⟩ :=
      contentRound_goes cfg hs hin (ContentScan.result_of_isDone hdone)
    have hleNext := hwithin.le
    unfold contentVariant
    rw [Option.isSome_none, if_neg Bool.false_ne_true]
    split
    · dsimp only
      omega
    · rename_i hnone
      rw [Bool.not_eq_true, Option.isSome_eq_false_iff, Option.isNone_iff_eq_none] at hnone
      have hlater := hless hnone
      dsimp only
      omega
  stays _ _ _ h := h.elim

/-- The loop of `parse_content_particle` breaks no contract, whatever it reads. -/
theorem checkedContentLoop_ok (hstart : 1 ≤ start) (hstop : start ≤ stop)
    (hin : stop < subset.length) :
    ∃ s e, Leads ContentScan.isDone (contentRound cfg subset stop) { index := start } s e ∧
      Ended ContentScan.isDone s e ∧
      checkedContentLoop cfg subset stop { index := start } = .ok (s, e) :=
  (contentLoop_monitors hstart hin).loop_ok (contentStart_within hstop) fun _ _ _ ↦ id

/-- A round of the mixed loop that begins behind the end index leaves the index where it is. -/
theorem mixedLoop_monitors (hstart : 1 ≤ start) (hstop : start ≤ stop)
    (hin : stop < subset.length) :
    Monitors MixedScan.isDone (mixedRound cfg subset stop) (MixedScan.Within start stop)
      (fun s ↦ stop < s.index) (mixedVariant stop)
      (fun v ↦ do
        maintain (1 ≤ v.1.index ∧ v.1.index ≤ stop + 1)
        return v.1.isDone || v.2.isSome)
      (fun v ↦ checkedMixedRound cfg subset stop v.1) where
  finished s e hs := by
    dsimp only
    rw [maintain_of ⟨by have := hs.1; omega, hs.2⟩]
    rfl
  body s hs _ := checkedMixedRound_eq hs hin
  keeps := (mixedRound_progresses cfg hin hstop).keeps
  nonneg s e hs := by
    have hle := hs.2
    unfold mixedVariant
    dsimp only
    omega
  decreases s hs _ hbefore := by
    have hless := (mixedRound_goes cfg hs hin hstop).2.1 (Nat.le_of_not_lt hbefore)
    unfold mixedVariant
    dsimp only
    omega
  stays s hs _ hbehind := by
    have hend := ((mixedRound_goes cfg hs hin hstop).2.2 hbehind).1
    have hle := hs.2
    unfold mixedVariant
    dsimp only
    omega

/-- The names of mixed content go on up to the end index. -/
def MixedRunsOut (cfg : Config) (subset : String8) (start stop : Nat) : Prop :=
  ∃ s, Leads MixedScan.isDone (mixedRound cfg subset stop) (mixedStart subset start stop) s none ∧
    s.isDone = false ∧ stop < s.index

theorem checkedMixedLoop_ok (hstart : 1 ≤ start) (hstop : start ≤ stop) (hin : stop < subset.length)
    (hends : ¬ MixedRunsOut cfg subset start stop) :
    ∃ s e, Leads MixedScan.isDone (mixedRound cfg subset stop) (mixedStart subset start stop) s e ∧
      Ended MixedScan.isDone s e ∧
      checkedMixedLoop cfg subset stop (mixedStart subset start stop) = .ok (s, e) :=
  (mixedLoop_monitors hstart hstop hin).loop_ok (mixedStart_within hstop)
    fun s hleads hdone hbehind ↦ hends ⟨s, hleads, hdone, hbehind⟩

theorem checkedMixedLoop_error (hstart : 1 ≤ start) (hstop : start ≤ stop)
    (hin : stop < subset.length) (hends : MixedRunsOut cfg subset start stop) :
    checkedMixedLoop cfg subset stop (mixedStart subset start stop) = .error .variant := by
  obtain ⟨s, hleads, hdone, hbehind⟩ := hends
  exact (mixedLoop_monitors hstart hstop hin).loop_error (mixedStart_within hstop) hleads hdone
    hbehind

/-! ## Particles -/

theorem contentPostconditions_of {r : ContentOutcome} (hlater : start < r.1.1)
    (hle : r.1.1 ≤ stop + 1) (herror : r.2.isSome = true → r.1.1 = stop + 1) :
    contentPostconditions stop start r = .ok () := by
  unfold contentPostconditions
  rw [ensure_of ⟨hlater, hle⟩, ok_bind, ensure_of herror]

theorem contentOutcome_postconditions {s : ContentScan} {e : Option String}
    (hs : s.Within start stop) (hend : Ended ContentScan.isDone s e) (hstop : start ≤ stop) :
    contentPostconditions stop start (contentOutcome stop s e) = .ok () := by
  unfold contentOutcome
  split
  · exact contentPostconditions_of (Nat.lt_succ_of_le hstop) (Nat.le_refl _) fun _ ↦ rfl
  · rename_i hnone
    refine contentPostconditions_of ?_ hs.le fun h ↦ (nomatch h)
    rcases hend with hdone | herror
    · exact hs.result hdone
    · exact absurd herror hnone

theorem mixedOutcome_postconditions {s : MixedScan} {e : Option String}
    (hs : s.Within start stop) (hstop : start ≤ stop) :
    contentPostconditions stop start (mixedOutcome subset stop s e) = .ok () := by
  obtain ⟨hge, hle⟩ := hs
  have hfails (e : Option String) :
      contentPostconditions stop start ((stop + 1, none), e) = .ok () :=
    contentPostconditions_of (Nat.lt_succ_of_le hstop) (Nat.le_refl _) fun _ ↦ rfl
  unfold mixedOutcome
  dsimp only
  split
  · exact hfails _
  split
  · rename_i hstar
    exact contentPostconditions_of (Nat.lt_succ_of_lt hge) (Nat.succ_le_succ hstar.1)
      fun h ↦ (nomatch h)
  split
  · exact hfails _
  split
  · exact hfails _
  · exact contentPostconditions_of hge hle fun h ↦ (nomatch h)

theorem checkedMixedEnd_eq {s : MixedScan} {e : Option String} (hs : s.Within start stop)
    (hin : stop < subset.length) :
    checkedMixedEnd subset stop s e = .ok (mixedOutcome subset stop s e) := by
  obtain ⟨hge, hle⟩ := hs
  unfold checkedMixedEnd mixedOutcome
  dsimp only
  split
  · rfl
  rw [holdsUpTo_eq (by omega) (by omega), ok_bind]
  simp only [Bool.and_eq_true, decide_eq_true_eq, beq_iff_eq]
  split
  · rfl
  split
  · rfl
  rw [holdsUpTo_eq (by omega) (by omega), ok_bind]
  simp only [Bool.and_eq_true, Bool.or_eq_true, decide_eq_true_eq, beq_iff_eq]
  split <;> rfl

theorem checkedStartsMixed_eq (hstart : 1 ≤ start) (hin : start ≤ subset.length) :
    checkedStartsMixed subset start = .ok (decide (startsMixed subset start)) := by
  unfold checkedStartsMixed
  rw [itemAt_eq hstart hin, ok_bind]
  by_cases hopen : subset.item start = '('
  · have hle : skipSpaces subset (start + 1) ≤ subset.length + 1 := skipSpaces_le_length (by omega)
    have hge := le_skipSpaces subset (start + 1)
    have hmixed : startsMixed subset start ↔
        hasAt subset (skipSpaces subset (start + 1)) (str "#PCDATA") = true := and_iff_right hopen
    have hdecide : decide (startsMixed subset start) =
        hasAt subset (skipSpaces subset (start + 1)) (str "#PCDATA") := by
      rw [Bool.eq_iff_iff, decide_eq_true_eq, hmixed]
    rw [if_pos hopen, callSkipSpaces_eq (by omega) (by omega), ok_bind, callHasAt_eq (by omega) hle,
      hdecide]
  · have hmixed : ¬ startsMixed subset start := fun h ↦ hopen h.1
    rw [if_neg hopen, decide_eq_false hmixed]
    rfl

section

variable (hstart : 1 ≤ start) (hstop : start ≤ stop) (hin : stop < subset.length)

include hstart hstop hin

/-- Before its loop `parse_mixed_content_particle` stays inside of the declaration. -/
theorem checkedMixedContentParticle_eq (hclose : isXmlSpace (subset.item (stop + 1)) = false)
    (hmixed : startsMixed subset start) :
    checkedMixedContentParticle cfg subset stop start = (do
      let v ← checkedMixedLoop cfg subset stop (mixedStart subset start stop)
      let r ← checkedMixedEnd subset stop v.1 v.2
      contentPostconditions stop start r
      return r) := by
  obtain ⟨hopen, hmarker⟩ := hmixed
  have hge := le_skipSpaces subset (start + 1)
  have hle : skipSpaces subset (start + 1) ≤ stop + 1 :=
    skipSpaces_le (by omega) (by omega) hin hclose
  have hpcdata : skipSpaces subset (start + 1) + 7 ≤ subset.length + 1 :=
    add_length_le_of_hasAt hmarker (by decide) (by omega)
  have hat : min (skipSpaces subset (start + 1)) (stop + 1) = skipSpaces subset (start + 1) :=
    Nat.min_eq_left hle
  unfold checkedMixedContentParticle validContentBounds mixedStart
  rw [require_of ⟨hstart, hstop, hin⟩, ok_bind, itemAt_eq hstart (by omega), ok_bind,
    require_of hopen, ok_bind, callSkipSpaces_eq (by omega) (by omega), ok_bind, hat]
  dsimp only
  rw [callHasAt_eq (by omega) (by omega), ok_bind, require_of hmarker, ok_bind,
    callSkipSpaces_eq (by omega) hpcdata, ok_bind]

theorem checkedContentParticle_ok (hclose : isXmlSpace (subset.item (stop + 1)) = false)
    (hends : startsMixed subset start → ¬ MixedRunsOut cfg subset start stop) :
    ∃ r, ParticleEnds cfg subset start stop r ∧
      checkedContentParticle cfg subset stop start = .ok r := by
  unfold checkedContentParticle
  unfold validContentBounds
  rw [require_of ⟨hstart, hstop, hin⟩, ok_bind, checkedStartsMixed_eq hstart (by omega), ok_bind]
  by_cases hmixed : startsMixed subset start
  · obtain ⟨s, e, hleads, hend, hloop⟩ := checkedMixedLoop_ok hstart hstop hin (hends hmixed)
    have hwithin := hleads.keeps (mixedRound_progresses cfg hin hstop).keeps
      (mixedStart_within hstop)
    have hpost : contentPostconditions stop start (mixedOutcome subset stop s e) = .ok () :=
      mixedOutcome_postconditions hwithin hstop
    refine ⟨_, .mixed hmixed hleads hend, ?_⟩
    rw [if_pos (decide_eq_true hmixed),
      checkedMixedContentParticle_eq hstart hstop hin hclose hmixed, hloop, ok_bind,
      checkedMixedEnd_eq hwithin hin, ok_bind, hpost, ok_bind]
    refine (ok_bind _ _).trans ?_
    rw [hpost]
    rfl
  · obtain ⟨s, e, hleads, hend, hloop⟩ := @checkedContentLoop_ok cfg _ _ _ hstart hstop hin
    have hwithin := hleads.keeps (contentRound_progresses cfg hin).keeps (contentStart_within hstop)
    refine ⟨_, .content hmixed hleads hend, ?_⟩
    rw [if_neg (by rw [decide_eq_false hmixed]; exact Bool.false_ne_true), hloop, ok_bind]
    dsimp only
    rw [contentOutcome_postconditions hwithin hend hstop]
    rfl

theorem checkedContentParticle_error (hclose : isXmlSpace (subset.item (stop + 1)) = false)
    (hmixed : startsMixed subset start) (hends : MixedRunsOut cfg subset start stop) :
    checkedContentParticle cfg subset stop start = .error .variant := by
  unfold checkedContentParticle validContentBounds
  rw [require_of ⟨hstart, hstop, hin⟩, ok_bind, checkedStartsMixed_eq hstart (by omega), ok_bind,
    if_pos (decide_eq_true hmixed), checkedMixedContentParticle_eq hstart hstop hin hclose hmixed,
    checkedMixedLoop_error hstart hstop hin hends]
  rfl

end

end

end Xpact
