import Xpact.Parser.References

/-!
# Element and notation declarations

Content models are read with an explicit stack of open groups, so that their nesting is bounded by
the length of the declaration only.
-/

namespace Xpact

open Library Routine

/-! ## Content models -/

/-- Apply the quantifier at `start`, if there is one: the next index and the quantified model. -/
def applyContentQuantifier (model : ContentModel) (subset : String8) (start stop : Nat) :
    Nat × ContentModel :=
  if stop < start then (start, model)
  else if subset.item start = '?' then (start + 1, model.setQuantifier .optional)
  else if subset.item start = '*' then (start + 1, model.setQuantifier .repetition)
  else if subset.item start = '+' then (start + 1, model.setQuantifier .plus)
  else (start, model)

def nameModel (name : String8) : ContentModel := .node .name .none (some name) []

/-- The state of `parse_content_particle`: the open groups with the separator each has used so far
(a space before the first one), innermost first. -/
structure ContentScan where
  index : Nat
  groups : List (ContentModel × Character8) := []
  expectsChild : Bool := true
  result : Option ContentModel := none

/-- Add a finished particle to the innermost group, or make it the result. -/
def ContentScan.finish (s : ContentScan) (index : Nat) (model : ContentModel) : ContentScan :=
  match s.groups with
  | [] => { s with index := index, result := some model }
  | (group, separator) :: outer =>
    { s with
      index := index
      groups := (group.addChild model, separator) :: outer
      expectsChild := false }

def contentScanStep (subset : String8) (stop : Nat) (s : ContentScan) : Routine ContentScan := do
  let i := min (skipSpaces subset s.index) (stop + 1)
  let c := subset.item i
  if stop < i then
    failAt "unterminated element content model" { s with index := i }
  else if s.expectsChild then
    if c = '(' then
      let group : ContentModel := .node .sequence .none none []
      return { s with index := i + 1, groups := (group, (' ' : Character8)) :: s.groups }
    else if isNameStartCharacter c then
      let nameEnd := min (← scanName subset i) (stop + 1)
      if ← hasError then
        return s
      else
        let (next, model) :=
          applyContentQuantifier (nameModel (subset.substring i (nameEnd - 1))) subset nameEnd stop
        return s.finish next model
    else
      failAt "invalid element content particle" s
  else
    match s.groups with
    | [] => failAt "invalid element content separator" s
    | (group, separator) :: outer =>
      if c = ',' ∨ c = '|' then
        let next := { s with index := i + 1, expectsChild := true }
        if separator = ' ' then
          let group :=
            if c = '|' then .node .choice .none none (group.children.take 1) else group
          return { next with groups := (group, c) :: outer }
        else if separator ≠ c then
          failAt "invalid element content separator" next
        else
          return next
      else if c = ')' then
        let (next, model) := applyContentQuantifier group subset (i + 1) stop
        return { s with groups := outer }.finish next model
      else
        failAt "invalid element content separator" s

/-- The state of `parse_mixed_content_particle`. -/
structure MixedScan where
  index : Nat
  names : List String8 := []
  isDone : Bool := false

def mixedScanStep (subset : String8) (stop : Nat) (s : MixedScan) : Routine MixedScan := do
  let fail := failAt "invalid mixed content model" { s with index := stop + 1 }
  if s.index ≤ stop ∧ subset.item s.index = ')' then
    return { s with index := s.index + 1, isDone := true }
  else if s.index ≤ stop ∧ subset.item s.index = '|' then
    let i := min (skipSpaces subset (s.index + 1)) (stop + 1)
    if i ≤ stop ∧ isNameStartCharacter (subset.item i) then
      let nameEnd := min (← scanName subset i) (stop + 1)
      return { s with
        index := min (skipSpaces subset nameEnd) (stop + 1)
        names := s.names ++ [subset.substring i (nameEnd - 1)] }
    else
      fail
  else
    fail

/-- Mixed content.  The source keeps an older reader of element content behind the same test as its
caller, which is never reached. -/
def parseMixedContentParticle (subset : String8) (start stop : Nat) :
    Routine (Nat × Option ContentModel) := do
  let pcdata := min (skipSpaces subset (start + 1)) (stop + 1)
  let s ← Program.loop (fun s : MixedScan ↦ return s.isDone || (← hasError))
    (mixedScanStep subset stop) (stop + 3 - start)
    { index := min (skipSpaces subset (pcdata + 7)) (stop + 1) }
  let model (q : Quantifier) : ContentModel := .node .mixed q none (s.names.map nameModel)
  let c := subset.item s.index
  if ← hasError then
    return (stop + 1, none)
  else if s.index ≤ stop ∧ c = '*' then
    return (s.index + 1, some (model .repetition))
  else if !s.names.isEmpty then
    failAt "mixed content with element names must end with )*" (stop + 1, none)
  else if s.index ≤ stop ∧ (c = '?' ∨ c = '+') then
    failAt "invalid quantifier on mixed content" (stop + 1, none)
  else
    return (s.index, some (model .none))

def parseContentParticle (subset : String8) (start stop : Nat) :
    Routine (Nat × Option ContentModel) := do
  if subset.item start = '(' ∧ hasAt subset (skipSpaces subset (start + 1)) (str "#PCDATA") then
    parseMixedContentParticle subset start stop
  else
    let s ← Program.loop (fun s : ContentScan ↦ return s.result.isSome || (← hasError))
      (contentScanStep subset stop) (stop + 3 - start) { index := start }
    if ← hasError then return (stop + 1, none) else return (s.index, s.result)

/-! ## Element declarations -/

def parseElementDeclaration (subset : String8) (start : Nat) : Routine Nat := do
  let stop := subset.length + 1
  let close := findMarkupDeclarationEnd subset start
  if close = 0 then
    failAt "unterminated element declaration" stop
  else
    let i ← skipRequiredSpaces subset (start + 9) "missing space in element declaration"
    if (← hasError) || close ≤ i || !isNameStartCharacter (subset.item i) then
      failAt "invalid element declaration name" stop
    else
      let nameEnd ← scanName subset i
      let name := subset.substring i (nameEnd - 1)
      let i ←
        if ← hasError then pure nameEnd
        else skipRequiredSpaces subset nameEnd "missing space before content model"
      let (i, model) ← do
        if ← hasError then
          pure (i, none)
        else if hasKeywordAt subset i (str "EMPTY") then
          pure (i + 5, some (.node .empty .none none []))
        else if hasKeywordAt subset i (str "ANY") then
          pure (i + 3, some (.node .any .none none []))
        else if i ≤ close - 1 ∧ subset.item i = '(' then
          parseContentParticle subset i (close - 1)
        else
          failAt "invalid element content model" (i, none)
      if ← hasError then
        return stop
      else if skipSpaces subset i ≠ close then
        failAt "unexpected element declaration content" stop
      else
        match model with
        | none => failAt "invalid element content model" stop
        | some model => do
          emitDefaultWhen .elementDecl (subset.substring start close)
          whileOngoing (emit (.elementDecl name model))
          return close + 1

/-! ## Notation declarations -/

/-- An external identifier: the index after it, the public and the system identifier. -/
abbrev ExternalId := Nat × Option String8 × Option String8

/-- The external or public identifier of a notation. -/
def parseNotationId (subset : String8) (i close : Nat) : Routine ExternalId := do
  if hasKeywordAt subset i (str "SYSTEM") then
    let i ← skipSpacesBeforeLiteral subset (i + 6) "missing space after SYSTEM"
    if !(← hasError) && i ≤ close - 1 && isQuote (subset.item i) then
      let (i, systemId) ← readQuotedLiteral subset i (close - 1)
      return (i, none, some systemId)
    else
      failAt "missing notation system identifier" (i, none, none)
  else if hasKeywordAt subset i (str "PUBLIC") then
    let i ← skipSpacesBeforeLiteral subset (i + 6) "missing space after PUBLIC"
    if !(← hasError) && i ≤ close - 1 && isQuote (subset.item i) then
      let (i, publicId) ← readPublicIdLiteral subset i (close - 1)
      let next := skipSpaces subset i
      if !(← hasError) && next ≤ close - 1 && isQuote (subset.item next) then
        let i ← skipSpacesBeforeLiteral subset i
          "missing space between public and system identifiers"
        if !(← hasError) && i ≤ close - 1 && isQuote (subset.item i) then
          let (i, systemId) ← readQuotedLiteral subset i (close - 1)
          return (i, some publicId, some systemId)
        else
          return (i, some publicId, none)
      else
        return (i, some publicId, none)
    else
      failAt "missing notation public identifier" (i, none, none)
  else
    failAt "invalid notation declaration" (i, none, none)

def parseNotationDeclaration (subset : String8) (start : Nat) : Routine Nat := do
  let stop := subset.length + 1
  let close := findMarkupDeclarationEnd subset start
  if close = 0 then
    failAt "unterminated notation declaration" stop
  else
    let i ← skipRequiredSpaces subset (start + 10) "missing space in notation declaration"
    if (← hasError) || close ≤ i || !isNameStartCharacter (subset.item i) then
      failAt "invalid notation declaration name" stop
    else
      let nameEnd ← scanName subset i
      let name := subset.substring i (nameEnd - 1)
      if !(← hasError) && (← config).namespaceMode && name.has ':' then
        setError "colon in notation name"
      let i ←
        if ← hasError then pure nameEnd
        else skipRequiredSpaces subset nameEnd "missing space after notation name"
      let (i, publicId, systemId) ←
        if ← hasError then pure (i, none, none) else parseNotationId subset i close
      if ← hasError then
        return stop
      else if skipSpaces subset i ≠ close then
        failAt "unexpected notation declaration content" stop
      else
        emitDefaultWhen .notationDecl (subset.substring start close)
        whileOngoing (emit (.notationDecl name none systemId publicId))
        return close + 1

end Xpact
