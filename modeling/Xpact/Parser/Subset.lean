import Xpact.Parser.Declarations

/-!
# DTD subsets

The loop over the declarations of a subset, with parameter entities (between declarations and inside
them), conditional sections and external subsets.  The replacement text of a parameter entity and the
body of an `INCLUDE` section are subsets again; the routine for them is a parameter, and the recursion
is closed at the end with a bound on its depth.
-/

namespace Xpact

open Library Routine

/-! ## Parameter references inside declarations -/

/-- A replacement made in a subset: where, how many characters went, and how many came. -/
structure SubsetEdit where
  referenceIndex : Nat
  oldCount : Nat
  newCount : Nat
  deriving DecidableEq

/-- Undo the replacements, newest first; inserted characters belong to the reference. -/
def originalDtdSubsetIndex (i : Nat) (edits : List SubsetEdit) : Nat :=
  edits.foldl (fun result e ↦
    if e.referenceIndex + e.newCount ≤ result then result - e.newCount + e.oldCount
    else if e.referenceIndex ≤ result then e.referenceIndex
    else result) i

/-- The scan of `next_dtd_declaration_parameter_reference`, on what is left of the subset. -/
def nextParameterReferenceIn (conditional : Bool) : Option Character8 → String8 → Nat → Nat
  | _, [], _ => 0
  | some quote, c :: rest, i =>
    nextParameterReferenceIn conditional (if c = quote then none else some quote) rest (i + 1)
  | none, c :: rest, i =>
    if isQuote c then nextParameterReferenceIn conditional (some c) rest (i + 1)
    else if c = '>' ∨ (conditional ∧ c = '[') then 0
    else if c.toNat = 37 ∧ rest.head?.any (fun d ↦ !isXmlSpace d) then i
    else nextParameterReferenceIn conditional none rest (i + 1)

/-- First parameter reference outside literals in the declaration at `start`, or 0. -/
def nextDtdDeclarationParameterReference (subset : String8) (start : Nat) : Nat :=
  nextParameterReferenceIn (hasAt subset start (str "<![")) none (subset.drop (start + 2)) (start + 3)

section ParameterValue

variable (expandedDtdParameterValue : String8 → Routine (Option String8))

/-- The state of the copy in `expanded_dtd_parameter_value`. -/
structure ParameterCopy where
  index : Nat := 1
  quote : Option Character8 := none
  out : String8 := []

def parameterCopyStep (text : String8) (k : ParameterCopy) : Routine ParameterCopy := do
  let c := text.item k.index
  let next := { k with index := k.index + 1, out := k.out ++ [c] }
  match k.quote with
  | some q => return { next with quote := if c = q then none else some q }
  | none =>
    if isQuote c then
      return { next with quote := some c }
    else if c.toNat = 37 ∧ k.index < text.length ∧ !isXmlSpace (text.item (k.index + 1)) then
      let close := findCharacter text ';' (k.index + 1)
      let name := text.substring (k.index + 1) (close - 1)
      if close = 0 then
        failAt "unterminated parameter entity reference" { k with index := text.length + 1 }
      else if !(← config).isValidName name then
        failAt "invalid parameter entity name" { k with index := close + 1 }
      else
        let inserted :=
          match ← expandedDtdParameterValue name with
          | some nested => str " " ++ nested ++ str " "
          | none => text.substring k.index close
        return { k with index := close + 1, out := k.out ++ inserted }
    else
      return next

/-- The text of a parameter entity, and nothing for an unknown one. -/
def dtdParameterText (name : String8) : Routine (Option String8) := do
  let s ← sight
  let c := s.core.context
  if s.core.isEntityActive name then
    failAt "recursive entity reference" none
  else if maxEntityDepth ≤ s.core.entityStack.length then
    failAt "entity expansion depth exceeded" none
  else
    match c.parameterEntityValue name, c.lookupExternalParameterEntity name with
    | some value, _ => do
      noteEntityExpansion (c.parameterEntityAccountingValue name)
      return some value
    | none, some e => return some (← appendExternalParameterEntityInLiteral e)
    | none, none => return none

end ParameterValue

/-- Token replacement for a parameter entity inside a declaration. -/
def expandedDtdParameterValue : Nat → String8 → Routine (Option String8)
  | 0, _ => .stuck
  | depth + 1, name => do
    match ← dtdParameterText name with
    | none => return none
    | some text =>
      if ← isOngoing then
        pushEntity name
        let k ← Program.loop
          (fun k : ParameterCopy ↦ return text.length < k.index || !(← isOngoing))
          (parameterCopyStep (expandedDtdParameterValue depth) text) (text.length + 1) {}
        popEntity
        return some k.out
      else
        return none

/-- The subset with the parameter entity reference at `reference` expanded; unknown references are
left to the rules for skipping declarations. -/
def dtdSubsetWithParameterReference (depth : Nat) (subset : String8) (reference : Nat) :
    Routine (Option String8) := do
  let close := findCharacter subset ';' (reference + 1)
  let name := subset.substring (reference + 1) (close - 1)
  let s ← sight
  if close = 0 then
    failAt "unterminated parameter entity reference" none
  else if !s.core.readsExternalMarkup then
    failAt "parameter entity reference in internal subset declaration" none
  else if !s.config.isValidName name then
    failAt "invalid parameter entity name" none
  else
    match ← expandedDtdParameterValue depth name with
    | none => return none
    | some value =>
      if ← isOngoing then
        return some (subset.substring 1 (reference - 1) ++ str " " ++ value ++ str " " ++
          subset.substring (close + 1) subset.length)
      else
        return none

section Subset

variable (depth : Nat) (processInternalSubset : String8 → Routine Unit)

/-! ## Parameter entities between declarations -/

/-- Process the text of a resolved external parameter entity or subset. -/
def processExternalText (text : String8) (answer : Answer) : Routine Unit := do
  if !answer.isExternalChildParse then
    noteEntityExpansion text.length
  unlessError do
    if answer.resource.isSome then
      assign fun f ↦ { f with currentExternalEntityBase := answer.resource }
    assign fun f ↦ { f with externalDtdDepth := f.externalDtdDepth + 1 }
    processInternalSubset text
    assign fun f ↦ { f with externalDtdDepth := f.externalDtdDepth - 1 }

/-- Run `m`, then restore the resource that supplies the markup. -/
def restoringBase (m : Routine Unit) : Routine Unit := do
  let base := (← flags).currentExternalEntityBase
  m
  assign fun f ↦ { f with currentExternalEntityBase := base }

def includeExternalParameterEntityInSubset (e : ExternalEntity) : Routine Unit :=
  restoringBase do
    if !(← parameterEntityLoadingAllowed) then
      if (← config).skipUnreadExternalEntities then
        Program.command .noteParameterEntityReference
        Program.command .disableDeclarations
        emit (.skippedEntity e.name true)
      else
        setError "external entity not loaded"
    else if !(← hasResolver) then
      setError "external entity resolver missing"
    else
      checkNotStandalone
      unlessError do
        match ← resolvedEntityReplacement e false with
        | some (text, answer) => processExternalText processInternalSubset text answer
        | none => setError "external entity not resolved"

/-- Process the text of internal parameter entity `name`, referenced at `start`. -/
def includeInternalParameterEntity (name value : String8) (start : Nat) : Routine Unit := do
  pushEntity name
  let position := (← flags).dtdEntityReferencePosition
  assign fun f ↦ { f with
    dtdEntityReferencePosition :=
      if position = 0 then f.dtdSubsetPositionOffset + start else position
    parameterSubsetExpansionDepth := f.parameterSubsetExpansionDepth + 1 }
  processInternalSubset value
  assign fun f ↦ { f with
    dtdEntityReferencePosition := position
    parameterSubsetExpansionDepth := f.parameterSubsetExpansionDepth - 1 }
  popEntity

def includeParameterEntityInSubset (subset : String8) (start : Nat) : Routine Nat := do
  let stop := subset.length + 1
  Program.command .noteParameterEntityReference
  let close := findCharacter subset ';' (start + 1)
  if close = 0 then
    failAt "unterminated parameter entity reference" stop
  else
    let written := subset.substring (start + 1) (close - 1)
    let name ←
      if (← config).isValidName written then resolvedParameterEntityName written else pure written
    let s ← sight
    let c := s.core.context
    if !s.config.isValidName name then
      failAt "invalid parameter entity name" stop
    else if s.core.hasError then
      return stop
    else if s.core.isEntityActive name then
      failAt "recursive entity reference" stop
    else if maxEntityDepth ≤ s.core.entityStack.length then
      failAt "entity expansion depth exceeded" stop
    else
      match c.parameterEntityValue name, c.lookupExternalParameterEntity name with
      | some value, _ => do
        noteEntityExpansion (c.parameterEntityAccountingValue name)
        unlessError (includeInternalParameterEntity processInternalSubset name value start)
        return if ← hasError then stop else close + 1
      | none, some e => do
        pushEntity name
        includeExternalParameterEntityInSubset processInternalSubset e
        popEntity
        return if ← hasError then stop else close + 1
      | none, none =>
        if !s.core.readsExternalMarkup && s.core.declarations.dtdIsStandalone then
          failAt "undefined entity" stop
        else
          Program.command .disableDeclarations
          emit (.skippedEntity name true)
          return close + 1

/-! ## Conditional sections -/

/-- Has the keyword of the section that closes at `close` been read? -/
def conditionalStatusFinished (subset : String8) (close : Nat) (s : Nat × String8) :
    Routine Bool := do
  let failed ← hasError
  return close - 1 < s.1 || failed || subset.item s.1 == '[' || s.2.has '['

def conditionalStatusStep (subset : String8) : Nat × String8 → Routine (Nat × String8)
  | (i, out) => do
    if subset.code i = 37 then
      let (i, text) ←
        appendParameterReferenceInEntityValue (appendParameterEntityLiteral depth) subset i
      return (i, out ++ text)
    else
      return (i + 1, out ++ [subset.item i])

def parseConditionalSection (subset : String8) (start : Nat) : Routine Nat := do
  let stop := subset.length + 1
  let close := findConditionalSectionEnd subset start
  if close = 0 then
    if hasPartialUtf8Tail subset then
      failAt "partial character" stop
    else
      failAt "incomplete conditional section" stop
  else
    let (i, status) ← Program.loop
      (conditionalStatusFinished subset close)
      (conditionalStatusStep depth subset) (subset.length + 2) (start + 3, [])
    let bracket := status.indexOf '[' 1
    -- The keyword's parameter entity may also hold the opening bracket.
    let (contentStart, inner, status) : Nat × String8 × String8 :=
      if bracket = 0 then (i + 1, [], status)
      else (i, status.drop bracket, status.take (bracket - 1))
    if ← hasError then
      return stop
    else if bracket = 0 ∧ (close - 1 < i ∨ subset.item i ≠ '[') then
      failAt "invalid conditional section" stop
    else if adjusted status = str "IGNORE" then
      emitDefault (subset.substring start (close + 2))
      return close + 3
    else if adjusted status = str "INCLUDE" then
      let inner := inner ++ subset.substring contentStart (close - 1)
      if !inner.isEmpty then
        processInternalSubset inner
      return if ← hasError then stop else close + 3
    else
      failAt "invalid conditional section" stop

/-! ## The loop over a subset -/

def processSubsetComment (subset : String8) (i : Nat) : Routine Nat := do
  let stop := subset.length + 1
  let close := findSequence subset (str "-->") (i + 4)
  if close = 0 then
    failAt "unterminated comment" stop
  else if findSequence subset (str "--") (i + 4) < close then
    failAt "double hyphen in comment" stop
  else
    emitDefaultWhen .comment (subset.substring i (close + 2))
    whileOngoing (emitComment (subset.substring (i + 4) (close - 1)))
    return close + 3

def processSubsetInstruction (subset : String8) (i : Nat) : Routine Nat := do
  let stop := subset.length + 1
  let close := findSequence subset (str "?>") (i + 2)
  if close = 0 then
    failAt "unterminated processing instruction" stop
  else
    validateProcessingInstructionTarget subset (i + 2) close
    if ← hasError then
      return stop
    else
      emitDefaultWhen .processingInstruction (subset.substring i (close + 1))
      whileOngoing do
        let targetEnd ← scanName subset (i + 2)
        let dataStart := min (skipSpaces subset targetEnd) close
        emit (.processingInstruction (subset.substring (i + 2) (targetEnd - 1))
          (subset.substring dataStart (close - 1)))
      return close + 2

/-- What stands in a subset outside declarations: white space, or an error. -/
def processSubsetCharacter (subset : String8) (i : Nat) : Routine Nat := do
  let stop := subset.length + 1
  let c := subset.item i
  if isXmlSpace c then
    emitDefault (subset.substring i i)
    return i + 1
  else if isIncompleteUtf8SequenceAt subset i then
    failAt "partial character" stop
  else if isQuote c then
    failAt "unterminated literal" stop
  else if c = ']' then
    failAt "invalid DTD closing delimiter" stop
  else if c.toNat = 36 then
    failAt "invalid DTD content" stop
  else
    failAt "unexpected DTD content" stop

/-- Does a declaration or a conditional section begin at `i`? -/
def beginsDeclaration (subset : String8) (i : Nat) : Bool :=
  [str "<!ENTITY", str "<!ATTLIST", str "<!ELEMENT", str "<!NOTATION", str "<!["].any
    (hasAt subset i)

/-- Process the token at `i`, which holds no parameter reference to expand first. -/
def processSubsetToken (allowTextDeclaration : Bool) (subset : String8) (i : Nat) :
    Routine Nat := do
  if hasAt subset i (str "<!ENTITY") then
    parseEntityDeclaration depth subset i
  else if hasAt subset i (str "<!ATTLIST") then
    parseAttlistDeclaration depth subset i
  else if hasAt subset i (str "<!ELEMENT") then
    parseElementDeclaration subset i
  else if hasAt subset i (str "<!NOTATION") then
    parseNotationDeclaration subset i
  else if hasAt subset i (str "<![") then
    parseConditionalSection depth processInternalSubset subset i
  else if hasAt subset i (str "<!--") then
    processSubsetComment subset i
  else if hasAt subset i (str "<?") then
    let isTextDeclaration ←
      if allowTextDeclaration ∧ i = 1 then startsXmlDeclarationAt subset i else pure false
    if isTextDeclaration then parseProcessingInstruction subset i
    else processSubsetInstruction subset i
  else if subset.code i = 37 then
    includeParameterEntityInSubset processInternalSubset subset i
  else
    processSubsetCharacter subset i

/-- The subset as expanded so far, with the replacements made in it, newest first. -/
structure SubsetScan where
  subset : String8
  index : Nat := 1
  edits : List SubsetEdit := []

def processSubsetStep (allowTextDeclaration : Bool) (s : SubsetScan) : Routine SubsetScan := do
  let f ← flags
  let position (i : Nat) : Nat := f.dtdSubsetPositionOffset + originalDtdSubsetIndex i s.edits
  if 0 < f.dtdEntityReferencePosition then
    notePosition f.dtdEntityReferencePosition
  else
    notePosition (position s.index)
  let reference :=
    if beginsDeclaration s.subset s.index then
      nextDtdDeclarationParameterReference s.subset s.index
    else 0
  let expanded ←
    if 0 < reference then do
      if f.dtdEntityReferencePosition = 0 then
        notePosition (position reference)
      dtdSubsetWithParameterReference depth s.subset reference
    else
      pure none
  if ← isOngoing then
    match expanded with
    | some replacement =>
      let oldCount := findCharacter s.subset ';' (reference + 1) - reference + 1
      return { s with
        subset := replacement
        edits := ⟨reference, oldCount, replacement.length + oldCount - s.subset.length⟩ ::
          s.edits }
    | none => do
      let i ← processSubsetToken depth processInternalSubset allowTextDeclaration s.subset s.index
      return { s with index := i }
  else
    return { s with index := s.subset.length + 1 }

def subsetFinished (s : SubsetScan) : Routine Bool :=
  return s.subset.length < s.index || !(← isOngoing)

end Subset

/-- Process declarations; only an external resource may begin with a text declaration.  `bound`
limits the nesting and the rounds of each loop. -/
def processDtdSubset : Nat → String8 → Bool → Routine Unit
  | 0, _, _ => .stuck
  | bound + 1, subset, allowTextDeclaration => do
    let _ ← Program.loop subsetFinished
      (processSubsetStep bound (processDtdSubset bound · false) allowTextDeclaration)
      (bound + 1) { subset }

def processInternalSubset (bound : Nat) (subset : String8) : Routine Unit :=
  processDtdSubset bound subset false

/-- Process only complete declaration tokens of a subset that is not final. -/
def processInternalSubsetPrefix (bound : Nat) (subset : String8) (allowTextDeclaration : Bool) :
    Routine Unit := do
  let stop := completeDtdPrefixEnd subset
  if 0 < stop then
    processDtdSubset bound (subset.substring 1 stop) allowTextDeclaration

/-! ## External subsets -/

def includeExternalSubset (bound : Nat) (publicId systemId : String8) : Routine Unit :=
  restoringBase do
    if ← parameterEntityLoadingAllowed then
      if !(← hasResolver) then
        setError "external entity resolver missing"
      else
        let f ← flags
        match ← resolvedExternalReplacement f.doctypeName publicId systemId true
            f.currentExternalEntityBase false with
        | some (text, answer) => processExternalText (processInternalSubset bound) text answer
        | none => setError "external entity not resolved"

/-- Process the configured foreign DTD before the root element. -/
def includeForeignDtdIfNeeded (bound : Nat) (rootName : String8) : Routine Unit :=
  restoringBase do
    let s ← sight
    let f := s.core.flags
    if s.config.useForeignDtd && !f.foreignDtdLoaded && !f.documentHasExternalSubset then
      assign fun f ↦ { f with foreignDtdLoaded := true }
      checkNotStandalone
      if !(← hasError) && (← parameterEntityLoadingAllowed) &&
          s.hasResolver then
        match ← resolvedExternalReplacement rootName [] (str "foreign.dtd") true
            f.currentExternalEntityBase false with
        | some (text, answer) => do
          if !answer.isExternalChildParse then
            noteEntityExpansion text.length
          unlessError do
            if !text.isEmpty || answer.isExternalChildParse then
              assign fun f ↦ { f with documentHasExternalSubset := true }
            if answer.resource.isSome then
              assign fun f ↦ { f with currentExternalEntityBase := answer.resource }
            assign fun f ↦ { f with externalDtdDepth := f.externalDtdDepth + 1 }
            processInternalSubset bound text
            assign fun f ↦ { f with externalDtdDepth := f.externalDtdDepth - 1 }
        | none => setError "external entity not resolved"

end Xpact
