import Xpact.Parser.ContentModels

/-!
# Attribute-list and entity declarations

The declarations that fill the tables.  Each is read in full before anything is recorded.
-/

namespace Xpact

open Library Routine

/-! ## Attribute types -/

/-- The state of `append_attlist_group`: the index of the parenthesis or bar before the next token,
and the type read so far. -/
structure AttlistGroup where
  index : Nat
  attributeType : String8
  isDone : Bool := false

def attlistGroupStep (subset : String8) (stop : Nat) (names : Bool) (g : AttlistGroup) :
    Routine AttlistGroup := do
  let i := min (skipSpaces subset (g.index + 1)) (stop + 1)
  let c := subset.item i
  if i ≤ stop && isNameCharacter c && (!names || isNameStartCharacter c) then
    let tokenEnd := min (← if names then scanName subset i else scanNmtoken subset i) (stop + 1)
    let read := g.attributeType ++ subset.substring i (tokenEnd - 1)
    let i := min (skipSpaces subset tokenEnd) (stop + 1)
    if ← hasError then
      return { g with index := stop + 1 }
    else if i ≤ stop ∧ subset.item i = '|' then
      return { g with index := i, attributeType := read ++ str "|" }
    else if i ≤ stop ∧ subset.item i = ')' then
      return { index := i, attributeType := read ++ str ")", isDone := true }
    else
      failAt "invalid attlist group separator" { g with index := stop + 1 }
  else
    failAt "invalid attlist group token" { g with index := stop + 1 }

/-- The group at `start`, appended to `attributeType` without its white space. -/
def appendAttlistGroup (subset : String8) (start stop : Nat) (attributeType : String8)
    (names : Bool) : Routine (Nat × String8) := do
  let g ← Program.loop (fun g : AttlistGroup ↦ return g.isDone || (← hasError))
    (attlistGroupStep subset stop names) (stop + 3 - start)
    { index := start, attributeType := attributeType ++ str "(" }
  return (if ← hasError then stop + 1 else g.index + 1, g.attributeType)

def attlistKeywords : List String8 :=
  [str "CDATA", str "ID", str "IDREF", str "IDREFS", str "ENTITY", str "ENTITIES", str "NMTOKEN",
    str "NMTOKENS"]

def parseAttlistType (subset : String8) (start stop : Nat) : Routine (Nat × String8) := do
  if hasKeywordAt subset start (str "NOTATION") then
    let i := min (← skipRequiredSpaces subset (start + 8) "missing space after NOTATION") (stop + 1)
    if !(← hasError) && i ≤ stop && subset.item i == '(' then
      appendAttlistGroup subset i stop (str "NOTATION") true
    else
      failAt "missing notation attlist group" (stop + 1, [])
  else if subset.item start = '(' then
    appendAttlistGroup subset start stop [] false
  else if attlistKeywords.any (hasKeywordAt subset start) then
    let i := min (← scanName subset start) (stop + 1)
    return (if ← hasError then stop + 1 else i, subset.substring start (i - 1))
  else
    failAt "invalid attlist type" (stop + 1, [])

/-! ## Attribute defaults -/

def attlistDefaultValueStep (depth : Nat) (subset : String8) (stop : Nat) :
    Nat × String8 → Routine (Nat × String8)
  | (i, out) => do
    let c := subset.item i
    let (next, out) ← do
      if c = '<' then
        failAt "left angle bracket in attlist default" (i, out)
      else if c = '&' then
        let close := findCharacter subset ';' (i + 1)
        if close = 0 ∨ stop < close then
          failAt "invalid reference in attlist default" (i, out)
        else
          let (next, text) ←
            if (← core).declarations.dtdDeclarationsDisabled then
              appendReferenceInEntityValue subset i
            else
              appendReferenceInLiteral (expandLiteralText depth) subset i
          pure (next, out ++ text)
      else if !isXmlCharacterCode c.toNat then
        failAt "invalid XML character" (i, out)
      else
        pure (i + 1, out ++ [literalCharacter c])
    return (if (← hasError) || stop < next then stop + 1 else next, out)

/-- Parse and normalize the default literal at `start`, bounded by `stop`. -/
def parseAttlistDefaultValue (depth : Nat) (subset : String8) (start stop : Nat) :
    Routine (Nat × String8) := do
  let quote := subset.item start
  let (i, value) ← Program.loop
    (fun s : Nat × String8 ↦ return stop < s.1 || (← hasError) || subset.item s.1 == quote)
    (attlistDefaultValueStep depth subset stop) (stop + 2 - start) (start + 1, [])
  if ← hasError then
    return (stop + 1, value)
  else if stop < i then
    failAt "unterminated attlist default" (stop + 1, value)
  else
    return (i + 1, value)

/-- The default declaration at `j`: the index after it, the default value, and whether the
attribute is required. -/
def parseAttlistDefault (depth : Nat) (subset : String8) (j close : Nat) :
    Routine (Nat × Option String8 × Bool) := do
  if hasKeywordAt subset j (str "#REQUIRED") then
    return (j + 9, none, true)
  else if hasKeywordAt subset j (str "#IMPLIED") then
    return (j + 8, none, false)
  else if hasKeywordAt subset j (str "#FIXED") then
    let j := min (← skipRequiredSpaces subset (j + 6) "missing space after #FIXED") close
    if !(← hasError) && j < close && isQuote (subset.item j) then
      let (j, value) ← parseAttlistDefaultValue depth subset j (close - 1)
      return (j, some value, false)
    else
      failAt "missing fixed attlist default" (j, none, false)
  else if j < close ∧ isQuote (subset.item j) then
    let (j, value) ← parseAttlistDefaultValue depth subset j (close - 1)
    return (j, some value, false)
  else if j < close ∧ subset.item j = '#' ∧ j + 1 < close ∧ subset.code (j + 1) < 128 then
    failAt "invalid attlist default keyword" (j, none, false)
  else
    failAt "missing attlist default declaration" (j, none, false)

/-! ## Attribute-list declarations -/

/-- The state of `skip_declaration_for_undefined_parameter`. -/
structure SkipScan where
  index : Nat
  quote : Option Character8 := none
  isSkipped : Bool := false

def skipScanStep (subset : String8) (stop : Nat) (k : SkipScan) : Routine SkipScan := do
  let c := subset.item k.index
  let next := { k with index := k.index + 1 }
  match k.quote with
  | some q => return { next with quote := if c = q then none else some q }
  | none =>
    if isQuote c then
      return { next with quote := some c }
    else if c.toNat = 37 then
      let s ← sight
      if !s.core.readsExternalMarkup then
        failAt "parameter entity reference in internal subset declaration" next
      else
        let close := findCharacter subset ';' (k.index + 1)
        let name := subset.substring (k.index + 1) (close - 1)
        if k.index + 1 < close ∧ close ≤ stop ∧ s.config.isValidName name ∧
            !s.core.context.isParameterEntityDeclared name then
          Program.command .noteParameterEntityReference
          Program.command .disableDeclarations
          return { next with isSkipped := true }
        else
          return next
    else
      return next

/-- Does the declaration use an unknown parameter entity, so that it is skipped? -/
def skipDeclarationForUndefinedParameter (subset : String8) (start stop : Nat) : Routine Bool := do
  let k ← Program.loop
    (fun k : SkipScan ↦ return stop < k.index || (← hasError) || k.isSkipped)
    (skipScanStep subset stop) (stop + 2 - start) { index := start }
  return k.isSkipped

/-- Parse one attribute definition after `i`, the end of the element name or of the previous
definition, and return its end. -/
def parseAttlistDefinition (depth : Nat) (subset : String8) (elementName : String8)
    (close i : Nat) : Routine Nat := do
  let nameStart := min (skipSpaces subset i) close
  if close ≤ nameStart then
    return close
  else if nameStart = i then
    failAt "missing space before attribute definition" close
  else if !isNameStartCharacter (subset.item nameStart) then
    failAt "invalid attlist attribute name" close
  else
    let nameEnd := min (← scanName subset nameStart) close
    let name := subset.substring nameStart (nameEnd - 1)
    if ← hasError then
      return close
    else
      let j := min (← skipRequiredSpaces subset nameEnd "missing space before attribute type") close
      let (j, attributeType) ← do
        if ← hasError then pure (j, [])
        else if j < close then parseAttlistType subset j (close - 1)
        else failAt "missing attlist type" (j, [])
      let j ←
        if ← hasError then pure j
        else pure (min
          (← skipRequiredSpaces subset j "missing space before attribute default") close)
      let (j, defaultValue, isRequired) ←
        if ← hasError then pure (j, none, false) else parseAttlistDefault depth subset j close
      -- A declared default is normalized like a specified value of its type.
      let defaultValue :=
        if attributeType = str "CDATA" then defaultValue else defaultValue.map collapseSpaces
      let s ← core
      if s.hasError then
        return close
      else
        unless s.declarations.dtdDeclarationsDisabled do
          Program.command
            (.recordAttributeDecl elementName ⟨name, attributeType, defaultValue, isRequired⟩)
          emit (.attlistDecl elementName name attributeType defaultValue isRequired)
        if ← isOngoing then return (if i < j ∧ j ≤ close then j else i) else return close

def parseAttlistDeclaration (depth : Nat) (subset : String8) (start : Nat) : Routine Nat := do
  let stop := subset.length + 1
  let close := findMarkupDeclarationEnd subset start
  if close = 0 then
    failAt "unterminated attlist declaration" stop
  else if ← skipDeclarationForUndefinedParameter subset start close then
    return close + 1
  else
    let i ← skipRequiredSpaces subset (start + 9) "missing space in attlist declaration"
    if (← hasError) || close ≤ i || !isNameStartCharacter (subset.item i) then
      failAt "invalid attlist element name" stop
    else
      let nameEnd := min (← scanName subset i) close
      let elementName := subset.substring i (nameEnd - 1)
      let _ ← Program.loop (fun i : Nat ↦ return !(← isOngoing) || close ≤ i)
        (parseAttlistDefinition depth subset elementName close) (close + 2 - nameEnd) nameEnd
      if ← hasError then
        return stop
      else
        if (← core).declarations.dtdDeclarationsDisabled then
          emitDefault (subset.substring start close)
        else
          emitDefaultWhen .attlistDecl (subset.substring start close)
        return close + 1

/-! ## Entity declarations -/

/-- `SYSTEM` literal, or `PUBLIC` literal and literal, at `i`; a literal ends before `stop`. -/
def parseExternalId (input : String8) (i stop : Nat) (unknown : String) : Routine ExternalId := do
  let missingSystem (i : Nat) (publicId : Option String8) : Routine ExternalId :=
    failAt "missing external system identifier" (i, publicId, none)
  if hasKeywordAt input i (str "SYSTEM") then
    let i ← skipSpacesBeforeLiteral input (i + 6) "missing space after SYSTEM"
    if !(← hasError) && i ≤ stop && isQuote (input.item i) then
      let (i, systemId) ← readQuotedLiteral input i stop
      return (i, none, some systemId)
    else
      missingSystem i none
  else if hasKeywordAt input i (str "PUBLIC") then
    let i ← skipSpacesBeforeLiteral input (i + 6) "missing space after PUBLIC"
    if !(← hasError) && i ≤ stop && isQuote (input.item i) then
      let (i, publicId) ← readPublicIdLiteral input i stop
      if ← hasError then
        return (i, some publicId, none)
      else
        let i ← skipSpacesBeforeLiteral input i
          "missing space between public and system identifiers"
        if !(← hasError) && i ≤ stop && isQuote (input.item i) then
          let (i, systemId) ← readQuotedLiteral input i stop
          return (i, some publicId, some systemId)
        else
          missingSystem i (some publicId)
    else
      failAt "missing external public identifier" (i, none, none)
  else
    failAt unknown (i, none, none)

/-- The optional `NDATA` part at `i`: the index after it, and the notation name when it is there. -/
def parseNotationData (subset : String8) (i close : Nat) (isParameter : Bool) :
    Routine (Nat × Option String8) := do
  let next := skipSpaces subset i
  if !isParameter ∧ next < close ∧ hasKeywordAt subset next (str "NDATA") then
    if next = i then
      setError "missing space before NDATA"
    let j ←
      if ← hasError then pure next
      else skipRequiredSpaces subset (next + 5) "missing space after NDATA"
    if !(← hasError) && j ≤ close && isNameStartCharacter (subset.item j) then
      let nameEnd ← scanName subset j
      return (skipSpaces subset nameEnd, some (subset.substring j (nameEnd - 1)))
    else
      failAt "missing notation name" (j, some [])
  else
    return (next, none)

/-- Parse the external identifier and the notation of entity `name`. -/
def parseExternalEntityDeclaration (subset : String8) (start close : Nat) (name : String8)
    (isParameter : Bool) : Routine Nat := do
  let stop := subset.length + 1
  let (i, publicId, systemId) ←
    parseExternalId subset start close "invalid external entity declaration"
  let publicId := publicId.getD []
  let systemId := systemId.getD []
  let (i, notationName) ←
    if !(← hasError) && i ≤ close then parseNotationData subset i close isParameter
    else pure (i, none)
  let isUnparsed := notationName.isSome
  let notationName := notationName.getD []
  if ← hasError then
    return stop
  else if i ≠ close then
    failAt "unexpected external entity declaration content" stop
  else
    unless (← core).declarations.dtdDeclarationsDisabled do
      Program.command (.putExternalEntity
        ⟨name, publicId, systemId, notationName, isParameter, isUnparsed, none⟩)
      emit (.entityDecl name isParameter none (optionalString publicId) (optionalString systemId)
        (optionalString notationName))
      if isUnparsed then
        emit (.unparsedEntityDecl name systemId (optionalString publicId)
          (optionalString notationName))
    return close + 1

/-- The default text of an internal entity declaration, in the pieces Expat reports. -/
def emitInternalEntityDeclarationDefault (emitPiece : String8 → Routine Unit) (subset : String8)
    (start nameStart nameEnd literalStart literalEnd close : Nat) : Routine Unit := do
  emitPiece (subset.substring start (start + 7))
  whileOngoing (emitPiece (subset.substring (start + 8) (nameStart - 1)))
  whileOngoing (emitPiece (subset.substring nameStart nameEnd))
  whileOngoing (emitPiece (subset.substring (nameEnd + 1) (literalStart - 1)))
  whileOngoing (emitPiece (subset.substring literalStart literalEnd))
  whileOngoing (emitPiece (subset.substring (literalEnd + 1) close))

/-- The literal of an internal entity: the index of its closing quote, the value, and the count for
the accounting. -/
def parseInternalEntityValue (depth : Nat) (subset : String8) (i close : Nat) (name : String8)
    (isParameter isProcessed : Bool) : Routine (Nat × String8 × Int) := do
  let quote := subset.item i
  assign fun f ↦ { f with currentEntityLiteralAccountingAdjustment := 0 }
  let isNewParameter := isParameter && !(← context).isParameterEntityDeclared name
  let (literalEnd, value) ← do
    if !isProcessed then
      let (next, value) ← readQuotedLiteral subset i close
      pure (next - 1, value)
    else if isNewParameter then
      pushEntity name
      let r ← parseEntityLiteral depth subset (i + 1) quote
      popEntity
      pure r
    else
      parseEntityLiteral depth subset (i + 1) quote
  let accountingCount := value.length + (← flags).currentEntityLiteralAccountingAdjustment
  assign fun f ↦ { f with currentEntityLiteralAccountingAdjustment := 0 }
  return (literalEnd, value, accountingCount)

/-- The part of an entity declaration after the name, for an internal entity. -/
def parseInternalEntityDeclaration (depth : Nat) (subset : String8)
    (start nameStart nameEnd literalStart close : Nat) (name : String8)
    (isParameter isProcessed : Bool) : Routine Nat := do
  let stop := subset.length + 1
  let (literalEnd, value, accountingCount) ←
    parseInternalEntityValue depth subset literalStart close name isParameter isProcessed
  if !(← hasError) && skipSpaces subset (literalEnd + 1) != close then
    setError "unexpected entity declaration content"
  if ← hasError then
    return stop
  else
    if isProcessed then
      if isParameter then
        Program.command (.putParameterEntity name value accountingCount)
      else
        Program.command (.putGeneralEntity name value)
    let emitPiece := if isProcessed then emitDefaultWhen (.entityDecl false) else emitDefault
    emitInternalEntityDeclarationDefault emitPiece subset start nameStart nameEnd literalStart
      literalEnd close
    if isProcessed then
      whileOngoing (emit (.entityDecl name isParameter (some value) none none none))
    return close + 1

def parseEntityDeclaration (depth : Nat) (subset : String8) (start : Nat) : Routine Nat := do
  let stop := subset.length + 1
  let isProcessed := !(← core).declarations.dtdDeclarationsDisabled
  let close := findMarkupDeclarationEnd subset start
  if close = 0 then
    failAt "unterminated entity declaration" stop
  else
    let i ← skipRequiredSpaces subset (start + 8) "missing space in entity declaration"
    let isParameter := !(← hasError) && i ≤ subset.length && subset.code i == 37
    let i ←
      if isParameter then
        skipRequiredSpaces subset (i + 1) "missing space after % in entity declaration"
      else
        pure i
    if (← hasError) || close ≤ i || !isNameStartCharacter (subset.item i) then
      failAt "invalid entity declaration name" stop
    else
      let nameEnd := (← scanName subset i) - 1
      let name := subset.substring i nameEnd
      if !(← hasError) && (← config).namespaceMode && name.has ':' then
        setError "colon in entity name"
      let next ←
        if ← hasError then pure (nameEnd + 1)
        else skipRequiredSpaces subset (nameEnd + 1) "missing space after entity name"
      if ← hasError then
        return stop
      else if next ≤ subset.length ∧ isQuote (subset.item next) then
        parseInternalEntityDeclaration depth subset start i nameEnd next close name isParameter
          isProcessed
      else
        let result ← parseExternalEntityDeclaration subset next close name isParameter
        let isUnparsed :=
          !isParameter && ((← context).lookupExternalEntity name).any ExternalEntity.isUnparsed
        let text := subset.substring start (result - 1)
        whileOngoing (if isProcessed then emitDefaultWhen (.entityDecl isUnparsed) text
          else emitDefault text)
        return result

end Xpact
