import Xpact.Parser.Input

/-!
# Comments, processing instructions and external replacement texts

The markup that may stand outside the document element, the XML declaration, and the conversion of
what a resolver returns, which removes a text declaration.
-/

namespace Xpact

open Library Routine

/-! ## Comments -/

/-- What is wrong with the comment text from `i` up to the closing marker at `close`.  A hyphen
right before the marker counts as a double hyphen. -/
def commentErrorFrom (input : String8) (close : Nat) : Nat → Nat → Option String
  | 0, _ => none
  | n + 1, i =>
    if close ≤ i then none
    else if hasAt input i (str "--") then some "double hyphen in comment"
    else if !isXmlCharacterCode (input.code i) then some "invalid XML character"
    else commentErrorFrom input close n (i + 1)

def emitComment (text : String8) : Routine Unit := emit (.comment text)

def parseComment (input : String8) (start : Nat) : Routine Nat := do
  let close := findSequence input (str "-->") (start + 4)
  if close = 0 then
    failAt "unterminated comment" (input.length + 1)
  else if (← config).maxTokenLength < close - start then
    failAt "comment token exceeds limit" (input.length + 1)
  else
    match commentErrorFrom input close (close + 1) (start + 4) with
    | some message => failAt message (input.length + 1)
    | none => do
      emitDefaultWhen .comment (input.substring start (close + 2))
      noteTokenPosition start (close + 3 - start)
      emitComment (input.substring (start + 4) (close - 1))
      return close + 3

/-! ## XML and text declarations -/

/-- What has been read of an XML declaration. -/
structure XmlDeclarationData where
  index : Nat := 1
  names : List String8 := []
  version : String8 := []
  encoding : String8 := []
  standalone : Int := -1
  previousOrder : Nat := 0
  needsSpace : Bool := false

/-- Take over the value of one pseudo attribute: the new data with the order of the attribute, or
`none` when it may not stand here. -/
def XmlDeclarationData.accept (d : XmlDeclarationData) (external : Bool) (name value : String8) :
    Option XmlDeclarationData :=
  let next (d : XmlDeclarationData) (order : Nat) : XmlDeclarationData :=
    { d with names := d.names ++ [name], previousOrder := order, needsSpace := true }
  if d.names.contains name then
    none
  else if name = str "version" then
    if d.previousOrder ≠ 0 ∨ !isValidVersionNumber value then none
    else some (next { d with version := value } 1)
  else if name = str "encoding" then
    if (!external ∧ d.previousOrder = 0) ∨ 2 ≤ d.previousOrder ∨ !isValidEncodingName value then none
    else some (next { d with encoding := value } 2)
  else if name = str "standalone" then
    if external ∨ d.previousOrder = 0 ∨ 3 ≤ d.previousOrder then none
    else if value = str "yes" then some (next { d with standalone := 1 } 3)
    else if value = str "no" then some (next { d with standalone := 0 } 3)
    else none
  else
    none

/-- Read one pseudo attribute of the declaration; `external` is `parsing_external_entity`. -/
def parseXmlDeclarationAttribute (external : Bool) (data : String8) (d : XmlDeclarationData) :
    Routine XmlDeclarationData := do
  let fail := failAt "invalid xml declaration" { d with index := data.length + 1 }
  if d.needsSpace && !isXmlSpace (data.item d.index) then
    fail
  else
    let i := skipSpaces data d.index
    if data.length < i then
      return { d with index := i }
    else if !isNameStartCharacter (data.item i) then
      fail
    else
      let nameEnd ← scanName data i
      let equals := skipSpaces data nameEnd
      let quote := skipSpaces data (equals + 1)
      if data.length < equals ∨ data.item equals ≠ '=' then
        fail
      else if data.length < quote ∨ !isQuote (data.item quote) then
        fail
      else
        let close := findCharacter data (data.item quote) (quote + 1)
        if close = 0 then
          fail
        else
          match d.accept external (data.substring i (nameEnd - 1))
              (data.substring (quote + 1) (close - 1)) with
          | none => fail
          | some accepted => return { accepted with index := close + 1 }

def parseXmlDeclarationData (external : Bool) (data : String8) : Routine Unit := do
  let d ← Program.loop
    (fun d : XmlDeclarationData ↦ return data.length < d.index || (← hasError))
    (parseXmlDeclarationAttribute external data) (data.length + 2) {}
  unless ← hasError do
    if (external && d.encoding.isEmpty) || (!external && d.version.isEmpty) then
      setError "invalid xml declaration"
    else
      Program.command (.setXmlStandalone d.standalone)
      emit (.xmlDeclaration d.version d.encoding d.standalone)

/-! ## Processing instructions -/

/-- `parse_processing_instruction` while `parsing_external_entity` is `external`. -/
def parseProcessingInstructionAs (external : Bool) (input : String8) (start : Nat) :
    Routine Nat := do
  let stop := input.length + 1
  let close := findSequence input (str "?>") (start + 2)
  let i := start + 2
  if close = 0 then
    failAt "unterminated processing instruction" stop
  else if (← config).maxTokenLength < close - start then
    failAt "processing instruction exceeds limit" stop
  else if input.length < i ∨ !isNameStartCharacter (input.item i) then
    failAt "invalid processing instruction target" stop
  else
    let nameEnd ← scanName input i
    let target := input.substring i (nameEnd - 1)
    let isXml := sameNameCaseInsensitive target (str "xml")
    if ← hasError then
      return stop
    else if isXml && target != str "xml" then
      failAt "reserved processing instruction target" stop
    else if target == str "xml" && start != 1 then
      failAt "misplaced xml declaration" stop
    else if nameEnd < close ∧ !isXmlSpace (input.item nameEnd) then
      failAt "missing space after processing instruction target" stop
    else if (← config).namespaceMode && target.has ':' then
      failAt "colon in processing instruction target" stop
    else
      let dataStart := if nameEnd < close then skipSpaces input nameEnd else nameEnd
      let data := input.substring dataStart (close - 1)
      if isXml then
        parseXmlDeclarationData external data
        whileOngoing (emitDefaultWhen .xmlDeclaration (input.substring start (close + 1)))
      else
        emitDefaultWhen .processingInstruction (input.substring start (close + 1))
        noteTokenPosition start (close + 2 - start)
        emit (.processingInstruction target data)
      return close + 2

def parseProcessingInstruction (input : String8) (start : Nat) : Routine Nat := do
  parseProcessingInstructionAs (← core).parsingExternalEntity input start

/-! ## External replacement texts -/

/-- Decode one complete external resource and remove its text declaration: it is read as an external
entity whose encoding is not known, whatever the parser is reading. -/
def normalizedExternalReplacement (raw : String8) : Routine String8 := do
  let standalone := (← core).declarations.xmlStandalone
  if (← config).maxInputBytes < raw.length then
    setError "external entity exceeds input limit"
  unlessError do
    if startsWithUtf16Mark raw then
      if raw.length % 2 ≠ 0 then
        setError "partial character"
      else if 4 ≤ raw.length then
        let unit := utf16UnitAt raw (raw.length - 1) (raw.code 1 == 254)
        if 0xD800 ≤ unit ∧ unit ≤ 0xDBFF then
          setError "partial character"
  let text ← if ← hasError then pure [] else normalizedInput false raw false
  let text ←
    if (← hasError) || text.isEmpty then
      pure text
    else if ← startsXmlDeclarationAt text 1 then do
      let start ← parseProcessingInstructionAs true text 1
      if ← hasError then pure text else pure (String8.substring text start text.length)
    else
      pure text
  Program.command (.setXmlStandalone standalone)
  return text

/-- The replacement of an external entity: the control text of a child parse as it is, or the bytes
of a loaded resource in normalized form. -/
def resolvedExternalReplacement (name publicId systemId : String8) (isParameter : Bool)
    (base : Option String8) (isParameterLiteral : Bool) :
    Routine (Option (String8 × Answer)) := do
  if !(← hasResolver) then
    return none
  else
    Program.command
      (.resolve ⟨name, publicId, systemId, isParameter, base, isParameterLiteral⟩)
    match (← core).lastAnswer with
    | some answer =>
      match answer.text with
      | some raw =>
        if answer.isExternalChildParse then
          return some (raw, answer)
        else
          return some (← normalizedExternalReplacement raw, answer)
      | none => return none
    | none => return none

/-- `resolved_external_replacement` of a declared entity. -/
def resolvedEntityReplacement (e : ExternalEntity) (isParameterLiteral : Bool) :
    Routine (Option (String8 × Answer)) :=
  resolvedExternalReplacement e.name e.publicId e.systemId e.isParameter e.declarationBase
    isParameterLiteral

/-- Ask the handler once whether a document that is not standalone is acceptable. -/
def checkNotStandalone : Routine Unit := do
  let s ← sight
  if !s.core.hasError && s.core.declarations.xmlStandalone != 1 &&
      !s.core.flags.notStandaloneChecked then
    assign fun f ↦ { f with notStandaloneChecked := true }
    Program.command (.emit .notStandalone rfl)
    if s.onNotStandalone then checkHandlerStop else setError "not standalone"

def parameterEntityLoadingAllowed : Routine Bool := do
  let s ← sight
  return s.config.externalEntityPolicy.allowsParameterEntities &&
    !(s.config.parameterEntitiesUnlessStandalone && s.core.declarations.xmlStandalone == 1)

/-- External parameter entities are read. -/
def Parser.readsParameterEntities (p : Parser) : Bool :=
  p.config.externalEntityPolicy.allowsParameterEntities &&
    !(p.config.parameterEntitiesUnlessStandalone && p.core.declarations.xmlStandalone == 1)

end Xpact
