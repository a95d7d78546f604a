import Xpact.Parser.Namespaces
import Xpact.Parser.AttributeNames
import Xpact.Parser.Doctype

/-!
# Elements and tags

Opening and closing elements, and the tags that do it.  When the handler wants no events, an element
name stays a slice of the input and its attributes are only checked.
-/

namespace Xpact

open Library

namespace Scene

/-- `can_use_element_name_slices`. -/
def canUseElementNameSlices (p : Scene) : Bool :=
  !p.config.namespaceMode && !p.handler.wantsStartElementEvents &&
    !p.handler.wantsEndElementEvents && !p.handler.wantsCharacterDataEvents &&
    !p.handler.wantsAutomaticCharacterDataDefault && !p.handler.wantsDefaultEvents &&
    !p.config.useForeignDtd &&
    (p.core.flags.doctypeName.isEmpty ||
      (p.handler.isNullEventHandler && !p.hasResolver &&
        p.core.entityStack.isEmpty && p.config.maxAttributeCount ≤ defaultMaxAttributeCount)) &&
    p.core.context.attributeDecl.entries.isEmpty && p.elements.usesSlice

/-- `can_defer_position_accounting`. -/
def canDeferPositionAccounting (p : Scene) : Bool :=
  !p.handler.requiresEagerPositionAccounting && !p.handler.wantsStartElementEvents &&
    !p.handler.wantsEndElementEvents && !p.handler.wantsCharacterDataEvents &&
    !p.handler.wantsAutomaticCharacterDataDefault && !p.handler.wantsDefaultEvents &&
    !p.handler.reportsSkippedInternalGeneralEntities

/-- `not has_error and not is_suspended`. -/
def isOngoing (p : Scene) : Bool := !p.core.hasError && !p.core.isSuspended

end Scene

/-! ## Namespace events -/

open Content in
def emitStartNamespaceDeclarations (declared : List String8) (scope : NamespaceScope) :
    Content Unit :=
  declared.forM fun nsPrefix ↦ do
    if ← Routine.isOngoing then
      match scope.lookup nsPrefix with
      | some uri => emitStructural (.startNamespaceDecl (optionalString nsPrefix) uri)
      | none => return

open Content in
def emitEndNamespaceDeclarations (declared : List String8) : Content Unit :=
  declared.reverse.forM fun nsPrefix ↦ do
    if ← Routine.isOngoing then
      emitStructural (.endNamespaceDecl (optionalString nsPrefix))

/-! ## Start of an element -/

/-- What is reported of a start tag, and the namespaces it opens. -/
structure ElementEvent where
  name : String8
  attributes : Attributes
  scope : NamespaceScope
  declared : List String8

open Routine in
/-- Apply the declared defaults and, in namespace mode, expand the names.  They are always resolved:
an unbound prefix is an error even when nothing is reported. -/
def prepareElement (name : String8) (attributes : Attributes) : Routine ElementEvent := do
  let attributes ← applyDefaultAttributes name attributes
  let s ← sight
  if s.core.hasError || !s.config.namespaceMode then
    return ⟨name, attributes, ∅, []⟩
  else
    let (scope, declared) ←
      namespaceScopeForElement attributes (s.core.namespaceContexts.headD ∅)
    if ← hasError then
      return ⟨name, attributes, scope, declared⟩
    else
      let expanded ← expandedElementName name scope
      if ← hasError then
        return ⟨expanded, attributes, scope, declared⟩
      else
        return ⟨expanded, ← expandedAttributes attributes scope, scope, declared⟩

open Content in
/-- May an element be opened?  Otherwise report why not. -/
def checkElementStart : Content Bool := do
  let p ← scene
  let depth := p.elements.stack.length
  if p.config.maxElementDepth ≤ depth then
    Routine.failAt "maximum element depth exceeded" false
  else if depth = 0 ∧ 0 < p.core.documentElementCount ∧ !p.core.parsingExternalEntity then
    Routine.failAt "multiple document elements" false
  else
    if depth = 0 ∧ p.core.documentElementCount = 0 then
      -- An external entity may hold several top-level elements; the first only is counted.
      act .countDocumentElement
    return true

open Content in
/-- Push `name` and emit its start event. -/
def openElement (name : String8) (attributes : Attributes) : Content Unit := do
  if ← checkElementStart then
    let event ← prepareElement name attributes
    unless ← Routine.hasError do
      act (.pushElement name)
      if (← scene).config.namespaceMode then
        act (.pushNamespace event.scope event.declared)
        emitStartNamespaceDeclarations event.declared event.scope
    let p ← scene
    if (← Routine.isOngoing) && p.handler.wantsStartElementEvents then
      emitStructural (.startElement event.name event.attributes)

open Content in
/-- Push a name that stays a range of `input`. -/
def openElementRange (input : String8) (nameStart nameEnd : Nat) : Content Unit := do
  if ← checkElementStart then
    act (.pushElementSlice ⟨input, nameStart, nameEnd + 1 - nameStart⟩)

/-! ## End of an element -/

open Content in
/-- May the innermost element be closed by an end tag with this name?  Otherwise report why not. -/
def checkElementEnd (name : String8) : Content Bool := do
  let p ← scene
  let depth := p.elements.stack.length
  if depth = 0 then
    Routine.failAt "unexpected end tag" false
  else if depth ≤ p.elements.floor then
    -- An entity may not close an element opened outside it.
    Program.command (.routine .noteCurrentEntityReferencePosition)
    Routine.failAt "asynchronous entity" false
  else if !p.elements.openElementMatches name then
    Routine.failAt "mismatched end tag" false
  else
    return true

open Content in
/-- Emit the end of the namespaces of the current element and leave their scope. -/
def closeNamespaces : Content Unit := do
  match (← scene).core.namespaceDeclarations with
  | declared :: _ =>
    emitEndNamespaceDeclarations declared
    act .popNamespaceDeclarations
  | [] => pure ()
  if 1 < (← scene).core.namespaceContexts.length then
    act .popNamespaceContext

open Content in
/-- Pop `name` and emit its end event. -/
def closeElement (name : String8) : Content Unit := do
  if ← checkElementEnd name then
    let p ← scene
    let wantsEndEvents := p.handler.wantsEndElementEvents
    let eventName ←
      if wantsEndEvents && p.config.namespaceMode then
        liftM (expandedElementName name (p.core.namespaceContexts.headD ∅))
      else
        pure name
    act .popElement
    unless ← Routine.hasError do
      if wantsEndEvents then
        emitStructural (.endElement eventName)
    if p.config.namespaceMode then
      closeNamespaces

open Content in
/-- Pop a name that is a range of `input`. -/
def closeElementRange (input : String8) (nameStart nameEnd : Nat) : Content Unit := do
  if ← checkElementEnd (inputRange input nameStart nameEnd) then
    act .popElement

/-! ## Start tags -/

section StartTag

open Routine

/-- Parse one attribute and add it. -/
def parseAttribute (bound : Nat) (input : String8) (start : Nat) (a : Attributes) :
    Routine (Nat × Attributes) := do
  let stop := input.length + 1
  if !isNameStartCharacter (input.item start) then
    failAt "invalid attribute name" (stop, a)
  else
    let nameEnd ← scanName input start
    let name := input.substring start (nameEnd - 1)
    let equals := skipSpaces input nameEnd
    let quote := skipSpaces input (equals + 1)
    let cfg ← config
    if cfg.namespaceMode && !cfg.isValidQualifiedName name then
      failAt "invalid namespace name" (stop, a)
    else if input.length < equals ∨ input.item equals ≠ '=' then
      failAt "missing attribute equals" (stop, a)
    else if input.length < quote ∨ !isQuote (input.item quote) then
      failAt "missing attribute quote" (stop, a)
    else
      let (close, value) ← parseAttributeValue bound input (quote + 1) (input.item quote)
      if ← hasError then
        return (stop, a)
      else if a.has name then
        failAt "duplicate attribute" (stop, a)
      else
        return (close + 1, a.put name value)

def attributeStep (bound : Nat) (input : String8) :
    Nat × Attributes → Routine (Nat × Attributes)
  | (i, a) => do
    if (← config).maxAttributeCount ≤ a.count then
      failAt "attribute count exceeds limit" (input.length + 1, a)
    else
      let (next, a) ← parseAttribute bound input i a
      if ← hasError then
        return (next, a)
      else
        return (← skipSpacesBetweenAttributes input next, a)

/-- The attributes of a start tag, with their strings. -/
def parseAttributes (bound : Nat) (input : String8) (start : Nat) : Routine (Nat × Attributes) :=
  Program.loop
    (fun s : Nat × Attributes ↦ return !(← isOngoing) || endsAttributes input s.1)
    (attributeStep bound input) (input.length + 2 - start) (start, .make)

/-- The end of a start tag at `i`: the index after it, and whether the element is empty. -/
def startTagEnd (input : String8) (i : Nat) : Routine (Nat × Bool) := do
  let stop := input.length + 1
  if !(← isOngoing) then
    return (stop, false)
  else if input.length < i then
    failAt "unterminated start tag" (stop, false)
  else if input.item i = '/' then
    if i + 1 ≤ input.length ∧ input.item (i + 1) = '>' then
      return (i + 2, true)
    else
      failAt "invalid empty element terminator" (stop, false)
  else
    return (i + 1, false)

/-- Finish the start tag whose attributes end at `i`: `opening` and `closing` handle the element. -/
def finishStartTag (input : String8) (start i : Nat) (opening closing : Content Unit) :
    Content Nat := do
  let (result, isEmpty) ← startTagEnd input i
  if ← isOngoing then
    emitDefaultWhen .startElement (input.substring start (result - 1))
    notePosition start
    opening
    if isEmpty && (← isOngoing) then
      notePosition result
      closing
  return result

/-- The checks that a name needs before its attributes are read into strings. -/
def checkStartTagName (bound : Nat) (name : String8) : Routine Unit := do
  let s ← sight
  if s.config.namespaceMode && !s.config.isValidQualifiedName name then
    setError "invalid namespace name"
  unlessError do
    if s.elementCount = 0 ∧ s.core.documentElementCount = 0 ∧
        !s.core.parsingExternalEntity then
      includeForeignDtdIfNeeded bound name

/-- The rest of a start tag, from its attributes on, with strings. -/
def parseStartTagStrings (bound : Nat) (input : String8) (start i : Nat) (name : String8) :
    Content Nat := do
  let (next, attributes) ← parseAttributes bound input i
  finishStartTag input start next (openElement name attributes) (closeElement name)

def parseStartTag (bound : Nat) (input : String8) (start : Nat) : Content Nat := do
  let stop := input.length + 1
  let nameStart := start + 1
  if input.length < nameStart then
    failAt "unterminated start tag" stop
  else if isIncompleteUtf8SequenceAt input nameStart then
    failAt "partial character" stop
  else if !isNameStartCharacter (input.item nameStart) then
    failAt "invalid start tag name" stop
  else
    let next ← scanName input nameStart
    let nameEnd := next - 1
    let name := input.substring nameStart nameEnd
    let p ← Content.scene
    if p.config.maxNameLength < next - nameStart then
      failAt "element name exceeds limit" stop
    else if p.canUseElementNameSlices then
      if ← hasError then
        return stop
      else
        let attributeStart := skipSpaces input next
        let i ← parseAttributesNoEvents input attributeStart
        if i = 0 then
          parseStartTagStrings bound input start attributeStart name
        else
          finishStartTag input start i (openElementRange input nameStart nameEnd)
            (closeElementRange input nameStart nameEnd)
    else
      checkStartTagName bound name
      if ← hasError then
        return stop
      else
        parseStartTagStrings bound input start (skipSpaces input next) name

/-! ## End tags -/

def parseEndTag (input : String8) (start : Nat) : Content Nat := do
  let stop := input.length + 1
  let nameStart := start + 2
  notePosition nameStart
  if input.length < nameStart ∨ !isNameStartCharacter (input.item nameStart) then
    failAt "invalid end tag name" stop
  else
    let next ← scanName input nameStart
    let nameEnd := next - 1
    let name := input.substring nameStart nameEnd
    let p ← Content.scene
    if p.config.maxNameLength < next - nameStart then
      failAt "end tag name exceeds limit" stop
    else
      if p.config.namespaceMode && !p.config.isValidQualifiedName name then
        setError "invalid namespace name"
      if ← hasError then
        return stop
      else
        let i := skipSpaces input next
        if i ≤ input.length ∧ input.item i = '>' then
          notePosition
            (if !p.elements.stack.isEmpty && p.elements.openElementMatches name then start
              else nameStart)
          emitDefaultWhen .endElement (input.substring start i)
          if !p.config.namespaceMode && !p.handler.wantsEndElementEvents then
            closeElementRange input nameStart nameEnd
          else
            closeElement name
          return i + 1
        else
          notePosition i
          failAt "unterminated end tag" stop

end StartTag

end Xpact
