import Xpact.Parser.Text
import Xpact.Parser.Input

/-!
# Entry points

What a caller of the parser can do with it: configure it, hand it the declarations of a parent, and
parse.  The routines are bounded in their depth, so a parse has a result only when `bound` suffices.
-/

namespace Xpact

open Library Routine

namespace Parser

/-! ## Creation and reset -/

def clearCachedDoctype (p : Parser) : Parser := { p with cachedDoctype := none }

def reset (p : Parser) : Parser :=
  { p.clearCachedDoctype with
    core := { p.core with
      hasError := false
      isSuspended := false
      declarations := p.core.declarations.reset
      entityStack := []
      expandedEntityBytes := 0
      documentElementCount := 0
      namespaceContexts := [baseNamespaceScope]
      namespaceDeclarations := []
      flags := { currentExternalEntityBase := p.config.externalEntityBase } }
    elements := .empty
    view := { events := p.view.events } }

/-- A parser as it is created. -/
def make (config : Config) (handler : Handler) : Parser :=
  reset
    { config
      handler
      core :=
        { hasError := false
          isSuspended := false
          declarations := .initial
          entityStack := []
          expandedEntityBytes := 0
          documentElementCount := 0
          namespaceContexts := []
          namespaceDeclarations := []
          parsingExternalEntity := false
          inputIsUtf8 := false
          lastAnswer := none
          flags := {} }
      elements := .empty
      view := {}
      cachedDoctype := none
      externalEntityResolver := none
      requests := [] }

def setInputIsUtf8 (p : Parser) (enabled : Bool) : Parser :=
  { p with core := { p.core with inputIsUtf8 := enabled } }

def setExternalEntityResolver (p : Parser) (resolver : Option Resolver) : Parser :=
  { p with externalEntityResolver := resolver }

/-! ## Declarations of other parsers -/

def importEntityContext (p parent : Parser) : Parser :=
  { p.clearCachedDoctype with
    config := { p.config with
      usesLegacyNameCharacterRanges := parent.config.usesLegacyNameCharacterRanges }
    core := { p.core with
      declarations := p.core.declarations.importEntityContext parent.core.declarations
        parent.core.activeEntityNames } }

/-- Only the declarations of the detached parser are ever read. -/
def entityContextSnapshot (p : Parser) : Declarations := p.core.declarations.entityContextSnapshot

end Parser

/-! ## Documents -/

/-- One token of a document. -/
def documentStep (bound : Nat) (input : String8) (i : Nat) : Content Nat := do
  notePosition i
  let next ←
    if input.item i = '<' then parseMarkup bound input i
    else parseCharacterData (parseEntityContent bound) input i
  unlessError (notePosition next)
  return next

/-- One token of a document whose end has not arrived. -/
def documentPrefixStep (bound : Nat) (input : String8) (i : Nat) : Content Nat := do
  notePosition i
  let next ←
    if input.item i = '<' then
      if isIncompleteMarkupPrefix input i then do
        if hasAt input i (str "<!DOCTYPE") then
          processIncompleteDoctypePrefix bound input i
        pure (input.length + 1)
      else
        parseMarkup bound input i
    else
      parseCharacterDataPrefix (parseEntityContent bound) input i
  unlessError (notePosition next)
  return next

def tokensFinished (input : String8) (i : Nat) : Routine Bool := do
  let ongoing ← Routine.isOngoing
  return input.length < i || !ongoing

/-- The tokens from `start` on. -/
def tokens (step : String8 → Nat → Content Nat) (input : String8) (start : Nat) : Content Nat :=
  Program.loop (fun i ↦ liftM (tokensFinished input i)) (step input) (input.length + 2 - start)
    start

/-- Read the input into the form that is parsed, and keep it for positions. -/
def readInput (input : String8) (canDeferPositions : Bool) : Content String8 := do
  let text ← normalizedInput (← core).inputIsUtf8 input canDeferPositions
  Content.act (.setPositionInput text)
  Content.act (.setLazyPositionAccounting canDeferPositions)
  notePosition 1
  return text

/-- Fail at the end of `text` with `message` when `condition` holds of the parser. -/
def checkAtEnd (text : String8) (condition : Scene → Bool) (message : String) : Content Unit := do
  let p ← Content.scene
  if p.isOngoing && condition p then
    notePosition (text.length + 1)
    setError message

/-- `parse` after its reset. -/
def document (bound : Nat) (input : String8) : Content Bool := do
  let text ← readInput input (← Content.scene).canDeferPositionAccounting
  let _ ← tokens (documentStep bound) text 1
  checkAtEnd text (fun p ↦ !p.elements.stack.isEmpty) "unclosed element"
  checkAtEnd text (fun p ↦ p.core.documentElementCount == 0) "missing document element"
  whileOngoing (notePosition (text.length + 1))
  Content.act .forceCurrentPosition
  Routine.isOngoing

/-- `parse_prefix` after its reset. -/
def documentPrefix (bound : Nat) (input : String8) : Content Bool := do
  let text ← readInput input false
  let _ ← tokens (documentPrefixStep bound) text 1
  Routine.isOngoing

/-! ## External entities -/

/-- `parse_external_entity` after its reset. -/
def externalEntity (bound : Nat) (input : String8) : Content Bool := do
  let text ← readInput input false
  unless ← Routine.hasError do
    if looksLikeExternalSubset text then
      processDtdSubset bound text true
    else
      let _ ← tokens (documentStep bound) text 1
  checkAtEnd text (fun p ↦ !p.elements.stack.isEmpty) "asynchronous entity"
  whileOngoing (notePosition (text.length + 1))
  Routine.isOngoing

/-- `parse_external_subset_with_context` after its reset; without a context it is
`parse_external_subset`. -/
def externalSubset (bound : Nat) (input : String8) (entityContext : Option String8) :
    Content Bool := do
  let text ← readInput input false
  let cfg ← config
  let active := entityContext.filter fun name ↦ !name.isEmpty && cfg.isValidName name
  match active with
  | some name => pushEntity name
  | none => pure ()
  unlessError (processDtdSubset bound text true)
  if active.isSome then
    popEntity
  whileOngoing (notePosition (text.length + 1))
  Routine.isOngoing

/-- `parse_external_subset_prefix` after its reset. -/
def externalSubsetPrefix (bound : Nat) (input : String8) : Content Bool := do
  let text ← readInput input false
  processInternalSubsetPrefix bound text true
  whileOngoing (notePosition (text.length + 1))
  Routine.isOngoing

/-! ## External parameter entities in literals -/

/-- First significant index after an optional text declaration. -/
def externalParameterLiteralContentStart (input : String8) : Routine Nat := do
  let i := skipSpaces input 1
  if ← startsXmlDeclarationAt input i then
    let close := findSequence input (str "?>") (i + 2)
    return if 0 < close then skipSpaces input (close + 2) else input.length + 1
  else
    return i

/-- Where the replacement text begins, after a text declaration. -/
def externalParameterLiteralTextStart (input : String8) : Routine Nat := do
  if ← startsXmlDeclarationAt input 1 then
    let close := findSequence input (str "?>") 3
    return if 0 < close then close + 2 else input.length + 1
  else
    return 1

/-- How `parse_external_parameter_literal_with_context` goes on: with the replacement text, or with a
check of the text, whose replacement text begins at an index. -/
inductive ParameterLiteral where
  | replacement (text : String8)
  | checked (start : Nat)

/-- The text of an external parameter entity that is included in an entity literal: its parameter
references are expanded, and without any it is to be checked. -/
def externalParameterLiteral (bound : Nat) (input : String8) : Routine ParameterLiteral := do
  if ← hasError then
    return .replacement []
  else
    let i ← externalParameterLiteralContentStart input
    if i ≤ input.length ∧ isQuote (input.item i) then
      notePosition i
      failAt "unterminated literal" (.replacement [])
    else if i ≤ input.length ∧ input.item i = '$' then
      notePosition i
      failAt "invalid token" (.replacement [])
    else
      let start ← externalParameterLiteralTextStart input
      if input.indexOf '%' start = 0 then
        return .checked start
      else
        let (_, text) ← Program.loop (entityValueFinished input)
          (appendParameterTextStep (appendParameterEntityLiteral bound) input)
          (input.length + 2 - start) (start, [])
        return .replacement text

/-- The check of a text without parameter references, as DTD text or as content. -/
def checkParameterLiteral (bound : Nat) (input : String8) : Content Unit := do
  if looksLikeExternalSubset input then
    processDtdSubset bound input true
  else
    let _ ← tokens (documentStep bound) input 1

/-! ## Bodies -/

/-- One token after a cached document type declaration. -/
def bodyStep (bound : Nat) (isFinal : Bool) (input : String8) (i : Nat) : Content Nat := do
  notePosition i
  let next ←
    if input.item i = '<' then
      if !isFinal && isIncompleteMarkupPrefix input i then
        pure (input.length + 1)
      else
        parseMarkup bound input i
    else if isFinal then
      parseCharacterData (parseEntityContent bound) input i
    else
      parseCharacterDataPrefix (parseEntityContent bound) input i
  unlessError (notePosition next)
  return next

/-- The body of a document after the cached document type declaration `textBefore`. -/
def documentBody (bound : Nat) (isFinal : Bool) (textBefore body : String8) : Content Bool := do
  let body ← normalizedInput (← core).inputIsUtf8 body false
  let text := textBefore ++ body
  Content.act (.setPositionInput text)
  let _ ← tokens (bodyStep bound isFinal) text (textBefore.length + 1)
  let p ← Content.scene
  if isFinal && p.isOngoing then
    if !p.elements.stack.isEmpty then
      setError "unclosed element"
    else if p.core.documentElementCount = 0 then
      setError "missing document element"
  whileOngoing (notePosition (text.length + 1))
  Content.act .forceCurrentPosition
  Routine.isOngoing

/-! ## Parsing -/

/-- The entry points that read a text after a reset. -/
inductive Entry where
  | document
  | documentPrefix
  | externalEntity
  | externalEntityPrefix
  | externalSubset (entityContext : Option String8)
  | externalSubsetPrefix
  deriving DecidableEq

namespace Entry

def isExternal : Entry → Bool
  | .document | .documentPrefix => false
  | _ => true

def program (bound : Nat) (input : String8) : Entry → Content Bool
  | .document => Xpact.document bound input
  | .documentPrefix | .externalEntityPrefix => Xpact.documentPrefix bound input
  | .externalEntity => Xpact.externalEntity bound input
  | .externalSubset entityContext => Xpact.externalSubset bound input entityContext
  | .externalSubsetPrefix => Xpact.externalSubsetPrefix bound input

end Entry

namespace Parser

/-- The events of a parse are those that the handler receives during the call, and the answers those
that the resolver gives during it. -/
def listen (p : Parser) : Parser :=
  { p with core := { p.core with lastAnswer := none }, view := { p.view with events := [] } }

/-- The state in which an entry point begins to read. -/
def start (entry : Entry) (p : Parser) : Parser :=
  let p := p.listen.reset
  { p with core := { p.core with
    parsingExternalEntity := entry.isExternal || p.core.parsingExternalEntity } }

/-- Leave the external entity that an entry point has read. -/
def finish (entry : Entry) (p : Parser) : Parser :=
  { p with core := { p.core with
    parsingExternalEntity := !entry.isExternal && p.core.parsingExternalEntity } }

/-- Call an entry point. -/
def call (entry : Entry) (bound : Nat) (input : String8) (p : Parser) : Option (Bool × Parser) :=
  (entry.program bound input).run machine (p.start entry) |>.map fun (ok, q) ↦ (ok, q.finish entry)

def parse (bound : Nat) (input : String8) (p : Parser) : Option (Bool × Parser) :=
  p.call .document bound input

def parsePrefix (bound : Nat) (input : String8) (p : Parser) : Option (Bool × Parser) :=
  p.call .documentPrefix bound input

def parseExternalEntity (bound : Nat) (input : String8) (p : Parser) : Option (Bool × Parser) :=
  p.call .externalEntity bound input

def parseExternalEntityPrefix (bound : Nat) (input : String8) (p : Parser) :
    Option (Bool × Parser) :=
  p.call .externalEntityPrefix bound input

def parseExternalSubset (bound : Nat) (input : String8) (p : Parser) : Option (Bool × Parser) :=
  p.call (.externalSubset none) bound input

def parseExternalSubsetWithContext (bound : Nat) (input : String8) (entityContext : Option String8)
    (p : Parser) : Option (Bool × Parser) :=
  p.call (.externalSubset entityContext) bound input

def parseExternalSubsetPrefix (bound : Nat) (input : String8) (p : Parser) :
    Option (Bool × Parser) :=
  p.call .externalSubsetPrefix bound input

/-! ## External parameter entities in literals -/

/-- The entity that an external entity is read for, when the context names one. -/
def contextEntity (cfg : Config) (entityContext : Option String8) : Option String8 :=
  entityContext.filter fun name ↦ !name.isEmpty && cfg.isValidName name

/-- Push the entity that is read, when there is one. -/
def enterContext (p : Parser) : Option String8 → Parser
  | some name => p.step (.routine (.pushEntity name))
  | none => p

def leaveContext (p : Parser) : Option String8 → Parser
  | some _ => p.step (.routine .popEntity)
  | none => p

/-- `handler := l_silent_handler`, which receives the events of the check. -/
def enterCheck (p : Parser) : Parser :=
  { p with
    handler := p.handler.literalCheck p.view.events
    view := { p.view with events := [] } }

/-- `handler := l_handler`, which has received what the silent handler has passed on. -/
def leaveCheck (p q : Parser) : Parser :=
  { q with
    handler := p.handler
    view := { q.view with
      events := p.view.events ++ q.view.events.filter Event.isXmlDeclaration } }

/-- The replacement text of the entity, and the parser behind the check of it. -/
def replacementText (bound : Nat) (input : String8) (p : Parser) :
    ParameterLiteral → Option (String8 × Parser)
  | .replacement text => some (text, p)
  | .checked start =>
    (checkParameterLiteral bound input).run machine p.enterCheck |>.map fun (_, q) ↦
      (if !q.core.hasError && start ≤ input.length then input.substring start input.length else [],
        p.leaveCheck q)

/-- The end of the call: every element has to be closed. -/
def endParameterLiteral (input : String8) (p : Parser) : Parser :=
  let stop := p.step (.routine (.notePosition (input.length + 1)))
  if p.scene.isOngoing then
    if p.elements.stack.isEmpty then stop else (stop.setError "asynchronous entity")
  else
    p

/-- `parse_external_parameter_literal_with_context`, with `last_parameter_literal_text`. -/
def parseExternalParameterLiteralWithContext (bound : Nat) (input : String8)
    (entityContext : Option String8) (p : Parser) : Option (Bool × String8 × Parser) := do
  let (text, p) ← (readInput input false).run machine (p.start .externalEntity)
  let name := contextEntity p.config entityContext
  let (literal, p) ← (externalParameterLiteral bound text).run routineMachine (p.enterContext name)
  let (replacement, p) ← p.replacementText bound text literal
  let p := (p.leaveContext name).endParameterLiteral text
  return (p.scene.isOngoing, replacement, p.finish .externalEntity)

/-! ## The completed document type declaration -/

/-- Restore the state after the document type declaration; the tables are as they were left. -/
def resetCachedDoctypeBody (p : Parser) (c : CachedDoctype) : Parser :=
  { p with
    core := { p.core with
      hasError := false
      isSuspended := false
      declarations :=
        { p.core.declarations with
          dtdHasParameterEntityReferences := c.hasParameterReferences
          dtdDeclarationsDisabled := c.declarationsDisabled
          xmlStandalone := c.standalone }
      entityStack := []
      expandedEntityBytes := c.entityBytes
      documentElementCount := 0
      namespaceContexts := [baseNamespaceScope]
      namespaceDeclarations := []
      flags :=
        { currentExternalEntityBase := p.config.externalEntityBase
          hasDoctype := true
          doctypeName := c.name
          documentHasExternalSubset := c.hasExternalSubset
          foreignDtdLoaded := c.foreignLoaded
          notStandaloneChecked := c.notStandaloneChecked } }
    elements := .empty
    view :=
      { positionInput := p.view.positionInput
        currentPositionIndex := c.textBefore.length + 1
        currentLineNumber := c.line
        currentColumnNumber := c.column
        currentByteIndex := c.textBefore.length
        events := p.view.events } }

/-- What is kept of the parser right after the document type declaration `text`. -/
def completedDoctype (p : Parser) (text : String8) : CachedDoctype where
  textBefore := text
  name := p.core.flags.doctypeName
  line := p.view.currentLineNumber
  column := p.view.currentColumnNumber
  entityBytes := p.core.expandedEntityBytes
  hasExternalSubset := p.core.flags.documentHasExternalSubset
  hasParameterReferences := p.core.declarations.dtdHasParameterEntityReferences
  declarationsDisabled := p.core.declarations.dtdDeclarationsDisabled
  standalone := p.core.declarations.xmlStandalone
  foreignLoaded := p.core.flags.foreignDtdLoaded
  notStandaloneChecked := p.core.flags.notStandaloneChecked

def cacheDoctype (p : Parser) (text : String8) : Parser :=
  let p := { p with view := p.view.forceCurrentPosition }
  { p with cachedDoctype := some (p.completedDoctype text) }

/-- The index of the end of a document type declaration that can be cached, or 0. -/
def cacheableDoctypeEnd (input : String8) : Nat :=
  if hasAt input 1 (str "<!DOCTYPE") then
    let close := findDoctypeEnd input 1
    let carriageReturn := findCharacter input '\r' 1
    if 0 < close ∧ (carriageReturn = 0 ∨ close < carriageReturn) then close else 0
  else
    0

/-- Forget a cached declaration that the input does not begin with. -/
def dropStaleDoctype (p : Parser) (input : String8) : Parser :=
  match p.cachedDoctype with
  | some c => if c.textBefore.isPrefixOf input then p else p.clearCachedDoctype
  | none => p

/-- Parse a completed document type declaration of a document that is not final, and cache it.  The
flag says whether a declaration was parsed. -/
def prepareCachedDoctype (bound : Nat) (input : String8) (isFinal : Bool) (p : Parser) :
    Option (Bool × Parser) :=
  let close := cacheableDoctypeEnd input
  if p.cachedDoctype.isNone ∧ !isFinal ∧ 0 < close then
    let text := input.substring 1 close
    (documentPrefix bound text).run machine p.reset |>.map fun (ok, p) ↦
      (true,
        if ok && p.core.flags.hasDoctype && p.core.documentElementCount == 0 then
          p.cacheDoctype text
        else p)
  else
    some (false, p)

/-- `parse_with_cached_doctype` within the input limit. -/
def cachedDocument (bound : Nat) (input : String8) (isFinal : Bool) (p : Parser) :
    Option (Bool × Parser) := do
  let (prepared, p) ← prepareCachedDoctype bound input isFinal (p.dropStaleDoctype input)
  match p.cachedDoctype with
  | some c =>
    let (result, p) ←
      (documentBody bound isFinal c.textBefore (input.drop c.textBefore.length)).run machine
        (p.resetCachedDoctypeBody c)
    return (result,
      if p.core.hasError || (isFinal && !p.core.isSuspended) then p.clearCachedDoctype else p)
  | none =>
    if prepared && !p.scene.isOngoing then
      return (false, p)
    else
      (if isFinal then document bound input else documentPrefix bound input).run machine p.reset

def parseWithCachedDoctype (bound : Nat) (input : String8) (isFinal : Bool) (p : Parser) :
    Option (Bool × Parser) :=
  if p.config.maxInputBytes < input.length then
    some (false, p.listen.reset.setError "input exceeds limit")
  else
    cachedDocument bound input isFinal p.listen

end Parser

end Xpact
