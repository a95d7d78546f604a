import Xpact.Parser.Elements

/-!
# Character data and content

Text with its references, and the content loop.  The replacement text of an entity is content again;
the routine for it is a parameter of the routines for references and text, and the recursion is
closed by `parseEntityContent` with a bound on its depth.
-/

namespace Xpact

open Library Routine

/-! ## CDATA sections -/

def parseCdata (input : String8) (start : Nat) : Routine Nat := do
  let stop := input.length + 1
  let s ← sight
  let close := findSequence input (str "]]>") (start + 9)
  if s.elementCount = 0 ∧ !s.core.parsingExternalEntity then
    failAt "CDATA outside document element" stop
  else if close = 0 then
    failAt "unterminated CDATA section" stop
  else if s.config.maxTokenLength < close - (start + 9) then
    failAt "CDATA token exceeds limit" stop
  else
    emitDefaultWhen .startCdata (str "<![CDATA[")
    notePosition start
    emit .startCdataSection
    if !(← core).isSuspended && start + 9 < close then
      let text := input.substring (start + 9) (close - 1)
      validateXmlText text
      unlessError do
        noteTokenPosition (start + 9) text.length
        emitText text
        whileOngoing (emitDefaultWhen .automaticCharacterData text)
    whileOngoing do
      emitDefaultWhen .endCdata (str "]]>")
      notePosition (close + 3)
      emit .endCdataSection
    return if ← hasError then stop else close + 3

/-! ## Text without events -/

/-- The state of `parse_character_data_no_events`; index 0 stands for a reference. -/
structure PlainText where
  index : Nat
  allSpace : Bool := true

def failTextAt (input : String8) (message : String) (t : PlainText) : Routine PlainText := do
  notePosition t.index
  failAt message { t with index := input.length + 1 }

/-- Step over one character; outside the document element it must be white space. -/
def plainTextCharacter (input : String8) (outside isSpace : Bool) (t : PlainText) :
    Routine PlainText := do
  if outside && t.allSpace then
    if isSpace then return { t with index := t.index + 1 }
    else failTextAt input "character data outside document element" { t with allSpace := false }
  else
    return { t with index := t.index + 1 }

def plainTextStep (input : String8) (outside : Bool) (t : PlainText) : Routine PlainText := do
  let c := input.item t.index
  let code := c.toNat
  if c = '&' then
    return { t with index := 0 }
  else if c = ']' ∧ hasAt input t.index (str "]]>") then
    failTextAt input "CDATA close marker in character data" t
  else if (32 ≤ code ∧ code < 128) ∨ code = 9 ∨ code = 10 then
    plainTextCharacter input outside (isXmlSpaceAscii c) t
  else if code < 128 then
    failTextAt input "invalid XML character" t
  else if isIncompleteUtf8SequenceAt input t.index then
    failTextAt input "partial character" t
  else if !isXmlCharacterCode code then
    failTextAt input "invalid XML character" t
  else
    plainTextCharacter input outside (isXmlSpace c) t

def plainTextFinished (input : String8) (t : PlainText) : Routine Bool := do
  let ongoing ← isOngoing
  return t.index == 0 || input.length < t.index || !ongoing || input.item t.index == '<'

/-- Index after the text, or 0 when it holds a reference. -/
def parseCharacterDataNoEvents (input : String8) (start : Nat) : Routine Nat := do
  let s ← sight
  let outside : Bool := s.elementCount == 0 && !s.core.parsingExternalEntity
  let t ← Program.loop (plainTextFinished input) (plainTextStep input outside)
    (input.length + 2 - start) { index := start }
  if t.index = 0 then return 0
  else if ← isOngoing then return t.index
  else return input.length + 1

/-! ## References in content -/

section Content

variable (parseEntityContent : String8 → Content Unit)

open Content in
/-- Parse the text of an entity with the floor at the current depth, and check that it is balanced
there.  `entering` and `leaving` surround the parse. -/
def parseBalancedContent (text : String8) (entering leaving : Content Unit) : Content Bool := do
  let depth := (← scene).elements.stack.length
  let floor := (← scene).elements.floor
  act .raiseFloor
  entering
  parseEntityContent text
  leaving
  act (.restoreFloor floor)
  let p ← scene
  return p.core.hasError || p.elements.stack.length == depth

open Content in
def includeExternalEntityInContent (e : ExternalEntity) : Content Unit := do
  let p ← scene
  let base := p.core.flags.currentExternalEntityBase
  if e.isUnparsed then
    setError "unparsed entity reference"
  else if !p.config.externalEntityPolicy.allowsGeneralEntities then
    if p.config.skipUnreadExternalEntities then
      emit (.skippedEntity e.name false)
    else
      setError "external entity not loaded"
  else if !p.hasResolver then
    setError "external entity resolver missing"
  else
    pushEntity e.name
    match ← resolvedEntityReplacement e false with
    | some (text, answer) =>
      noteEntityExpansion text.length
      unless ← hasError do
        if answer.resource.isSome then
          assign fun f ↦ { f with currentExternalEntityBase := answer.resource }
        let balanced ← parseBalancedContent parseEntityContent text (pure ()) (pure ())
        unless balanced do
          setError "asynchronous entity"
    | none => setError "external entity not resolved"
    popEntity
  assign fun f ↦ { f with currentExternalEntityBase := base }

open Content in
def includeGeneralEntityInContent (written : String8) : Content Unit := do
  let name ← resolvedGeneralEntityName written
  let p ← scene
  let c := p.core.context
  if p.core.hasError then
    return
  else if p.core.isEntityActive name then
    setError "recursive entity reference"
  else if maxEntityDepth ≤ p.core.entityStack.length then
    setError "entity expansion depth exceeded"
  else
    match c.entityValue name, c.lookupExternalEntity name with
    | some value, _ =>
      noteEntityExpansion value.length
      unless ← hasError do
        let balanced ← parseBalancedContent parseEntityContent value
          (do pushEntity name; act .enterInternalEntity)
          (do act .leaveInternalEntity; popEntity)
        unless balanced do
          Program.command (.routine .noteCurrentEntityReferencePosition)
          setError "asynchronous entity"
    | none, some e => includeExternalEntityInContent parseEntityContent e
    | none, none =>
      if mayBeDeclaredUnread p.core then
        -- A non-validating parser may skip externally declared general entities.
        if p.handler.reportsSkippedInternalGeneralEntities then
          emit (.skippedEntity written false)
      else
        setError "undefined entity"

open Content in
/-- Expand the reference at `start` after the collected `text`: the index after it, and the text
collected then.  Text before an entity is delivered first. -/
def appendReferenceInContent (input : String8) (start : Nat) (text : String8) :
    Content (Nat × String8) := do
  let stop := input.length + 1
  let close := findCharacter input ';' (start + 1)
  let name := input.substring (start + 1) (close - 1)
  let p ← scene
  if close = 0 then
    failAt "unterminated reference" (stop, text)
  else if close ≤ start + 1 then
    failAt "empty reference" (stop, text)
  else if input.item (start + 1) = '#' then
    let more ← appendCharacterReference (input.substring (start + 2) (close - 1))
    return (close + 1, text ++ more)
  else if !p.config.isValidName name then
    failAt "invalid entity name" (stop, text)
  else if isPredefinedEntity name then
    let more ← appendPredefinedEntity name
    return (close + 1, text ++ more)
  else
    emitText text
    if p.handler.expandsInternalGeneralEntityReferences then
      act (.pushEntityReferencePosition start (close - start + 1))
      includeGeneralEntityInContent parseEntityContent name
      act .popEntityReferencePosition
      return (if ← hasError then stop else close + 1, [])
    else
      if p.handler.reportsSkippedInternalGeneralEntities then
        emit (.skippedEntity name false)
      else
        emitDefault (input.substring start close)
      return (close + 1, [])

/-! ## Text -/

/-- The state of `parse_character_data`: the text when it is collected, the range of the default
text, whether only white space was seen, and a position to note before leaving. -/
structure TextScan where
  index : Nat
  text : Option String8
  defaultStart : Nat
  defaultEnd : Nat
  allSpace : Bool := true
  pendingPosition : Nat := 0
  isDone : Bool := false

/-- Note the position of the character at hand, which leaves none pending. -/
def TextScan.note (t : TextScan) : Routine TextScan := do
  notePosition t.index
  return { t with pendingPosition := 0 }

open Content in
/-- Expand the reference at hand.  A handler that wants the literal default text receives what
stands before an entity reference first. -/
def textReference (input : String8) (literalDefault : Bool) (t : TextScan) : Content TextScan := do
  let text := t.text.getD []
  let close := findCharacter input ';' (t.index + 1)
  if literalDefault && t.index + 1 < close && input.item (t.index + 1) != '#' &&
      !isPredefinedEntity (input.substring (t.index + 1) (close - 1)) then
    emitDefaultRange input t.defaultStart (t.index - 1)
    if ← isOngoing then
      let (i, text) ← appendReferenceInContent parseEntityContent input t.index text
      return { t with index := i, text := some text, defaultStart := i, defaultEnd := i - 1 }
    else
      return { t with text := some text, defaultEnd := t.index - 1 }
  else
    let (i, text) ← appendReferenceInContent parseEntityContent input t.index text
    return { t with index := i, text := some text, defaultEnd := i - 1 }

open Content in
/-- Step over one character or reference.  In a text that is not `final`, a reference or a character
that the end of the input cuts off ends the text without an error. -/
def textStep (isFinal literalDefault : Bool) (input : String8) (t : TextScan) :
    Content TextScan := do
  let c := input.item t.index
  let stop := input.length + 1
  let p ← scene
  let t ← if c = ']' then liftM t.note else pure t
  if c = ']' ∧ hasAt input t.index (str "]]>") then
    failAt "CDATA close marker in character data" { t with index := stop }
  else if c = '&' then
    let t ← t.note
    if !isFinal ∧ findCharacter input ';' (t.index + 1) = 0 then
      return { t with index := stop, isDone := true }
    else if p.elements.stack.isEmpty && !p.core.parsingExternalEntity then
      failAt "entity reference outside document element" { t with index := stop }
    else
      textReference parseEntityContent input literalDefault t
  else if 128 ≤ c.toNat ∧ isIncompleteUtf8SequenceAt input t.index then
    let t ← t.note
    if isFinal then
      failAt "partial character" { t with index := stop }
    else
      return { t with index := stop, isDone := true }
  else if !isXmlCharacterCode c.toNat then
    let t ← t.note
    failAt "invalid XML character" { t with index := stop }
  else
    let t := { t with allSpace := t.allSpace && isXmlSpace c, defaultEnd := t.index }
    match t.text with
    | some text =>
      let t ← t.note
      return { t with index := t.index + 1, text := some (text ++ [c]) }
    | none => return { t with index := t.index + 1, pendingPosition := t.index }

open Content in
/-- Deliver the text that began at `start`. -/
def deliverText (literalDefault : Bool) (input : String8) (start : Nat) (t : TextScan) :
    Content Nat := do
  let p ← scene
  if p.elements.stack.isEmpty && !p.core.parsingExternalEntity then
    let allSpace := match t.text with
      | some text => isAllXmlSpace text
      | none => t.allSpace
    if !allSpace then
      failAt "character data outside document element" (input.length + 1)
    else
      emitDefault (t.text.getD [])
      return t.index
  else
    match t.text with
    | some text => do
      emitDefaultWhen .automaticCharacterData
        (if literalDefault then input.substring t.defaultStart t.defaultEnd else text)
      match p.view.entityReferencePositions with
      | (position, byteCount) :: _ => noteTokenPosition position byteCount
      | [] => noteTokenPosition start text.length
      emitText text
      return t.index
    | none => return t.index

def textFinished (input : String8) (t : TextScan) : Routine Bool := do
  let ongoing ← isOngoing
  return input.length < t.index || t.isDone || !ongoing || input.item t.index == '<'

open Content in
/-- Collect and deliver the text at `start`. -/
def collectCharacterData (isFinal : Bool) (input : String8) (start : Nat) : Content Nat := do
  let h := (← scene).handler
  let materializeText := h.wantsCharacterDataEvents || h.wantsDefaultEvents ||
    h.wantsAutomaticCharacterDataDefault
  let literalDefault := h.wantsAutomaticCharacterDataDefault && h.wantsLiteralCharacterDataDefault
  let t ← Program.loop (fun t ↦ liftM (textFinished input t))
    (textStep parseEntityContent isFinal literalDefault input) (input.length + 2 - start)
    { index := start
      text := if materializeText then some [] else none
      defaultStart := start
      defaultEnd := start - 1 }
  if 0 < t.pendingPosition then
    notePosition t.pendingPosition
  if ← isOngoing then
    deliverText literalDefault input start t
  else
    return input.length + 1

open Content in
def parseCharacterData (input : String8) (start : Nat) : Content Nat := do
  let p ← scene
  let h := p.handler
  let materializeText := h.wantsCharacterDataEvents || h.wantsDefaultEvents ||
    h.wantsAutomaticCharacterDataDefault
  let result ←
    if p.view.lazyPositionAccounting && !materializeText then
      liftM (parseCharacterDataNoEvents input start)
    else
      pure 0
  if result = 0 then
    act .forceCurrentPosition
    collectCharacterData parseEntityContent true input start
  else
    return result

def parseCharacterDataPrefix (input : String8) (start : Nat) : Content Nat :=
  collectCharacterData parseEntityContent false input start

end Content

/-! ## Markup and content -/

def parseMarkup (bound : Nat) (input : String8) (start : Nat) : Content Nat := do
  let stop := input.length + 1
  if hasAt input start (str "</") then
    parseEndTag input start
  else if hasAt input start (str "<!--") then
    parseComment input start
  else if hasAt input start (str "<![CDATA[") then
    parseCdata input start
  else if hasAt input start (str "<?") then
    parseProcessingInstruction input start
  else if hasAt input start (str "<!DOCTYPE") then
    parseDoctype bound input start
  else if isIncompleteMarkerAtEnd input start (str "<![CDATA[") ||
      isIncompleteMarkerAtEnd input start (str "<!DOCTYPE") then
    failAt "unterminated declaration" stop
  else if hasAt input start (str "<!") then
    if hasAt input start (str "<![") && !hasAt input start (str "<![CD") then
      failAt "unterminated declaration" stop
    else
      failAt "invalid declaration" stop
  else
    parseStartTag bound input start

/-- One token of replacement text.  A text declaration is removed at the boundary of an external
resource, so none may stand here. -/
def entityContentStep (bound : Nat) (parseEntityContent : String8 → Content Unit)
    (content : String8) (i : Nat) : Content Nat := do
  if ← startsXmlDeclarationAt content i then
    failAt "misplaced xml declaration" (content.length + 1)
  else if content.item i = '<' then
    parseMarkup bound content i
  else
    parseCharacterData parseEntityContent content i

/-- Parse replacement text as included content. -/
def parseEntityContent : Nat → String8 → Content Unit
  | 0, _ => .stuck
  | bound + 1, content => do
    let _ ← Program.loop
      (fun i : Nat ↦ return content.length < i || !(← isOngoing))
      (entityContentStep bound (parseEntityContent bound) content) (content.length + 1) 1

end Xpact
