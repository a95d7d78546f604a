import Xpact.Library.Monitor
import Xpact.Parser.Log
import Xpact.Parser.PlainRoutines

/-!
# Stop requests

A stop request is recorded by `check_handler_stop` only, as a suspension or as an error, and nothing
takes it back during a call.  The law of this module says that no event is delivered once a stop is
recorded.  Most events stand behind a test of both flags; the places that emit a second event without
a test are the sites of the law.
-/

namespace Xpact

open Library Program Routine

-- A routine is one goal of instance search for each of its steps.
set_option synthInstance.maxSize 4000

/-! ## The rest of a routine

What follows a part that may record a stop, in the words of the routine it belongs to. -/

/-- Behind the definitions of an attribute-list declaration. -/
def endAttlistDeclaration (subset : String8) (start close : Nat) : Routine Nat := do
  if ← hasError then
    return subset.length + 1
  else
    if (← core).declarations.dtdDeclarationsDisabled then
      emitDefault (subset.substring start close)
    else
      emitDefaultWhen .attlistDecl (subset.substring start close)
    return close + 1

/-- Behind the literal of an entity declaration. -/
def endInternalEntityDeclaration (subset : String8)
    (start nameStart nameEnd literalStart close : Nat) (name : String8)
    (isParameter isProcessed : Bool) : Nat × String8 × Int → Routine Nat
  | (literalEnd, value, accountingCount) => do
    let stop := subset.length + 1
    if !(← hasError) && skipSpaces subset (literalEnd + 1) != close then
      setError "unexpected entity declaration content"
    if ← hasError then
      return stop
    else
      if isProcessed then
        if isParameter then
          Program.command (.putParameterEntity name value accountingCount)
        else
          Program.command (.putGeneralEntity name value)
      let emitPiece := if isProcessed then emitDefaultWhen (.entityDecl false) else emitDefault
      emitInternalEntityDeclarationDefault emitPiece subset start nameStart nameEnd literalStart
        literalEnd close
      if isProcessed then
        whileOngoing (emit (.entityDecl name isParameter (some value) none none none)
          (rfl : false = false))
      return close + 1

/-- Behind the keyword of a conditional section. -/
def endConditionalSection (processInternalSubset : String8 → Routine Unit) (subset : String8)
    (start close : Nat) : Nat × String8 → Routine Nat
  | (i, status) => do
    let stop := subset.length + 1
    let bracket := status.indexOf '[' 1
    let (contentStart, inner, status) : Nat × String8 × String8 :=
      if bracket = 0 then (i + 1, [], status)
      else (i, status.drop bracket, status.take (bracket - 1))
    if ← hasError then
      return stop
    else if bracket = 0 ∧ (close - 1 < i ∨ subset.item i ≠ '[') then
      failAt "invalid conditional section" stop
    else if adjusted status = str "IGNORE" then
      emitDefault (subset.substring start (close + 2))
      return close + 3
    else if adjusted status = str "INCLUDE" then
      let inner := inner ++ subset.substring contentStart (close - 1)
      if !inner.isEmpty then
        processInternalSubset inner
      return if ← hasError then stop else close + 3
    else
      failAt "invalid conditional section" stop

/-- Behind its keyword, which `status` holds, a conditional section is ignored. -/
def IsIgnored (subset : String8) (close : Nat) : Nat × String8 → Prop
  | (i, status) =>
    (status.indexOf '[' 1 = 0 → i ≤ close - 1 ∧ subset.item i = '[') ∧
      adjusted (if status.indexOf '[' 1 = 0 then status
        else status.take (status.indexOf '[' 1 - 1)) = str "IGNORE"

/-- Behind the check of the standalone declaration in a document type declaration. -/
def emitStartDoctype (externalId : Option (String8 × String8)) (hasInternalSubset : Bool) :
    Routine Unit :=
  unlessError do
    let name := (← flags).doctypeName
    emit (.startDoctypeDecl name (externalId.bind fun ids ↦ optionalString ids.2)
      (externalId.bind fun ids ↦ optionalString ids.1) hasInternalSubset)

/-- Behind that check in `include_external_parameter_entity_in_subset`. -/
def includeResolvedParameterEntity (processInternalSubset : String8 → Routine Unit)
    (e : ExternalEntity) : Routine Unit :=
  unlessError do
    match ← resolvedEntityReplacement e false with
    | some (text, answer) => processExternalText processInternalSubset text answer
    | none => setError "external entity not resolved"

/-- Behind that check in `append_external_parameter_entity_in_literal`. -/
def appendResolvedParameterEntity (e : ExternalEntity) (base : Option String8) :
    Routine String8 := do
  let text ← do
    if ← hasError then
      pure []
    else
      match ← resolvedEntityReplacement e true with
      | none => failAt "external entity not resolved" []
      | some (text, answer) => do
        if !answer.isExternalChildParse then
          noteEntityExpansion text.length
        else if (text.length : Int) < answer.replacementByteCount then
          assign fun f ↦ { f with
            currentEntityLiteralAccountingAdjustment :=
              f.currentEntityLiteralAccountingAdjustment + answer.replacementByteCount -
                text.length }
        if ← hasError then pure [] else pure text
  assign fun f ↦ { f with currentExternalEntityBase := base }
  return text

/-- Behind that check in `include_foreign_dtd_if_needed`. -/
def includeResolvedForeignDtd (bound : Nat) (rootName : String8) (base : Option String8)
    (hasResolver : Bool) : Routine Unit := do
  if !(← hasError) && (← parameterEntityLoadingAllowed) && hasResolver then
    match ← resolvedExternalReplacement rootName [] (str "foreign.dtd") true base false with
    | some (text, answer) => do
      if !answer.isExternalChildParse then
        noteEntityExpansion text.length
      unlessError do
        if !text.isEmpty || answer.isExternalChildParse then
          assign fun f ↦ { f with documentHasExternalSubset := true }
        if answer.resource.isSome then
          assign fun f ↦ { f with currentExternalEntityBase := answer.resource }
        assign fun f ↦ { f with externalDtdDepth := f.externalDtdDepth + 1 }
        processInternalSubset bound text
        assign fun f ↦ { f with externalDtdDepth := f.externalDtdDepth - 1 }
    | none => setError "external entity not resolved"

open Content in
/-- Behind the name of the event for the end of an element. -/
def closeNamedElement (wantsEndEvents namespaceMode : Bool) (eventName : String8) : Content Unit := do
  act .popElement
  unless ← Routine.hasError do
    if wantsEndEvents then
      emitStructural (.endElement eventName)
  if namespaceMode then
    closeNamespaces

open Content in
/-- Behind the tests of an external entity in content, which is read. -/
def includeReadExternalEntity (parseEntityContent : String8 → Content Unit) (e : ExternalEntity)
    (base : Option String8) : Content Unit := do
  pushEntity e.name
  match ← resolvedEntityReplacement e false with
  | some (text, answer) =>
    noteEntityExpansion text.length
    unless ← hasError do
      if answer.resource.isSome then
        assign fun f ↦ { f with currentExternalEntityBase := answer.resource }
      let balanced ← parseBalancedContent parseEntityContent text (pure ()) (pure ())
      unless balanced do
        setError "asynchronous entity"
  | none => setError "external entity not resolved"
  popEntity
  assign fun f ↦ { f with currentExternalEntityBase := base }

namespace Parser

/-! ## The record of a stop -/

/-- The condition under which `check_handler_stop` records a stop. -/
def requestsStop (p : Parser) : Bool :=
  !p.core.hasError && !p.core.isSuspended && p.handler.stopRequested p.view.events

def deliversText (p : Parser) (text : String8) : Bool :=
  p.handler.wantsCharacterDataEvents && !text.isEmpty

def deliversDefault (p : Parser) (text : String8) : Bool :=
  p.handler.wantsDefaultEvents && !text.isEmpty

/-- The default text of a declaration, which is of its kind when the declaration is processed. -/
def deliversDeclaration (p : Parser) (isProcessed : Bool) (kind : DefaultKind) (text : String8) :
    Bool :=
  (!isProcessed || p.handler.wantsDefault kind) && p.deliversDefault text

/-- `check_not_standalone` puts its question. -/
def putsNotStandalone (p : Parser) : Bool :=
  !p.core.hasError && p.core.declarations.xmlStandalone != 1 && !p.core.flags.notStandaloneChecked

/-- The handler asks for a stop in that question. -/
def asksInNotStandalone (p : Parser) : Bool :=
  p.putsNotStandalone && p.handler.onNotStandalone && (p.emit .notStandalone).requestsStop

/-- With this command `check_handler_stop` records a stop. -/
def recordsStop (a : Act) (p : Parser) : Bool :=
  match a with
  | .routine .checkHandlerStop => p.requestsStop
  | .routine (.emitText text) =>
    p.deliversText text && (p.emit (.characterData text)).requestsStop
  | .routine (.emitDefault text) =>
    p.deliversDefault text && (p.emit (.default text)).requestsStop
  | .routine (.emitDefaultWhen kind text) =>
    p.handler.wantsDefault kind && p.deliversDefault text &&
      (p.emit (.default text)).requestsStop
  | _ => false

theorem checkHandlerStop_eq (p : Parser) : p.checkHandlerStop =
    if p.requestsStop then
      if p.handler.stopIsResumable p.view.events then
        { p with core := { p.core with isSuspended := true } }
      else
        p.setError "parsing aborted"
    else
      p := rfl

theorem emitText_eq (p : Parser) (text : String8) : p.emitText text =
    if p.deliversText text then (p.emit (.characterData text)).checkHandlerStop else p := rfl

theorem emitDefault_eq (p : Parser) (text : String8) : p.emitDefault text =
    if p.deliversDefault text then (p.emit (.default text)).checkHandlerStop else p := rfl

/-- The parse goes no further. -/
def IsHalted (p : Parser) : Prop := p.core.hasError = true ∨ p.core.isSuspended = true

theorem isHalted_checkHandlerStop {p : Parser} (h : p.requestsStop = true) :
    p.checkHandlerStop.IsHalted := by
  rw [checkHandlerStop_eq, if_pos h]
  split
  · exact .inr rfl
  · exact .inl (setError_hasError p _)

theorem isHalted_emitDefault {p : Parser} {text : String8} (hdelivers : p.deliversDefault text = true)
    (h : (p.emit (.default text)).requestsStop = true) : (p.emitDefault text).IsHalted := by
  rw [emitDefault_eq, if_pos hdelivers]
  exact isHalted_checkHandlerStop h

theorem isHalted_of_recordsStop {a : Act} {p : Parser} (h : p.recordsStop a = true) :
    (p.step a).IsHalted := by
  unfold recordsStop at h
  split at h
  · exact isHalted_checkHandlerStop h
  · rw [Bool.and_eq_true] at h
    show (p.emitText _).IsHalted
    rw [emitText_eq, if_pos h.1]
    exact isHalted_checkHandlerStop h.2
  · rw [Bool.and_eq_true] at h
    exact isHalted_emitDefault h.1 h.2
  · rw [Bool.and_eq_true, Bool.and_eq_true] at h
    show (if p.handler.wantsDefault _ then p.emitDefault _ else p).IsHalted
    rw [if_pos h.1.1]
    exact isHalted_emitDefault h.1.2 h.2
  · cases h

theorem checkHandlerStop_keeps_isSuspended {p : Parser} (h : p.core.isSuspended = true) :
    p.checkHandlerStop.core.isSuspended = true := by
  unfold checkHandlerStop
  split
  · split
    · rfl
    · rw [setError_isSuspended, h]
  · exact h

theorem emitDefault_keeps_isSuspended {p : Parser} (h : p.core.isSuspended = true) (text : String8) :
    (p.emitDefault text).core.isSuspended = true := by
  unfold emitDefault
  split
  · exact checkHandlerStop_keeps_isSuspended h
  · exact h

/-- No command takes a suspension back. -/
theorem step_keeps_isSuspended (a : Act) {p : Parser} (h : p.core.isSuspended = true) :
    (p.step a).core.isSuspended = true := by
  cases a with
  | routine c =>
    cases c with
    | setError message => exact (setError_isSuspended p message).trans h
    | checkHandlerStop => exact checkHandlerStop_keeps_isSuspended h
    | emitText text =>
      simp only [step, stepRoutine, emitText]
      split
      · exact checkHandlerStop_keeps_isSuspended h
      · exact h
    | emitDefault text => exact emitDefault_keeps_isSuspended h text
    | emitDefaultWhen kind text =>
      simp only [step, stepRoutine]
      split
      · exact emitDefault_keeps_isSuspended h text
      · exact h
    | noteEntityExpansion count =>
      simp only [step, stepRoutine, noteEntityExpansion]
      split
      · exact (setError_isSuspended _ _).trans h
      · exact h
    | resolve request =>
      have hresolve := resolve_unchanged (fun q ↦ q.core.isSuspended) p request (fun _ _ _ ↦ rfl)
        (fun _ _ ↦ rfl)
      exact hresolve.trans h
    | _ => exact h
  | _ => exact h

theorem isHalted_step (a : Act) {p : Parser} (h : p.IsHalted) : (p.step a).IsHalted := by
  cases h with
  | inl herror => exact .inl (step_hasError a p herror)
  | inr hsuspended => exact .inr (step_keeps_isSuspended a hsuspended)

/-- The monitor that watches for a recorded stop. -/
def stopMonitor : Monitor machine where
  raises a p := p.recordsStop a
  Halted := IsHalted
  halted_of_raises := isHalted_of_recordsStop
  halted_step := isHalted_step

/-- A stop that is recorded is honoured at once: no event of the run is delivered after it. -/
abbrev HonoursStop (m : Content α) (p : Parser) : Prop :=
  stopMonitor.Silences (fun q ↦ q.view.events) m p

/-! ## Late events -/

/-- A stop is recorded in the run. -/
abbrev StopsIn (m : Content α) (p : Parser) : Prop := stopMonitor.RaisesIn m p

/-- An event is delivered in the run. -/
abbrev Delivers (m : Content α) (p : Parser) : Prop :=
  Monitor.Changes machine (fun q ↦ q.view.events) m p

/-- A stop is recorded in the first part, and the second delivers an event all the same. -/
abbrev IsLate (first : Content α) (second : α → Content β) (p : Parser) : Prop :=
  stopMonitor.IsLate (fun q ↦ q.view.events) first second p

/-- The handler asks for a stop in this default text. -/
def asksInDefault (p : Parser) (kind : DefaultKind) (text : String8) : Bool :=
  p.recordsStop (.routine (.emitDefaultWhen kind text))

/-- The handler asks for a stop in this text. -/
def asksInText (p : Parser) (text : String8) : Bool := p.recordsStop (.routine (.emitText text))

/-- The end of the element `name` is in order, and the handler wants it. -/
structure DeliversEnd (p : Parser) (name : String8) : Prop where
  noError : p.core.hasError = false
  isOpen : p.elements.floor < p.elements.stack.length
  isInnermost : p.elements.openElementMatches name = true
  isWanted : p.handler.wantsEndElementEvents = true
  expands : p.config.namespaceMode = true →
    (expandElementName p.config name (p.core.namespaceContexts.headD ∅)).isOk = true

/-- Of an external entity in content its text declaration is delivered, or that it is not read. -/
def DeliversExternalEntity (p : Parser) (e : ExternalEntity) : Prop :=
  e.isUnparsed = false ∧
    if p.config.externalEntityPolicy.allowsGeneralEntities then
      p.externalEntityResolver.isSome = true ∧
        Delivers (Content.ofRoutine (resolvedEntityReplacement e false))
          (p.step (.routine (.pushEntity e.name)))
    else
      p.config.skipUnreadExternalEntities = true

/-- Of the entity `name` in content its text declaration is delivered, or that it is skipped. -/
def DeliversEntity (p : Parser) (name : String8) : Prop :=
  p.core.hasError = false ∧ p.core.isEntityActive name = false ∧
    p.core.entityStack.length < maxEntityDepth ∧ p.core.context.entityValue name = none ∧
    match p.core.context.lookupExternalEntity name with
    | some e => p.DeliversExternalEntity e
    | none =>
      mayBeDeclaredUnread p.core = true ∧ p.handler.reportsSkippedInternalGeneralEntities = true

/-- What stands right behind `check_not_standalone`, without a test of both flags, and when it
delivers an event. -/
inductive NotStandaloneRoutine : {α : Type} → (Unit → Routine α) → (Parser → Prop) → Prop
  /-- The start of a document type declaration. -/
  | startDoctype (externalId : Option (String8 × String8)) (hasInternalSubset : Bool) :
      NotStandaloneRoutine (fun _ ↦ emitStartDoctype externalId hasInternalSubset)
        fun p ↦ p.core.hasError = false
  /-- The text declaration of an external parameter entity of a subset. -/
  | parameterEntity (process : String8 → Routine Unit) (e : ExternalEntity) :
      NotStandaloneRoutine (fun _ ↦ includeResolvedParameterEntity process e)
        fun p ↦ p.core.hasError = false ∧
          Delivers (Content.ofRoutine (resolvedEntityReplacement e false)) p
  /-- The text declaration of an external parameter entity in a literal. -/
  | parameterLiteral (e : ExternalEntity) (base : Option String8) :
      NotStandaloneRoutine (fun _ ↦ appendResolvedParameterEntity e base)
        fun p ↦ p.core.hasError = false ∧
          Delivers (Content.ofRoutine (resolvedEntityReplacement e true)) p
  /-- The text declaration of a foreign DTD. -/
  | foreignDtd (bound : Nat) (rootName : String8) (base : Option String8) (hasResolver : Bool) :
      NotStandaloneRoutine (fun _ ↦ includeResolvedForeignDtd bound rootName base hasResolver)
        fun p ↦ (!p.core.hasError && p.readsParameterEntities && hasResolver) = true ∧
          Delivers (Content.ofRoutine
            (resolvedExternalReplacement rootName [] (str "foreign.dtd") true base false)) p

/-- Two parts of a routine, one right behind the other without a test of both flags, of which the
first delivers what is nested in it, and when the second delivers an event. -/
inductive NestedRoutine :
    {α β : Type} → Routine α → (α → Routine β) → (α → Parser → Prop) → Prop
  /-- The default text of an attribute-list declaration, behind its definitions. -/
  | attlist (depth : Nat) (subset elementName : String8) (start close bound i : Nat) :
      NestedRoutine
        (Program.loop (fun i : Nat ↦ return !(← isOngoing) || close ≤ i)
          (parseAttlistDefinition depth subset elementName close) bound i)
        (fun _ ↦ endAttlistDeclaration subset start close)
        fun _ p ↦ p.core.hasError = false ∧
          p.deliversDeclaration (!p.core.declarations.dtdDeclarationsDisabled) .attlistDecl
            (subset.substring start close) = true
  /-- The default text of an entity declaration, behind its literal. -/
  | entityValue (depth : Nat) (subset : String8) (start nameStart nameEnd literalStart close : Nat)
      (name : String8) (isParameter isProcessed : Bool) :
      NestedRoutine
        (parseInternalEntityValue depth subset literalStart close name isParameter isProcessed)
        (endInternalEntityDeclaration subset start nameStart nameEnd literalStart close name
          isParameter isProcessed)
        fun literal p ↦ p.core.hasError = false ∧ skipSpaces subset (literal.1 + 1) = close ∧
          p.deliversDeclaration isProcessed (.entityDecl false)
            (subset.substring start (start + 7)) = true
  /-- The default text of an ignored section, behind its keyword. -/
  | ignoredSection (depth : Nat) (process : String8 → Routine Unit) (subset : String8)
      (start close bound : Nat) (t : Nat × String8) :
      NestedRoutine
        (Program.loop (conditionalStatusFinished subset close) (conditionalStatusStep depth subset)
          bound t)
        (endConditionalSection process subset start close)
        fun status p ↦ p.core.hasError = false ∧ IsIgnored subset close status ∧
          p.deliversDefault (subset.substring start (close + 2)) = true
  /-- The rest of an entity literal, behind a reference in it. -/
  | entityLiteral (depth : Nat) (input : String8) (quote : Character8) (bound : Nat)
      (t : Nat × String8) :
      NestedRoutine (parseEntityLiteralStep depth input t)
        (Program.loop (fun s ↦ return (← entityValueFinished input s) || input.item s.1 == quote)
          (parseEntityLiteralStep depth input) bound)
        fun s ↦ Delivers (Content.ofRoutine (Program.loop
          (fun s ↦ return (← entityValueFinished input s) || input.item s.1 == quote)
          (parseEntityLiteralStep depth input) bound s))
  /-- The rest of the text of a parameter entity in a literal, behind a reference in it. -/
  | parameterText (depth : Nat) (text : String8) (bound : Nat) (t : Nat × String8) :
      NestedRoutine (appendParameterTextStep (appendParameterEntityLiteral depth) text t)
        (Program.loop (entityValueFinished text)
          (appendParameterTextStep (appendParameterEntityLiteral depth) text) bound)
        fun s ↦ Delivers (Content.ofRoutine (Program.loop (entityValueFinished text)
          (appendParameterTextStep (appendParameterEntityLiteral depth) text) bound s))
  /-- The rest of the keyword of a conditional section, behind a reference in it. -/
  | sectionKeyword (depth : Nat) (subset : String8) (close bound : Nat) (t : Nat × String8) :
      NestedRoutine (conditionalStatusStep depth subset t)
        (Program.loop (conditionalStatusFinished subset close) (conditionalStatusStep depth subset)
          bound)
        fun s ↦ Delivers (Content.ofRoutine (Program.loop (conditionalStatusFinished subset close)
          (conditionalStatusStep depth subset) bound s))

/-- The places where a routine comes late: two parts, one right behind the other, with the request
of the handler in the first and the event that the second delivers without a test of both flags. -/
inductive LateRoutine (p : Parser) : {α β : Type} → Routine α → (α → Routine β) → Prop
  /-- A comment of the document, behind its default text. -/
  | comment (text comment : String8) (i byteCount : Nat) :
      p.asksInDefault .comment text = true →
      LateRoutine p (emitDefaultWhen .comment text) fun _ ↦ do
        noteTokenPosition i byteCount
        emitComment comment
  /-- A processing instruction of the document, behind its default text. -/
  | processingInstruction (text target data : String8) (i byteCount : Nat) :
      p.asksInDefault .processingInstruction text = true →
      LateRoutine p (emitDefaultWhen .processingInstruction text) fun _ ↦ do
        noteTokenPosition i byteCount
        Routine.emit (.processingInstruction target data)
  /-- The start of a CDATA section, behind its default text. -/
  | startCdata (text : String8) (i : Nat) :
      p.asksInDefault .startCdata text = true →
      LateRoutine p (emitDefaultWhen .startCdata text) fun _ ↦ do
        notePosition i
        Routine.emit .startCdataSection
  /-- The end of a CDATA section, behind its default text. -/
  | endCdata (text : String8) (i : Nat) :
      p.asksInDefault .endCdata text = true →
      LateRoutine p (emitDefaultWhen .endCdata text) fun _ ↦ do
        notePosition i
        Routine.emit .endCdataSection
  /-- Text that the handler wants, behind its default text. -/
  | text (defaultText text : String8) (i byteCount : Nat) :
      p.asksInDefault .automaticCharacterData defaultText = true → p.deliversText text = true →
      LateRoutine p (emitDefaultWhen .automaticCharacterData defaultText) fun _ ↦ do
        noteTokenPosition i byteCount
        Routine.emitText text
  /-- A reference that is reported as skipped, behind the text before it. -/
  | skippedReference (text name : String8) :
      p.asksInText text = true →
      LateRoutine p (Routine.emitText text) fun _ ↦ Routine.emit (.skippedEntity name false)
  /-- The default text of a reference, behind the text before it. -/
  | defaultReference (text reference : String8) :
      p.asksInText text = true → p.deliversDefault reference = true →
      LateRoutine p (Routine.emitText text) fun _ ↦ Routine.emitDefault reference
  /-- An unparsed entity, behind its entity declaration. -/
  | unparsedEntity (e : Event) (he : e.isStructural = false) (name systemId : String8)
      (publicId notationName : Option String8) :
      (p.emit e).requestsStop = true →
      LateRoutine p (Routine.emit e he) fun _ ↦
        Routine.emit (.unparsedEntityDecl name systemId publicId notationName)
  /-- A stop that is asked for in the question whether the document is standalone. -/
  | notStandalone {α : Type} {second : Unit → Routine α} {DeliversSecond : Parser → Prop}
      {q : Parser} :
      NotStandaloneRoutine second DeliversSecond → p.asksInNotStandalone = true →
      (Content.ofRoutine checkNotStandalone).run machine p = some ((), q) → DeliversSecond q →
      LateRoutine p checkNotStandalone second
  /-- A stop that is asked for in a nested part. -/
  | nested {α β : Type} {first : Routine α} {second : α → Routine β}
      {DeliversSecond : α → Parser → Prop} {a : α} {q : Parser} :
      NestedRoutine first second DeliversSecond → StopsIn (Content.ofRoutine first) p →
      (Content.ofRoutine first).run machine p = some (a, q) → DeliversSecond a q →
      LateRoutine p first second

/-- The places where content comes late. -/
inductive LatePlace (p : Parser) : {α β : Type} → Content α → (α → Content β) → Prop
  | routine {α β : Type} {first : Routine α} {second : α → Routine β} :
      LateRoutine p first second →
      LatePlace p (Content.ofRoutine first) fun a ↦ Content.ofRoutine (second a)
  /-- The end of an element, behind the default text of its end tag. -/
  | endElement (text name : String8) :
      p.asksInDefault .endElement text = true →
      (p.step (.routine (.emitDefaultWhen .endElement text))).DeliversEnd name →
      LatePlace p (Content.ofRoutine (emitDefaultWhen .endElement text)) fun _ ↦ closeElement name
  /-- An entity, behind the text before the reference to it. -/
  | entity (parseEntityContent : String8 → Content Unit) (text name : String8)
      (start byteCount : Nat) {resolved : String8} {q : Parser} :
      p.asksInText text = true →
      (Content.ofRoutine (resolvedGeneralEntityName name)).run machine
        ((p.step (.routine (.emitText text))).step (.pushEntityReferencePosition start byteCount)) =
          some (resolved, q) →
      q.DeliversEntity resolved →
      LatePlace p (Content.ofRoutine (Routine.emitText text)) fun _ ↦ do
        Content.act (.pushEntityReferencePosition start byteCount)
        includeGeneralEntityInContent parseEntityContent name

/-- The run comes to a place where an event is delivered behind a stop. -/
def lateEventSite : Site Act Scene stopMonitor.Watched :=
  stopMonitor.pairSite fun p first second ↦ LatePlace p first second

/-- Two parts of a routine are listed when the second comes late. -/
def IsListed (first : Routine α) (second : α → Routine β) : Prop :=
  ∀ p : Parser, IsLate (Content.ofRoutine first) (fun a ↦ Content.ofRoutine (second a)) p →
    LateRoutine p first second

/-- The law of stop requests. -/
abbrev stopLaw : Law stopMonitor.machine :=
  stopMonitor.law (fun q ↦ q.view.events) lateEventSite

/-- The law of stop requests, for routines. -/
abbrev routineStopLaw : Law (stopMonitor.machine.restrict Act.routine Scene.sight) :=
  stopLaw.restrict Act.routine Scene.sight

/-- No stop has been recorded. -/
def IsUnstopped (w : stopMonitor.Watched) : Prop := w.raised = false

/-- A stop that has been recorded is an error. -/
def IsPassable (w : stopMonitor.Watched) : Prop :=
  w.raised = true → w.state.core.hasError = true

/-- The routine honours a stop that was recorded before it, or during it. -/
abbrev Honours (m : Routine α) : Prop := Obeys routineStopLaw m

/-- The routine honours a stop that is recorded during it. -/
abbrev HonoursUnstopped (m : Routine α) : Prop := ObeysFrom routineStopLaw IsUnstopped m

end Parser

end Xpact
