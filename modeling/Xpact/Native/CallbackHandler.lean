import Xpact.Native.Shim
import Xpact.Native.ContentModelArray

/-!
# The native callback handler

`XP_NATIVE_CALLBACK_HANDLER` hands the events of the parser to the callbacks that the application has
registered.  The native parser reads its input again from the beginning in every call, so the handler
numbers the callbacks of a pass and leaves out those that an earlier pass has made.

The application is what it does in its callbacks: it may call `XML_StopParser`, and it answers the two
callbacks that return something.
-/

namespace Xpact.Native

open Library

/-! ## The application -/

/-- The callback slots of the handler. -/
inductive CallbackKind where
  | startElement | endElement | characterData | processingInstruction | xmlDecl | comment
  | startCdataSection | endCdataSection | default | startDoctypeDecl | endDoctypeDecl | notStandalone
  | elementDecl | notationDecl | attlistDecl | entityDecl | unparsedEntityDecl | externalEntityRef
  | skippedEntity | startNamespaceDecl | endNamespaceDecl
  deriving DecidableEq, Repr

/-- A call of a callback, with what it is given. -/
inductive Invocation where
  | event (e : Event)
  | externalEntityRef (context publicId systemId : String8) (isParameter isParameterLiteral : Bool)

/-- What the application does in a callback for an external entity: the status it returns, and what
the child parser that it runs leaves behind. -/
structure ChildParse where
  status : Int
  /-- A child parser has finished, which counts bytes. -/
  hasParsed : Bool
  directCount : Int
  indirectCount : Int
  /-- The declarations that are merged into the parent. -/
  declarations : Option Declarations
  /-- The replacement text of an entity that is included in an entity literal. -/
  literalText : Option String8
  /-- The child that has read this text has skipped a reference to a parameter entity. -/
  hasSkipped : Bool := false

/-- The entity of the callback stays unread, or what is read of it has skipped a reference that the
parent does not learn of. -/
def ChildParse.leavesUnread (child : ChildParse) : Bool := !child.hasParsed || child.hasSkipped

/-- The application, by the calls it has received so far, the present one last. -/
structure Application where
  /-- `XML_StopParser` is called, with this flag. -/
  stops : List Invocation → Option Bool
  acceptsNotStandalone : List Invocation → Bool
  parsesChild : List Invocation → ChildParse
  /-- The allocator of the application. -/
  malloc : Nat → Option ContentMemory

/-! ## The handler -/

structure CallbackHandler where
  /-- The slot, in the handler or in the native parser, is not empty. -/
  isRegistered : CallbackKind → Bool
  defaultExpandsEntities : Bool := false
  diagnosticEventsEnabled : Bool := false
  callbackSequenceCount : Nat := 0
  callbacksToSuppress : Nat := 0
  lastSuspendingCallbackIndex : Nat := 0
  deliveredCharacterDataLengths : Table Nat Nat := ∅
  deliveredDefaultLengths : Table Nat Nat := ∅
  externalEntityReplayContexts : Table Nat Declarations := ∅
  externalEntityReplayCounts : Table Nat Int := ∅
  externalEntityReplayTexts : Table Nat String8 := ∅
  /-- The callbacks that have left their entity unread; the source does not keep them. -/
  skippingCallbacks : List Nat := []

namespace CallbackHandler

/-- What the handler wants of a parser; a stop is asked for by the native parser. -/
def handler (h : CallbackHandler) (onNotStandalone : Bool)
    (stopRequested stopIsResumable : List Event → Bool) : Handler where
  wantsStartElementEvents := h.diagnosticEventsEnabled || h.isRegistered .startElement
  wantsEndElementEvents := h.diagnosticEventsEnabled || h.isRegistered .endElement
  wantsCharacterDataEvents := h.diagnosticEventsEnabled || h.isRegistered .characterData
  wantsDefaultEvents := h.isRegistered .default
  wantsLiteralCharacterDataDefault := h.isRegistered .default && !h.isRegistered .characterData
  wantsDefault
    | .startElement => !h.isRegistered .startElement
    | .endElement => !h.isRegistered .endElement
    | .startDoctype => !h.isRegistered .startDoctypeDecl
    | .endDoctype => !h.isRegistered .endDoctypeDecl
    | .entityDecl isUnparsed =>
      !h.isRegistered .entityDecl && (!isUnparsed || !h.isRegistered .unparsedEntityDecl)
    | .notationDecl => !h.isRegistered .notationDecl
    | .elementDecl => !h.isRegistered .elementDecl
    | .attlistDecl => !h.isRegistered .attlistDecl
    | .comment => !h.isRegistered .comment
    | .xmlDeclaration => !h.isRegistered .xmlDecl
    | .processingInstruction => !h.isRegistered .processingInstruction
    | .startCdata => !h.isRegistered .startCdataSection
    | .endCdata => !h.isRegistered .endCdataSection
    | .automaticCharacterData => h.isRegistered .default && !h.isRegistered .characterData
  expandsInternalGeneralEntityReferences :=
    !h.isRegistered .default || h.defaultExpandsEntities
  reportsSkippedInternalGeneralEntities := h.isRegistered .skippedEntity
  requiresEagerPositionAccounting :=
    [.startElement, .endElement, .characterData, .processingInstruction, .xmlDecl, .comment,
      .startCdataSection, .endCdataSection, .default, .startDoctypeDecl, .endDoctypeDecl,
      .notStandalone, .elementDecl, .notationDecl, .attlistDecl, .entityDecl, .unparsedEntityDecl,
      .externalEntityRef, .skippedEntity, .startNamespaceDecl, .endNamespaceDecl].any h.isRegistered
  isNullEventHandler := false
  onNotStandalone
  stopRequested
  stopIsResumable

/-! ## Replay -/

/-- `suppress_next_callback`: count a callback, and say whether it has been made before. -/
def suppressNextCallback (h : CallbackHandler) : Bool × CallbackHandler :=
  let h := { h with callbackSequenceCount := h.callbackSequenceCount + 1 }
  (decide (h.callbackSequenceCount ≤ h.callbacksToSuppress), h)

def prepareCallbackReplay (h : CallbackHandler) (suppressedCallbacks : Nat) : CallbackHandler :=
  { h with callbackSequenceCount := 0, callbacksToSuppress := suppressedCallbacks }

def clearExternalEntityReplay (h : CallbackHandler) : CallbackHandler :=
  { h with
    externalEntityReplayContexts := ∅
    externalEntityReplayCounts := ∅
    externalEntityReplayTexts := ∅ }

def finishSuccessfulParseCallbacks (h : CallbackHandler) : CallbackHandler :=
  { h with
    callbacksToSuppress := 0
    lastSuspendingCallbackIndex := 0
    deliveredCharacterDataLengths := ∅
    deliveredDefaultLengths := ∅ }.clearExternalEntityReplay

end CallbackHandler

/-! ## Callbacks -/

/-- The handler, the C parser behind it, and the calls that the application has received. -/
structure Dispatch where
  handler : CallbackHandler
  shim : Shim
  received : List Invocation := []

namespace Dispatch

section

variable (app : Application)

/-- `record_callback_stop_if_requested`. -/
def recordCallbackStopIfRequested (d : Dispatch) : Dispatch :=
  if d.shim.stopRequested && d.shim.stopResumable then
    { d with handler :=
      { d.handler with lastSuspendingCallbackIndex := d.handler.callbackSequenceCount } }
  else
    d

/-- Call the application, which may call `XML_StopParser`. -/
def call (c : Invocation) (d : Dispatch) : Dispatch :=
  let received := d.received ++ [c]
  { d with
    received
    shim :=
      match app.stops received with
      | some resumable => (d.shim.stopParser resumable).parser
      | none => d.shim }

/-- The callback of a feature that only reports: it is called unless an earlier pass has done so. -/
def report (kind : CallbackKind) (c : Invocation) (d : Dispatch) : Dispatch :=
  if d.handler.isRegistered kind then
    match d.handler.suppressNextCallback with
    | (true, handler) => { d with handler }
    | (false, handler) => ({ d with handler }.call app c).recordCallbackStopIfRequested
  else
    d

def onStartElement (name : String8) (attributes : Attributes) : Dispatch → Dispatch :=
  report app .startElement (.event (.startElement name attributes))

def onEndElement (name : String8) : Dispatch → Dispatch :=
  report app .endElement (.event (.endElement name))

def onProcessingInstruction (target data : String8) : Dispatch → Dispatch :=
  report app .processingInstruction (.event (.processingInstruction target data))

def onXmlDeclaration (version encoding : String8) (standalone : Int) : Dispatch → Dispatch :=
  report app .xmlDecl (.event (.xmlDeclaration version encoding standalone))

def onComment (text : String8) : Dispatch → Dispatch :=
  report app .comment (.event (.comment text))

def onStartCdataSection : Dispatch → Dispatch :=
  report app .startCdataSection (.event .startCdataSection)

def onEndCdataSection : Dispatch → Dispatch :=
  report app .endCdataSection (.event .endCdataSection)

def onStartDoctypeDecl (name : String8) (systemId publicId : Option String8)
    (hasInternalSubset : Bool) : Dispatch → Dispatch :=
  report app .startDoctypeDecl
    (.event (.startDoctypeDecl name systemId publicId hasInternalSubset))

def onEndDoctypeDecl : Dispatch → Dispatch :=
  report app .endDoctypeDecl (.event .endDoctypeDecl)

def onNotationDecl (name : String8) (base systemId publicId : Option String8) :
    Dispatch → Dispatch :=
  report app .notationDecl (.event (.notationDecl name base systemId publicId))

def onAttlistDecl (elementName attributeName attributeType : String8)
    (defaultValue : Option String8) (isRequired : Bool) : Dispatch → Dispatch :=
  report app .attlistDecl
    (.event (.attlistDecl elementName attributeName attributeType defaultValue isRequired))

def onEntityDecl (name : String8) (isParameter : Bool)
    (value publicId systemId notationName : Option String8) : Dispatch → Dispatch :=
  report app .entityDecl
    (.event (.entityDecl name isParameter value publicId systemId notationName))

def onUnparsedEntityDecl (name systemId : String8) (publicId notationName : Option String8) :
    Dispatch → Dispatch :=
  report app .unparsedEntityDecl
    (.event (.unparsedEntityDecl name systemId publicId notationName))

def onSkippedEntity (name : String8) (isParameter : Bool) : Dispatch → Dispatch :=
  report app .skippedEntity (.event (.skippedEntity name isParameter))

def onStartNamespaceDecl (nsPrefix : Option String8) (uri : String8) : Dispatch → Dispatch :=
  report app .startNamespaceDecl (.event (.startNamespaceDecl nsPrefix uri))

def onEndNamespaceDecl (nsPrefix : Option String8) : Dispatch → Dispatch :=
  report app .endNamespaceDecl (.event (.endNamespaceDecl nsPrefix))

/-- A declaration whose model does not fit into memory is counted and not reported; `structSize` is
the size of a node of the model under the C ABI. -/
def onElementDecl (structSize : Nat) (name : String8) (model : ContentModel) (d : Dispatch) :
    Dispatch :=
  if d.handler.isRegistered .elementDecl then
    match d.handler.suppressNextCallback with
    | (true, handler) => { d with handler }
    | (false, handler) =>
      if (contentModelArray app.malloc structSize model).isSome then
        ({ d with handler }.call app
          (.event (.elementDecl name model))).recordCallbackStopIfRequested
      else
        { d with handler }
  else
    d

def recordDeliveredCharacterDataLength (i count : Nat) (d : Dispatch) : Dispatch :=
  { d with handler :=
    { d.handler with
      deliveredCharacterDataLengths := d.handler.deliveredCharacterDataLengths.insert i count } }

/-- Of a text that an earlier pass has reported, what is new. -/
def onCharacterData (text : String8) (d : Dispatch) : Dispatch :=
  if text.isEmpty then
    d
  else if d.handler.isRegistered .characterData then
    match d.handler.suppressNextCallback with
    | (true, handler) =>
      let i := handler.callbackSequenceCount
      let alreadyDelivered := (handler.deliveredCharacterDataLengths.lookup i).getD 0
      if alreadyDelivered < text.length then
        (recordDeliveredCharacterDataLength i text.length
          ({ d with handler }.call app (.event (.characterData
            (text.substring (alreadyDelivered + 1) text.length))))).recordCallbackStopIfRequested
      else
        { d with handler }
    | (false, handler) =>
      (recordDeliveredCharacterDataLength handler.callbackSequenceCount text.length
        ({ d with handler }.call app
          (.event (.characterData text)))).recordCallbackStopIfRequested
  else
    d

def recordDeliveredDefaultLength (i count : Nat) (d : Dispatch) : Dispatch :=
  { d with handler :=
    { d.handler with
      deliveredDefaultLengths := d.handler.deliveredDefaultLengths.insert i count } }

def onDefault (text : String8) (d : Dispatch) : Dispatch :=
  if d.handler.isRegistered .default && !text.isEmpty then
    match d.handler.suppressNextCallback with
    | (suppressed, handler) =>
      let i := handler.callbackSequenceCount
      let alreadyDelivered :=
        if suppressed then (handler.deliveredDefaultLengths.lookup i).getD 0 else 0
      if !suppressed || alreadyDelivered < text.length then
        let pending :=
          if 0 < alreadyDelivered then text.substring (alreadyDelivered + 1) text.length else text
        (recordDeliveredDefaultLength i text.length
          ({ d with handler }.call app (.event (.default pending)))).recordCallbackStopIfRequested
      else
        { d with handler }
  else
    d

/-! ## Callbacks that answer -/

/-- Without a callback, and in a replay, the document is accepted. -/
def onNotStandalone (d : Dispatch) : Bool × Dispatch :=
  if d.handler.isRegistered .notStandalone then
    match d.handler.suppressNextCallback with
    | (true, handler) => (true, { d with handler })
    | (false, handler) =>
      let d := { d with handler }.call app (.event .notStandalone)
      (app.acceptsNotStandalone d.received, d.recordCallbackStopIfRequested)
  else
    (true, d)

/-- Forget what an earlier callback with this number has left. -/
def forgetExternalEntity (i : Nat) (d : Dispatch) : Dispatch :=
  { d with handler :=
    { d.handler with
      externalEntityReplayContexts := d.handler.externalEntityReplayContexts.erase i
      externalEntityReplayCounts := d.handler.externalEntityReplayCounts.erase i
      externalEntityReplayTexts := d.handler.externalEntityReplayTexts.erase i } }

/-- `record_external_entity_context_from` and `record_external_parameter_literal_text`, for the child
of the callback `i`. -/
def recordChild (i : Nat) (child : ChildParse) (d : Dispatch) : Dispatch :=
  { d with handler :=
    { d.handler with
      externalEntityReplayContexts :=
        match child.declarations with
        | some declarations =>
          d.handler.externalEntityReplayContexts.insert i declarations.entityContextSnapshot
        | none => d.handler.externalEntityReplayContexts
      externalEntityReplayTexts :=
        match child.literalText with
        | some text => d.handler.externalEntityReplayTexts.insert i text
        | none => d.handler.externalEntityReplayTexts
      skippingCallbacks :=
        if child.leavesUnread then i :: d.handler.skippingCallbacks
        else d.handler.skippingCallbacks } }

def recordByteCount (i : Nat) (count : Int) (d : Dispatch) : Dispatch :=
  { d with handler :=
    { d.handler with
      externalEntityReplayCounts := d.handler.externalEntityReplayCounts.insert i count } }

/-- What a child leaves the parent of a parameter entity, when the callback succeeds. -/
def ChildParse.answer (child : ChildParse) (isParameter : Bool) : Answer :=
  if child.status = 0 then
    ⟨none, false, none, 0⟩
  else if isParameter && child.hasParsed then
    ⟨some (child.literalText.getD []), true, none, child.directCount + child.indirectCount⟩
  else
    ⟨some [], false, none, 0⟩

/-- `resolve_external_entity`: ask the application, or answer as it did in an earlier pass.  Without a
callback the entity is reported as skipped, and the empty text is the answer. -/
def resolveExternalEntity (request : Request) (d : Dispatch) : Resolution × Dispatch :=
  if d.handler.isRegistered .externalEntityRef then
    match d.handler.suppressNextCallback with
    | (true, handler) =>
      let i := handler.callbackSequenceCount
      (⟨{ text := some ((handler.externalEntityReplayTexts.lookup i).getD [])
          isExternalChildParse := (handler.externalEntityReplayCounts.lookup i).isSome
          resource := none
          replacementByteCount := (handler.externalEntityReplayCounts.lookup i).getD 0 },
        handler.externalEntityReplayContexts.lookup i,
        request.isParameter && handler.skippingCallbacks.contains i⟩, { d with handler })
    | (false, handler) =>
      let i := handler.callbackSequenceCount
      let d := { forgetExternalEntity i { d with handler } with }.call app
        (.externalEntityRef request.name request.publicId request.systemId request.isParameter
          request.isParameterLiteral)
      let child := app.parsesChild d.received
      let answer := ChildParse.answer child request.isParameter
      let d := (recordChild i child d).recordCallbackStopIfRequested
      (⟨answer, child.declarations, request.isParameter && child.leavesUnread⟩,
        if answer.isExternalChildParse then recordByteCount i answer.replacementByteCount d else d)
  else
    (⟨⟨some [], false, none, 0⟩, none, request.isParameter⟩,
      onSkippedEntity app request.name request.isParameter d)

/-! ## Events -/

/-- Hand an event of the parser on. -/
def onEvent (structSize : Nat) : Event → Dispatch → Dispatch
  | .startElement name attributes => onStartElement app name attributes
  | .endElement name => onEndElement app name
  | .startNamespaceDecl nsPrefix uri => onStartNamespaceDecl app nsPrefix uri
  | .endNamespaceDecl nsPrefix => onEndNamespaceDecl app nsPrefix
  | .characterData text => onCharacterData app text
  | .processingInstruction target data => onProcessingInstruction app target data
  | .xmlDeclaration version encoding standalone =>
    onXmlDeclaration app version encoding standalone
  | .comment text => onComment app text
  | .startCdataSection => onStartCdataSection app
  | .endCdataSection => onEndCdataSection app
  | .startDoctypeDecl name systemId publicId hasInternalSubset =>
    onStartDoctypeDecl app name systemId publicId hasInternalSubset
  | .endDoctypeDecl => onEndDoctypeDecl app
  | .elementDecl name model => onElementDecl app structSize name model
  | .notationDecl name base systemId publicId => onNotationDecl app name base systemId publicId
  | .attlistDecl elementName attributeName attributeType defaultValue isRequired =>
    onAttlistDecl app elementName attributeName attributeType defaultValue isRequired
  | .entityDecl name isParameter value publicId systemId notationName =>
    onEntityDecl app name isParameter value publicId systemId notationName
  | .unparsedEntityDecl name systemId publicId notationName =>
    onUnparsedEntityDecl app name systemId publicId notationName
  | .skippedEntity name isParameter => onSkippedEntity app name isParameter
  | .notStandalone => fun d ↦ (onNotStandalone app d).2
  | .default text => onDefault app text

end

end Dispatch

end Xpact.Native
