import Xpact.Parser.State

/-!
# Commands of a parser

The routines of the parser are programs over two machines.  Most of them (scanning, references,
the whole of the DTD) are a `Routine`: they see the configuration and the core, and neither what the
handler wants nor how the open elements are represented; the commands they issue decide by
themselves whether something is delivered.  The routines for tags, text and element content are a
`Content`: they see the whole scene, and their further commands open and close elements.
-/

namespace Xpact

open Library

/-! ## Changes of the state -/

namespace Parser

/-- Record the first error of the parse. -/
def setError (p : Parser) (message : String) : Parser :=
  if p.core.hasError then p
  else { p with core := { p.core with hasError := true }, view := p.view.recordError message }

def checkHandlerStop (p : Parser) : Parser :=
  if !p.core.hasError && !p.core.isSuspended && p.handler.stopRequested p.view.events then
    if p.handler.stopIsResumable p.view.events then
      { p with core := { p.core with isSuspended := true } }
    else
      p.setError "parsing aborted"
  else
    p

/-- Call a handler feature. -/
def emit (p : Parser) (e : Event) : Parser :=
  { p with view := { p.view with events := p.view.events ++ [e] } }

def emitText (p : Parser) (text : String8) : Parser :=
  if p.handler.wantsCharacterDataEvents && !text.isEmpty then
    (p.emit (.characterData text)).checkHandlerStop
  else
    p

def emitDefault (p : Parser) (text : String8) : Parser :=
  if p.handler.wantsDefaultEvents && !text.isEmpty then
    (p.emit (.default text)).checkHandlerStop
  else
    p

def noteEntityExpansion (p : Parser) (count : Int) : Parser :=
  let bytes := p.core.expandedEntityBytes + count
  let p := { p with core := { p.core with expandedEntityBytes := bytes } }
  if maxEntityExpansionBytes < bytes then p.setError "entity expansion limit exceeded" else p

def updateDeclarations (p : Parser) (f : Declarations → Declarations) : Parser :=
  { p with core := { p.core with declarations := f p.core.declarations } }

def updateContext (p : Parser) (f : EntityContext → EntityContext) : Parser :=
  p.updateDeclarations fun d ↦ { d with context := f d.context }

/-- `put_external_entity`; the declaration keeps the resource it was read from. -/
def putExternalEntity (p : Parser) (e : ExternalEntity) : Parser :=
  p.updateContext fun c ↦
    c.putExternalEntity { e with declarationBase := p.core.flags.currentExternalEntityBase }
      p.core.readsExternalMarkup

def mergeEntityContextFrom (p : Parser) (child : Declarations) : Parser :=
  { p.updateDeclarations (·.mergeEntityContextFrom child) with cachedDoctype := none }

/-- A request, made in the present state. -/
def reference (p : Parser) (request : Request) : Reference :=
  { request with
    declarations := p.core.declarations
    activeEntities := p.core.activeEntityNames }

/-- What the resolver returns for a request. -/
def resolution (p : Parser) (request : Request) : Option Resolution :=
  p.externalEntityResolver.map fun resolver ↦ resolver p.requests (p.reference request)

def noteAnswer (p : Parser) (reference : Reference) (answer : Answer) : Parser :=
  { p with
    requests := p.requests ++ [reference]
    core := { p.core with lastAnswer := some answer } }

/-- Ask the resolver, and merge the child context that the application merges meanwhile. -/
def resolve (p : Parser) (request : Request) : Parser :=
  match p.resolution request with
  | some ⟨answer, some child, _⟩ =>
    (p.noteAnswer (p.reference request) answer).mergeEntityContextFrom child
  | some ⟨answer, none, _⟩ => p.noteAnswer (p.reference request) answer
  | none => p

end Parser

/-! ## Routines -/

/-- What a routine reads. -/
structure Sight where
  config : Config
  core : Core
  elementCount : Nat
  onNotStandalone : Bool
  hasResolver : Bool

/-- What content reads. -/
structure Scene where
  config : Config
  handler : Handler
  core : Core
  elements : Elements
  view : View
  hasResolver : Bool

def Scene.sight (s : Scene) : Sight :=
  ⟨s.config, s.core, s.elements.stack.length, s.handler.onNotStandalone, s.hasResolver⟩

def Parser.scene (p : Parser) : Scene :=
  ⟨p.config, p.handler, p.core, p.elements, p.view, p.externalEntityResolver.isSome⟩

def Parser.sight (p : Parser) : Sight := p.scene.sight

inductive Command where
  | setError (message : String)
  | checkHandlerStop
  | emit (e : Event) (h : e.isStructural = false)
  | emitText (text : String8)
  | emitDefault (text : String8)
  /-- `if handler.wants_…_default then emit_default (text)`. -/
  | emitDefaultWhen (kind : DefaultKind) (text : String8)
  | notePosition (i : Nat)
  | noteTokenPosition (i byteCount : Nat)
  | noteCurrentEntityReferencePosition
  | assign (f : Flags → Flags)
  | setXmlStandalone (standalone : Int)
  /-- `dtd_has_parameter_entity_references := True`. -/
  | noteParameterEntityReference
  /-- `dtd_declarations_disabled := not dtd_is_standalone`. -/
  | disableDeclarations
  | noteEntityExpansion (count : Int)
  | pushEntity (name : String8)
  | popEntity
  | putGeneralEntity (name value : String8)
  | putParameterEntity (name value : String8) (accountingCount : Int)
  | putExternalEntity (e : ExternalEntity)
  | recordAttributeDecl (elementName : String8) (d : AttributeDecl)
  | resolve (request : Request)

namespace Parser

def stepRoutine (c : Command) (p : Parser) : Parser :=
  match c with
  | .setError message => p.setError message
  | .checkHandlerStop => p.checkHandlerStop
  | .emit e _ => p.emit e
  | .emitText text => p.emitText text
  | .emitDefault text => p.emitDefault text
  | .emitDefaultWhen kind text => if p.handler.wantsDefault kind then p.emitDefault text else p
  | .notePosition i => { p with view := p.view.notePosition i }
  | .noteTokenPosition i byteCount => { p with view := p.view.noteTokenPosition i byteCount }
  | .noteCurrentEntityReferencePosition =>
    { p with view := p.view.noteCurrentEntityReferencePosition }
  | .assign f => { p with core := { p.core with flags := f p.core.flags } }
  | .setXmlStandalone standalone =>
    p.updateDeclarations fun d ↦ { d with xmlStandalone := standalone }
  | .noteParameterEntityReference =>
    p.updateDeclarations fun d ↦ { d with dtdHasParameterEntityReferences := true }
  | .disableDeclarations =>
    p.updateDeclarations fun d ↦ { d with dtdDeclarationsDisabled := !d.dtdIsStandalone }
  | .noteEntityExpansion count => p.noteEntityExpansion count
  | .pushEntity name =>
    { p with core := { p.core with entityStack := name :: p.core.entityStack } }
  | .popEntity => { p with core := { p.core with entityStack := p.core.entityStack.tail } }
  | .putGeneralEntity name value =>
    p.updateContext (·.putGeneralEntity name value p.core.readsExternalMarkup)
  | .putParameterEntity name value accountingCount =>
    p.updateContext (·.putParameterEntity name value accountingCount)
  | .putExternalEntity e => p.putExternalEntity e
  | .recordAttributeDecl elementName d => p.updateContext (·.recordAttributeDecl elementName d)
  | .resolve request => p.resolve request

end Parser

abbrev Routine := Program Command Sight

namespace Routine

def sight : Routine Sight := Program.sight

def config : Routine Config := return (← sight).config
def core : Routine Core := return (← sight).core
def context : Routine EntityContext := return (← core).context
def flags : Routine Flags := return (← core).flags

def hasResolver : Routine Bool := return (← sight).hasResolver

def hasError : Routine Bool := return (← core).hasError

/-- `not has_error and not is_suspended`. -/
def isOngoing : Routine Bool := return !(← core).hasError && !(← core).isSuspended

def setError (message : String) : Routine Unit := Program.command (.setError message)

/-- `set_error` followed by the index at which the caller stops. -/
def failAt (message : String) (i : α) : Routine α := do
  setError message
  return i

def checkHandlerStop : Routine Unit := Program.command .checkHandlerStop

/-- Call a handler feature and honour a stop request. -/
def emit (e : Event) (h : e.isStructural = false := by rfl) : Routine Unit := do
  Program.command (.emit e h)
  checkHandlerStop

def emitText (text : String8) : Routine Unit := Program.command (.emitText text)
def emitDefault (text : String8) : Routine Unit := Program.command (.emitDefault text)

def emitDefaultRange (input : String8) (start stop : Nat) : Routine Unit :=
  emitDefault (input.substring start stop)

def emitDefaultWhen (kind : DefaultKind) (text : String8) : Routine Unit :=
  Program.command (.emitDefaultWhen kind text)

def notePosition (i : Nat) : Routine Unit := Program.command (.notePosition i)

def noteTokenPosition (i byteCount : Nat) : Routine Unit :=
  Program.command (.noteTokenPosition i byteCount)

def assign (f : Flags → Flags) : Routine Unit := Program.command (.assign f)

def noteEntityExpansion (count : Int) : Routine Unit :=
  Program.command (.noteEntityExpansion count)

def pushEntity (name : String8) : Routine Unit := Program.command (.pushEntity name)
def popEntity : Routine Unit := Program.command .popEntity

/-- Run `m` while the parse has no error. -/
def unlessError (m : Routine Unit) : Routine Unit := do
  unless ← hasError do m

/-- Run `m` while the parse has no error and is not suspended. -/
def whileOngoing (m : Routine Unit) : Routine Unit := do
  if ← isOngoing then m

end Routine

/-! ## Content -/

inductive Act where
  | routine (c : Command)
  | forceCurrentPosition
  | setPositionInput (input : String8)
  | setLazyPositionAccounting (enabled : Bool)
  | pushEntityReferencePosition (start byteCount : Nat)
  | popEntityReferencePosition
  | enterInternalEntity
  | leaveInternalEntity
  | countDocumentElement
  /-- Report a tag or a namespace that it declares. -/
  | emitStructural (e : Event)
  /-- `entity_element_floor := element_stack.count`, before the replacement text of an entity. -/
  | raiseFloor
  /-- Restore the floor after the replacement text. -/
  | restoreFloor (depth : Nat)
  | pushElement (name : String8)
  | pushElementSlice (name : TokenSlice)
  | popElement
  | pushNamespace (scope : NamespaceScope) (declared : List String8)
  | popNamespaceDeclarations
  | popNamespaceContext

namespace Parser

def step (a : Act) (p : Parser) : Parser :=
  match a with
  | .routine c => p.stepRoutine c
  | .forceCurrentPosition => { p with view := p.view.forceCurrentPosition }
  | .setPositionInput input => { p with view := { p.view with positionInput := input } }
  | .setLazyPositionAccounting enabled =>
    { p with view := { p.view with lazyPositionAccounting := enabled } }
  | .pushEntityReferencePosition start byteCount =>
    -- An entity inside an entity keeps the position of the reference in the document.
    let position := p.view.entityReferencePositions.head?.getD (start, byteCount)
    { p with view := { p.view with
      entityReferencePositions := position :: p.view.entityReferencePositions } }
  | .popEntityReferencePosition =>
    { p with view := { p.view with
      entityReferencePositions := p.view.entityReferencePositions.tail } }
  | .enterInternalEntity =>
    { p with view := { p.view with
      internalEntityExpansionDepth := p.view.internalEntityExpansionDepth + 1 } }
  | .leaveInternalEntity =>
    { p with view := { p.view with
      internalEntityExpansionDepth := p.view.internalEntityExpansionDepth - 1 } }
  | .countDocumentElement => { p with core := { p.core with documentElementCount := 1 } }
  | .emitStructural e => p.emit e
  | .raiseFloor => { p with elements := { p.elements with floor := p.elements.stack.length } }
  | .restoreFloor depth => { p with elements := { p.elements with floor := depth } }
  | .pushElement name =>
    { p with elements := { p.elements with stack := name :: p.elements.stack } }
  | .pushElementSlice name =>
    { p with elements := { p.elements with
      stack := [] :: p.elements.stack
      sliceStack := name :: p.elements.sliceStack } }
  | .popElement => { p with elements := p.elements.pop }
  | .pushNamespace scope declared =>
    { p with core := { p.core with
      namespaceContexts := scope :: p.core.namespaceContexts
      namespaceDeclarations := declared :: p.core.namespaceDeclarations } }
  | .popNamespaceDeclarations =>
    { p with core := { p.core with namespaceDeclarations := p.core.namespaceDeclarations.tail } }
  | .popNamespaceContext =>
    { p with core := { p.core with namespaceContexts := p.core.namespaceContexts.tail } }

/-- The parser as a machine. -/
def machine : Program.Machine Act Scene Parser where
  see := Parser.scene
  step := Parser.step

/-- The part of it that routines use. -/
def routineMachine : Program.Machine Command Sight Parser where
  see := Parser.sight
  step := Parser.stepRoutine

theorem routineMachine_eq : routineMachine = machine.restrict Act.routine Scene.sight := rfl

end Parser

abbrev Content := Program Act Scene

namespace Content

/-- A routine as content. -/
def ofRoutine (m : Routine α) : Content α := m.lift Act.routine Scene.sight

instance : MonadLift Routine Content := ⟨ofRoutine⟩

theorem run_ofRoutine (m : Routine α) (p : Parser) :
    (ofRoutine m).run Parser.machine p = m.run Parser.routineMachine p :=
  Program.run_lift Parser.machine Act.routine Scene.sight m p

def scene : Content Scene := Program.sight

def act (a : Act) : Content Unit := Program.command a

/-- Report a tag or a namespace and honour a stop request. -/
def emitStructural (e : Event) : Content Unit := do
  act (.emitStructural e)
  Routine.checkHandlerStop

end Content

end Xpact
