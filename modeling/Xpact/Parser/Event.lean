import Xpact.Entities.Context

/-!
# Events, handlers and resolvers

What a parser tells its handler, what it asks the handler, and what it asks the application for an
external entity.  A handler answers every question the same way during a parse, except that its
stop request may depend on the events it has received.  A resolver may remember earlier requests; it
sees the declarations at the reference, which a child parser would import.
-/

namespace Xpact

open Library

/-! ## Attributes -/

/-- `XP_ATTRIBUTES`: values by name, in insertion order. -/
structure Attributes where
  table : Table String8 String8
  specifiedAttributeCount : Nat
  idAttributeIndex : Int
  deriving DecidableEq

namespace Attributes

def make : Attributes := ⟨∅, 0, -1⟩

def count (a : Attributes) : Nat := a.table.entries.length

def has (a : Attributes) (name : String8) : Bool := decide (name ∈ a.table)

def item (a : Attributes) (name : String8) : Option String8 := a.table.lookup name

/-- The attributes as pairs of a name and a value, in insertion order. -/
def pairs (a : Attributes) : List (String8 × String8) := a.table.entries.map fun e ↦ (e.1, e.2)

def put (a : Attributes) (name value : String8) : Attributes :=
  { a with
    table := a.table.put name value
    specifiedAttributeCount := a.specifiedAttributeCount + 1 }

def putDefault (a : Attributes) (name value : String8) : Attributes :=
  { a with table := a.table.put name value }

def markIdAttribute (a : Attributes) (name : String8) : Attributes :=
  match a.table.keys.findIdx? (· == name) with
  | some i => { a with idAttributeIndex := i * 2 }
  | none => a

/-- Rewrite the value of `name` in place. -/
def replaceValue (a : Attributes) (name value : String8) : Attributes :=
  { a with table := a.table.replace name value }

end Attributes

/-! ## Content models -/

inductive ContentType where
  | empty | any | mixed | name | choice | sequence
  deriving DecidableEq, Repr

inductive Quantifier where
  | none | optional | repetition | plus
  deriving DecidableEq, Repr

/-- `XP_CONTENT_MODEL`. -/
inductive ContentModel where
  | node (contentType : ContentType) (quantifier : Quantifier) (name : Option String8)
      (children : List ContentModel)
  deriving Repr

namespace ContentModel

def children : ContentModel → List ContentModel
  | .node _ _ _ children => children

def addChild : ContentModel → ContentModel → ContentModel
  | .node t q n children, child => .node t q n (children ++ [child])

def setQuantifier : ContentModel → Quantifier → ContentModel
  | .node t _ n children, q => .node t q n children

end ContentModel

/-! ## Events -/

/-- One call of a handler feature. -/
inductive Event where
  | startElement (name : String8) (attributes : Attributes)
  | endElement (name : String8)
  | startNamespaceDecl (nsPrefix : Option String8) (uri : String8)
  | endNamespaceDecl (nsPrefix : Option String8)
  | characterData (text : String8)
  | processingInstruction (target data : String8)
  | xmlDeclaration (version encoding : String8) (standalone : Int)
  | comment (text : String8)
  | startCdataSection
  | endCdataSection
  | startDoctypeDecl (name : String8) (systemId publicId : Option String8)
      (hasInternalSubset : Bool)
  | endDoctypeDecl
  | elementDecl (name : String8) (model : ContentModel)
  | notationDecl (name : String8) (base systemId publicId : Option String8)
  | attlistDecl (elementName attributeName attributeType : String8)
      (defaultValue : Option String8) (isRequired : Bool)
  | entityDecl (name : String8) (isParameter : Bool)
      (value publicId systemId notationName : Option String8)
  | unparsedEntityDecl (name systemId : String8) (publicId notationName : Option String8)
  | skippedEntity (name : String8) (isParameter : Bool)
  /-- The handler is asked whether a document that is not standalone is acceptable. -/
  | notStandalone
  | default (text : String8)

/-- Does the event belong to the element structure?  Only tags report such an event. -/
@[reducible] def Event.isStructural : Event → Bool
  | .startElement .. | .endElement _ | .startNamespaceDecl .. | .endNamespaceDecl _ => true
  | _ => false

def Event.isXmlDeclaration : Event → Bool
  | .xmlDeclaration .. => true
  | _ => false

/-! ## Handlers -/

/-- The constructs whose raw text a handler may want through its default event. -/
inductive DefaultKind where
  | startElement | endElement | startDoctype | endDoctype | entityDecl (isUnparsed : Bool)
  | notationDecl | elementDecl | attlistDecl | comment | xmlDeclaration | processingInstruction
  | startCdata | endCdata | automaticCharacterData
  deriving DecidableEq

structure Handler where
  wantsStartElementEvents : Bool
  wantsEndElementEvents : Bool
  wantsCharacterDataEvents : Bool
  wantsDefaultEvents : Bool
  wantsLiteralCharacterDataDefault : Bool
  wantsDefault : DefaultKind → Bool
  expandsInternalGeneralEntityReferences : Bool
  reportsSkippedInternalGeneralEntities : Bool
  requiresEagerPositionAccounting : Bool
  /-- Is the handler an `XP_NULL_EVENT_HANDLER`? -/
  isNullEventHandler : Bool
  /-- The answer to `on_not_standalone`, which a parse asks at most once. -/
  onNotStandalone : Bool
  stopRequested : List Event → Bool
  stopIsResumable : List Event → Bool

namespace Handler

def wantsAutomaticCharacterDataDefault (h : Handler) : Bool :=
  h.wantsDefault .automaticCharacterData

/-- The handler never asks the parser to stop. -/
def NeverStops (h : Handler) : Prop := ∀ events, h.stopRequested events = false

/-- `XP_EVENT_HANDLER` without redefinitions: it receives every event. -/
def observing : Handler where
  wantsStartElementEvents := true
  wantsEndElementEvents := true
  wantsCharacterDataEvents := true
  wantsDefaultEvents := true
  wantsLiteralCharacterDataDefault := false
  wantsDefault _ := true
  expandsInternalGeneralEntityReferences := true
  reportsSkippedInternalGeneralEntities := false
  requiresEagerPositionAccounting := true
  isNullEventHandler := false
  onNotStandalone := true
  stopRequested _ := false
  stopIsResumable _ := false

/-- `XP_NULL_EVENT_HANDLER`: no element, text or default event, and no eager positions. -/
def null : Handler :=
  { observing with
    wantsStartElementEvents := false
    wantsEndElementEvents := false
    wantsCharacterDataEvents := false
    wantsDefaultEvents := false
    wantsDefault := fun
      | .automaticCharacterData => false
      | _ => true
    requiresEagerPositionAccounting := false
    isNullEventHandler := true }

/-- `XP_LITERAL_CHECK_HANDLER` for an application that has received `before`: a text declaration is
passed on to it, and its requests to stop are handed back. -/
def literalCheck (application : Handler) (before : List Event) : Handler :=
  { null with
    isNullEventHandler := false
    stopRequested := fun events ↦
      application.stopRequested (before ++ events.filter Event.isXmlDeclaration)
    stopIsResumable := fun events ↦
      application.stopIsResumable (before ++ events.filter Event.isXmlDeclaration) }

end Handler

/-! ## Resolvers -/

/-- A request for the replacement of an external entity. -/
structure Request where
  name : String8
  publicId : String8
  systemId : String8
  isParameter : Bool
  base : Option String8
  /-- `set_next_resolution_is_parameter_literal`. -/
  isParameterLiteral : Bool
  deriving DecidableEq

/-- A request, with what a child parser created for it would import. -/
structure Reference extends Request where
  declarations : Declarations
  activeEntities : List String8

/-- The answer: the text, and what the `last_…` queries of the resolver return for it. -/
structure Answer where
  text : Option String8
  isExternalChildParse : Bool
  resource : Option String8
  replacementByteCount : Int
  deriving DecidableEq

/-- An answer, with the declarations of the child parser whose context the application merges during
the call. -/
structure Resolution where
  answer : Answer
  child : Option Declarations
  /-- The resolver answers for a parameter entity that it has reported as skipped, that the application
  has not read, or whose text in a literal was read by a child that has skipped a reference.  The
  source hands nothing of this back: it is recorded for the statements about skipped references. -/
  hasSkipped : Bool := false

/-- What a request is answered, which may depend on the requests before it. -/
abbrev Resolver := List Reference → Reference → Resolution

/-- `XP_EXTERNAL_ENTITY_POLICY`. -/
inductive ExternalEntityPolicy where
  | noExternalEntities | externalGeneralEntities | externalParameterEntities | allExternalEntities
  deriving DecidableEq, Repr

def ExternalEntityPolicy.allowsGeneralEntities : ExternalEntityPolicy → Bool
  | .externalGeneralEntities | .allExternalEntities => true
  | _ => false

def ExternalEntityPolicy.allowsParameterEntities : ExternalEntityPolicy → Bool
  | .externalParameterEntities | .allExternalEntities => true
  | _ => false

end Xpact
