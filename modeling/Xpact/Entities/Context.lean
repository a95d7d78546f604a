import Xpact.Library.Table
import Xpact.Text.Utf8

/-!
# Entity and attribute declarations

The declaration tables of a parser, the routines that write them, and the three routines that carry
them from one parser to another: `importEntityContext` hands the tables of a parent to a child,
`entityContextSnapshot` keeps what a child added, and `mergeEntityContextFrom` gives it back.
-/

namespace Xpact

open Library

/-- `XP_EXTERNAL_ENTITY`. -/
structure ExternalEntity where
  name : String8
  publicId : String8
  systemId : String8
  notationName : String8
  isParameter : Bool
  isUnparsed : Bool
  declarationBase : Option String8
  deriving DecidableEq

/-- `XP_ATTRIBUTE_DECL`. -/
structure AttributeDecl where
  name : String8
  attributeType : String8
  defaultValue : Option String8
  isRequired : Bool
  deriving DecidableEq

def AttributeDecl.isId (d : AttributeDecl) : Bool := d.attributeType == str "ID"

/-- The declarations of one element, by attribute name, in declaration order. -/
abbrev AttributeDecls := Table String8 AttributeDecl

/-- The seven declaration tables. -/
structure EntityContext where
  entity : Table String8 String8
  parameterEntity : Table String8 String8
  generalEntityExternalOrigin : Table String8 Nat
  parameterEntityAccounting : Table String8 Int
  externalEntity : Table String8 ExternalEntity
  externalParameterEntity : Table String8 ExternalEntity
  attributeDecl : Table String8 AttributeDecls
  deriving DecidableEq

def isPredefinedEntity (name : String8) : Bool :=
  name == str "lt" || name == str "gt" || name == str "amp" || name == str "apos" ||
    name == str "quot"

namespace EntityContext

def empty : EntityContext := ⟨∅, ∅, ∅, ∅, ∅, ∅, ∅⟩

/-! ## Recording declarations -/

/-- Record a general entity unless an internal or an external one has its name. -/
def putGeneralEntity (c : EntityContext) (name value : String8) (fromExternal : Bool) :
    EntityContext :=
  if name ∉ c.entity ∧ name ∉ c.externalEntity then
    { c with
      entity := c.entity.put name value
      generalEntityExternalOrigin := c.generalEntityExternalOrigin.put name fromExternal.toNat }
  else
    c

/-- Record a parameter entity; the source looks at the internal table only. -/
def putParameterEntity (c : EntityContext) (name value : String8) (accountingCount : Int) :
    EntityContext :=
  if name ∉ c.parameterEntity then
    { c with
      parameterEntity := c.parameterEntity.put name value
      parameterEntityAccounting := c.parameterEntityAccounting.put name accountingCount }
  else
    c

/-- Record an external entity unless an internal or an external one of its kind has its name. -/
def putExternalEntity (c : EntityContext) (e : ExternalEntity) (fromExternal : Bool) :
    EntityContext :=
  if e.isParameter then
    if e.name ∉ c.parameterEntity ∧ e.name ∉ c.externalParameterEntity then
      { c with externalParameterEntity := c.externalParameterEntity.put e.name e }
    else
      c
  else if e.name ∉ c.entity ∧ e.name ∉ c.externalEntity then
    { c with
      externalEntity := c.externalEntity.put e.name e
      generalEntityExternalOrigin := c.generalEntityExternalOrigin.put e.name fromExternal.toNat }
  else
    c

/-- Retain the first binding of an attribute of an element. -/
def recordAttributeDecl (c : EntityContext) (elementName : String8) (d : AttributeDecl) :
    EntityContext :=
  { c with
    attributeDecl := c.attributeDecl.join (AList.singleton elementName (AList.singleton d.name d)) }

/-- The tables right after `initialize_predefined_entities` on empty tables. -/
def predefined : EntityContext :=
  [("lt", "<"), ("gt", ">"), ("amp", "&"), ("apos", "'"), ("quot", "\"")].foldl
    (fun c e ↦ c.putGeneralEntity (str e.1) (str e.2) false) empty

/-! ## Lookups -/

def entityValue (c : EntityContext) (name : String8) : Option String8 := c.entity.lookup name

def parameterEntityValue (c : EntityContext) (name : String8) : Option String8 :=
  c.parameterEntity.lookup name

def lookupExternalEntity (c : EntityContext) (name : String8) : Option ExternalEntity :=
  c.externalEntity.lookup name

def lookupExternalParameterEntity (c : EntityContext) (name : String8) : Option ExternalEntity :=
  c.externalParameterEntity.lookup name

def isParameterEntityDeclared (c : EntityContext) (name : String8) : Bool :=
  decide (name ∈ c.parameterEntity) || decide (name ∈ c.externalParameterEntity)

def parameterEntityAccountingValue (c : EntityContext) (name : String8) : Int :=
  match c.parameterEntityAccounting.lookup name, c.parameterEntity.lookup name with
  | some count, _ => count
  | none, some value => value.length
  | none, none => 0

def isGeneralEntityDeclaredExternally (c : EntityContext) (name : String8) : Bool :=
  match c.generalEntityExternalOrigin.lookup name with
  | some flag => flag != 0
  | none => false

/-- The declaration of an attribute of an element. -/
def attributeDeclaration (c : EntityContext) (elementName attributeName : String8) :
    Option AttributeDecl :=
  c.attributeDecl.lookup₂ elementName attributeName

/-- The declarations of an element, in order. -/
def attributeDecls (c : EntityContext) (elementName : String8) : List AttributeDecl :=
  match c.attributeDecl.lookup elementName with
  | some decls => decls.entries.map Sigma.snd
  | none => []

/-! ## Copying tables -/

/-- Copy every binding of `source` into `target` without replacing one: the `copy_…_table_into`
family, table by table. -/
def copyInto (source target : EntityContext) : EntityContext where
  entity := target.entity ∪ source.entity
  parameterEntity := target.parameterEntity ∪ source.parameterEntity
  generalEntityExternalOrigin :=
    target.generalEntityExternalOrigin ∪ source.generalEntityExternalOrigin
  parameterEntityAccounting := target.parameterEntityAccounting ∪ source.parameterEntityAccounting
  externalEntity := target.externalEntity ∪ source.externalEntity
  externalParameterEntity := target.externalParameterEntity ∪ source.externalParameterEntity
  attributeDecl := target.attributeDecl.join source.attributeDecl

/-- What `source` has and `inherited` has not, as the `copy_…_entity_delta` family copies it; the
predefined entities are left out, and the attribute declarations are copied in full. -/
def delta (source inherited : EntityContext) : EntityContext where
  entity := (Table.restrict (fun k ↦ !isPredefinedEntity k) source.entity).delta inherited.entity
  parameterEntity := source.parameterEntity.delta inherited.parameterEntity
  generalEntityExternalOrigin :=
    source.generalEntityExternalOrigin.delta inherited.generalEntityExternalOrigin
  parameterEntityAccounting :=
    source.parameterEntityAccounting.delta inherited.parameterEntityAccounting
  externalEntity := source.externalEntity.delta inherited.externalEntity
  externalParameterEntity :=
    source.externalParameterEntity.delta inherited.externalParameterEntity
  attributeDecl := Table.join ∅ source.attributeDecl

end EntityContext

/-! ## The declaration state of a parser -/

/-- The tables with the flags that are imported, kept and merged with them.  `inherited` is what
`import_entity_context` took from a parent, absent in a parser without one. -/
structure Declarations where
  context : EntityContext
  dtdDeclarationsDisabled : Bool
  dtdHasParameterEntityReferences : Bool
  xmlStandalone : Int
  inherited : Option EntityContext
  inheritedDtdDeclarationsDisabled : Bool
  inheritedDtdIsStandalone : Bool
  inheritedActiveEntities : List String8
  deriving DecidableEq

namespace Declarations

def dtdIsStandalone (d : Declarations) : Bool := d.xmlStandalone == 1 || d.inheritedDtdIsStandalone

def inheritedContext (d : Declarations) : EntityContext := d.inherited.getD .empty

/-- `install_inherited_entity_context`. -/
def installInheritedEntityContext (d : Declarations) : Declarations :=
  { d with
    dtdDeclarationsDisabled := d.dtdDeclarationsDisabled || d.inheritedDtdDeclarationsDisabled
    dtdHasParameterEntityReferences :=
      d.dtdHasParameterEntityReferences || d.inheritedDtdDeclarationsDisabled
    context := d.inheritedContext.copyInto d.context }

/-- What `reset` does to the declarations: the tables are wiped, the predefined entities installed
and the inherited context copied in. -/
def reset (d : Declarations) : Declarations :=
  { d with
    context := .predefined
    dtdDeclarationsDisabled := false
    dtdHasParameterEntityReferences := false
    xmlStandalone := -1 }.installInheritedEntityContext

/-- The declarations of a parser that has just been created. -/
def initial : Declarations :=
  { context := .predefined
    dtdDeclarationsDisabled := false
    dtdHasParameterEntityReferences := false
    xmlStandalone := -1
    inherited := none
    inheritedDtdDeclarationsDisabled := false
    inheritedDtdIsStandalone := false
    inheritedActiveEntities := [] }

/-- Import the declarations of `parent` for a child; `active` are the parent's active entities. -/
def importEntityContext (d parent : Declarations) (active : List String8) : Declarations :=
  { d with
    inheritedDtdDeclarationsDisabled := parent.dtdDeclarationsDisabled
    inheritedDtdIsStandalone := parent.dtdIsStandalone
    inherited := some (parent.context.copyInto .empty)
    inheritedActiveEntities := active }.installInheritedEntityContext

/-- A detached parser that holds only the new declarations: a freshly created one whose tables are
filled with the deltas, and which then imports its own context. -/
def entityContextSnapshot (d : Declarations) : Declarations :=
  let filled : Declarations :=
    { initial with
      context := d.context.delta d.inheritedContext
      dtdDeclarationsDisabled := d.dtdDeclarationsDisabled
      inheritedDtdDeclarationsDisabled := d.dtdDeclarationsDisabled
      inheritedDtdIsStandalone := d.dtdIsStandalone }
  filled.importEntityContext filled []

/-- Merge the declarations that a child parsed. -/
def mergeEntityContextFrom (d child : Declarations) : Declarations :=
  { d with
    dtdDeclarationsDisabled := d.dtdDeclarationsDisabled || child.dtdDeclarationsDisabled
    dtdHasParameterEntityReferences :=
      d.dtdHasParameterEntityReferences || child.dtdDeclarationsDisabled
    context := child.context.copyInto d.context }

end Declarations

end Xpact
