import Xpact.Entities.Context

/-!
# Merging declarations

Every change of the tables extends them: a lookup that succeeded keeps its result.  A snapshot keeps
only what its parser did not inherit, so merging it into a parser that still has what was inherited
is merging the whole of it (`merge_snapshot`), and merging it again changes nothing.
-/

namespace Xpact

open Library

namespace EntityContext

/-! ## Extension -/

/-- Every lookup that succeeds in `c` has the same result in `d`. -/
structure Extends (c d : EntityContext) : Prop where
  entity : ∀ name value, c.entityValue name = some value → d.entityValue name = some value
  parameterEntity : ∀ name value,
    c.parameterEntityValue name = some value → d.parameterEntityValue name = some value
  generalEntityExternalOrigin : ∀ name origin,
    c.generalEntityExternalOrigin.lookup name = some origin →
      d.generalEntityExternalOrigin.lookup name = some origin
  parameterEntityAccounting : ∀ name count,
    c.parameterEntityAccounting.lookup name = some count →
      d.parameterEntityAccounting.lookup name = some count
  externalEntity : ∀ name e,
    c.lookupExternalEntity name = some e → d.lookupExternalEntity name = some e
  externalParameterEntity : ∀ name e,
    c.lookupExternalParameterEntity name = some e → d.lookupExternalParameterEntity name = some e
  attributeDecl : ∀ elementName attributeName decl,
    c.attributeDeclaration elementName attributeName = some decl →
      d.attributeDeclaration elementName attributeName = some decl

theorem Extends.refl (c : EntityContext) : c.Extends c :=
  ⟨fun _ _ h ↦ h, fun _ _ h ↦ h, fun _ _ h ↦ h, fun _ _ h ↦ h, fun _ _ h ↦ h, fun _ _ h ↦ h,
    fun _ _ _ h ↦ h⟩

theorem Extends.trans {c d e : EntityContext} (hcd : c.Extends d) (hde : d.Extends e) :
    c.Extends e where
  entity name value h := hde.entity name value (hcd.entity name value h)
  parameterEntity name value h := hde.parameterEntity name value (hcd.parameterEntity name value h)
  generalEntityExternalOrigin name origin h :=
    hde.generalEntityExternalOrigin name origin (hcd.generalEntityExternalOrigin name origin h)
  parameterEntityAccounting name count h :=
    hde.parameterEntityAccounting name count (hcd.parameterEntityAccounting name count h)
  externalEntity name e h := hde.externalEntity name e (hcd.externalEntity name e h)
  externalParameterEntity name e h :=
    hde.externalParameterEntity name e (hcd.externalParameterEntity name e h)
  attributeDecl elementName attributeName decl h :=
    hde.attributeDecl elementName attributeName decl
      (hcd.attributeDecl elementName attributeName decl h)

/-- Copying into a context extends it. -/
theorem extends_copyInto (source target : EntityContext) :
    target.Extends (source.copyInto target) where
  entity _ _ h := Table.lookup_union_of_eq_some h
  parameterEntity _ _ h := Table.lookup_union_of_eq_some h
  generalEntityExternalOrigin _ _ h := Table.lookup_union_of_eq_some h
  parameterEntityAccounting _ _ h := Table.lookup_union_of_eq_some h
  externalEntity _ _ h := Table.lookup_union_of_eq_some h
  externalParameterEntity _ _ h := Table.lookup_union_of_eq_some h
  attributeDecl elementName attributeName decl h := by
    unfold attributeDeclaration at h ⊢
    rw [copyInto, Table.lookup₂_join, h, Option.some_or]

theorem extends_putGeneralEntity (c : EntityContext) (name value : String8) (fromExternal : Bool) :
    c.Extends (c.putGeneralEntity name value fromExternal) := by
  unfold putGeneralEntity
  split
  · exact { Extends.refl c with
      entity := fun _ _ h ↦ Table.lookup_union_of_eq_some h
      generalEntityExternalOrigin := fun _ _ h ↦ Table.lookup_union_of_eq_some h }
  · exact .refl c

theorem extends_putParameterEntity (c : EntityContext) (name value : String8) (count : Int) :
    c.Extends (c.putParameterEntity name value count) := by
  unfold putParameterEntity
  split
  · exact { Extends.refl c with
      parameterEntity := fun _ _ h ↦ Table.lookup_union_of_eq_some h
      parameterEntityAccounting := fun _ _ h ↦ Table.lookup_union_of_eq_some h }
  · exact .refl c

theorem extends_putExternalEntity (c : EntityContext) (e : ExternalEntity) (fromExternal : Bool) :
    c.Extends (c.putExternalEntity e fromExternal) := by
  unfold putExternalEntity
  split
  · split
    · exact { Extends.refl c with
        externalParameterEntity := fun _ _ h ↦ Table.lookup_union_of_eq_some h }
    · exact .refl c
  · split
    · exact { Extends.refl c with
        externalEntity := fun _ _ h ↦ Table.lookup_union_of_eq_some h
        generalEntityExternalOrigin := fun _ _ h ↦ Table.lookup_union_of_eq_some h }
    · exact .refl c

theorem extends_recordAttributeDecl (c : EntityContext) (elementName : String8)
    (d : AttributeDecl) : c.Extends (c.recordAttributeDecl elementName d) :=
  { Extends.refl c with
    attributeDecl := fun elementName attributeName decl h ↦ by
      unfold attributeDeclaration at h ⊢
      rw [recordAttributeDecl, Table.lookup₂_join, h, Option.some_or] }

/-! ## The predefined entities -/

/-- The predefined entities are declared. -/
def HasPredefined (c : EntityContext) : Prop := ∀ name, isPredefinedEntity name → name ∈ c.entity

theorem HasPredefined.mono {c d : EntityContext} (h : c.HasPredefined) (hcd : c.Extends d) :
    d.HasPredefined := by
  intro name hname
  exact Table.mem_of_lookup hcd.entity (h name hname)

theorem isPredefinedEntity_iff {name : String8} : isPredefinedEntity name = true ↔
    name = str "lt" ∨ name = str "gt" ∨ name = str "amp" ∨ name = str "apos" ∨
      name = str "quot" := by
  simp only [isPredefinedEntity, Bool.or_eq_true, beq_iff_eq, or_assoc]

theorem hasPredefined_predefined : predefined.HasPredefined := by
  intro name hname
  rcases isPredefinedEntity_iff.1 hname with rfl | rfl | rfl | rfl | rfl <;> decide

/-! ## Deltas -/

/-- The tables of `c` have every key that those of `base` have, attribute declarations apart. -/
structure Covers (c base : EntityContext) : Prop where
  entity : ∀ name ∈ base.entity, name ∈ c.entity
  parameterEntity : ∀ name ∈ base.parameterEntity, name ∈ c.parameterEntity
  generalEntityExternalOrigin :
    ∀ name ∈ base.generalEntityExternalOrigin, name ∈ c.generalEntityExternalOrigin
  parameterEntityAccounting :
    ∀ name ∈ base.parameterEntityAccounting, name ∈ c.parameterEntityAccounting
  externalEntity : ∀ name ∈ base.externalEntity, name ∈ c.externalEntity
  externalParameterEntity :
    ∀ name ∈ base.externalParameterEntity, name ∈ c.externalParameterEntity

theorem Covers.refl (c : EntityContext) : c.Covers c :=
  ⟨fun _ h ↦ h, fun _ h ↦ h, fun _ h ↦ h, fun _ h ↦ h, fun _ h ↦ h, fun _ h ↦ h⟩

/-- What the target inherited, and what every parser has, need not be copied into it. -/
theorem copyInto_delta {source inherited target : EntityContext} (hpredefined : target.HasPredefined)
    (hcovers : target.Covers inherited) :
    (source.delta inherited).copyInto target = source.copyInto target := by
  have hentity : target.entity ∪ (Table.restrict (fun k ↦ !isPredefinedEntity k)
      source.entity).delta inherited.entity = target.entity ∪ source.entity := by
    rw [Table.union_delta hcovers.entity]
    refine Table.union_restrict fun name _ hname ↦ hpredefined name ?_
    simpa using hname
  unfold copyInto delta
  simp only [hentity, Table.union_delta hcovers.parameterEntity,
    Table.union_delta hcovers.generalEntityExternalOrigin,
    Table.union_delta hcovers.parameterEntityAccounting, Table.union_delta hcovers.externalEntity,
    Table.union_delta hcovers.externalParameterEntity, Table.empty_join]

/-- Copying the same context twice is copying it once. -/
theorem copyInto_copyInto (source target : EntityContext) :
    source.copyInto (source.copyInto target) = source.copyInto target := by
  unfold copyInto
  simp only [Table.union_union_self, Table.join_join_self]

theorem copyInto_empty (source : EntityContext) : source.copyInto .empty = source := by
  unfold copyInto empty
  simp only [AList.empty_union, Table.empty_join]

theorem empty_copyInto (target : EntityContext) : empty.copyInto target = target := by
  unfold copyInto empty
  simp only [AList.union_empty, Table.join_empty]

/-- A context copied into itself stays as it is. -/
theorem copyInto_self (c : EntityContext) : c.copyInto c = c := by
  have h := copyInto_copyInto c .empty
  rwa [copyInto_empty] at h

/-- What is copied into a context that extends its tables adds nothing to it. -/
theorem copyInto_eq_self {source target : EntityContext} (hcovers : target.Covers source)
    (hattributes : target.attributeDecl.join source.attributeDecl = target.attributeDecl) :
    source.copyInto target = target := by
  unfold copyInto
  rw [Table.union_eq_left hcovers.entity, Table.union_eq_left hcovers.parameterEntity,
    Table.union_eq_left hcovers.generalEntityExternalOrigin,
    Table.union_eq_left hcovers.parameterEntityAccounting,
    Table.union_eq_left hcovers.externalEntity, Table.union_eq_left hcovers.externalParameterEntity,
    hattributes]

theorem covers_of_copyInto_eq_self {source target : EntityContext}
    (h : source.copyInto target = target) : target.Covers source where
  entity _ hname := Table.mem_of_union_eq_left (congrArg entity h) hname
  parameterEntity _ hname := Table.mem_of_union_eq_left (congrArg parameterEntity h) hname
  generalEntityExternalOrigin _ hname :=
    Table.mem_of_union_eq_left (congrArg generalEntityExternalOrigin h) hname
  parameterEntityAccounting _ hname :=
    Table.mem_of_union_eq_left (congrArg parameterEntityAccounting h) hname
  externalEntity _ hname := Table.mem_of_union_eq_left (congrArg externalEntity h) hname
  externalParameterEntity _ hname :=
    Table.mem_of_union_eq_left (congrArg externalParameterEntity h) hname

/-- Nor does a delta of it. -/
theorem delta_copyInto_eq_self {source inherited target : EntityContext}
    (h : source.copyInto target = target) : (source.delta inherited).copyInto target = target := by
  have hcovers := covers_of_copyInto_eq_self h
  apply copyInto_eq_self
  · exact {
      entity := fun _ hname ↦
        hcovers.entity _ (Table.mem_restrict.1 (Table.mem_restrict.1 hname).1).1
      parameterEntity := fun _ hname ↦ hcovers.parameterEntity _ (Table.mem_delta.1 hname).1
      generalEntityExternalOrigin := fun _ hname ↦
        hcovers.generalEntityExternalOrigin _ (Table.mem_delta.1 hname).1
      parameterEntityAccounting := fun _ hname ↦
        hcovers.parameterEntityAccounting _ (Table.mem_delta.1 hname).1
      externalEntity := fun _ hname ↦ hcovers.externalEntity _ (Table.mem_delta.1 hname).1
      externalParameterEntity := fun _ hname ↦
        hcovers.externalParameterEntity _ (Table.mem_delta.1 hname).1 }
  · show target.attributeDecl.join (Table.join ∅ source.attributeDecl) = target.attributeDecl
    rw [Table.empty_join]
    exact congrArg attributeDecl h

theorem Extends.covers {c d : EntityContext} (h : c.Extends d) : d.Covers c where
  entity _ := Table.mem_of_lookup h.entity
  parameterEntity _ := Table.mem_of_lookup h.parameterEntity
  generalEntityExternalOrigin _ := Table.mem_of_lookup h.generalEntityExternalOrigin
  parameterEntityAccounting _ := Table.mem_of_lookup h.parameterEntityAccounting
  externalEntity _ := Table.mem_of_lookup h.externalEntity
  externalParameterEntity _ := Table.mem_of_lookup h.externalParameterEntity

/-- A parser that has only what it inherited, and what every parser has, adds nothing. -/
theorem copyInto_predefined_eq_self {c : EntityContext} (h : predefined.Extends c) :
    (c.copyInto predefined).copyInto c = c := by
  have hcovers := h.covers
  apply copyInto_eq_self
  · exact {
      entity := fun name hname ↦ (AList.mem_union.1 hname).elim (hcovers.entity name) id
      parameterEntity := fun name hname ↦
        (AList.mem_union.1 hname).elim (hcovers.parameterEntity name) id
      generalEntityExternalOrigin := fun name hname ↦
        (AList.mem_union.1 hname).elim (hcovers.generalEntityExternalOrigin name) id
      parameterEntityAccounting := fun name hname ↦
        (AList.mem_union.1 hname).elim (hcovers.parameterEntityAccounting name) id
      externalEntity := fun name hname ↦
        (AList.mem_union.1 hname).elim (hcovers.externalEntity name) id
      externalParameterEntity := fun name hname ↦
        (AList.mem_union.1 hname).elim (hcovers.externalParameterEntity name) id }
  · show c.attributeDecl.join (Table.join ∅ c.attributeDecl) = c.attributeDecl
    rw [Table.empty_join]
    exact congrArg attributeDecl (copyInto_self c)

end EntityContext

namespace Declarations

open EntityContext

/-! ## Snapshots -/

theorem inheritedContext_importEntityContext (d parent : Declarations) (active : List String8) :
    (d.importEntityContext parent active).inheritedContext = parent.context := by
  unfold inheritedContext importEntityContext installInheritedEntityContext
  simp only [Option.getD_some, copyInto_empty]

/-- A snapshot holds the deltas and the flag of its parser. -/
theorem context_entityContextSnapshot (d : Declarations) :
    d.entityContextSnapshot.context = d.context.delta d.inheritedContext := by
  unfold entityContextSnapshot importEntityContext installInheritedEntityContext inheritedContext
  simp only [Option.getD_some, copyInto_empty, copyInto_self]

theorem dtdDeclarationsDisabled_entityContextSnapshot (d : Declarations) :
    d.entityContextSnapshot.dtdDeclarationsDisabled = d.dtdDeclarationsDisabled := by
  unfold entityContextSnapshot importEntityContext installInheritedEntityContext
  simp only [Bool.or_self]

/-- Merging a snapshot of a child is merging the child, wherever what the child inherited is. -/
theorem merge_snapshot {d child : Declarations} (hpredefined : d.context.HasPredefined)
    (hcovers : d.context.Covers child.inheritedContext) :
    d.mergeEntityContextFrom child.entityContextSnapshot = d.mergeEntityContextFrom child := by
  unfold mergeEntityContextFrom
  rw [context_entityContextSnapshot, dtdDeclarationsDisabled_entityContextSnapshot,
    copyInto_delta hpredefined hcovers]

/-- Merging the same declarations twice is merging them once. -/
theorem merge_merge (d child : Declarations) :
    (d.mergeEntityContextFrom child).mergeEntityContextFrom child =
      d.mergeEntityContextFrom child := by
  unfold mergeEntityContextFrom
  simp only [copyInto_copyInto, Bool.or_assoc, Bool.or_self]

theorem extends_merge (d child : Declarations) :
    d.context.Extends (d.mergeEntityContextFrom child).context :=
  extends_copyInto child.context d.context

theorem extends_installInherited (d : Declarations) :
    d.context.Extends d.installInheritedEntityContext.context :=
  extends_copyInto d.inheritedContext d.context

theorem hasPredefined_reset (d : Declarations) : d.reset.context.HasPredefined := by
  refine HasPredefined.mono ?_ (extends_installInherited _)
  exact hasPredefined_predefined

end Declarations

end Xpact
