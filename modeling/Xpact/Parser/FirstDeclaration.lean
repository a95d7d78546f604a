import Xpact.Parser.Frames

/-!
# The first declaration of an entity binds

Entity declarations are recorded in four tables, internal and external, general and parameter.  A
history is the list of the declarations that were processed, of a child parser those of its parent
first.  `Declared` relates the declarations of a parser to its history.  The name of an external
parameter entity is free for an internal one, which then hides it; where no declaration does that,
every name is bound to its first declaration and to no other.
-/

namespace Xpact

open Library

/-! ## Bindings -/

/-- What a declaration binds a name to. -/
inductive Binding where
  | internal (value : String8)
  | external (e : ExternalEntity)
  deriving DecidableEq

/-- A declaration of a general or a parameter entity. -/
structure EntityDeclaration where
  isParameter : Bool
  name : String8
  binding : Binding
  deriving DecidableEq

/-- The entity that a change of the tables declares. -/
def Declaration.entity : Declaration → Option EntityDeclaration
  | .generalEntity name value _ => some ⟨false, name, .internal value⟩
  | .parameterEntity name value _ => some ⟨true, name, .internal value⟩
  | .externalEntity e _ => some ⟨e.isParameter, e.name, .external e⟩
  | .attributeDecl _ _ | .merge _ => none

/-- The binding that `d` gives to the name of an entity. -/
def EntityDeclaration.bindingOf (d : EntityDeclaration) (isParameter : Bool) (name : String8) :
    Option Binding :=
  if isParameter = d.isParameter ∧ name = d.name then some d.binding else none

/-- The binding by the first declaration of a name in a history. -/
def firstBinding (history : List EntityDeclaration) (isParameter : Bool) (name : String8) :
    Option Binding :=
  history.findSome? fun d ↦ d.bindingOf isParameter name

theorem firstBinding_append (history more : List EntityDeclaration) (isParameter : Bool)
    (name : String8) : firstBinding (history ++ more) isParameter name =
      (firstBinding history isParameter name).or (firstBinding more isParameter name) :=
  List.findSome?_append

theorem firstBinding_singleton (d : EntityDeclaration) (isParameter : Bool) (name : String8) :
    firstBinding [d] isParameter name = d.bindingOf isParameter name := by
  unfold firstBinding
  rw [List.findSome?_cons]
  cases d.bindingOf isParameter name <;> rfl

/-- What the history of a parent binds, the longer one of a child binds in the same way. -/
theorem firstBinding_of_isPrefix {history later : List EntityDeclaration} {isParameter : Bool}
    {name : String8} {b : Binding} (h : firstBinding history isParameter name = some b)
    (hbegins : history <+: later) : firstBinding later isParameter name = some b := by
  obtain ⟨more, rfl⟩ := hbegins
  rw [firstBinding_append, h, Option.some_or]

namespace EntityContext

/-- The table of the internal entities of a kind. -/
def internals (c : EntityContext) : Bool → Table String8 String8
  | true => c.parameterEntity
  | false => c.entity

/-- The table of the external entities of a kind. -/
def externals (c : EntityContext) : Bool → Table String8 ExternalEntity
  | true => c.externalParameterEntity
  | false => c.externalEntity

/-- What a name is bound to by two tables of which the internal one comes first. -/
def bindingIn (internals : Table String8 String8) (externals : Table String8 ExternalEntity)
    (name : String8) : Option Binding :=
  ((internals.lookup name).map .internal).or ((externals.lookup name).map .external)

/-- What a reference finds: every routine that expands one looks at the internal table first. -/
def binding (c : EntityContext) (isParameter : Bool) (name : String8) : Option Binding :=
  bindingIn (c.internals isParameter) (c.externals isParameter) name

/-- No name is in the internal and in the external table of its kind. -/
def IsDisjoint (c : EntityContext) : Prop :=
  ∀ isParameter name, name ∈ c.internals isParameter → name ∉ c.externals isParameter

/-- Every name is bound to its first declaration in the history, and in one table only. -/
structure BindsFirst (c : EntityContext) (history : List EntityDeclaration) : Prop where
  binding : ∀ isParameter name, c.binding isParameter name = firstBinding history isParameter name
  disjoint : c.IsDisjoint

/-! ## Two tables -/

section

variable {internals : Table String8 String8} {externals : Table String8 ExternalEntity}
  {name : String8}

theorem bindingIn_eq_none : bindingIn internals externals name = none ↔
    name ∉ internals ∧ name ∉ externals := by
  unfold bindingIn
  rw [Option.or_eq_none_iff, Option.map_eq_none_iff, Option.map_eq_none_iff, AList.lookup_eq_none,
    AList.lookup_eq_none]

/-- A later declaration of a bound name adds nothing. -/
theorem bindingIn_or_of_bound (h : ¬(name ∉ internals ∧ name ∉ externals)) (b : Binding)
    (other : String8) : (bindingIn internals externals other).or
      (if other = name then some b else none) = bindingIn internals externals other := by
  by_cases hother : other = name
  · subst hother
    obtain ⟨b', hb'⟩ := Option.ne_none_iff_exists'.1 fun hnone ↦ h (bindingIn_eq_none.1 hnone)
    rw [hb', Option.some_or]
  · rw [if_neg hother, Option.or_none]

theorem bindingIn_putInternal (h : name ∉ internals ∧ name ∉ externals) (value other : String8) :
    bindingIn (internals.put name value) externals other =
      (bindingIn internals externals other).or
        (if other = name then some (.internal value) else none) := by
  unfold bindingIn
  rw [Table.lookup_put]
  by_cases hother : other = name
  · subst hother
    rw [AList.lookup_eq_none.2 h.1, AList.lookup_eq_none.2 h.2]
    simp
  · simp [hother]

theorem bindingIn_putExternal (h : name ∉ internals ∧ name ∉ externals) (e : ExternalEntity)
    (other : String8) : bindingIn internals (externals.put name e) other =
      (bindingIn internals externals other).or
        (if other = name then some (.external e) else none) := by
  unfold bindingIn
  rw [Table.lookup_put]
  by_cases hother : other = name
  · subst hother
    rw [AList.lookup_eq_none.2 h.1, AList.lookup_eq_none.2 h.2]
    simp
  · simp [hother]

end

/-! ## One declaration -/

/-- The declaration is not an internal one of a parameter entity that is known as external only. -/
def HidesNothing (c : EntityContext) : Declaration → Prop
  | .parameterEntity name _ _ => name ∈ c.externalParameterEntity → name ∈ c.parameterEntity
  | _ => True

instance (c : EntityContext) : DecidablePred c.HidesNothing
  | .parameterEntity name _ _ =>
    inferInstanceAs (Decidable (name ∈ c.externalParameterEntity → name ∈ c.parameterEntity))
  | .generalEntity .. | .externalEntity .. | .attributeDecl .. | .merge _ => isTrue trivial

theorem binding_putGeneralEntity (c : EntityContext) (name value : String8) (fromExternal : Bool)
    (isParameter : Bool) (other : String8) :
    (c.putGeneralEntity name value fromExternal).binding isParameter other =
      (c.binding isParameter other).or
        (EntityDeclaration.bindingOf ⟨false, name, .internal value⟩ isParameter other) := by
  unfold putGeneralEntity EntityDeclaration.bindingOf binding
  cases isParameter with
  | true => split <;> simp [internals, externals]
  | false =>
    simp only [true_and]
    split
    · exact bindingIn_putInternal ‹_› value other
    · exact (bindingIn_or_of_bound ‹_› _ other).symm

theorem binding_putParameterEntity {c : EntityContext} {name value : String8} {count : Int}
    (h : c.HidesNothing (.parameterEntity name value count)) (isParameter : Bool)
    (other : String8) :
    (c.putParameterEntity name value count).binding isParameter other =
      (c.binding isParameter other).or
        (EntityDeclaration.bindingOf ⟨true, name, .internal value⟩ isParameter other) := by
  unfold putParameterEntity EntityDeclaration.bindingOf binding
  cases isParameter with
  | false => split <;> simp [internals, externals]
  | true =>
    simp only [true_and]
    split
    · rename_i hname
      exact bindingIn_putInternal ⟨hname, fun hexternal ↦ hname (h hexternal)⟩ value other
    · rename_i hname
      exact (bindingIn_or_of_bound (fun hfree ↦ hname hfree.1) _ other).symm

theorem binding_putExternalEntity (c : EntityContext) (e : ExternalEntity) (fromExternal : Bool)
    (isParameter : Bool) (other : String8) :
    (c.putExternalEntity e fromExternal).binding isParameter other =
      (c.binding isParameter other).or
        (EntityDeclaration.bindingOf ⟨e.isParameter, e.name, .external e⟩ isParameter other) := by
  unfold putExternalEntity EntityDeclaration.bindingOf binding
  cases he : e.isParameter <;> cases isParameter <;> simp only [Bool.false_eq_true, if_false,
    if_true, true_and, false_and, Option.or_none, reduceCtorEq]
  · split
    · exact bindingIn_putExternal ‹_› e other
    · exact (bindingIn_or_of_bound ‹_› _ other).symm
  · split <;> rfl
  · split <;> rfl
  · split
    · exact bindingIn_putExternal ‹_› e other
    · exact (bindingIn_or_of_bound ‹_› _ other).symm

theorem binding_declare {c : EntityContext} {δ : Declaration} (hδ : c.HidesNothing δ)
    (hmerge : ∀ child, δ ≠ .merge child) (isParameter : Bool) (name : String8) :
    (c.declare δ).binding isParameter name =
      (c.binding isParameter name).or (firstBinding δ.entity.toList isParameter name) := by
  cases δ with
  | generalEntity declared value fromExternal =>
    rw [Declaration.entity, Option.toList_some, firstBinding_singleton]
    exact binding_putGeneralEntity c declared value fromExternal isParameter name
  | parameterEntity declared value count =>
    rw [Declaration.entity, Option.toList_some, firstBinding_singleton]
    exact binding_putParameterEntity hδ isParameter name
  | externalEntity e fromExternal =>
    rw [Declaration.entity, Option.toList_some, firstBinding_singleton]
    exact binding_putExternalEntity c e fromExternal isParameter name
  | attributeDecl elementName d =>
    rw [Declaration.entity, Option.toList_none, firstBinding, List.findSome?_nil, Option.or_none]
    cases isParameter <;> rfl
  | merge child => exact absurd rfl (hmerge child)

/-- A name that is put into one table of a kind must not be in the other. -/
theorem disjoint_put {ν μ : Type} {t : Table String8 ν} {u : Table String8 μ} {name : String8}
    {value : ν} (hdisjoint : ∀ other ∈ t, other ∉ u) (hname : name ∉ u) :
    ∀ other ∈ t.put name value, other ∉ u := by
  intro other hother
  rcases Table.mem_put.1 hother with hother | rfl
  · exact hdisjoint other hother
  · exact hname

theorem isDisjoint_declare {c : EntityContext} {δ : Declaration} (hc : c.IsDisjoint)
    (hδ : c.HidesNothing δ) (hmerge : ∀ child, δ ≠ .merge child) : (c.declare δ).IsDisjoint := by
  have hgeneral : ∀ name ∈ c.entity, name ∉ c.externalEntity := hc false
  have hparameter : ∀ name ∈ c.parameterEntity, name ∉ c.externalParameterEntity := hc true
  have hof : ∀ d : EntityContext, (∀ name ∈ d.entity, name ∉ d.externalEntity) →
      (∀ name ∈ d.parameterEntity, name ∉ d.externalParameterEntity) → d.IsDisjoint := by
    intro d hd hd' isParameter
    cases isParameter with
    | false => exact hd
    | true => exact hd'
  cases δ with
  | generalEntity name value fromExternal =>
    simp only [declare, putGeneralEntity]
    split
    · rename_i hname
      exact hof _ (disjoint_put hgeneral hname.2) hparameter
    · exact hc
  | parameterEntity name value count =>
    simp only [declare, putParameterEntity]
    split
    · rename_i hname
      exact hof _ hgeneral (disjoint_put hparameter fun hexternal ↦ hname (hδ hexternal))
    · exact hc
  | externalEntity e fromExternal =>
    have hswap : ∀ {ν μ : Type} {t : Table String8 ν} {u : Table String8 μ},
        (∀ name ∈ t, name ∉ u) → ∀ name ∈ u, name ∉ t :=
      fun h name hu ht ↦ h name ht hu
    simp only [declare, putExternalEntity]
    split
    · split
      · rename_i hname
        exact hof _ hgeneral (hswap (disjoint_put (hswap hparameter) hname.1))
      · exact hc
    · split
      · rename_i hname
        exact hof _ (hswap (disjoint_put (hswap hgeneral) hname.1)) hparameter
      · exact hc
  | attributeDecl elementName d => exact hof _ hgeneral hparameter
  | merge child => exact absurd rfl (hmerge child)

/-! ## Merging a child -/

theorem bindingIn_eq_internal {internals : Table String8 String8} {name : String8}
    (h : name ∈ internals) (externals : Table String8 ExternalEntity) :
    ∃ value, bindingIn internals externals name = some (.internal value) := by
  obtain ⟨value, hvalue⟩ := Option.isSome_iff_exists.1 (AList.lookup_isSome.2 h)
  exact ⟨value, by rw [bindingIn, hvalue, Option.map_some, Option.some_or]⟩

theorem notMem_of_bindingIn_external {internals : Table String8 String8}
    {externals : Table String8 ExternalEntity} {name : String8} {e : ExternalEntity}
    (h : bindingIn internals externals name = some (.external e)) : name ∉ internals := by
  intro hname
  obtain ⟨value, hvalue⟩ := bindingIn_eq_internal hname externals
  rw [hvalue] at h
  cases h

section

variable {internals internals' : Table String8 String8}
  {externals externals' : Table String8 ExternalEntity}
  (hsame : ∀ name b, bindingIn internals externals name = some b →
    bindingIn internals' externals' name = some b)
include hsame

/-- The tables of a child that binds what the parent binds, joined to those of the parent, bind what
they bind alone. -/
theorem bindingIn_union (name : String8) :
    bindingIn (internals ∪ internals') (externals ∪ externals') name =
      bindingIn internals' externals' name := by
  cases hb : bindingIn internals externals name with
  | none =>
    obtain ⟨hinternal, hexternal⟩ := bindingIn_eq_none.1 hb
    unfold bindingIn
    rw [Table.lookup_union, Table.lookup_union, AList.lookup_eq_none.2 hinternal,
      AList.lookup_eq_none.2 hexternal, Option.none_or, Option.none_or]
  | some b =>
    rw [hsame name b hb]
    cases b with
    | internal value =>
      have hvalue : internals.lookup name = some value := by
        cases hlookup : internals.lookup name <;> simp_all [bindingIn]
      rw [bindingIn, Table.lookup_union, hvalue, Option.some_or, Option.map_some, Option.some_or]
    | external e =>
      have hinternal := AList.lookup_eq_none.2 (notMem_of_bindingIn_external hb)
      have hinternal' := AList.lookup_eq_none.2 (notMem_of_bindingIn_external (hsame name _ hb))
      have he : externals.lookup name = some e := by
        cases hlookup : externals.lookup name <;> simp_all [bindingIn]
      rw [bindingIn, Table.lookup_union, Table.lookup_union, hinternal, hinternal', he]
      rfl

theorem disjoint_union (hdisjoint : ∀ name ∈ internals, name ∉ externals)
    (hdisjoint' : ∀ name ∈ internals', name ∉ externals') :
    ∀ name ∈ internals ∪ internals', name ∉ externals ∪ externals' := by
  have hinternal : ∀ name ∈ internals, name ∈ internals' := by
    intro name hname
    obtain ⟨value, hvalue⟩ := bindingIn_eq_internal hname externals
    by_contra hnot
    have hvalue' := hsame name _ hvalue
    rw [bindingIn, AList.lookup_eq_none.2 hnot] at hvalue'
    cases he : externals'.lookup name <;> simp [he] at hvalue'
  have hexternal : ∀ name ∈ externals, name ∉ internals → name ∉ internals' := by
    intro name hname hnot
    obtain ⟨e, he⟩ := Option.isSome_iff_exists.1 (AList.lookup_isSome.2 hname)
    refine notMem_of_bindingIn_external (hsame name (.external e) ?_)
    rw [bindingIn, AList.lookup_eq_none.2 hnot, he]
    rfl
  intro name hname hname'
  have hmem : name ∈ internals' := (AList.mem_union.1 hname).elim (hinternal name) id
  rcases AList.mem_union.1 hname' with hext | hext
  · exact hexternal name hext (fun hin ↦ hdisjoint name hin hext) hmem
  · exact hdisjoint' name hmem hext

end

namespace BindsFirst

variable {c child : EntityContext} {history history' : List EntityDeclaration}

theorem empty : EntityContext.empty.BindsFirst [] where
  binding isParameter name := by cases isParameter <;> rfl
  disjoint isParameter name h := by cases isParameter <;> cases h

theorem declare (hc : c.BindsFirst history) {δ : Declaration} (hδ : c.HidesNothing δ)
    (hmerge : ∀ child, δ ≠ .merge child) :
    (c.declare δ).BindsFirst (history ++ δ.entity.toList) where
  binding isParameter name := by
    rw [binding_declare hδ hmerge, hc.binding, firstBinding_append]
  disjoint := isDisjoint_declare hc.disjoint hδ hmerge

/-- A child continues the history of its parent; so does the parent after the merge. -/
theorem copyInto (hc : c.BindsFirst history) (hchild : child.BindsFirst history')
    (hbegins : history <+: history') : (child.copyInto c).BindsFirst history' := by
  have hsame : ∀ isParameter name b, c.binding isParameter name = some b →
      child.binding isParameter name = some b := by
    intro isParameter name b hb
    rw [hc.binding] at hb
    rw [hchild.binding]
    exact firstBinding_of_isPrefix hb hbegins
  constructor
  · intro isParameter name
    rw [← hchild.binding]
    cases isParameter with
    | true => exact bindingIn_union (hsame true) name
    | false => exact bindingIn_union (hsame false) name
  · intro isParameter
    cases isParameter with
    | true => exact disjoint_union (hsame true) (hc.disjoint true) (hchild.disjoint true)
    | false => exact disjoint_union (hsame false) (hc.disjoint false) (hchild.disjoint false)

end BindsFirst

end EntityContext

/-! ## Histories -/

/-- The declarations that every parser starts with. -/
def predefinedDeclarations : List EntityDeclaration :=
  [("lt", "<"), ("gt", ">"), ("amp", "&"), ("apos", "'"), ("quot", "\"")].map fun e ↦
    ⟨false, str e.1, .internal (str e.2)⟩

theorem EntityContext.BindsFirst.putGeneralEntities {c : EntityContext}
    {history : List EntityDeclaration} (hc : c.BindsFirst history) (es : List (String × String)) :
    (es.foldl (fun c e ↦ c.putGeneralEntity (str e.1) (str e.2) false) c).BindsFirst
      (history ++ es.map fun e ↦ ⟨false, str e.1, .internal (str e.2)⟩) := by
  induction es generalizing c history with
  | nil => simpa using hc
  | cons e es ih =>
    have hput : (c.declare (.generalEntity (str e.1) (str e.2) false)).BindsFirst _ :=
      hc.declare trivial (by rintro child ⟨⟩)
    rw [List.foldl_cons, List.map_cons, List.append_cons]
    exact ih hput

theorem EntityContext.BindsFirst.predefined :
    EntityContext.predefined.BindsFirst predefinedDeclarations :=
  BindsFirst.empty.putGeneralEntities _

/-- `Declared allowed inherited d history`: a parser with the declarations `d` has processed
`history`, of which it inherited `inherited`, and each declaration was `allowed` where it stood. -/
inductive Declared (allowed : EntityContext → Declaration → Prop) :
    List EntityDeclaration → Declarations → List EntityDeclaration → Prop where
  | created : Declared allowed predefinedDeclarations .initial predefinedDeclarations
  | imported {inherited history parent} {fresh : Declarations} (active : List String8)
      (hparent : Declared allowed inherited parent history) (hfresh : fresh.context = .predefined) :
      Declared allowed history (fresh.importEntityContext parent active) history
  | reset {inherited history d} (h : Declared allowed inherited d history) :
      Declared allowed inherited d.reset inherited
  /-- Flags change, tables do not. -/
  | steer {inherited history} {d d' : Declarations} (h : Declared allowed inherited d history)
      (hcontext : d'.context = d.context) (hinherited : d'.inherited = d.inherited) :
      Declared allowed inherited d' history
  | declare {inherited history} {d : Declarations} (h : Declared allowed inherited d history)
      (δ : Declaration) (hmerge : ∀ child, δ ≠ .merge child) (hδ : allowed d.context δ) :
      Declared allowed inherited { d with context := d.context.declare δ }
        (history ++ δ.entity.toList)
  /-- The child was created where the parent is now, and has gone on from there. -/
  | merge {inherited history history' d child} (h : Declared allowed inherited d history)
      (hchild : Declared allowed history child history') :
      Declared allowed inherited (d.mergeEntityContextFrom child) history'

namespace Declared

open EntityContext

variable {allowed : EntityContext → Declaration → Prop}
  {inherited history : List EntityDeclaration} {d : Declarations}

/-- A history begins with what was inherited, and that with the predefined entities. -/
theorem isPrefix (h : Declared allowed inherited d history) :
    predefinedDeclarations <+: inherited ∧ inherited <+: history := by
  induction h with
  | created => exact ⟨List.prefix_rfl, List.prefix_rfl⟩
  | imported active _ _ ih => exact ⟨ih.1.trans ih.2, List.prefix_rfl⟩
  | reset _ ih => exact ⟨ih.1, List.prefix_rfl⟩
  | steer _ _ _ ih => exact ih
  | declare _ δ _ _ ih => exact ⟨ih.1, ih.2.trans (List.prefix_append ..)⟩
  | merge _ _ ih ihChild => exact ⟨ih.1, ih.2.trans ihChild.2⟩

/-- What a parser inherited binds first, and so do its tables, as long as no declaration hides one. -/
theorem invariant (h : Declared HidesNothing inherited d history) :
    (d.inheritedContext.copyInto .predefined).BindsFirst inherited ∧
      d.context.BindsFirst history := by
  induction h with
  | created =>
    have hinherited : Declarations.initial.inheritedContext = .empty := rfl
    rw [hinherited, empty_copyInto]
    exact ⟨.predefined, .predefined⟩
  | @imported inherited history parent fresh active hparent hfresh ih =>
    have hbegins := hparent.isPrefix
    have hbase : (parent.context.copyInto .predefined).BindsFirst history :=
      BindsFirst.predefined.copyInto ih.2 (hbegins.1.trans hbegins.2)
    refine ⟨?_, ?_⟩
    · rwa [Declarations.inheritedContext_importEntityContext]
    · rw [← Declarations.inheritedContext_importEntityContext fresh parent active, ← hfresh]
        at hbase
      exact hbase
  | reset _ ih => exact ⟨ih.1, ih.1⟩
  | steer _ hcontext hinherited ih =>
    refine ⟨?_, hcontext ▸ ih.2⟩
    unfold Declarations.inheritedContext
    rw [hinherited]
    exact ih.1
  | declare _ δ hmerge hδ ih => exact ⟨ih.1, ih.2.declare hδ hmerge⟩
  | merge _ hchild ih ihChild => exact ⟨ih.1, ih.2.copyInto ihChild.2 hchild.isPrefix.2⟩

end Declared

/-! ## Histories of a parse -/

/-- Every child that the resolver merges was created for the reference, and has gone on from the
history of its parent. -/
def Resolver.Continues (r : Resolver) (allowed : EntityContext → Declaration → Prop) : Prop :=
  ∀ requests reference inherited history child, (r requests reference).child = some child →
    Declared allowed inherited reference.declarations history →
      ∃ history', Declared allowed history child history'

namespace Parser

/-- Each declaration that the commands record is allowed where it stands. -/
def Records (allowed : EntityContext → Declaration → Prop) : List Act → Parser → Prop
  | [], _ => True
  | a :: acts, p =>
    (∀ δ, p.declaration a = some δ → allowed p.core.context δ) ∧ Records allowed acts (p.step a)

section

variable {allowed : EntityContext → Declaration → Prop} {p : Parser}
  {inherited history : List EntityDeclaration}

theorem declaration_merge {a : Act} {child : Declarations}
    (h : p.declaration a = some (.merge child)) :
    ∃ r request, p.externalEntityResolver = some r ∧
      (r p.requests (p.reference request)).child = some child := by
  cases a with
  | routine c =>
    cases c with
    | resolve request =>
      simp only [declaration, resolution, Option.bind_map, Option.bind_eq_some_iff,
        Function.comp_apply, Option.map_eq_some_iff, Declaration.merge.injEq] at h
      obtain ⟨r, hr, child', hchild, rfl⟩ := h
      exact ⟨r, request, hr, hchild⟩
    | _ => cases h
  | _ => cases h

/-- One command continues the history by what it declares. -/
theorem declared_step (hr : ∀ r, p.externalEntityResolver = some r → r.Continues allowed)
    {a : Act} (ha : ∀ δ, p.declaration a = some δ → allowed p.core.context δ)
    (h : Declared allowed inherited p.core.declarations history) :
    ∃ history', history <+: history' ∧
      Declared allowed inherited (p.step a).core.declarations history' := by
  have hinherited : (p.step a).core.declarations.inherited = p.core.declarations.inherited :=
    congrArg (fun s : Settings ↦ s.inheritance.context) (step_settings a p)
  have hcontext := step_context a p
  cases hδ : p.declaration a with
  | none =>
    rw [hδ] at hcontext
    exact ⟨history, List.prefix_rfl, h.steer hcontext hinherited⟩
  | some δ =>
    rw [hδ] at hcontext
    by_cases hmerge : ∃ child, δ = .merge child
    · obtain ⟨child, rfl⟩ := hmerge
      obtain ⟨r, request, hresolver, hchild⟩ := declaration_merge hδ
      obtain ⟨history', hdeclared⟩ := hr r hresolver _ _ _ _ _ hchild h
      exact ⟨history', hdeclared.isPrefix.2,
        (Declared.merge h hdeclared).steer hcontext hinherited⟩
    · have hother : ∀ child, δ ≠ .merge child := fun child hchild ↦ hmerge ⟨child, hchild⟩
      exact ⟨_, List.prefix_append ..,
        (Declared.declare h δ hother (ha δ hδ)).steer hcontext hinherited⟩

theorem declared_execute (acts : List Act)
    (hr : ∀ r, p.externalEntityResolver = some r → r.Continues allowed) (hacts : Records allowed acts p)
    (h : Declared allowed inherited p.core.declarations history) :
    ∃ history', history <+: history' ∧
      Declared allowed inherited (machine.execute acts p).core.declarations history' := by
  induction acts generalizing p history with
  | nil => exact ⟨history, List.prefix_rfl, h⟩
  | cons a acts ih =>
    obtain ⟨middle, hmiddle, hstep⟩ := declared_step hr hacts.1 h
    obtain ⟨history', hbegins, hrest⟩ := ih (step_resolver a p ▸ hr) hacts.2 hstep
    exact ⟨history', hmiddle.trans hbegins, hrest⟩

/-- Every state of a parse has a history, which goes on from what the parser inherited. -/
theorem declared_stateAt (hr : ∀ r, p.externalEntityResolver = some r → r.Continues allowed)
    (entry : Entry) (bound : Nat) (input : String8) (n : Nat)
    (hacts : Records allowed
      (((entry.program bound input).trace machine (p.start entry)).take n) (p.start entry))
    (h : Declared allowed inherited p.core.declarations history) :
    ∃ history', Declared allowed inherited (stateAt entry bound input n p).core.declarations
      history' := by
  have hstart : Declared allowed inherited (p.start entry).core.declarations inherited := h.reset
  have hr' : ∀ r, (p.start entry).externalEntityResolver = some r → r.Continues allowed := hr
  obtain ⟨history', -, hdeclared⟩ := declared_execute _ hr' hacts hstart
  exact ⟨history', hdeclared⟩

end

end Parser

/-- In every sequence of declarations none of which is an internal one of a parameter entity that is
known as external only, every name is bound to its first declaration and to no other, and is in one
table of its kind only. -/
theorem first_declaration_binds {inherited history : List EntityDeclaration} {d : Declarations}
    (h : Declared EntityContext.HidesNothing inherited d history) :
    (∀ isParameter name,
      d.context.binding isParameter name = firstBinding history isParameter name) ∧
    d.context.IsDisjoint :=
  ⟨h.invariant.2.binding, h.invariant.2.disjoint⟩

/-- A child declares a parameter entity; the parent, which merges it, declares the name again. -/
theorem first_declaration_binds_child :
    ∃ d, (Declarations.context d).binding true (str "p") = some (.internal (str "1")) := by
  have hparent : Declared EntityContext.HidesNothing _ .initial _ := .created
  have hchild := Declared.declare (.imported [] hparent (rfl : Declarations.initial.context = _))
    (.parameterEntity (str "p") (str "1") 1) (fun _ h ↦ by cases h) (by decide)
  have hmerged := Declared.declare (.merge hparent hchild)
    (.parameterEntity (str "p") (str "2") 1) (fun _ h ↦ by cases h) (by decide)
  have hbinding := (first_declaration_binds hmerged).1 true (str "p")
  exact ⟨_, hbinding.trans (by decide)⟩

/-- An internal declaration hides an earlier external one of the same parameter entity: the name is
in both tables, and bound to the later declaration. -/
theorem parameter_entity_hides_external :
    ∃ p e, (Parser.make {} .observing).parse 10
        (str "<!DOCTYPE a [<!ENTITY % p SYSTEM 'x'><!ENTITY % p 'y'>]><a/>") = some (true, p) ∧
      Declared (fun _ _ ↦ True) predefinedDeclarations p.core.declarations
        (predefinedDeclarations ++ [⟨true, str "p", .external e⟩] ++
          [⟨true, str "p", .internal (str "y")⟩]) ∧
      p.core.context.binding true (str "p") = some (.internal (str "y")) ∧
      ¬p.core.context.IsDisjoint := by
  let e : ExternalEntity := ⟨str "p", [], str "x", [], true, false, none⟩
  let first := EntityContext.predefined.declare (.externalEntity e false)
  let d : Declarations := { Declarations.initial with
    context := first.declare (.parameterEntity (str "p") (str "y") 1) }
  have hrun : ((Parser.make {} .observing).parse 10
      (str "<!DOCTYPE a [<!ENTITY % p SYSTEM 'x'><!ENTITY % p 'y'>]><a/>")).map
        (fun r ↦ (r.1, r.2.core.declarations)) = some (true, d) := by decide +kernel
  obtain ⟨⟨ok, p⟩, hparse, hp⟩ := Option.map_eq_some_iff.1 hrun
  obtain ⟨rfl, hd⟩ := Prod.mk.inj hp
  have hdeclared : Declared (fun _ _ ↦ True) _ d _ :=
    .declare (.declare .created (.externalEntity e false) (fun _ h ↦ by cases h) trivial)
      (.parameterEntity (str "p") (str "y") 1) (fun _ h ↦ by cases h) trivial
  have hinternal : str "p" ∈ d.context.parameterEntity := by decide
  have hexternal : str "p" ∈ d.context.externalParameterEntity := by decide
  refine ⟨p, e, hparse, ?_, ?_, ?_⟩
  · rw [hd]
    exact hdeclared
  · rw [Core.context, hd]
    decide
  · rw [Core.context, hd]
    exact fun hdisjoint ↦ hdisjoint true (str "p") hinternal hexternal

end Xpact
