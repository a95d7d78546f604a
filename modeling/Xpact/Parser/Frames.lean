import Xpact.Parser.Entry
import Xpact.Entities.Merge

/-!
# What commands change

For each part of a parser, the commands that change it; every other command leaves it as it is.
The declaration tables change by one `Declaration` at a time (`step_context`).
-/

namespace Xpact

open Library

/-! ## Declarations -/

/-- One change of the declaration tables. -/
inductive Declaration where
  | generalEntity (name value : String8) (fromExternal : Bool)
  | parameterEntity (name value : String8) (accountingCount : Int)
  | externalEntity (e : ExternalEntity) (fromExternal : Bool)
  | attributeDecl (elementName : String8) (d : AttributeDecl)
  | merge (child : Declarations)

def EntityContext.declare (c : EntityContext) : Declaration → EntityContext
  | .generalEntity name value fromExternal => c.putGeneralEntity name value fromExternal
  | .parameterEntity name value accountingCount => c.putParameterEntity name value accountingCount
  | .externalEntity e fromExternal => c.putExternalEntity e fromExternal
  | .attributeDecl elementName d => c.recordAttributeDecl elementName d
  | .merge child => child.context.copyInto c

theorem EntityContext.extends_declare (c : EntityContext) (δ : Declaration) :
    c.Extends (c.declare δ) := by
  cases δ with
  | generalEntity name value fromExternal => exact extends_putGeneralEntity c name value fromExternal
  | parameterEntity name value count => exact extends_putParameterEntity c name value count
  | externalEntity e fromExternal => exact extends_putExternalEntity c e fromExternal
  | attributeDecl elementName d => exact extends_recordAttributeDecl c elementName d
  | merge child => exact extends_copyInto child.context c

/-- What a child parser keeps from the parser it was created for. -/
structure Inheritance where
  context : Option EntityContext
  dtdDeclarationsDisabled : Bool
  dtdIsStandalone : Bool
  activeEntities : List String8
  deriving DecidableEq

def Declarations.inheritance (d : Declarations) : Inheritance :=
  ⟨d.inherited, d.inheritedDtdDeclarationsDisabled, d.inheritedDtdIsStandalone,
    d.inheritedActiveEntities⟩

namespace Parser

/-- The declaration that a command records. -/
def declaration (p : Parser) : Act → Option Declaration
  | .routine (.putGeneralEntity name value) =>
    some (.generalEntity name value p.core.readsExternalMarkup)
  | .routine (.putParameterEntity name value accountingCount) =>
    some (.parameterEntity name value accountingCount)
  | .routine (.putExternalEntity e) =>
    some (.externalEntity { e with declarationBase := p.core.flags.currentExternalEntityBase }
      p.core.readsExternalMarkup)
  | .routine (.recordAttributeDecl elementName d) => some (.attributeDecl elementName d)
  | .routine (.resolve request) => (p.resolution request).bind fun r ↦ r.child.map .merge
  | _ => none

/-! ## Reports

What a command reports to the application is the view, the error and the suspension; the rest of the
parser is what it has an effect on. -/

/-- A parser apart from its view, its error and its suspension. -/
def unreported (p : Parser) : Parser :=
  { p with core := { p.core with hasError := false, isSuspended := false }, view := {} }

/-- What a command does apart from its reports. -/
def effect (c : Command) (p : Parser) : Parser :=
  match c with
  | .setError _ | .checkHandlerStop | .emit .. | .emitText _ | .emitDefault _ | .emitDefaultWhen .. |
    .notePosition _ | .noteTokenPosition .. | .noteCurrentEntityReferencePosition => p
  | .noteEntityExpansion count =>
    { p with core := { p.core with expandedEntityBytes := p.core.expandedEntityBytes + count } }
  | c => p.stepRoutine c

theorem unreported_setError (p : Parser) (message : String) :
    (p.setError message).unreported = p.unreported := by
  unfold setError
  split <;> rfl

theorem unreported_checkHandlerStop (p : Parser) :
    p.checkHandlerStop.unreported = p.unreported := by
  unfold checkHandlerStop
  split
  · split
    · rfl
    · exact unreported_setError p _
  · rfl

theorem unreported_emitText (p : Parser) (text : String8) :
    (p.emitText text).unreported = p.unreported := by
  unfold emitText
  split
  · exact unreported_checkHandlerStop _
  · rfl

theorem unreported_emitDefault (p : Parser) (text : String8) :
    (p.emitDefault text).unreported = p.unreported := by
  unfold emitDefault
  split
  · exact unreported_checkHandlerStop _
  · rfl

theorem unreported_stepRoutine (c : Command) (p : Parser) :
    (p.stepRoutine c).unreported = (p.effect c).unreported := by
  cases c with
  | setError message => exact unreported_setError p message
  | checkHandlerStop => exact unreported_checkHandlerStop p
  | emitText text => exact unreported_emitText p text
  | emitDefault text => exact unreported_emitDefault p text
  | emitDefaultWhen kind text =>
    simp only [stepRoutine]
    split
    · exact unreported_emitDefault p text
    · rfl
  | noteEntityExpansion count =>
    simp only [stepRoutine, noteEntityExpansion]
    split
    · exact unreported_setError _ _
    · rfl
  | _ => rfl

/-! ## What stays as it is -/

theorem resolve_unchanged {β : Type} (f : Parser → β) (p : Parser) (request : Request)
    (hanswer : ∀ p reference answer, f (noteAnswer p reference answer) = f p)
    (hmerge : ∀ p child, f (mergeEntityContextFrom p child) = f p) :
    f (p.resolve request) = f p := by
  unfold resolve
  split
  · rw [hmerge, hanswer]
  · exact hanswer ..
  · rfl

/-- What no parse changes: how the parser is configured, what it inherited and what it reads. -/
structure Settings where
  config : Config
  handler : Handler
  inheritance : Inheritance
  parsingExternalEntity : Bool
  inputIsUtf8 : Bool

def settings (p : Parser) : Settings :=
  ⟨p.config, p.handler, p.core.declarations.inheritance, p.core.parsingExternalEntity,
    p.core.inputIsUtf8⟩

/-- What no command of a routine changes. -/
structure Frame extends Settings where
  externalEntityResolver : Option Resolver
  elements : Elements
  documentElementCount : Nat
  namespaceContexts : List NamespaceScope
  namespaceDeclarations : List (List String8)

def frame (p : Parser) : Frame :=
  ⟨p.settings, p.externalEntityResolver, p.elements, p.core.documentElementCount,
    p.core.namespaceContexts, p.core.namespaceDeclarations⟩

section
variable (c : Command) (a : Act) (p : Parser)

/-- What no effect changes, no command changes. -/
theorem stepRoutine_unchanged {β : Type} (f : Parser → β) (hf : ∀ p, f p.unreported = f p)
    (heffect : f (p.effect c) = f p) : f (p.stepRoutine c) = f p := by
  rw [← hf, unreported_stepRoutine, hf, heffect]

theorem stepRoutine_frame : (p.stepRoutine c).frame = p.frame := by
  refine stepRoutine_unchanged c p frame (fun _ ↦ rfl) ?_
  cases c with
  | resolve request => exact resolve_unchanged _ p request (fun _ _ _ ↦ rfl) (fun _ _ ↦ rfl)
  | _ => rfl

theorem stepRoutine_settings : (p.stepRoutine c).settings = p.settings :=
  congrArg Frame.toSettings (stepRoutine_frame c p)

theorem stepRoutine_elements : (p.stepRoutine c).elements = p.elements :=
  congrArg Frame.elements (stepRoutine_frame c p)

theorem step_settings : (p.step a).settings = p.settings := by
  cases a with
  | routine c => exact stepRoutine_settings c p
  | _ => rfl

theorem step_resolver : (p.step a).externalEntityResolver = p.externalEntityResolver := by
  cases a with
  | routine c => exact congrArg Frame.externalEntityResolver (stepRoutine_frame c p)
  | _ => rfl

/-! ## Declarations of a parse -/

theorem stepRoutine_declarations :
    (p.stepRoutine c).core.declarations = (p.effect c).core.declarations := by
  have h := congrArg (fun q : Parser ↦ q.core.declarations) (unreported_stepRoutine c p)
  exact h

/-- The tables change by the declaration that the command records. -/
theorem step_context :
    (p.step a).core.context =
      match p.declaration a with
      | some δ => p.core.context.declare δ
      | none => p.core.context := by
  cases a with
  | routine c =>
    refine (congrArg Declarations.context (stepRoutine_declarations c p)).trans ?_
    cases c with
    | resolve request =>
      simp only [effect, stepRoutine, resolve, declaration]
      cases p.resolution request with
      | none => rfl
      | some r => obtain ⟨answer, _ | child⟩ := r <;> rfl
    | _ => rfl
  | _ => rfl

theorem step_context_extends : p.core.context.Extends (p.step a).core.context := by
  rw [step_context]
  split
  · exact EntityContext.extends_declare _ _
  · exact .refl _

end

/-! ## Calls -/

/-- The state of a call after the first `n` commands. -/
def stateAt (entry : Entry) (bound : Nat) (input : String8) (n : Nat) (p : Parser) : Parser :=
  machine.execute (((entry.program bound input).trace machine (p.start entry)).take n)
    (p.start entry)

/-- A parse that begins outside an external entity leaves the settings as they were. -/
theorem call_settings {entry : Entry} {bound : Nat} {input : String8} {p q : Parser} {ok : Bool}
    (hp : p.core.parsingExternalEntity = false) (h : p.call entry bound input = some (ok, q)) :
    q.settings = p.settings := by
  unfold call at h
  obtain ⟨⟨ok', q'⟩, hrun, hq⟩ := Option.map_eq_some_iff.1 h
  obtain ⟨-, rfl⟩ := Prod.mk.inj hq
  have hsettings : q'.settings = (p.start entry).settings :=
    Program.run_unchanged settings step_settings hrun
  simp only [settings, Settings.mk.injEq] at hsettings ⊢
  obtain ⟨hconfig, hhandler, hinheritance, hexternal, hutf8⟩ := hsettings
  refine ⟨hconfig, hhandler, hinheritance, ?_, hutf8⟩
  simp only [finish, hexternal, start, listen, reset, clearCachedDoctype, hp]
  cases entry.isExternal <;> rfl

end Parser

end Xpact
