import Xpact.Library.Parts
import Xpact.Parser.ContentLaws

/-!
# Declarations after a skipped reference

A reference to a parameter entity that is not declared, or not read, is skipped, and unless the
document is standalone the declarations that follow it are not processed.  The commands that fill the
tables belong to two kinds of declarations, and such a declaration issues none of them when it begins
while the flag is set.
-/

namespace Xpact

open Library Program Routine

-- A routine is one goal of instance search for each of its steps.
set_option synthInstance.maxSize 100000
set_option synthInstance.maxHeartbeats 200000

/-! ## Declarations -/

/-- The command records an entity or an attribute, or reports the declaration of one. -/
def Command.declares : Command → Bool
  | .emit e _ => !e.isReporting
  | .putGeneralEntity .. | .putParameterEntity .. | .putExternalEntity _ => true
  | .recordAttributeDecl .. => true
  | _ => false

def Act.declares : Act → Bool
  | .routine c => c.declares
  | _ => false

/-- The act sets the standalone value to that of a document that says it is standalone. -/
def Act.saysStandalone : Act → Bool
  | .routine (.setXmlStandalone standalone) => standalone == 1
  | _ => false

/-- The declarations that record entities and attributes. -/
inductive IsDeclaration : Routine Nat → Prop where
  | entity (depth : Nat) (subset : String8) (start : Nat) :
      IsDeclaration (parseEntityDeclaration depth subset start)
  | attlist (depth : Nat) (subset : String8) (start : Nat) :
      IsDeclaration (parseAttlistDeclaration depth subset start)

namespace Parser

/-- Declarations are not processed, and the document is not standalone. -/
structure IsDisabled (p : Parser) : Prop where
  disabled : p.core.declarations.dtdDeclarationsDisabled = true
  notStandalone : p.core.declarations.dtdIsStandalone = false

/-- An XML declaration says that the document is standalone. -/
def standaloneSite : Site Act Scene Parser where
  At m _ := ∃ n, m = .exec (.routine (.setXmlStandalone 1)) n
  bind := by
    rintro _ _ m s ⟨n, rfl⟩ f
    exact ⟨n >>= f, rfl⟩

/-- A declaration begins where declarations are processed. -/
def processedDeclaration : Part Act Scene Parser Nat := fun d p ↦
  (∃ e, IsDeclaration e ∧ d = Content.ofRoutine e) ∧ ¬p.IsDisabled

/-! ## The flag -/

section

variable {p : Parser}

/-- Only the XML declaration can say that the document is standalone. -/
theorem step_notStandalone {a : Act} (ha : a ≠ .routine (.setXmlStandalone 1))
    (hp : p.core.declarations.dtdIsStandalone = false) :
    (p.step a).core.declarations.dtdIsStandalone = false := by
  cases a with
  | routine c =>
    show (p.stepRoutine c).core.declarations.dtdIsStandalone = false
    rw [stepRoutine_declarations]
    cases c with
    | setXmlStandalone standalone =>
      have hne : standalone ≠ 1 := by
        rintro rfl
        exact ha rfl
      rw [Declarations.dtdIsStandalone, Bool.or_eq_false_iff] at hp
      show (standalone == 1 || p.core.declarations.inheritedDtdIsStandalone) = false
      rw [hp.2, Bool.or_false]
      exact beq_false_of_ne hne
    | resolve request =>
      rw [← hp]
      exact resolve_unchanged (fun q : Parser ↦ q.core.declarations.dtdIsStandalone) p request
        (fun _ _ _ ↦ rfl) (fun _ _ ↦ rfl)
    | _ => exact hp
  | _ => exact hp

/-- In a document that is not standalone no command sets the flag back. -/
theorem step_disabled {a : Act} (hstandalone : p.core.declarations.dtdIsStandalone = false)
    (hp : p.core.declarations.dtdDeclarationsDisabled = true) :
    (p.step a).core.declarations.dtdDeclarationsDisabled = true := by
  cases a with
  | routine c =>
    show (p.stepRoutine c).core.declarations.dtdDeclarationsDisabled = true
    rw [stepRoutine_declarations]
    cases c with
    | disableDeclarations =>
      show (!p.core.declarations.dtdIsStandalone) = true
      rw [hstandalone]
      rfl
    | resolve request =>
      show (p.resolve request).core.declarations.dtdDeclarationsDisabled = true
      unfold resolve
      split
      · show (p.core.declarations.dtdDeclarationsDisabled || _) = true
        rw [hp, Bool.true_or]
      · exact hp
      · exact hp
    | _ => exact hp
  | _ => exact hp

theorem step_isDisabled {a : Act} (ha : a ≠ .routine (.setXmlStandalone 1)) (hp : p.IsDisabled) :
    (p.step a).IsDisabled :=
  ⟨step_disabled hp.notStandalone hp.disabled, step_notStandalone ha hp.notStandalone⟩

end

/-! ## The law of disabled declarations -/

/-- While the flag is set nothing is declared, and it stays set. -/
abbrev disabledLaw : Law machine :=
  Law.safety machine standaloneSite (fun a _ ↦ a.declares = false) IsDisabled

/-- The law, for routines. -/
abbrev routineDisabledLaw : Law (machine.restrict Act.routine Scene.sight) :=
  disabledLaw.restrict Act.routine Scene.sight

theorem disabled_act {a : Act} (ha : a.declares = false) (p : Parser) :
    disabledLaw.Holds (Program.command a) p := by
  intro havoids hp
  apply Assures.command
  · exact ha
  · apply step_isDisabled _ hp
    rintro rfl
    exact havoids _ _ (.refl _ _) ⟨_, rfl⟩

theorem Command.declares_of_isNeutral {c : Command} (hc : c.isNeutral = true) :
    c.declares = false := by
  cases c with
  | emit e h =>
    show (!e.isReporting) = false
    rw [show e.isReporting = true from hc]
    rfl
  | _ => first | rfl | cases hc

instance (priority := low) disabled_of_neutral {α : Type} (m : Routine α) [hm : IsNeutral m] :
    Obeys routineDisabledLaw m := by
  constructor
  intro p
  apply Law.of_issuesOnly routineDisabledLaw _ hm.issuesOnly
  intro c p hc
  exact disabled_act (a := .routine c) (Command.declares_of_isNeutral hc) p

/-- What reads the core reads that declarations are not processed. -/
theorem disabled_core_bind {α : Type} {f : Core → Routine α}
    (hf : ∀ c : Core, c.declarations.dtdDeclarationsDisabled = true → Obeys routineDisabledLaw (f c)) :
    Obeys routineDisabledLaw (Routine.core >>= f) := by
  constructor
  intro p
  apply Law.safety_of_holds
  intro hp
  show routineDisabledLaw.Holds (Routine.core >>= f) p
  apply routineDisabledLaw.read_bind (a := p.core) rfl rfl
  exact (hf p.core hp.disabled).holds p

section

variable (subset name : String8) (start close i depth : Nat)

instance disabled_parseInternalEntityDeclaration (nameStart nameEnd literalStart : Nat)
    (isParameter : Bool) :
    Obeys routineDisabledLaw (parseInternalEntityDeclaration depth subset start nameStart nameEnd
      literalStart close name isParameter false) := by
  unfold parseInternalEntityDeclaration; infer_instance

instance disabled_parseExternalEntityDeclaration (isParameter : Bool) :
    Obeys routineDisabledLaw
      (parseExternalEntityDeclaration subset start close name isParameter) := by
  unfold parseExternalEntityDeclaration
  -- The flag is looked at right before the entity is recorded.
  repeat' first | infer_instance | apply Obeys.ite |
    (refine disabled_core_bind fun _ hc ↦ ?_; rw [hc]) | refine Obeys.bind ?_ fun _ ↦ ?_

instance disabled_parseEntityDeclaration :
    Obeys routineDisabledLaw (parseEntityDeclaration depth subset start) := by
  unfold parseEntityDeclaration
  apply disabled_core_bind
  intro c hc
  have hprocessed : (!c.declarations.dtdDeclarationsDisabled) = false := by rw [hc]; rfl
  rw [hprocessed]
  infer_instance

instance disabled_parseAttlistDefinition :
    Obeys routineDisabledLaw (parseAttlistDefinition depth subset name close i) := by
  unfold parseAttlistDefinition
  repeat' first | infer_instance | apply Obeys.ite |
    (refine disabled_core_bind fun _ hc ↦ ?_; rw [hc]) | refine Obeys.bind ?_ fun _ ↦ ?_

instance disabled_parseAttlistDeclaration :
    Obeys routineDisabledLaw (parseAttlistDeclaration depth subset start) := by
  unfold parseAttlistDeclaration; infer_instance

end

/-- A declaration that begins while the flag is set declares nothing. -/
theorem declares_nothing {e : Routine Nat} (he : IsDeclaration e) {p : Parser} (hp : p.IsDisabled)
    (havoids : Avoids machine standaloneSite (Content.ofRoutine e) p) :
    (Content.ofRoutine e).Always machine (fun a _ ↦ a.declares = false) p := by
  have hlaw : disabledLaw.Holds (Content.ofRoutine e) p := by
    cases he with
    | entity depth subset start => exact (disabled_parseEntityDeclaration subset start depth).holds p
    | attlist depth subset start =>
      exact (disabled_parseAttlistDeclaration subset start depth).holds p
  exact (hlaw havoids hp).always

/-! ## The law of declarations -/

/-- Entities and attributes are declared inside declarations that begin where they are processed,
unless an XML declaration says that the document is standalone. -/
abbrev declaringLaw : Law machine :=
  (Law.inside machine processedDeclaration Act.declares).avoiding standaloneSite

theorem declaring_act {a : Act} (ha : a.declares = false) : Obeys declaringLaw (command a) := by
  constructor
  intro p _
  have hissues : (Program.command a : Program Act Scene Unit).IssuesOnly (fun b ↦ !b.declares) := by
    refine ⟨?_, trivial⟩
    show (!a.declares) = true
    rw [ha]
    rfl
  apply Law.inside_of_issuesOnly _ hissues
  intro b hb
  rw [Bool.not_eq_true'] at hb
  exact hb

theorem declaring_declaration {e : Routine Nat} (he : IsDeclaration e) (p : Parser) :
    declaringLaw.Holds (Content.ofRoutine e) p := by
  intro havoids
  by_cases hp : p.IsDisabled
  · exact Law.inside_of_always (declares_nothing he hp havoids)
  · exact Law.inside_of_part ⟨⟨e, he, rfl⟩, hp⟩

instance : RoutineLaw (declaringLaw.restrict Act.routine Scene.sight) where
  neutral m hm := by
    constructor
    intro p
    apply Law.of_issuesOnly (declaringLaw.restrict Act.routine Scene.sight) _ hm.issuesOnly
    intro c p hc
    exact (declaring_act (a := .routine c) (Command.declares_of_isNeutral hc)).holds p
  entity depth subset start := ⟨declaring_declaration (.entity depth subset start)⟩
  attlist depth subset start := ⟨declaring_declaration (.attlist depth subset start)⟩

instance : TagLaw declaringLaw where
  act a ha := by
    apply declaring_act
    cases a with
    | routine c => exact Command.declares_of_isNeutral ha
    | _ => rfl
  routine := inferInstance
  tag a ha := by
    apply declaring_act
    cases a with
    | routine c => cases ha
    | _ => rfl

instance : ContentLaw declaringLaw := ContentLaw.of_tags fun _ ↦ declaring_act rfl

end Parser

end Xpact
