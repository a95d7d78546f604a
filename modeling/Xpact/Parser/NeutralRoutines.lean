import Xpact.Parser.ReportingRoutines

/-!
# Neutral routines

Most routines declare nothing and deliver no text: beside what background routines do, they expand
entities.  A law of routines is established for the whole of the DTD once it holds of the neutral
routines and of the two kinds of declarations that fill the tables.
-/

namespace Xpact

open Library Program Routine

-- A routine is one goal of instance search for each of its steps.
set_option synthInstance.maxSize 100000
set_option synthInstance.maxHeartbeats 200000

/-- The command declares no entity and no attribute, and delivers no text. -/
@[reducible] def Command.isNeutral : Command → Bool
  | .emit e _ => e.isReporting
  | .emitText _ => false
  | .putGeneralEntity .. | .putParameterEntity .. | .putExternalEntity _ => false
  | .recordAttributeDecl .. => false
  | _ => true

/-- The routine issues neutral commands only. -/
abbrev IsNeutral (m : Routine α) : Prop := Uses Command.isNeutral m

instance (priority := low) neutral_of_background {α : Type} (m : Routine α) [hm : IsBackground m] :
    IsNeutral m := by
  apply hm.mono
  intro c hc
  cases c <;> first | rfl | exact hc

/-! ## Literals -/

section

variable (input subset content name : String8) (start stop close i depth : Nat) (quote : Character8)

instance neutral_pushEntity : IsNeutral (pushEntity name) := by unfold pushEntity; infer_instance

instance neutral_popEntity : IsNeutral popEntity := by unfold popEntity; infer_instance

section Literal

variable (expandLiteralText : String8 → Routine String8)
  [hexpand : ∀ text, IsNeutral (expandLiteralText text)]

include hexpand

instance neutral_includeGeneralEntityInLiteral :
    IsNeutral (includeGeneralEntityInLiteral expandLiteralText name) := by
  unfold includeGeneralEntityInLiteral includeExternalEntityInLiteral
  apply Uses.bind inferInstance
  intro name
  apply Uses.bind inferInstance
  intro s
  apply Uses.ite inferInstance
  apply Uses.ite inferInstance
  apply Uses.ite inferInstance
  split <;> infer_instance

instance neutral_appendReferenceInLiteral :
    IsNeutral (appendReferenceInLiteral expandLiteralText input start) := by
  unfold appendReferenceInLiteral; infer_instance

instance neutral_expandLiteralTextStep (t : Nat × String8) :
    IsNeutral (expandLiteralTextStep expandLiteralText content t) := by
  unfold expandLiteralTextStep; infer_instance

end Literal

instance neutral_expandLiteralText : IsNeutral (expandLiteralText depth content) := by
  induction depth generalizing content with
  | zero => exact uses_stuck _
  | succ depth ih =>
    unfold expandLiteralText
    infer_instance

instance neutral_parseAttributeValueStep (t : Nat × String8) :
    IsNeutral (parseAttributeValueStep depth input t) := by
  unfold parseAttributeValueStep; infer_instance

instance neutral_parseAttributeValue : IsNeutral (parseAttributeValue depth input start quote) := by
  unfold parseAttributeValue; infer_instance

section EntityValue

variable (appendParameterEntityLiteral : String8 → Routine String8)
  [happend : ∀ name, IsNeutral (appendParameterEntityLiteral name)]

include happend

instance neutral_appendParameterReferenceInEntityValue :
    IsNeutral (appendParameterReferenceInEntityValue appendParameterEntityLiteral input start) := by
  unfold appendParameterReferenceInEntityValue
  apply Uses.bind inferInstance
  intro s
  apply Uses.ite inferInstance
  apply Uses.ite inferInstance
  apply Uses.ite inferInstance
  apply Uses.ite inferInstance
  split <;> infer_instance

instance neutral_appendParameterTextStep (t : Nat × String8) :
    IsNeutral (appendParameterTextStep appendParameterEntityLiteral input t) := by
  unfold appendParameterTextStep; infer_instance

instance neutral_appendParameterEntityLiteralStep (t : AliasWalk × String8) :
    IsNeutral (appendParameterEntityLiteralStep appendParameterEntityLiteral t) := by
  unfold appendParameterEntityLiteralStep
  apply Uses.bind inferInstance
  intro s
  apply Uses.ite inferInstance
  split
  · infer_instance
  · apply Uses.bind inferInstance
    intro _
    apply Uses.bind inferInstance
    intro failed
    apply Uses.ite inferInstance
    split <;> infer_instance

end EntityValue

instance neutral_appendParameterEntityLiteral :
    IsNeutral (appendParameterEntityLiteral depth name) := by
  induction depth generalizing name with
  | zero => exact uses_stuck _
  | succ depth ih =>
    unfold appendParameterEntityLiteral
    infer_instance

instance neutral_parseEntityLiteralStep (t : Nat × String8) :
    IsNeutral (parseEntityLiteralStep depth input t) := by
  unfold parseEntityLiteralStep; infer_instance

instance neutral_parseEntityLiteral : IsNeutral (parseEntityLiteral depth input start quote) := by
  unfold parseEntityLiteral
  apply Uses.bind inferInstance
  intro _
  apply Uses.bind inferInstance
  intro r
  apply Uses.bind inferInstance
  intro failed
  apply Uses.ite inferInstance
  apply Uses.bind inferInstance
  intro f
  apply Uses.ite _ inferInstance
  split <;> infer_instance

instance neutral_externalParameterLiteralContentStart :
    IsNeutral (externalParameterLiteralContentStart input) := by
  unfold externalParameterLiteralContentStart; infer_instance

instance neutral_externalParameterLiteralTextStart :
    IsNeutral (externalParameterLiteralTextStart input) := by
  unfold externalParameterLiteralTextStart; infer_instance

instance neutral_externalParameterLiteral : IsNeutral (externalParameterLiteral depth input) := by
  unfold externalParameterLiteral; infer_instance

/-! ## Parts of declarations -/

instance neutral_attlistDefaultValueStep (t : Nat × String8) :
    IsNeutral (attlistDefaultValueStep depth subset stop t) := by
  unfold attlistDefaultValueStep; infer_instance

instance neutral_parseAttlistDefaultValue :
    IsNeutral (parseAttlistDefaultValue depth subset start stop) := by
  unfold parseAttlistDefaultValue; infer_instance

instance neutral_parseAttlistDefault : IsNeutral (parseAttlistDefault depth subset i close) := by
  unfold parseAttlistDefault; infer_instance

instance neutral_parseInternalEntityValue (isParameter isProcessed : Bool) :
    IsNeutral (parseInternalEntityValue depth subset i close name isParameter isProcessed) := by
  unfold parseInternalEntityValue; infer_instance

section ParameterValue

variable (expandedDtdParameterValue : String8 → Routine (Option String8))
  [hexpanded : ∀ name, IsNeutral (expandedDtdParameterValue name)]

include hexpanded

instance neutral_parameterCopyStep (k : ParameterCopy) :
    IsNeutral (parameterCopyStep expandedDtdParameterValue input k) := by
  unfold parameterCopyStep
  dsimp only
  split <;> infer_instance

end ParameterValue

instance neutral_expandedDtdParameterValue : IsNeutral (expandedDtdParameterValue depth name) := by
  induction depth generalizing name with
  | zero => exact uses_stuck _
  | succ depth ih =>
    unfold expandedDtdParameterValue
    apply Uses.bind inferInstance
    intro text
    split <;> infer_instance

instance neutral_dtdSubsetWithParameterReference (reference : Nat) :
    IsNeutral (dtdSubsetWithParameterReference depth subset reference) := by
  unfold dtdSubsetWithParameterReference
  apply Uses.bind inferInstance
  intro s
  apply Uses.ite inferInstance
  apply Uses.ite inferInstance
  apply Uses.ite inferInstance
  apply Uses.bind inferInstance
  intro value
  split <;> infer_instance

instance neutral_conditionalStatusStep (t : Nat × String8) :
    IsNeutral (conditionalStatusStep depth subset t) := by
  unfold conditionalStatusStep; infer_instance

/-! ## Attributes -/

instance neutral_parseAttribute (a : Attributes) : IsNeutral (parseAttribute depth input start a) := by
  unfold parseAttribute; infer_instance

instance neutral_attributeStep (t : Nat × Attributes) : IsNeutral (attributeStep depth input t) := by
  unfold attributeStep; infer_instance

instance neutral_parseAttributes : IsNeutral (parseAttributes depth input start) := by
  unfold parseAttributes; infer_instance

instance neutral_setDoctypeName : IsNeutral (setDoctypeName name) := by
  unfold setDoctypeName; infer_instance

end

/-! ## Laws of the DTD -/

/-- A law of routines that holds of the neutral routines, and of the declarations that fill the
tables. -/
class RoutineLaw {M : Machine Command Sight Parser} (L : Law M) : Prop where
  neutral {α : Type} (m : Routine α) : IsNeutral m → Obeys L m
  entity (depth : Nat) (subset : String8) (start : Nat) :
    Obeys L (parseEntityDeclaration depth subset start)
  attlist (depth : Nat) (subset : String8) (start : Nat) :
    Obeys L (parseAttlistDeclaration depth subset start)

section

variable {M : Machine Command Sight Parser} {L : Law M} [hL : RoutineLaw L]
  (input subset content name : String8) (start i close depth bound : Nat)

instance (priority := low) obeys_neutral {α : Type} (m : Routine α) [hm : IsNeutral m] :
    Obeys L m := hL.neutral m hm

instance obeys_parseEntityDeclaration : Obeys L (parseEntityDeclaration depth subset start) :=
  hL.entity depth subset start

instance obeys_parseAttlistDeclaration : Obeys L (parseAttlistDeclaration depth subset start) :=
  hL.attlist depth subset start

instance obeys_unlessError (m : Routine Unit) [Obeys L m] : Obeys L (unlessError m) := by
  unfold unlessError; infer_instance

instance obeys_whileOngoing (m : Routine Unit) [Obeys L m] : Obeys L (whileOngoing m) := by
  unfold whileOngoing; infer_instance

instance obeys_restoringBase (m : Routine Unit) [Obeys L m] : Obeys L (restoringBase m) := by
  unfold restoringBase; infer_instance

section Subset

variable (processInternalSubset : String8 → Routine Unit)
  [hprocess : ∀ subset, Obeys L (processInternalSubset subset)]

include hprocess

instance obeys_processExternalText (answer : Answer) :
    Obeys L (processExternalText processInternalSubset content answer) := by
  unfold processExternalText; infer_instance

instance obeys_includeExternalParameterEntityInSubset (e : ExternalEntity) :
    Obeys L (includeExternalParameterEntityInSubset processInternalSubset e) := by
  unfold includeExternalParameterEntityInSubset unlessError
  refine @obeys_restoringBase _ _ _ _ ?_
  repeat' first | infer_instance | apply Obeys.ite | refine Obeys.bind ?_ fun _ ↦ ?_ | split

instance obeys_includeInternalParameterEntity (value : String8) :
    Obeys L (includeInternalParameterEntity processInternalSubset name value start) := by
  unfold includeInternalParameterEntity; infer_instance

instance obeys_includeParameterEntityInSubset :
    Obeys L (includeParameterEntityInSubset processInternalSubset subset start) := by
  unfold includeParameterEntityInSubset
  repeat' first | infer_instance | apply Obeys.ite | refine Obeys.bind ?_ fun _ ↦ ?_ | split

instance obeys_parseConditionalSection :
    Obeys L (parseConditionalSection depth processInternalSubset subset start) := by
  unfold parseConditionalSection; infer_instance

instance obeys_processSubsetToken (allowTextDeclaration : Bool) :
    Obeys L (processSubsetToken depth processInternalSubset allowTextDeclaration subset i) := by
  unfold processSubsetToken; infer_instance

instance obeys_processSubsetStep (allowTextDeclaration : Bool) (s : SubsetScan) :
    Obeys L (processSubsetStep depth processInternalSubset allowTextDeclaration s) := by
  unfold processSubsetStep
  -- The text of the reference, which may be absent, is looked at last.
  repeat' first | infer_instance | apply Obeys.ite | refine Obeys.bind ?_ fun _ ↦ ?_ | split

end Subset

instance obeys_processDtdSubset (allowTextDeclaration : Bool) :
    Obeys L (processDtdSubset bound subset allowTextDeclaration) := by
  induction bound generalizing subset allowTextDeclaration with
  | zero => exact obeys_stuck _
  | succ bound ih =>
    unfold processDtdSubset subsetFinished
    infer_instance

instance obeys_processInternalSubset : Obeys L (processInternalSubset bound subset) := by
  unfold processInternalSubset; infer_instance

instance obeys_processInternalSubsetPrefix (allowTextDeclaration : Bool) :
    Obeys L (processInternalSubsetPrefix bound subset allowTextDeclaration) := by
  unfold processInternalSubsetPrefix; infer_instance

instance obeys_includeExternalSubset (publicId systemId : String8) :
    Obeys L (includeExternalSubset bound publicId systemId) := by
  unfold includeExternalSubset
  refine @obeys_restoringBase _ _ _ _ ?_
  repeat' first | infer_instance | apply Obeys.ite | refine Obeys.bind ?_ fun _ ↦ ?_ | split

instance obeys_includeForeignDtdIfNeeded : Obeys L (includeForeignDtdIfNeeded bound name) := by
  unfold includeForeignDtdIfNeeded unlessError
  refine @obeys_restoringBase _ _ _ _ ?_
  repeat' first | infer_instance | apply Obeys.ite | refine Obeys.bind ?_ fun _ ↦ ?_ | split

/-! ## Document type declarations -/

instance obeys_atSubsetOffset (offset : Nat) (m : Routine Unit) [Obeys L m] :
    Obeys L (atSubsetOffset offset m) := by
  unfold atSubsetOffset; infer_instance

instance obeys_processIncompleteDoctypePrefix :
    Obeys L (processIncompleteDoctypePrefix bound input start) := by
  unfold processIncompleteDoctypePrefix; infer_instance

instance obeys_parseDoctypeSubset (subsetStart : Nat) :
    Obeys L (parseDoctypeSubset bound input subsetStart close) := by
  unfold parseDoctypeSubset; infer_instance

instance obeys_parseDoctypeBody (nameStart : Nat) :
    Obeys L (parseDoctypeBody bound input start nameStart i close) := by
  unfold parseDoctypeBody
  repeat' first | infer_instance | apply Obeys.ite | refine Obeys.bind ?_ fun _ ↦ ?_ | split

instance obeys_parseDoctype : Obeys L (parseDoctype bound input start) := by
  unfold parseDoctype; infer_instance

end

end Xpact
