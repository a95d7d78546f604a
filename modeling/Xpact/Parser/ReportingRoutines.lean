import Xpact.Parser.PlainRoutines

/-!
# Reporting routines

What only reads a text, reports what it reads and asks for external resources: the stack of entities
and the entity and attribute declarations stay as they are.  A law needs to be established for none
of these routines, once it holds of the reporting commands.
-/

namespace Xpact

open Library Program Routine

-- A routine is one goal of instance search for each of its steps.
set_option synthInstance.maxSize 100000
set_option synthInstance.maxHeartbeats 200000

/-- The event does not belong to an entity or attribute-list declaration. -/
@[reducible] def Event.isReporting : Event → Bool
  | .attlistDecl .. | .entityDecl .. | .unparsedEntityDecl .. => false
  | _ => true

/-- The command leaves the entity stack and the declarations of entities and attributes alone, and
reports no such declaration. -/
@[reducible] def Command.isReporting : Command → Bool
  | .emit e _ => e.isReporting
  | .pushEntity _ | .popEntity => false
  | .putGeneralEntity .. | .putParameterEntity .. | .putExternalEntity _ => false
  | .recordAttributeDecl .. => false
  | _ => true

/-- The command is a reporting one that delivers no text. -/
@[reducible] def Command.isBackground : Command → Bool
  | .emit e _ => e.isReporting
  | .emitText _ => false
  | .pushEntity _ | .popEntity => false
  | .putGeneralEntity .. | .putParameterEntity .. | .putExternalEntity _ => false
  | .recordAttributeDecl .. => false
  | _ => true

/-- The routine issues reporting commands only. -/
abbrev IsReporting (m : Routine α) : Prop := Uses Command.isReporting m

/-- The routine issues reporting commands only, and delivers no text. -/
abbrev IsBackground (m : Routine α) : Prop := Uses Command.isBackground m

instance (priority := low) background_of_plain {α : Type} (m : Routine α) [hm : IsPlain m] :
    IsBackground m := by
  apply hm.mono
  intro c hc
  cases c <;> first | rfl | cases hc

instance (priority := low) reporting_of_background {α : Type} (m : Routine α)
    [hm : IsBackground m] : IsReporting m := by
  apply hm.mono
  intro c hc
  cases c <;> first | rfl | exact hc

section

variable (input subset text : String8) (start stop close i : Nat) (external isParameter : Bool)
  (message : String)

instance background_checkHandlerStop : IsBackground checkHandlerStop := by
  unfold checkHandlerStop; infer_instance

instance background_emit (e : Event) (h : e.isStructural = false) [Passes e.isReporting] :
    IsBackground (emit e h) := by
  unfold emit; infer_instance

instance background_emitDefault : IsBackground (emitDefault text) := by
  unfold emitDefault; infer_instance

instance background_emitDefaultRange : IsBackground (emitDefaultRange input start stop) := by
  unfold emitDefaultRange; infer_instance

instance background_emitDefaultWhen (kind : DefaultKind) : IsBackground (emitDefaultWhen kind text) := by
  unfold emitDefaultWhen; infer_instance

instance background_noteEntityExpansion (count : Int) : IsBackground (noteEntityExpansion count) := by
  unfold noteEntityExpansion; infer_instance

instance background_unlessError (m : Routine Unit) [IsBackground m] : IsBackground (unlessError m) := by
  unfold unlessError; infer_instance

instance background_whileOngoing (m : Routine Unit) [IsBackground m] :
    IsBackground (whileOngoing m) := by
  unfold whileOngoing; infer_instance

instance background_emitComment : IsBackground (emitComment text) := by
  unfold emitComment; infer_instance

instance background_parseComment : IsBackground (parseComment input start) := by
  unfold parseComment
  apply Uses.ite inferInstance
  apply Uses.bind inferInstance
  intro cfg
  apply Uses.ite inferInstance
  split <;> infer_instance

instance background_parseXmlDeclarationData :
    IsBackground (parseXmlDeclarationData external text) := by
  unfold parseXmlDeclarationData; infer_instance

instance background_parseProcessingInstructionAs :
    IsBackground (parseProcessingInstructionAs external input start) := by
  unfold parseProcessingInstructionAs; infer_instance

instance background_parseProcessingInstruction :
    IsBackground (parseProcessingInstruction input start) := by
  unfold parseProcessingInstruction; infer_instance

instance background_normalizedExternalReplacement :
    IsBackground (normalizedExternalReplacement text) := by
  unfold normalizedExternalReplacement; infer_instance

instance background_resolvedExternalReplacement (name publicId systemId : String8)
    (base : Option String8) (isParameterLiteral : Bool) :
    IsBackground (resolvedExternalReplacement name publicId systemId isParameter base
      isParameterLiteral) := by
  unfold resolvedExternalReplacement
  apply Uses.bind inferInstance
  intro present
  apply Uses.ite inferInstance
  apply Uses.bind inferInstance
  intro _
  apply Uses.bind inferInstance
  intro c
  split
  · split <;> infer_instance
  · infer_instance

instance background_resolvedEntityReplacement (e : ExternalEntity) (isParameterLiteral : Bool) :
    IsBackground (resolvedEntityReplacement e isParameterLiteral) := by
  unfold resolvedEntityReplacement; infer_instance

instance background_checkNotStandalone : IsBackground checkNotStandalone := by
  unfold checkNotStandalone; infer_instance

instance background_resolvedGeneralEntityNameStep (w : AliasWalk) :
    IsBackground (resolvedGeneralEntityNameStep w) := by
  unfold resolvedGeneralEntityNameStep
  apply Uses.bind inferInstance
  intro s
  apply Uses.ite inferInstance
  apply Uses.ite inferInstance
  split <;> infer_instance

instance background_resolvedGeneralEntityName (name : String8) :
    IsBackground (resolvedGeneralEntityName name) := by
  unfold resolvedGeneralEntityName; infer_instance

instance background_resolvedParameterEntityNameStep (w : AliasWalk) :
    IsBackground (resolvedParameterEntityNameStep w) := by
  unfold resolvedParameterEntityNameStep
  apply Uses.bind inferInstance
  intro s
  apply Uses.ite inferInstance
  split <;> infer_instance

instance background_resolvedParameterEntityName (name : String8) :
    IsBackground (resolvedParameterEntityName name) := by
  unfold resolvedParameterEntityName; infer_instance

instance background_appendPredefinedEntity (name : String8) :
    IsBackground (appendPredefinedEntity name) := by
  unfold appendPredefinedEntity
  apply Uses.bind inferInstance
  intro c
  split <;> infer_instance

instance background_appendExternalParameterEntityInLiteral (e : ExternalEntity) :
    IsBackground (appendExternalParameterEntityInLiteral e) := by
  unfold appendExternalParameterEntityInLiteral
  apply Uses.bind inferInstance
  intro f
  apply Uses.bind inferInstance
  intro allowed
  apply Uses.ite inferInstance
  apply Uses.bind inferInstance
  intro present
  apply Uses.ite inferInstance
  apply Uses.bind inferInstance
  intro _
  apply Uses.bind inferInstance
  intro failed
  apply Uses.ite inferInstance
  apply Uses.bind inferInstance
  intro r
  split <;> infer_instance

instance background_dtdParameterText (name : String8) : IsBackground (dtdParameterText name) := by
  unfold dtdParameterText
  apply Uses.bind inferInstance
  intro s
  apply Uses.ite inferInstance
  apply Uses.ite inferInstance
  split <;> infer_instance

instance background_parseElementDeclaration : IsBackground (parseElementDeclaration subset start) := by
  unfold parseElementDeclaration
  -- The model, which may be absent, is looked at last.
  repeat' first | infer_instance | apply Uses.ite | refine Uses.bind ?_ fun _ ↦ ?_ | split

instance background_parseNotationDeclaration :
    IsBackground (parseNotationDeclaration subset start) := by
  unfold parseNotationDeclaration; infer_instance

instance background_skipScanStep (k : SkipScan) : IsBackground (skipScanStep subset stop k) := by
  unfold skipScanStep
  dsimp only
  split <;> infer_instance

instance background_skipDeclarationForUndefinedParameter :
    IsBackground (skipDeclarationForUndefinedParameter subset start stop) := by
  unfold skipDeclarationForUndefinedParameter; infer_instance

instance background_emitInternalEntityDeclarationDefault (emitPiece : String8 → Routine Unit)
    [∀ piece, IsBackground (emitPiece piece)] (nameStart nameEnd literalStart literalEnd : Nat) :
    IsBackground (emitInternalEntityDeclarationDefault emitPiece subset start nameStart nameEnd
      literalStart literalEnd close) := by
  unfold emitInternalEntityDeclarationDefault; infer_instance

instance background_processSubsetComment : IsBackground (processSubsetComment subset i) := by
  unfold processSubsetComment; infer_instance

instance background_processSubsetInstruction : IsBackground (processSubsetInstruction subset i) := by
  unfold processSubsetInstruction; infer_instance

instance background_processSubsetCharacter : IsBackground (processSubsetCharacter subset i) := by
  unfold processSubsetCharacter; infer_instance

instance background_emitDoctypeDefault : IsBackground (emitDoctypeDefault input start stop) := by
  unfold emitDoctypeDefault; infer_instance

instance background_emitDoctypeDefaultTail :
    IsBackground (emitDoctypeDefaultTail input start stop) := by
  unfold emitDoctypeDefaultTail; infer_instance

instance background_emitDoctypeDefaultOpen (nameStart nameEnd subsetStart : Nat) :
    IsBackground (emitDoctypeDefaultOpen input start nameStart nameEnd subsetStart close) := by
  unfold emitDoctypeDefaultOpen; infer_instance

instance background_emitDoctypeDefaultClose (hasInternalSubset : Bool) :
    IsBackground (emitDoctypeDefaultClose hasInternalSubset) := by
  unfold emitDoctypeDefaultClose; infer_instance

end

/-! ## Text -/

section

variable (input text : String8) (start : Nat)

instance reporting_emitText : IsReporting (emitText text) := by unfold emitText; infer_instance

instance reporting_unlessError (m : Routine Unit) [IsReporting m] : IsReporting (unlessError m) := by
  unfold unlessError; infer_instance

instance reporting_whileOngoing (m : Routine Unit) [IsReporting m] :
    IsReporting (whileOngoing m) := by
  unfold whileOngoing; infer_instance

instance reporting_parseCdata : IsReporting (parseCdata input start) := by
  unfold parseCdata; infer_instance

end

end Xpact
