import Xpact.Library.Law
import Xpact.Parser.Entry

/-!
# Plain routines

The scanners, and what else only reads a text: they may report an error, note a position or assign a
plain field, and leave everything else alone.  A law needs to be established for none of them, once
it holds of the plain commands.
-/

namespace Xpact

open Library Program Routine

-- A routine is one goal of instance search for each of its steps.
set_option synthInstance.maxSize 4000

/-- The command changes no table and no stack, and delivers nothing. -/
@[reducible] def Command.isPlain : Command → Bool
  | .setError _ | .notePosition _ | .noteTokenPosition _ _ | .noteCurrentEntityReferencePosition => true
  | .assign _ => true
  | _ => false

/-- The routine issues plain commands only. -/
abbrev IsPlain (m : Routine α) : Prop := Uses Command.isPlain m

/-! ## Parts of routines -/

section

variable {α : Type}

instance plain_config : IsPlain config := by unfold config Routine.sight; infer_instance
instance plain_core : IsPlain core := by unfold core Routine.sight; infer_instance
instance plain_context : IsPlain context := by unfold context; infer_instance
instance plain_flags : IsPlain flags := by unfold flags; infer_instance
instance plain_routineSight : IsPlain Routine.sight := by unfold Routine.sight; infer_instance
instance plain_hasResolver : IsPlain hasResolver := by unfold hasResolver; infer_instance
instance plain_hasError : IsPlain hasError := by unfold hasError; infer_instance
instance plain_isOngoing : IsPlain isOngoing := by unfold isOngoing; infer_instance

instance plain_setError (message : String) : IsPlain (setError message) := by
  unfold setError; infer_instance

instance plain_failAt (message : String) (a : α) : IsPlain (failAt message a) := by
  unfold failAt; infer_instance

instance plain_notePosition (i : Nat) : IsPlain (notePosition i) := by
  unfold notePosition; infer_instance

instance plain_noteTokenPosition (i byteCount : Nat) : IsPlain (noteTokenPosition i byteCount) := by
  unfold noteTokenPosition; infer_instance

instance plain_assign (f : Flags → Flags) : IsPlain (assign f) := by unfold assign; infer_instance

instance plain_unlessError (m : Routine Unit) [IsPlain m] : IsPlain (unlessError m) := by
  unfold unlessError; infer_instance

end

/-! ## Scanners -/

section

variable (input subset : String8) (start stop close i : Nat) (message : String)

instance plain_scanName : IsPlain (scanName input start) := by unfold scanName; infer_instance

instance plain_scanNmtoken : IsPlain (scanNmtoken input start) := by
  unfold scanNmtoken; infer_instance

instance plain_skipRequiredSpaces : IsPlain (skipRequiredSpaces input start message) := by
  unfold skipRequiredSpaces; infer_instance

instance plain_skipSpacesBeforeLiteral : IsPlain (skipSpacesBeforeLiteral input start message) := by
  unfold skipSpacesBeforeLiteral; infer_instance

instance plain_skipSpacesBetweenAttributes : IsPlain (skipSpacesBetweenAttributes input start) := by
  unfold skipSpacesBetweenAttributes; infer_instance

instance plain_validateXmlText (text : String8) : IsPlain (validateXmlText text) := by
  unfold validateXmlText; infer_instance

instance plain_readQuotedLiteral : IsPlain (readQuotedLiteral input start stop) := by
  unfold readQuotedLiteral; infer_instance

instance plain_readPublicIdLiteral : IsPlain (readPublicIdLiteral input start stop) := by
  unfold readPublicIdLiteral; infer_instance

instance plain_startsXmlDeclarationAt : IsPlain (startsXmlDeclarationAt input start) := by
  unfold startsXmlDeclarationAt; infer_instance

instance plain_validateProcessingInstructionTarget :
    IsPlain (validateProcessingInstructionTarget input start stop) := by
  unfold validateProcessingInstructionTarget; infer_instance

instance plain_appendCharacterReference (body : String8) :
    IsPlain (appendCharacterReference body) := by
  unfold appendCharacterReference
  apply Uses.ite inferInstance
  apply Uses.bind inferInstance
  intro failed
  apply Uses.ite inferInstance
  split <;> infer_instance

end

/-! ## Input and declarations -/

section

variable (input subset : String8) (start stop close i : Nat) (isParameter : Bool)

instance plain_utf16AsUtf8 (bigEndian : Bool) : IsPlain (utf16AsUtf8 input bigEndian) := by
  unfold utf16AsUtf8; infer_instance

instance plain_decodedInput (isUtf8 : Bool) : IsPlain (decodedInput isUtf8 input) := by
  unfold decodedInput; infer_instance

instance plain_normalizedInput (isUtf8 allowAlias : Bool) :
    IsPlain (normalizedInput isUtf8 input allowAlias) := by
  unfold normalizedInput; infer_instance

instance plain_parseXmlDeclarationAttribute (external : Bool) (d : XmlDeclarationData) :
    IsPlain (parseXmlDeclarationAttribute external input d) := by
  unfold parseXmlDeclarationAttribute
  apply Uses.ite inferInstance
  apply Uses.ite inferInstance
  apply Uses.ite inferInstance
  apply Uses.bind inferInstance
  intro nameEnd
  apply Uses.ite inferInstance
  apply Uses.ite inferInstance
  apply Uses.ite inferInstance
  split <;> infer_instance

instance plain_parameterEntityLoadingAllowed : IsPlain parameterEntityLoadingAllowed := by
  unfold parameterEntityLoadingAllowed; infer_instance

instance plain_walkFinished (w : AliasWalk) : IsPlain (walkFinished w) := by
  unfold walkFinished; infer_instance

instance plain_includeExternalEntityInLiteral (e : ExternalEntity) :
    IsPlain (includeExternalEntityInLiteral e) := by
  unfold includeExternalEntityInLiteral; infer_instance

instance plain_appendReferenceInEntityValue : IsPlain (appendReferenceInEntityValue input start) := by
  unfold appendReferenceInEntityValue; infer_instance

instance plain_entityValueFinished (s : Nat × String8) : IsPlain (entityValueFinished input s) := by
  unfold entityValueFinished; infer_instance

instance plain_contentScanStep (s : ContentScan) : IsPlain (contentScanStep subset stop s) := by
  unfold contentScanStep
  apply Uses.ite inferInstance
  apply Uses.ite inferInstance
  split <;> infer_instance

instance plain_mixedScanStep (s : MixedScan) : IsPlain (mixedScanStep subset stop s) := by
  unfold mixedScanStep; infer_instance

instance plain_parseMixedContentParticle :
    IsPlain (parseMixedContentParticle subset start stop) := by
  unfold parseMixedContentParticle; infer_instance

instance plain_parseContentParticle : IsPlain (parseContentParticle subset start stop) := by
  unfold parseContentParticle; infer_instance

instance plain_parseNotationId : IsPlain (parseNotationId subset i close) := by
  unfold parseNotationId; infer_instance

instance plain_attlistGroupStep (names : Bool) (g : AttlistGroup) :
    IsPlain (attlistGroupStep subset stop names g) := by
  unfold attlistGroupStep; infer_instance

instance plain_appendAttlistGroup (attributeType : String8) (names : Bool) :
    IsPlain (appendAttlistGroup subset start stop attributeType names) := by
  unfold appendAttlistGroup; infer_instance

instance plain_parseAttlistType : IsPlain (parseAttlistType subset start stop) := by
  unfold parseAttlistType; infer_instance

instance plain_parseExternalId (unknown : String) : IsPlain (parseExternalId input i stop unknown) := by
  unfold parseExternalId; infer_instance

instance plain_parseNotationData : IsPlain (parseNotationData subset i close isParameter) := by
  unfold parseNotationData; infer_instance

instance plain_subsetFinished (s : SubsetScan) : IsPlain (subsetFinished s) := by
  unfold subsetFinished; infer_instance

instance plain_conditionalStatusFinished (s : Nat × String8) :
    IsPlain (conditionalStatusFinished subset close s) := by
  unfold conditionalStatusFinished; infer_instance

instance plain_setDoctypeName (name : String8) : IsPlain (setDoctypeName name) := by
  unfold setDoctypeName; infer_instance

instance plain_parseDoctypeExternalId : IsPlain (parseDoctypeExternalId input i stop) := by
  unfold parseDoctypeExternalId; infer_instance

end

/-! ## Tags and text -/

section

variable (input : String8) (start i : Nat) (attributes : Attributes) (scope : NamespaceScope)

instance plain_applyDefaultAttribute (d : AttributeDecl) :
    IsPlain (applyDefaultAttribute d attributes) := by
  unfold applyDefaultAttribute
  dsimp only
  split <;> infer_instance

instance plain_applyDefaultAttributes (elementName : String8) :
    IsPlain (applyDefaultAttributes elementName attributes) := by
  unfold applyDefaultAttributes; infer_instance

instance plain_validateNamespaceDeclaration (nsPrefix uri : String8) :
    IsPlain (validateNamespaceDeclaration nsPrefix uri) := by
  unfold validateNamespaceDeclaration
  apply Uses.bind inferInstance
  intro cfg
  split <;> infer_instance

instance plain_namespaceScopeForElement : IsPlain (namespaceScopeForElement attributes scope) := by
  unfold namespaceScopeForElement; infer_instance

instance plain_reportExpanded (name : String8) (r : Except String String8) :
    IsPlain (reportExpanded name r) := by
  cases r <;> (unfold reportExpanded; infer_instance)

instance plain_expandedElementName (name : String8) : IsPlain (expandedElementName name scope) := by
  unfold expandedElementName; infer_instance

instance plain_expandedAttributeName (name : String8) :
    IsPlain (expandedAttributeName name scope) := by
  unfold expandedAttributeName; infer_instance

instance plain_expandAttribute (result : Attributes) (name value : String8) :
    IsPlain (expandAttribute attributes scope result i name value) := by
  unfold expandAttribute; infer_instance

instance plain_expandedAttributes : IsPlain (expandedAttributes attributes scope) := by
  unfold expandedAttributes; infer_instance

instance plain_prepareElement (name : String8) : IsPlain (prepareElement name attributes) := by
  unfold prepareElement; infer_instance

instance plain_parseAttributeNoEvents : IsPlain (parseAttributeNoEvents input start) := by
  unfold parseAttributeNoEvents
  apply Uses.ite inferInstance
  apply Uses.bind inferInstance
  intro nameEnd
  apply Uses.ite inferInstance
  apply Uses.ite inferInstance
  apply Uses.bind inferInstance
  intro failed
  apply Uses.ite inferInstance
  split <;> infer_instance

instance plain_plainAttributeStep (a : PlainAttributes) : IsPlain (plainAttributeStep input a) := by
  unfold plainAttributeStep; infer_instance

instance plain_parseAttributesNoEvents : IsPlain (parseAttributesNoEvents input start) := by
  unfold parseAttributesNoEvents; infer_instance

instance plain_startTagEnd : IsPlain (startTagEnd input i) := by
  unfold startTagEnd; infer_instance

instance plain_failTextAt (message : String) (t : PlainText) :
    IsPlain (failTextAt input message t) := by
  unfold failTextAt; infer_instance

instance plain_plainTextCharacter (outside isSpace : Bool) (t : PlainText) :
    IsPlain (plainTextCharacter input outside isSpace t) := by
  unfold plainTextCharacter; infer_instance

instance plain_plainTextStep (outside : Bool) (t : PlainText) :
    IsPlain (plainTextStep input outside t) := by
  unfold plainTextStep; infer_instance

instance plain_plainTextFinished (t : PlainText) : IsPlain (plainTextFinished input t) := by
  unfold plainTextFinished; infer_instance

instance plain_parseCharacterDataNoEvents : IsPlain (parseCharacterDataNoEvents input start) := by
  unfold parseCharacterDataNoEvents; infer_instance

instance plain_note (t : TextScan) : IsPlain t.note := by unfold TextScan.note; infer_instance

instance plain_textFinished (t : TextScan) : IsPlain (textFinished input t) := by
  unfold textFinished; infer_instance

instance plain_tokensFinished : IsPlain (tokensFinished input i) := by
  unfold tokensFinished; infer_instance

end

end Xpact
