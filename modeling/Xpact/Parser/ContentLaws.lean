import Xpact.Parser.ElementStacks
import Xpact.Parser.NeutralRoutines

/-!
# Laws of content

A law of content is established for every program that reads a text once it holds of the tags, of the
character data and of the declarations.  A law that allows every delivery of text holds of character
data, and one that allows every command of a tag holds of the tags.
-/

namespace Xpact

open Library Program Routine

-- A routine is one goal of instance search for each of its steps.
set_option synthInstance.maxSize 100000
set_option synthInstance.maxHeartbeats 200000

/-- The act belongs to no tag, declares nothing and delivers no text. -/
@[reducible] def Act.isNeutral : Act → Bool
  | .routine c => c.isNeutral
  | .countDocumentElement | .emitStructural _ => false
  | .pushElement _ | .pushElementSlice _ | .popElement => false
  | .pushNamespace .. | .popNamespaceDeclarations | .popNamespaceContext => false
  | _ => true

/-- The act belongs to a tag. -/
@[reducible] def Act.isTag : Act → Bool
  | .countDocumentElement | .emitStructural _ => true
  | .pushElement _ | .pushElementSlice _ | .popElement => true
  | .pushNamespace .. | .popNamespaceDeclarations | .popNamespaceContext => true
  | _ => false

/-- A law that holds of the neutral acts and of the DTD. -/
class ActLaw (L : Law Parser.machine) : Prop where
  act (a : Act) : a.isNeutral = true → Obeys L (Program.command a)
  routine : RoutineLaw (L.restrict Act.routine Scene.sight)

/-- A law that allows the acts of tags. -/
class TagLaw (L : Law Parser.machine) : Prop extends ActLaw L where
  tag (a : Act) : a.isTag = true → Obeys L (Program.command a)

/-- A law that allows every delivery of text. -/
class TextLaw (L : Law Parser.machine) : Prop extends ActLaw L where
  text (text : String8) : Obeys L (Program.command (.routine (.emitText text)))

/-- A law that holds of tags and character data. -/
class ContentLaw (L : Law Parser.machine) : Prop extends ActLaw L where
  startTag (bound : Nat) (input : String8) (start : Nat) : Obeys L (parseStartTag bound input start)
  endTag (input : String8) (start : Nat) : Obeys L (parseEndTag input start)
  cdata (input : String8) (start : Nat) : Obeys L (Content.ofRoutine (parseCdata input start))
  characterData (parseEntityContent : String8 → Content Unit) (isFinal : Bool) (input : String8)
    (start : Nat) : (∀ text, Obeys L (parseEntityContent text)) →
      Obeys L (collectCharacterData parseEntityContent isFinal input start)

attribute [instance] ActLaw.routine

section

variable {α : Type} {L : Law Parser.machine} (input content name : String8) (start stop i bound : Nat)

instance obeys_act (a : Act) [hL : ActLaw L] [ha : Passes a.isNeutral] :
    Obeys L (Program.command a) := hL.act a ha.eq_true

instance obeys_contentAct (a : Act) [hL : ActLaw L] [ha : Passes a.isNeutral] :
    Obeys L (Content.act a) := hL.act a ha.eq_true

instance obeys_scene : Obeys L Content.scene := by unfold Content.scene; infer_instance

instance obeys_routine (m : Routine α)
    [hm : Obeys (L.restrict Act.routine Scene.sight) m] : Obeys L (liftM m : Content α) := ⟨hm.holds⟩

instance obeys_ofRoutine (m : Routine α)
    [hm : Obeys (L.restrict Act.routine Scene.sight) m] : Obeys L (Content.ofRoutine m) := ⟨hm.holds⟩

/-! ## References in content -/

section Content

variable (parseEntityContent : String8 → Content Unit)
  [hcontent : ∀ text, Obeys L (parseEntityContent text)]

include hcontent

instance obeys_parseBalancedContent [ActLaw L] (text : String8) (entering leaving : Content Unit)
    [Obeys L entering] [Obeys L leaving] :
    Obeys L (parseBalancedContent parseEntityContent text entering leaving) := by
  unfold parseBalancedContent; infer_instance

instance obeys_includeExternalEntityInContent [ActLaw L] (e : ExternalEntity) :
    Obeys L (includeExternalEntityInContent parseEntityContent e) := by
  unfold includeExternalEntityInContent
  repeat' first | infer_instance | apply Obeys.ite | refine Obeys.bind ?_ fun _ ↦ ?_ | split

instance obeys_includeGeneralEntityInContent [ActLaw L] :
    Obeys L (includeGeneralEntityInContent parseEntityContent name) := by
  unfold includeGeneralEntityInContent
  repeat' first | infer_instance | apply Obeys.ite | refine Obeys.bind ?_ fun _ ↦ ?_ | split

/-! ## Text -/

omit hcontent in
theorem obeys_emitText [hL : TextLaw L] (text : String8) :
    Obeys L (Content.ofRoutine (Routine.emitText text)) := hL.text text

instance obeys_appendReferenceInContent [TextLaw L] (text : String8) :
    Obeys L (appendReferenceInContent parseEntityContent input start text) := by
  have hemit := obeys_emitText (L := L) text
  unfold appendReferenceInContent
  infer_instance

instance obeys_textReference [TextLaw L] (literalDefault : Bool) (t : TextScan) :
    Obeys L (textReference parseEntityContent input literalDefault t) := by
  unfold textReference; infer_instance

instance obeys_textStep [TextLaw L] (isFinal literalDefault : Bool) (t : TextScan) :
    Obeys L (textStep parseEntityContent isFinal literalDefault input t) := by
  unfold textStep TextScan.note
  repeat' first | infer_instance | apply Obeys.ite | refine Obeys.bind ?_ fun _ ↦ ?_
  -- What is left is the step over one character, with and without collected text.
  all_goals
    dsimp only
    split <;> infer_instance

omit hcontent in
instance obeys_deliverText [TextLaw L] (literalDefault : Bool) (t : TextScan) :
    Obeys L (deliverText literalDefault input start t) := by
  have hemit := obeys_emitText (L := L)
  unfold deliverText
  repeat' first | infer_instance | apply Obeys.ite | refine Obeys.bind ?_ fun _ ↦ ?_ | split

/-- A law that allows every delivery of text holds of character data. -/
theorem obeys_collectCharacterData [TextLaw L] (isFinal : Bool) :
    Obeys L (collectCharacterData parseEntityContent isFinal input start) := by
  unfold collectCharacterData textFinished; infer_instance

end Content

/-- A law that allows every delivery of text holds of CDATA sections. -/
theorem obeys_parseCdata [TextLaw L] : Obeys L (Content.ofRoutine (parseCdata input start)) := by
  have hemit (text : String8) : Obeys (L.restrict Act.routine Scene.sight) (Routine.emitText text) :=
    ⟨(obeys_emitText (L := L) text).holds⟩
  have hcdata : Obeys (L.restrict Act.routine Scene.sight) (parseCdata input start) := by
    unfold parseCdata; infer_instance
  infer_instance

/-! ## Tags -/

instance obeys_finishStartTag [ActLaw L] (opening closing : Content Unit) [Obeys L opening]
    [Obeys L closing] : Obeys L (finishStartTag input start i opening closing) := by
  unfold finishStartTag; infer_instance

section Tags

variable [hL : TagLaw L]

instance obeys_contentTag (a : Act) [ha : Passes a.isTag] : Obeys L (Content.act a) :=
  hL.tag a ha.eq_true

instance obeys_emitStructural (e : Event) : Obeys L (Content.emitStructural e) := by
  unfold Content.emitStructural; infer_instance

instance obeys_emitStartNamespaceDeclarations (declared : List String8) (scope : NamespaceScope) :
    Obeys L (emitStartNamespaceDeclarations declared scope) := by
  apply Obeys.forM
  intro nsPrefix
  apply Obeys.bind inferInstance
  intro ongoing
  apply Obeys.ite _ inferInstance
  split <;> infer_instance

instance obeys_emitEndNamespaceDeclarations (declared : List String8) :
    Obeys L (emitEndNamespaceDeclarations declared) := by
  unfold emitEndNamespaceDeclarations; infer_instance

instance obeys_checkElementStart : Obeys L checkElementStart := by
  unfold checkElementStart; infer_instance

instance obeys_openElement (attributes : Attributes) : Obeys L (openElement name attributes) := by
  unfold openElement; infer_instance

instance obeys_openElementRange (nameEnd : Nat) : Obeys L (openElementRange input start nameEnd) := by
  unfold openElementRange; infer_instance

instance obeys_checkElementEnd : Obeys L (checkElementEnd name) := by
  unfold checkElementEnd; infer_instance

instance obeys_closeNamespaces : Obeys L closeNamespaces := by
  unfold closeNamespaces
  apply Obeys.bind inferInstance
  intro p
  split <;> infer_instance

instance obeys_closeElement : Obeys L (closeElement name) := by
  unfold closeElement; infer_instance

instance obeys_closeElementRange (nameEnd : Nat) :
    Obeys L (closeElementRange input start nameEnd) := by
  unfold closeElementRange; infer_instance

/-- A law that allows the acts of tags holds of start tags. -/
theorem obeys_parseStartTag : Obeys L (parseStartTag bound input start) := by
  unfold parseStartTag parseStartTagStrings checkStartTagName; infer_instance

/-- A law that allows the acts of tags holds of end tags. -/
theorem obeys_parseEndTag : Obeys L (parseEndTag input start) := by
  unfold parseEndTag; infer_instance

end Tags

/-- A law that allows the acts of tags and every delivery of text. -/
theorem ContentLaw.of_tags [hL : TagLaw L] (htext : ∀ text,
    Obeys L (Program.command (.routine (.emitText text)))) : ContentLaw L where
  startTag bound input start := obeys_parseStartTag input start bound
  endTag input start := obeys_parseEndTag input start
  cdata input start := by
    have : TextLaw L := ⟨htext⟩
    exact obeys_parseCdata input start
  characterData parseEntityContent isFinal input start _ := by
    have : TextLaw L := ⟨htext⟩
    exact obeys_collectCharacterData input start parseEntityContent isFinal

instance obeys_tokens [ActLaw L] (step : String8 → Nat → Content Nat)
    [∀ input i, Obeys L (step input i)] : Obeys L (tokens step input start) := by
  unfold tokens tokensFinished; infer_instance

instance obeys_readInput [ActLaw L] (canDeferPositions : Bool) :
    Obeys L (readInput input canDeferPositions) := by
  unfold readInput; infer_instance

instance obeys_checkAtEnd [ActLaw L] (condition : Scene → Bool) (message : String) :
    Obeys L (checkAtEnd input condition message) := by
  unfold checkAtEnd; infer_instance

/-! ## Markup and content -/

section Programs

variable [hL : ContentLaw L]

instance obeys_startTag : Obeys L (parseStartTag bound input start) := hL.startTag bound input start

instance obeys_endTag : Obeys L (parseEndTag input start) := hL.endTag input start

instance obeys_liftCdata : Obeys L (liftM (parseCdata input start) : Content Nat) :=
  hL.cdata input start

instance obeys_parseMarkup : Obeys L (parseMarkup bound input start) := by
  unfold parseMarkup; infer_instance

section CharacterData

variable (parseEntityContent : String8 → Content Unit)
  [hcontent : ∀ text, Obeys L (parseEntityContent text)]

include hcontent

instance obeys_characterData (isFinal : Bool) :
    Obeys L (collectCharacterData parseEntityContent isFinal input start) :=
  hL.characterData parseEntityContent isFinal input start hcontent

instance obeys_parseCharacterData :
    Obeys L (parseCharacterData parseEntityContent input start) := by
  unfold parseCharacterData; infer_instance

instance obeys_parseCharacterDataPrefix :
    Obeys L (parseCharacterDataPrefix parseEntityContent input start) := by
  unfold parseCharacterDataPrefix; infer_instance

instance obeys_entityContentStep :
    Obeys L (entityContentStep bound parseEntityContent input i) := by
  unfold entityContentStep; infer_instance

end CharacterData

instance obeys_parseEntityContent : Obeys L (parseEntityContent bound content) := by
  induction bound generalizing content with
  | zero => exact obeys_stuck _
  | succ bound ih =>
    unfold parseEntityContent
    infer_instance

/-! ## Entry points -/

instance obeys_documentStep : Obeys L (documentStep bound input i) := by
  unfold documentStep; infer_instance

instance obeys_documentPrefixStep : Obeys L (documentPrefixStep bound input i) := by
  unfold documentPrefixStep; infer_instance

instance obeys_bodyStep (isFinal : Bool) : Obeys L (bodyStep bound isFinal input i) := by
  unfold bodyStep; infer_instance

instance obeys_document : Obeys L (document bound input) := by
  unfold document; infer_instance

instance obeys_documentPrefix : Obeys L (documentPrefix bound input) := by
  unfold documentPrefix; infer_instance

instance obeys_externalEntity : Obeys L (externalEntity bound input) := by
  unfold externalEntity; infer_instance

instance obeys_externalSubset (entityContext : Option String8) :
    Obeys L (externalSubset bound input entityContext) := by
  unfold externalSubset
  apply Obeys.bind inferInstance
  intro text
  apply Obeys.bind inferInstance
  intro cfg
  dsimp only
  split <;> infer_instance

instance obeys_externalSubsetPrefix : Obeys L (externalSubsetPrefix bound input) := by
  unfold externalSubsetPrefix; infer_instance

instance obeys_checkParameterLiteral : Obeys L (checkParameterLiteral bound input) := by
  unfold checkParameterLiteral; infer_instance

instance obeys_documentBody (isFinal : Bool) (textBefore : String8) :
    Obeys L (documentBody bound isFinal textBefore input) := by
  unfold documentBody; infer_instance

end Programs

end

/-- A law of tags and character data holds of every program that reads a text. -/
theorem Parser.Session.obeys {α : Type} {L : Law Parser.machine} [ContentLaw L] {m : Content α}
    {p : Parser} (hm : Session m p) : Obeys L m := by
  cases hm with
  | call entry bound input p =>
    cases entry <;> (unfold Entry.program; infer_instance)
  | _ => infer_instance

end Xpact
