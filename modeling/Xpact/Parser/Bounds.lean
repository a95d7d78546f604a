import Xpact.Library.Approximation
import Xpact.Parser.Entry

/-!
# Bounds of the recursion

The source calls its routines for subsets, entities and literals from within each other without a
limit.  Here they take a bound on the depth of the calls, which must not decide a result.  It does
not: routine by routine, what a bound allows approximates what a larger one allows.
-/

namespace Xpact

open Library Program Routine

-- A routine is one goal of instance search for each of its steps.
set_option synthInstance.maxSize 100000
set_option synthInstance.maxHeartbeats 200000

/-! ## Literals -/

section

variable {b c : Nat} (input subset content name : String8) (start stop close i : Nat)
  (quote : Character8)

section Literal

variable (expand expand' : String8 → Routine String8)
  [hexpand : ∀ text, Approximates (expand text) (expand' text)]

include hexpand

instance approximates_includeGeneralEntityInLiteral :
    Approximates (includeGeneralEntityInLiteral expand name)
      (includeGeneralEntityInLiteral expand' name) := by
  unfold includeGeneralEntityInLiteral
  refine .bind inferInstance fun name ↦ .bind inferInstance fun s ↦ ?_
  refine .ite inferInstance (.ite inferInstance (.ite inferInstance ?_))
  split <;> infer_instance

instance approximates_appendReferenceInLiteral :
    Approximates (appendReferenceInLiteral expand input start)
      (appendReferenceInLiteral expand' input start) := by
  unfold appendReferenceInLiteral; infer_instance

instance approximates_expandLiteralTextStep (t : Nat × String8) :
    Approximates (expandLiteralTextStep expand content t)
      (expandLiteralTextStep expand' content t) := by
  unfold expandLiteralTextStep; infer_instance

end Literal

theorem approximates_expandLiteralText_of_le (h : b ≤ c) :
    Approximates (expandLiteralText b content) (expandLiteralText c content) := by
  -- on the smaller bound, which a nested call has one less of on both sides
  induction b generalizing c content with
  | zero => exact .stuck _
  | succ b ih =>
    cases c with
    | zero => cases h
    | succ c =>
      have hnested (text : String8) := ih text (Nat.le_of_succ_le_succ h)
      unfold expandLiteralText
      infer_instance

variable [h : Fact (b ≤ c)]

instance approximates_expandLiteralText :
    Approximates (expandLiteralText b content) (expandLiteralText c content) :=
  approximates_expandLiteralText_of_le content h.out

instance approximates_parseAttributeValueStep (t : Nat × String8) :
    Approximates (parseAttributeValueStep b input t) (parseAttributeValueStep c input t) := by
  unfold parseAttributeValueStep; infer_instance

instance approximates_parseAttributeValue :
    Approximates (parseAttributeValue b input start quote)
      (parseAttributeValue c input start quote) := by
  unfold parseAttributeValue; infer_instance

end

/-! ## Entity values -/

section

variable {b c : Nat} (input subset content name : String8) (start stop close i : Nat)
  (quote : Character8)

section EntityValue

variable (append append' : String8 → Routine String8)
  [happend : ∀ name, Approximates (append name) (append' name)]

include happend

instance approximates_appendParameterReferenceInEntityValue :
    Approximates (appendParameterReferenceInEntityValue append input start)
      (appendParameterReferenceInEntityValue append' input start) := by
  unfold appendParameterReferenceInEntityValue
  refine .bind inferInstance fun s ↦ ?_
  refine .ite inferInstance (.ite inferInstance (.ite inferInstance (.ite inferInstance ?_)))
  split <;> infer_instance

instance approximates_appendParameterTextStep (t : Nat × String8) :
    Approximates (appendParameterTextStep append input t)
      (appendParameterTextStep append' input t) := by
  unfold appendParameterTextStep; infer_instance

instance approximates_appendParameterEntityLiteralStep (t : AliasWalk × String8) :
    Approximates (appendParameterEntityLiteralStep append t)
      (appendParameterEntityLiteralStep append' t) := by
  unfold appendParameterEntityLiteralStep
  refine .bind inferInstance fun s ↦ .ite inferInstance ?_
  split
  · infer_instance
  · refine .bind inferInstance fun _ ↦ .bind inferInstance fun hasError ↦ .ite inferInstance ?_
    split <;> infer_instance

end EntityValue

theorem approximates_appendParameterEntityLiteral_of_le (h : b ≤ c) :
    Approximates (appendParameterEntityLiteral b name) (appendParameterEntityLiteral c name) := by
  induction b generalizing c name with
  | zero => exact .stuck _
  | succ b ih =>
    cases c with
    | zero => cases h
    | succ c =>
      have hnested (name : String8) := ih name (Nat.le_of_succ_le_succ h)
      unfold appendParameterEntityLiteral
      infer_instance

variable [h : Fact (b ≤ c)]

instance approximates_appendParameterEntityLiteral :
    Approximates (appendParameterEntityLiteral b name) (appendParameterEntityLiteral c name) :=
  approximates_appendParameterEntityLiteral_of_le name h.out

instance approximates_parseEntityLiteralStep (t : Nat × String8) :
    Approximates (parseEntityLiteralStep b input t) (parseEntityLiteralStep c input t) := by
  unfold parseEntityLiteralStep; infer_instance

instance approximates_parseEntityLiteral :
    Approximates (parseEntityLiteral b input start quote)
      (parseEntityLiteral c input start quote) := by
  unfold parseEntityLiteral; infer_instance

end

/-! ## Declarations -/

section

variable {b c : Nat} [h : Fact (b ≤ c)] (subset name elementName : String8)
  (start stop close i : Nat)

instance approximates_attlistDefaultValueStep (t : Nat × String8) :
    Approximates (attlistDefaultValueStep b subset stop t)
      (attlistDefaultValueStep c subset stop t) := by
  unfold attlistDefaultValueStep; infer_instance

instance approximates_parseAttlistDefaultValue :
    Approximates (parseAttlistDefaultValue b subset start stop)
      (parseAttlistDefaultValue c subset start stop) := by
  unfold parseAttlistDefaultValue; infer_instance

instance approximates_parseAttlistDefault :
    Approximates (parseAttlistDefault b subset i close) (parseAttlistDefault c subset i close) := by
  unfold parseAttlistDefault; infer_instance

instance approximates_parseAttlistDefinition :
    Approximates (parseAttlistDefinition b subset elementName close i)
      (parseAttlistDefinition c subset elementName close i) := by
  unfold parseAttlistDefinition; infer_instance

instance approximates_parseAttlistDeclaration :
    Approximates (parseAttlistDeclaration b subset start)
      (parseAttlistDeclaration c subset start) := by
  unfold parseAttlistDeclaration; infer_instance

instance approximates_parseInternalEntityValue (isParameter isProcessed : Bool) :
    Approximates (parseInternalEntityValue b subset i close name isParameter isProcessed)
      (parseInternalEntityValue c subset i close name isParameter isProcessed) := by
  unfold parseInternalEntityValue; infer_instance

instance approximates_parseInternalEntityDeclaration (nameStart nameEnd literalStart : Nat)
    (isParameter isProcessed : Bool) :
    Approximates
      (parseInternalEntityDeclaration b subset start nameStart nameEnd literalStart close name
        isParameter isProcessed)
      (parseInternalEntityDeclaration c subset start nameStart nameEnd literalStart close name
        isParameter isProcessed) := by
  unfold parseInternalEntityDeclaration; infer_instance

instance approximates_parseEntityDeclaration :
    Approximates (parseEntityDeclaration b subset start)
      (parseEntityDeclaration c subset start) := by
  unfold parseEntityDeclaration; infer_instance

end

/-! ## Subsets -/

section

variable {b c : Nat} (input subset content name : String8) (start close i : Nat)

section ParameterValue

variable (expanded expanded' : String8 → Routine (Option String8))
  [hexpanded : ∀ name, Approximates (expanded name) (expanded' name)]

include hexpanded

instance approximates_parameterCopyStep (k : ParameterCopy) :
    Approximates (parameterCopyStep expanded input k) (parameterCopyStep expanded' input k) := by
  unfold parameterCopyStep
  dsimp only
  split <;> infer_instance

end ParameterValue

theorem approximates_expandedDtdParameterValue_of_le (h : b ≤ c) :
    Approximates (expandedDtdParameterValue b name) (expandedDtdParameterValue c name) := by
  induction b generalizing c name with
  | zero => exact .stuck _
  | succ b ih =>
    cases c with
    | zero => cases h
    | succ c =>
      have hnested (name : String8) := ih name (Nat.le_of_succ_le_succ h)
      unfold expandedDtdParameterValue
      refine Approximates.bind inferInstance fun text ↦ ?_
      split <;> infer_instance

instance approximates_restoringBase (m n : Routine Unit) [Approximates m n] :
    Approximates (restoringBase m) (restoringBase n) := by
  unfold restoringBase; infer_instance

instance approximates_unlessError (m n : Routine Unit) [Approximates m n] :
    Approximates (unlessError m) (unlessError n) := by
  unfold unlessError; infer_instance

instance approximates_whileOngoing (m n : Routine Unit) [Approximates m n] :
    Approximates (whileOngoing m) (whileOngoing n) := by
  unfold whileOngoing; infer_instance

section Subset

variable (process process' : String8 → Routine Unit)
  [hprocess : ∀ subset, Approximates (process subset) (process' subset)]

include hprocess

instance approximates_processExternalText (answer : Answer) :
    Approximates (processExternalText process content answer)
      (processExternalText process' content answer) := by
  unfold processExternalText; infer_instance

instance approximates_includeExternalParameterEntityInSubset (e : ExternalEntity) :
    Approximates (includeExternalParameterEntityInSubset process e)
      (includeExternalParameterEntityInSubset process' e) := by
  unfold includeExternalParameterEntityInSubset unlessError
  refine @approximates_restoringBase _ _ ?_
  refine .bind inferInstance fun allowed ↦ .ite inferInstance ?_
  refine .bind inferInstance fun hasResolver ↦ .ite inferInstance ?_
  refine .bind inferInstance fun _ ↦ .bind inferInstance fun hasError ↦ .ite inferInstance ?_
  refine .bind inferInstance fun replacement ↦ ?_
  split <;> infer_instance

instance approximates_includeInternalParameterEntity (value : String8) :
    Approximates (includeInternalParameterEntity process name value start)
      (includeInternalParameterEntity process' name value start) := by
  unfold includeInternalParameterEntity; infer_instance

instance approximates_includeParameterEntityInSubset :
    Approximates (includeParameterEntityInSubset process subset start)
      (includeParameterEntityInSubset process' subset start) := by
  unfold includeParameterEntityInSubset
  -- a match is not found by instance search: the steps that lead to it are taken one by one
  repeat' first
    | infer_instance | apply Approximates.ite | refine Approximates.bind ?_ fun _ ↦ ?_ | split

variable [h : Fact (b ≤ c)]

omit hprocess in
instance approximates_expandedDtdParameterValue :
    Approximates (expandedDtdParameterValue b name) (expandedDtdParameterValue c name) :=
  approximates_expandedDtdParameterValue_of_le name h.out

omit hprocess in
instance approximates_dtdSubsetWithParameterReference (reference : Nat) :
    Approximates (dtdSubsetWithParameterReference b subset reference)
      (dtdSubsetWithParameterReference c subset reference) := by
  unfold dtdSubsetWithParameterReference; infer_instance

omit hprocess in
instance approximates_conditionalStatusStep (t : Nat × String8) :
    Approximates (conditionalStatusStep b subset t) (conditionalStatusStep c subset t) := by
  unfold conditionalStatusStep; infer_instance

instance approximates_parseConditionalSection :
    Approximates (parseConditionalSection b process subset start)
      (parseConditionalSection c process' subset start) := by
  unfold parseConditionalSection; infer_instance

instance approximates_processSubsetToken (allowTextDeclaration : Bool) :
    Approximates (processSubsetToken b process allowTextDeclaration subset i)
      (processSubsetToken c process' allowTextDeclaration subset i) := by
  unfold processSubsetToken; infer_instance

instance approximates_processSubsetStep (allowTextDeclaration : Bool) (s : SubsetScan) :
    Approximates (processSubsetStep b process allowTextDeclaration s)
      (processSubsetStep c process' allowTextDeclaration s) := by
  unfold processSubsetStep
  repeat' first
    | infer_instance | apply Approximates.ite | refine Approximates.bind ?_ fun _ ↦ ?_ | split

end Subset

theorem approximates_processDtdSubset_of_le (allowTextDeclaration : Bool) (h : b ≤ c) :
    Approximates (processDtdSubset b subset allowTextDeclaration)
      (processDtdSubset c subset allowTextDeclaration) := by
  induction b generalizing c subset allowTextDeclaration with
  | zero => exact .stuck _
  | succ b ih =>
    cases c with
    | zero => cases h
    | succ c =>
      have hle : Fact (b ≤ c) := ⟨Nat.le_of_succ_le_succ h⟩
      have hnested (subset : String8) := ih subset false hle.out
      unfold processDtdSubset
      -- the bound on the nested calls is also the one on the rounds of the loop
      exact .bind (.loop inferInstance inferInstance h _) inferInstance

variable [h : Fact (b ≤ c)]

instance approximates_processDtdSubset (allowTextDeclaration : Bool) :
    Approximates (processDtdSubset b subset allowTextDeclaration)
      (processDtdSubset c subset allowTextDeclaration) :=
  approximates_processDtdSubset_of_le subset allowTextDeclaration h.out

instance approximates_processInternalSubset :
    Approximates (processInternalSubset b subset) (processInternalSubset c subset) := by
  unfold processInternalSubset; infer_instance

instance approximates_processInternalSubsetPrefix (allowTextDeclaration : Bool) :
    Approximates (processInternalSubsetPrefix b subset allowTextDeclaration)
      (processInternalSubsetPrefix c subset allowTextDeclaration) := by
  unfold processInternalSubsetPrefix; infer_instance

instance approximates_includeExternalSubset (publicId systemId : String8) :
    Approximates (includeExternalSubset b publicId systemId)
      (includeExternalSubset c publicId systemId) := by
  unfold includeExternalSubset
  refine @approximates_restoringBase _ _ ?_
  refine .bind inferInstance fun allowed ↦ .ite ?_ inferInstance
  refine .bind inferInstance fun hasResolver ↦ .ite inferInstance ?_
  refine .bind inferInstance fun f ↦ .bind inferInstance fun replacement ↦ ?_
  split <;> infer_instance

instance approximates_includeForeignDtdIfNeeded :
    Approximates (includeForeignDtdIfNeeded b name) (includeForeignDtdIfNeeded c name) := by
  unfold includeForeignDtdIfNeeded unlessError
  refine @approximates_restoringBase _ _ ?_
  repeat' first
    | infer_instance | apply Approximates.ite | refine Approximates.bind ?_ fun _ ↦ ?_ | split

/-! ## Document type declarations -/

instance approximates_atSubsetOffset (offset : Nat) (m n : Routine Unit) [Approximates m n] :
    Approximates (atSubsetOffset offset m) (atSubsetOffset offset n) := by
  unfold atSubsetOffset; infer_instance

instance approximates_processIncompleteDoctypePrefix :
    Approximates (processIncompleteDoctypePrefix b input start)
      (processIncompleteDoctypePrefix c input start) := by
  unfold processIncompleteDoctypePrefix; infer_instance

instance approximates_parseDoctypeSubset (subsetStart : Nat) :
    Approximates (parseDoctypeSubset b input subsetStart close)
      (parseDoctypeSubset c input subsetStart close) := by
  unfold parseDoctypeSubset; infer_instance

instance approximates_parseDoctypeBody (nameStart : Nat) :
    Approximates (parseDoctypeBody b input start nameStart i close)
      (parseDoctypeBody c input start nameStart i close) := by
  unfold parseDoctypeBody
  repeat' first
    | infer_instance | apply Approximates.ite | refine Approximates.bind ?_ fun _ ↦ ?_ | split

instance approximates_parseDoctype :
    Approximates (parseDoctype b input start) (parseDoctype c input start) := by
  unfold parseDoctype; infer_instance

end

/-! ## Tags and text -/

instance approximates_liftM {α : Type} (m n : Routine α) [hmn : Approximates m n] :
    Approximates (liftM m : Content α) (liftM n) := hmn.lift Act.routine Scene.sight

section

variable {b c : Nat} [h : Fact (b ≤ c)] (input content name : String8) (start i : Nat)

instance approximates_parseAttribute (a : Attributes) :
    Approximates (parseAttribute b input start a) (parseAttribute c input start a) := by
  unfold parseAttribute; infer_instance

instance approximates_attributeStep (t : Nat × Attributes) :
    Approximates (attributeStep b input t) (attributeStep c input t) := by
  unfold attributeStep; infer_instance

instance approximates_parseAttributes :
    Approximates (parseAttributes b input start) (parseAttributes c input start) := by
  unfold parseAttributes; infer_instance

instance approximates_checkStartTagName :
    Approximates (checkStartTagName b name) (checkStartTagName c name) := by
  unfold checkStartTagName; infer_instance

instance approximates_parseStartTagStrings :
    Approximates (parseStartTagStrings b input start i name)
      (parseStartTagStrings c input start i name) := by
  unfold parseStartTagStrings; infer_instance

instance approximates_parseStartTag :
    Approximates (parseStartTag b input start) (parseStartTag c input start) := by
  unfold parseStartTag; infer_instance

instance approximates_parseMarkup :
    Approximates (parseMarkup b input start) (parseMarkup c input start) := by
  unfold parseMarkup; infer_instance

section Content

variable (nested nested' : String8 → Content Unit)
  [hnested : ∀ text, Approximates (nested text) (nested' text)]

include hnested

instance approximates_parseBalancedContent (entering leaving : Content Unit) :
    Approximates (parseBalancedContent nested content entering leaving)
      (parseBalancedContent nested' content entering leaving) := by
  unfold parseBalancedContent; infer_instance

instance approximates_includeExternalEntityInContent (e : ExternalEntity) :
    Approximates (includeExternalEntityInContent nested e)
      (includeExternalEntityInContent nested' e) := by
  unfold includeExternalEntityInContent
  repeat' first
    | infer_instance | apply Approximates.ite | refine Approximates.bind ?_ fun _ ↦ ?_ | split

instance approximates_includeGeneralEntityInContent :
    Approximates (includeGeneralEntityInContent nested name)
      (includeGeneralEntityInContent nested' name) := by
  unfold includeGeneralEntityInContent
  refine .bind inferInstance fun name ↦ .bind inferInstance fun p ↦ ?_
  refine .ite inferInstance (.ite inferInstance (.ite inferInstance ?_))
  split <;> infer_instance

instance approximates_appendReferenceInContent (text : String8) :
    Approximates (appendReferenceInContent nested input start text)
      (appendReferenceInContent nested' input start text) := by
  unfold appendReferenceInContent; infer_instance

instance approximates_textReference (literalDefault : Bool) (t : TextScan) :
    Approximates (textReference nested input literalDefault t)
      (textReference nested' input literalDefault t) := by
  unfold textReference; infer_instance

instance approximates_textStep (isFinal literalDefault : Bool) (t : TextScan) :
    Approximates (textStep nested isFinal literalDefault input t)
      (textStep nested' isFinal literalDefault input t) := by
  unfold textStep; infer_instance

instance approximates_collectCharacterData (isFinal : Bool) :
    Approximates (collectCharacterData nested isFinal input start)
      (collectCharacterData nested' isFinal input start) := by
  unfold collectCharacterData; infer_instance

instance approximates_parseCharacterData :
    Approximates (parseCharacterData nested input start)
      (parseCharacterData nested' input start) := by
  unfold parseCharacterData; infer_instance

instance approximates_parseCharacterDataPrefix :
    Approximates (parseCharacterDataPrefix nested input start)
      (parseCharacterDataPrefix nested' input start) := by
  unfold parseCharacterDataPrefix; infer_instance

instance approximates_entityContentStep :
    Approximates (entityContentStep b nested content i)
      (entityContentStep c nested' content i) := by
  unfold entityContentStep; infer_instance

end Content

omit h in
theorem approximates_parseEntityContent_of_le (h : b ≤ c) :
    Approximates (parseEntityContent b content) (parseEntityContent c content) := by
  induction b generalizing c content with
  | zero => exact .stuck _
  | succ b ih =>
    cases c with
    | zero => cases h
    | succ c =>
      have hle : Fact (b ≤ c) := ⟨Nat.le_of_succ_le_succ h⟩
      have hnested (text : String8) := ih text hle.out
      unfold parseEntityContent
      infer_instance

end

/-! ## Entry points -/

section

variable {b c : Nat} [h : Fact (b ≤ c)] (input content : String8) (i : Nat)

instance approximates_parseEntityContent :
    Approximates (parseEntityContent b content) (parseEntityContent c content) :=
  approximates_parseEntityContent_of_le content h.out

instance approximates_documentStep :
    Approximates (documentStep b input i) (documentStep c input i) := by
  unfold documentStep; infer_instance

instance approximates_documentPrefixStep :
    Approximates (documentPrefixStep b input i) (documentPrefixStep c input i) := by
  unfold documentPrefixStep; infer_instance

instance approximates_tokens (step step' : String8 → Nat → Content Nat)
    [hstep : ∀ i, Approximates (step input i) (step' input i)] :
    Approximates (tokens step input i) (tokens step' input i) := by
  unfold tokens; infer_instance

instance approximates_bodyStep (isFinal : Bool) :
    Approximates (bodyStep b isFinal input i) (bodyStep c isFinal input i) := by
  unfold bodyStep; infer_instance

instance approximates_documentBody (isFinal : Bool) (textBefore body : String8) :
    Approximates (documentBody b isFinal textBefore body)
      (documentBody c isFinal textBefore body) := by
  unfold documentBody; infer_instance

instance approximates_document : Approximates (document b input) (document c input) := by
  unfold document; infer_instance

instance approximates_documentPrefix :
    Approximates (documentPrefix b input) (documentPrefix c input) := by
  unfold documentPrefix; infer_instance

instance approximates_externalEntity :
    Approximates (externalEntity b input) (externalEntity c input) := by
  unfold externalEntity; infer_instance

instance approximates_externalSubset (entityContext : Option String8) :
    Approximates (externalSubset b input entityContext)
      (externalSubset c input entityContext) := by
  unfold externalSubset
  refine Approximates.bind inferInstance fun text ↦ Approximates.bind inferInstance fun cfg ↦ ?_
  dsimp only
  split <;> infer_instance

instance approximates_externalSubsetPrefix :
    Approximates (externalSubsetPrefix b input) (externalSubsetPrefix c input) := by
  unfold externalSubsetPrefix; infer_instance

/-- At every entry point a bound approximates a larger one. -/
theorem approximates_program (entry : Entry) :
    Approximates (entry.program b input) (entry.program c input) := by
  cases entry with
  | document => exact approximates_document input
  | documentPrefix => exact approximates_documentPrefix input
  | externalEntity => exact approximates_externalEntity input
  | externalEntityPrefix => exact approximates_documentPrefix input
  | externalSubset entityContext => exact approximates_externalSubset input entityContext
  | externalSubsetPrefix => exact approximates_externalSubsetPrefix input

end

namespace Parser

variable {p : Parser} {b c : Nat} {input : String8} {r : Bool × Parser}

theorem call_of_le {entry : Entry} (h : b ≤ c) (hcall : p.call entry b input = some r) :
    p.call entry c input = some r := by
  have hle : Fact (b ≤ c) := ⟨h⟩
  obtain ⟨s, hrun, hr⟩ := Option.map_eq_some_iff.1 hcall
  exact Option.map_eq_some_iff.2 ⟨s, (approximates_program input entry).run_eq hrun, hr⟩

theorem prepareCachedDoctype_of_le {isFinal : Bool} (h : b ≤ c)
    (hprepared : p.prepareCachedDoctype b input isFinal = some r) :
    p.prepareCachedDoctype c input isFinal = some r := by
  have hle : Fact (b ≤ c) := ⟨h⟩
  unfold prepareCachedDoctype at hprepared ⊢
  dsimp only at hprepared ⊢
  split at hprepared
  · next hcacheable =>
    rw [if_pos hcacheable]
    obtain ⟨s, hrun, hr⟩ := Option.map_eq_some_iff.1 hprepared
    exact Option.map_eq_some_iff.2 ⟨s, (approximates_documentPrefix _).run_eq hrun, hr⟩
  · next hcacheable =>
    rw [if_neg hcacheable]
    exact hprepared

theorem cachedDocument_of_le {isFinal : Bool} (h : b ≤ c)
    (hcall : p.cachedDocument b input isFinal = some r) :
    p.cachedDocument c input isFinal = some r := by
  have hle : Fact (b ≤ c) := ⟨h⟩
  obtain ⟨⟨prepared, q⟩, hprepared, hrest⟩ := Option.bind_eq_some_iff.1 hcall
  refine Option.bind_eq_some_iff.2 ⟨(prepared, q), prepareCachedDoctype_of_le h hprepared, ?_⟩
  dsimp only at hrest ⊢
  split at hrest
  · next cached hcached =>
    obtain ⟨s, hrun, hr⟩ := Option.bind_eq_some_iff.1 hrest
    exact Option.bind_eq_some_iff.2 ⟨s, (approximates_documentBody ..).run_eq hrun, hr⟩
  · split at hrest
    · next hfailed =>
      rw [if_pos hfailed]
      exact hrest
    · next hfailed =>
      rw [if_neg hfailed]
      cases isFinal with
      | true => exact (approximates_document input).run_eq hrest
      | false => exact (approximates_documentPrefix input).run_eq hrest

theorem parseWithCachedDoctype_of_le {isFinal : Bool} (h : b ≤ c)
    (hcall : p.parseWithCachedDoctype b input isFinal = some r) :
    p.parseWithCachedDoctype c input isFinal = some r := by
  unfold parseWithCachedDoctype at hcall ⊢
  split at hcall
  · next hlimit =>
    rw [if_pos hlimit]
    exact hcall
  · next hlimit =>
    rw [if_neg hlimit]
    exact cachedDocument_of_le h hcall

end Parser

/-- The bound on the recursion decides whether a call has a result, and not which one. -/
theorem calls_haveOneResult (p : Parser) (input : String8) :
    (∀ entry, HasOneResult fun bound ↦ p.call entry bound input) ∧
      ∀ isFinal, HasOneResult fun bound ↦ p.parseWithCachedDoctype bound input isFinal :=
  ⟨fun _ ↦ hasOneResult_of_le Parser.call_of_le,
    fun _ ↦ hasOneResult_of_le Parser.parseWithCachedDoctype_of_le⟩

end Xpact
