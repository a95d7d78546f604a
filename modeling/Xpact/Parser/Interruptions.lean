import Xpact.Library.Lockstep
import Xpact.Parser.StopHonoured

/-!
# Interrupted parses

A parse looks at what its handler wants and at what it has told it, and at the handler's stop requests
in `check_handler_stop` only.  So a parse that is stopped, and honours the stop at once, has told its
handler a beginning of what it tells a handler that never stops it (`call_interrupted`).
-/

namespace Xpact

open Library Program Routine

-- A routine is one goal of instance search for each of its steps.
set_option synthInstance.maxSize 100000
set_option synthInstance.maxHeartbeats 200000

/-! ## Handlers that stop a parse -/

/-- The handler with other stop requests. -/
def Handler.withStops (h : Handler) (stopRequested stopIsResumable : List Event → Bool) : Handler :=
  { h with stopRequested, stopIsResumable }

/-- The handler without its stop requests. -/
def Handler.unstopped (h : Handler) : Handler := h.withStops (fun _ ↦ false) (fun _ ↦ false)

def Scene.unstopped (s : Scene) : Scene := { s with handler := s.handler.unstopped }

theorem sight_unstopped (s : Scene) : s.sight = s.unstopped.sight := rfl

/-- The content does not look at the stop requests of the handler. -/
abbrev IsUninterested (m : Content α) : Prop := Blind Scene.unstopped m

/-! ## Content -/

section

variable {α : Type} (text input content name : String8) (start stop i bound : Nat)

instance uninterested_ofRoutine (m : Routine α) : IsUninterested (Content.ofRoutine m) :=
  blind_lift Act.routine Scene.sight sight_unstopped m

instance uninterested_routine (m : Routine α) : IsUninterested (liftM m : Content α) :=
  uninterested_ofRoutine m

instance uninterested_act (a : Act) : IsUninterested (Content.act a) := blind_command a

theorem IsUninterested.scene_bind {f : Scene → Content α} (hsame : ∀ s, f s = f s.unstopped)
    (hf : ∀ s, IsUninterested (f s)) : IsUninterested (Content.scene >>= f) :=
  Blind.sight_bind hsame hf

instance uninterested_emitStructural (e : Event) : IsUninterested (Content.emitStructural e) := by
  unfold Content.emitStructural; infer_instance

/-! ## Elements -/

instance uninterested_emitStartNamespaceDeclarations (declared : List String8)
    (scope : NamespaceScope) : IsUninterested (emitStartNamespaceDeclarations declared scope) := by
  unfold emitStartNamespaceDeclarations
  have hdeclaration (nsPrefix : String8) : IsUninterested (match scope.lookup nsPrefix with
      | some uri => Content.emitStructural (.startNamespaceDecl (optionalString nsPrefix) uri)
      | none => pure ()) := by
    split <;> infer_instance
  infer_instance

instance uninterested_emitEndNamespaceDeclarations (declared : List String8) :
    IsUninterested (emitEndNamespaceDeclarations declared) := by
  unfold emitEndNamespaceDeclarations; infer_instance

instance uninterested_checkElementStart : IsUninterested checkElementStart := by
  unfold checkElementStart
  exact IsUninterested.scene_bind (fun _ ↦ rfl) fun s ↦ inferInstance

instance uninterested_openElement (attributes : Attributes) :
    IsUninterested (openElement name attributes) := by
  unfold openElement
  have hevent (event : ElementEvent) : IsUninterested (do
      let p ← Content.scene
      if (← Routine.isOngoing) && p.handler.wantsStartElementEvents then
        Content.emitStructural (.startElement event.name event.attributes)) :=
    IsUninterested.scene_bind (fun _ ↦ rfl) fun s ↦ inferInstance
  refine .bind inferInstance fun _ ↦ .ite (.bind inferInstance fun event ↦ ?_) inferInstance
  refine .bind inferInstance fun _ ↦ .ite (hevent event) (.bind inferInstance fun _ ↦ ?_)
  refine IsUninterested.scene_bind (fun _ ↦ rfl) fun s ↦ .ite ?_ (hevent event)
  exact .bind inferInstance fun _ ↦ .bind inferInstance fun _ ↦ hevent event

instance uninterested_openElementRange (nameStart nameEnd : Nat) :
    IsUninterested (openElementRange input nameStart nameEnd) := by
  unfold openElementRange; infer_instance

instance uninterested_checkElementEnd : IsUninterested (checkElementEnd name) := by
  unfold checkElementEnd
  exact IsUninterested.scene_bind (fun _ ↦ rfl) fun s ↦ inferInstance

instance uninterested_closeNamespaces : IsUninterested closeNamespaces := by
  unfold closeNamespaces
  refine IsUninterested.scene_bind (fun _ ↦ rfl) fun s ↦ ?_
  have hcontext : IsUninterested (do
      if 1 < (← Content.scene).core.namespaceContexts.length then
        Content.act .popNamespaceContext) :=
    IsUninterested.scene_bind (fun _ ↦ rfl) fun s ↦ inferInstance
  split <;> infer_instance

instance uninterested_closeElement : IsUninterested (closeElement name) := by
  unfold closeElement
  have hclose : IsUninterested (do
      let p ← Content.scene
      let wantsEndEvents := p.handler.wantsEndElementEvents
      let eventName ←
        if wantsEndEvents && p.config.namespaceMode then
          liftM (expandedElementName name (p.core.namespaceContexts.headD ∅))
        else
          pure name
      Content.act .popElement
      unless ← Routine.hasError do
        if wantsEndEvents then
          Content.emitStructural (.endElement eventName)
      if p.config.namespaceMode then
        closeNamespaces) :=
    IsUninterested.scene_bind (fun _ ↦ rfl) fun s ↦ inferInstance
  infer_instance

instance uninterested_closeElementRange (nameStart nameEnd : Nat) :
    IsUninterested (closeElementRange input nameStart nameEnd) := by
  unfold closeElementRange; infer_instance

/-! ## Tags -/

instance uninterested_finishStartTag (opening closing : Content Unit) [IsUninterested opening]
    [IsUninterested closing] : IsUninterested (finishStartTag input start i opening closing) := by
  unfold finishStartTag; infer_instance

instance uninterested_parseStartTagStrings :
    IsUninterested (parseStartTagStrings bound input start i name) := by
  unfold parseStartTagStrings; infer_instance

instance uninterested_parseStartTag : IsUninterested (parseStartTag bound input start) := by
  unfold parseStartTag
  refine .ite inferInstance (.ite inferInstance (.ite inferInstance (.bind inferInstance fun next ↦ ?_)))
  exact IsUninterested.scene_bind (fun _ ↦ rfl) fun s ↦ inferInstance

instance uninterested_parseEndTag : IsUninterested (parseEndTag input start) := by
  unfold parseEndTag
  refine .bind inferInstance fun _ ↦ .ite inferInstance (.bind inferInstance fun next ↦ ?_)
  exact IsUninterested.scene_bind (fun _ ↦ rfl) fun s ↦ inferInstance

/-! ## References -/

section Content

variable (parseEntityContent : String8 → Content Unit)
  [hcontent : ∀ text, IsUninterested (parseEntityContent text)]

include hcontent

instance uninterested_parseBalancedContent (entering leaving : Content Unit)
    [IsUninterested entering] [IsUninterested leaving] :
    IsUninterested (parseBalancedContent parseEntityContent text entering leaving) := by
  unfold parseBalancedContent
  refine IsUninterested.scene_bind (fun _ ↦ rfl) fun s ↦ ?_
  refine IsUninterested.scene_bind (fun _ ↦ rfl) fun s ↦ ?_
  have hbalanced (depth : Nat) : IsUninterested (do
      let p ← Content.scene
      return p.core.hasError || p.elements.stack.length == depth) :=
    IsUninterested.scene_bind (fun _ ↦ rfl) fun s ↦ inferInstance
  infer_instance

instance uninterested_includeExternalEntityInContent (e : ExternalEntity) :
    IsUninterested (includeExternalEntityInContent parseEntityContent e) := by
  unfold includeExternalEntityInContent
  refine IsUninterested.scene_bind (fun _ ↦ rfl) fun s ↦ ?_
  refine .ite inferInstance (.ite inferInstance (.ite inferInstance ?_))
  refine .bind inferInstance fun _ ↦ .bind inferInstance fun r ↦ ?_
  split <;> infer_instance

instance uninterested_includeGeneralEntityInContent :
    IsUninterested (includeGeneralEntityInContent parseEntityContent name) := by
  unfold includeGeneralEntityInContent
  refine .bind inferInstance fun _ ↦ IsUninterested.scene_bind (fun _ ↦ rfl) fun s ↦ ?_
  refine .ite inferInstance (.ite inferInstance (.ite inferInstance ?_))
  split <;> infer_instance

instance uninterested_appendReferenceInContent :
    IsUninterested (appendReferenceInContent parseEntityContent input start text) := by
  unfold appendReferenceInContent
  exact IsUninterested.scene_bind (fun _ ↦ rfl) fun s ↦ inferInstance

/-! ## Text -/

instance uninterested_textReference (literalDefault : Bool) (t : TextScan) :
    IsUninterested (textReference parseEntityContent input literalDefault t) := by
  unfold textReference; infer_instance

instance uninterested_textStep (isFinal literalDefault : Bool) (t : TextScan) :
    IsUninterested (textStep parseEntityContent isFinal literalDefault input t) := by
  unfold textStep
  refine IsUninterested.scene_bind (fun _ ↦ rfl) fun s ↦ ?_
  repeat' first | infer_instance | apply Blind.ite | refine Blind.bind ?_ fun _ ↦ ?_
  -- What remains is a character, which is collected when the text is.
  all_goals
    dsimp only
    split <;> infer_instance

omit hcontent in
instance uninterested_deliverText (literalDefault : Bool) (t : TextScan) :
    IsUninterested (deliverText literalDefault input start t) := by
  unfold deliverText
  refine IsUninterested.scene_bind (fun _ ↦ rfl) fun s ↦ .ite inferInstance ?_
  split
  · refine .bind inferInstance fun _ ↦ ?_
    split <;> infer_instance
  · infer_instance

instance uninterested_collectCharacterData (isFinal : Bool) :
    IsUninterested (collectCharacterData parseEntityContent isFinal input start) := by
  unfold collectCharacterData
  exact IsUninterested.scene_bind (fun _ ↦ rfl) fun s ↦ inferInstance

instance uninterested_parseCharacterData :
    IsUninterested (parseCharacterData parseEntityContent input start) := by
  unfold parseCharacterData
  exact IsUninterested.scene_bind (fun _ ↦ rfl) fun s ↦ inferInstance

instance uninterested_parseCharacterDataPrefix :
    IsUninterested (parseCharacterDataPrefix parseEntityContent input start) := by
  unfold parseCharacterDataPrefix; infer_instance

end Content

/-! ## Programs -/

instance uninterested_parseMarkup : IsUninterested (parseMarkup bound input start) := by
  unfold parseMarkup; infer_instance

instance uninterested_parseEntityContent : IsUninterested (parseEntityContent bound content) := by
  induction bound generalizing content with
  | zero => exact blind_stuck
  | succ bound ih =>
    have hstep (i : Nat) :
        IsUninterested (entityContentStep bound (parseEntityContent bound) content i) := by
      unfold entityContentStep; infer_instance
    unfold parseEntityContent
    infer_instance

instance uninterested_tokens (step : String8 → Nat → Content Nat)
    [∀ input i, IsUninterested (step input i)] : IsUninterested (tokens step input start) := by
  unfold tokens; infer_instance

instance uninterested_readInput (canDeferPositions : Bool) :
    IsUninterested (readInput input canDeferPositions) := by
  unfold readInput; infer_instance

theorem uninterested_checkAtEnd {condition : Scene → Bool}
    (hsame : ∀ s, condition s = condition s.unstopped) (message : String) :
    IsUninterested (checkAtEnd input condition message) := by
  unfold checkAtEnd
  refine IsUninterested.scene_bind (fun s ↦ ?_) fun s ↦ inferInstance
  rw [hsame s]
  rfl

instance uninterested_documentStep : IsUninterested (documentStep bound input i) := by
  unfold documentStep; infer_instance

instance uninterested_documentPrefixStep : IsUninterested (documentPrefixStep bound input i) := by
  unfold documentPrefixStep; infer_instance

instance uninterested_document : IsUninterested (document bound input) := by
  unfold document
  refine IsUninterested.scene_bind (fun _ ↦ rfl) fun s ↦ ?_
  refine .bind inferInstance fun text ↦ .bind inferInstance fun _ ↦ ?_
  refine .bind (uninterested_checkAtEnd text (fun _ ↦ rfl) _) fun _ ↦ ?_
  exact .bind (uninterested_checkAtEnd text (fun _ ↦ rfl) _) fun _ ↦ inferInstance

instance uninterested_documentPrefix : IsUninterested (documentPrefix bound input) := by
  unfold documentPrefix; infer_instance

instance uninterested_externalEntity : IsUninterested (externalEntity bound input) := by
  unfold externalEntity
  have hend (text : String8) : IsUninterested (do
      checkAtEnd text (fun p ↦ !p.elements.stack.isEmpty) "asynchronous entity"
      whileOngoing (notePosition (text.length + 1))
      Routine.isOngoing : Content Bool) :=
    .bind (uninterested_checkAtEnd text (fun _ ↦ rfl) _) fun _ ↦ inferInstance
  infer_instance

instance uninterested_externalSubset (entityContext : Option String8) :
    IsUninterested (externalSubset bound input entityContext) := by
  unfold externalSubset
  refine .bind inferInstance fun text ↦ .bind inferInstance fun cfg ↦ ?_
  dsimp only
  split <;> infer_instance

instance uninterested_externalSubsetPrefix :
    IsUninterested (externalSubsetPrefix bound input) := by
  unfold externalSubsetPrefix; infer_instance

instance uninterested_program (entry : Entry) : IsUninterested (entry.program bound input) := by
  cases entry <;> unfold Entry.program <;> infer_instance

end

namespace Parser

/-! ## Events of a command -/

/-- The events that a command delivers. -/
def eventsOf (a : Act) (p : Parser) : List Event :=
  match a with
  | .routine (.emit e _) | .emitStructural e => [e]
  | .routine (.emitText text) => if p.deliversText text then [.characterData text] else []
  | .routine (.emitDefault text) => if p.deliversDefault text then [.default text] else []
  | .routine (.emitDefaultWhen kind text) =>
    if p.handler.wantsDefault kind && p.deliversDefault text then [.default text] else []
  | _ => []

theorem emitText_eventsOf (p : Parser) (text : String8) :
    (p.emitText text).view.events = p.view.events ++ p.eventsOf (.routine (.emitText text)) := by
  simp only [emitText_eq, eventsOf]
  split
  · rw [checkHandlerStop_events]
    rfl
  · rw [List.append_nil]

theorem emitDefault_eventsOf (p : Parser) (text : String8) :
    (p.emitDefault text).view.events =
      p.view.events ++ p.eventsOf (.routine (.emitDefault text)) := by
  simp only [emitDefault_eq, eventsOf]
  split
  · rw [checkHandlerStop_events]
    rfl
  · rw [List.append_nil]

theorem step_eventsOf (a : Act) (p : Parser) :
    (p.step a).view.events = p.view.events ++ p.eventsOf a := by
  have hnone {es : List Event} (hes : es = p.view.events) : es = p.view.events ++ [] := by
    rw [hes, List.append_nil]
  cases a with
  | routine c =>
    cases c with
    | setError message => exact hnone (setError_events p message)
    | checkHandlerStop => exact hnone (checkHandlerStop_events p)
    | emit e h => rfl
    | emitText text => exact emitText_eventsOf p text
    | emitDefault text => exact emitDefault_eventsOf p text
    | emitDefaultWhen kind text =>
      simp only [step, stepRoutine, eventsOf]
      cases p.handler.wantsDefault kind with
      | true =>
        rw [if_pos rfl, Bool.true_and]
        exact emitDefault_eventsOf p text
      | false => exact hnone rfl
    | notePosition i => exact hnone (View.notePosition_events _ i)
    | noteTokenPosition i byteCount => exact hnone (View.notePosition_events _ i)
    | noteCurrentEntityReferencePosition =>
      exact hnone (View.noteCurrentEntityReferencePosition_events _)
    | noteEntityExpansion count =>
      simp only [step, stepRoutine, noteEntityExpansion]
      split
      · exact hnone (setError_events _ _)
      · exact hnone rfl
    | resolve request =>
      exact hnone (resolve_unchanged (fun q ↦ q.view.events) p request (fun _ _ _ ↦ rfl)
        (fun _ _ ↦ rfl))
    | _ => exact hnone rfl
  | emitStructural e => rfl
  | forceCurrentPosition => exact hnone (View.forceCurrentPosition_events _)
  | _ => exact hnone rfl

theorem events_grow (a : Act) (p : Parser) : p.view.events <+: (p.step a).view.events := by
  rw [step_eventsOf]
  exact List.prefix_append _ _

/-! ## The parse that nothing stops -/

/-- A parser with other stop requests. -/
def withStops (p : Parser) (stopRequested stopIsResumable : List Event → Bool) : Parser :=
  { p with handler := p.handler.withStops stopRequested stopIsResumable }

/-- A parser without the stop requests of its handler, and without what its resolver was asked. -/
def still (p : Parser) : Parser := { p with handler := p.handler.unstopped, requests := [] }

theorem neverStops_still (p : Parser) : p.still.handler.NeverStops := fun _ ↦ rfl

theorem eventsOf_still (a : Act) (p : Parser) : p.still.eventsOf a = p.eventsOf a := rfl

end Parser

/-- The answers do not depend on the requests before. -/
def Resolver.IsMemoryless (f : Resolver) : Prop :=
  ∀ requests requests' reference, f requests reference = f requests' reference

namespace Parser

/-- The resolver of the parser, if it has one, answers a request as if it were the first. -/
def IsMemoryless (p : Parser) : Prop :=
  ∀ f, p.externalEntityResolver = some f → Resolver.IsMemoryless f

section

variable {p : Parser}

theorem resolution_still (hmemoryless : p.IsMemoryless) (request : Request) :
    p.still.resolution request = p.resolution request := by
  unfold resolution
  cases hresolver : p.externalEntityResolver with
  | none => rw [show p.still.externalEntityResolver = none from hresolver]; rfl
  | some f =>
    rw [show p.still.externalEntityResolver = some f from hresolver]
    exact congrArg some (hmemoryless f hresolver _ _ _)

theorem setError_still (p : Parser) (message : String) :
    (p.setError message).still = (p.still.setError message).still := by
  unfold setError
  rw [show p.still.core = p.core from rfl]
  split <;> rfl

theorem checkHandlerStop_still (h : p.requestsStop = false) :
    p.checkHandlerStop.still = p.still.checkHandlerStop.still := by
  rw [checkHandlerStop_eq, h, if_neg Bool.false_ne_true,
    checkHandlerStop_of_neverStops p.neverStops_still]
  rfl

theorem emitDefault_still {text : String8}
    (h : (p.deliversDefault text && (p.emit (.default text)).requestsStop) = false) :
    (p.emitDefault text).still = (p.still.emitDefault text).still := by
  rw [emitDefault_eq, emitDefault_eq]
  rw [show p.still.deliversDefault text = p.deliversDefault text from rfl]
  cases hdelivers : p.deliversDefault text with
  | true =>
    rw [hdelivers, Bool.true_and] at h
    exact checkHandlerStop_still h
  | false => rfl

/-- A command that records no stop does what it does to the parser that nothing stops. -/
theorem step_still (hmemoryless : p.IsMemoryless) {a : Act} (h : p.recordsStop a = false) :
    (p.step a).still = (p.still.step a).still := by
  cases a with
  | routine c =>
    cases c with
    | setError message => exact setError_still p message
    | checkHandlerStop => exact checkHandlerStop_still h
    | emitText text =>
      show (p.emitText text).still = (p.still.emitText text).still
      rw [emitText_eq, emitText_eq]
      rw [show p.still.deliversText text = p.deliversText text from rfl]
      cases hdelivers : p.deliversText text with
      | true =>
        simp only [recordsStop, hdelivers, Bool.true_and] at h
        exact checkHandlerStop_still h
      | false => rfl
    | emitDefault text => exact emitDefault_still h
    | emitDefaultWhen kind text =>
      show (if p.handler.wantsDefault kind then p.emitDefault text else p).still =
        (if p.handler.wantsDefault kind then p.still.emitDefault text else p.still).still
      cases hwants : p.handler.wantsDefault kind with
      | true =>
        simp only [recordsStop, hwants, Bool.true_and] at h
        exact emitDefault_still h
      | false => rfl
    | noteEntityExpansion count =>
      simp only [step, stepRoutine, noteEntityExpansion]
      rw [show p.still.core = p.core from rfl]
      split
      · exact setError_still _ _
      · rfl
    | resolve request =>
      show (p.resolve request).still = (p.still.resolve request).still
      unfold resolve
      -- The requests before differ, and a resolver without memory does not look at them.
      rw [resolution_still hmemoryless]
      split <;> rfl
    | _ => rfl
  | _ => rfl

end

/-- `q` is the parser `p` with nothing that stops it. -/
structure IsStill (p q : Parser) : Prop where
  still : p.still = q.still
  neverStops : q.handler.NeverStops
  memoryless : p.IsMemoryless

theorem IsStill.memoryless_right {p q : Parser} (h : IsStill p q) : q.IsMemoryless := by
  intro f hf
  have hresolver := congrArg Parser.externalEntityResolver (show p.still = q.still from h.still)
  exact h.memoryless f (hresolver.trans hf)

theorem IsStill.events_eq {p q : Parser} (h : IsStill p q) : p.view.events = q.view.events := by
  have hevents := congrArg (fun r : Parser ↦ r.view.events) (show p.still = q.still from h.still)
  exact hevents

theorem recordsStop_of_neverStops {p : Parser} (h : p.handler.NeverStops) (a : Act) :
    p.recordsStop a = false := by
  have hnever {q : Parser} (hq : q.handler.NeverStops) : q.requestsStop = false := by
    unfold requestsStop
    rw [hq, Bool.and_false]
  unfold recordsStop
  split
  · exact hnever h
  · rw [hnever (q := p.emit _) h, Bool.and_false]
  · rw [hnever (q := p.emit _) h, Bool.and_false]
  · rw [hnever (q := p.emit _) h, Bool.and_false]
  · rfl

/-- The parse goes in lockstep with the one that nothing stops until it records a stop. -/
theorem lockstep_still : Lockstep stopMonitor machine Scene.unstopped IsStill
    (fun p : Parser ↦ p.view.events) (fun q : Parser ↦ q.view.events) where
  see h := congrArg Parser.scene h.still
  step {p q c} h hraises := by
    refine ⟨?_, ?_, ?_⟩
    · show (p.step c).still = (q.step c).still
      -- The step of the left is seen without its stops, then as the step of the right.
      rw [step_still h.memoryless hraises, h.still,
        ← step_still h.memoryless_right (recordsStop_of_neverStops h.neverStops c)]
    · have hhandler : (q.step c).handler = q.handler := congrArg Settings.handler (step_settings c q)
      show (q.step c).handler.NeverStops
      rw [hhandler]
      exact h.neverStops
    · intro f hf
      exact h.memoryless f ((step_resolver c p).symm.trans hf)
  shown_eq h := h.events_eq
  shown_step {p q} c h := by
    show (p.step c).view.events = (q.step c).view.events
    rw [step_eventsOf, step_eventsOf, h.events_eq, ← eventsOf_still c p, h.still, eventsOf_still]
  grows c q := events_grow c q

/-! ## Honouring is decided -/

/-- No event is delivered when their number stays as it is. -/
theorem honoursStop_iff_length {α : Type} {m : Content α} {p : Parser} :
    HonoursStop m p ↔ stopMonitor.Silences (fun q ↦ q.view.events.length) m p := by
  constructor
  · intro h n c hc hraises k hk
    exact congrArg List.length (h n c hc hraises k hk)
  · intro h n c hc hraises k hk
    -- Events only grow, so they are the same when there are as many.
    obtain ⟨j, rfl⟩ := Nat.exists_eq_add_of_lt hk
    have hgrow := machine.execute_invariant
      (I := fun q ↦ (machine.execute ((m.trace machine p).take (n + 1)) p).view.events <+:
        q.view.events)
      (fun a q hq ↦ hq.trans (events_grow a q)) (((m.trace machine p).drop (n + 1)).take j)
      (List.prefix_refl _)
    rw [← Machine.execute_append, ← List.take_add, Nat.add_right_comm] at hgrow
    exact (hgrow.eq_of_length (h n c hc hraises (n + j + 1) (by omega)).symm).symm

instance {α : Type} (m : Content α) (p : Parser) : Decidable (HonoursStop m p) :=
  decidable_of_iff _ honoursStop_iff_length.symm

/-! ## Results -/

/-- The program answers whether the parse could go on at its end. -/
def AnswersOngoing (m : Content Bool) : Prop :=
  ∀ ⦃p q : Parser⦄ ⦃ok : Bool⦄, m.run machine p = some (ok, q) → ok = q.scene.isOngoing

theorem answersOngoing_isOngoing : AnswersOngoing (liftM Routine.isOngoing) := by
  intro p q ok hrun
  obtain ⟨rfl, rfl⟩ := Prod.mk.inj (Option.some.inj hrun)
  rfl

theorem AnswersOngoing.bind {α : Type} {m : Content α} {f : α → Content Bool}
    (hf : ∀ a, AnswersOngoing (f a)) : AnswersOngoing (m >>= f) := by
  intro p q ok hrun
  obtain ⟨⟨a, r⟩, -, hrest⟩ := (run_bind_eq_some _ _).1 hrun
  exact hf a hrest

theorem answersOngoing_document (bound : Nat) (input : String8) :
    AnswersOngoing (document bound input) := by
  unfold document
  exact .bind fun _ ↦ .bind fun _ ↦ .bind fun _ ↦ .bind fun _ ↦ .bind fun _ ↦ .bind fun _ ↦
    .bind fun _ ↦ answersOngoing_isOngoing

theorem answersOngoing_program (entry : Entry) (bound : Nat) (input : String8) :
    AnswersOngoing (entry.program bound input) := by
  have hprefix : AnswersOngoing (documentPrefix bound input) := by
    unfold documentPrefix
    exact .bind fun _ ↦ .bind fun _ ↦ answersOngoing_isOngoing
  cases entry with
  | document => exact answersOngoing_document bound input
  | documentPrefix => exact hprefix
  | externalEntity =>
    simp only [Entry.program, externalEntity]
    repeat' first | exact answersOngoing_isOngoing | refine .bind fun _ ↦ ?_ | split
  | externalEntityPrefix => exact hprefix
  | externalSubset entityContext =>
    simp only [Entry.program, externalSubset]
    repeat' first | exact answersOngoing_isOngoing | refine .bind fun _ ↦ ?_ | split
  | externalSubsetPrefix =>
    simp only [Entry.program, externalSubsetPrefix]
    exact .bind fun _ ↦ .bind fun _ ↦ .bind fun _ ↦ answersOngoing_isOngoing

/-! ## Suspension -/

theorem suspends_checkHandlerStop {p : Parser} (hp : p.core.isSuspended = false)
    (hsuspended : p.checkHandlerStop.core.isSuspended = true) :
    p.requestsStop = true ∧ p.handler.stopIsResumable p.view.events = true := by
  rw [checkHandlerStop_eq] at hsuspended
  split at hsuspended
  · next hrequests =>
    split at hsuspended
    · next hresumable => exact ⟨hrequests, hresumable⟩
    · rw [setError_isSuspended, hp] at hsuspended
      cases hsuspended
  · rw [hp] at hsuspended
    cases hsuspended

/-- The handler asks for a stop that can be resumed. -/
def IsAsked (p : Parser) : Prop :=
  p.handler.stopRequested p.view.events = true ∧ p.handler.stopIsResumable p.view.events = true

theorem isAsked_of_checkHandlerStop {p : Parser} (hp : p.core.isSuspended = false)
    (hsuspended : p.checkHandlerStop.core.isSuspended = true) :
    p.requestsStop = true ∧ p.checkHandlerStop.IsAsked := by
  obtain ⟨hrequests, hresumable⟩ := suspends_checkHandlerStop hp hsuspended
  refine ⟨hrequests, ?_⟩
  have hasked := hrequests
  rw [requestsStop, Bool.and_eq_true] at hasked
  have hhandler : p.checkHandlerStop.handler = p.handler :=
    congrArg Settings.handler (stepRoutine_settings .checkHandlerStop p)
  unfold IsAsked
  rw [hhandler, checkHandlerStop_events]
  exact ⟨hasked.2, hresumable⟩

/-- A command that suspends the parse records a stop that the handler asks for. -/
theorem isAsked_of_step {a : Act} {p : Parser} (hp : p.core.isSuspended = false)
    (hsuspended : (p.step a).core.isSuspended = true) :
    p.recordsStop a = true ∧ (p.step a).IsAsked := by
  have hdefault {text : String8} (h : (p.emitDefault text).core.isSuspended = true) :
      (p.deliversDefault text && (p.emit (.default text)).requestsStop) = true ∧
        (p.emitDefault text).IsAsked := by
    rw [emitDefault_eq] at h ⊢
    split at h
    · next hdelivers =>
      rw [if_pos hdelivers, hdelivers, Bool.true_and]
      exact isAsked_of_checkHandlerStop hp h
    · rw [hp] at h
      cases h
  have hsame (h : (p.step a).core.isSuspended = p.core.isSuspended) : False := by
    rw [h, hp] at hsuspended
    cases hsuspended
  cases a with
  | routine c =>
    cases c with
    | setError message => exact (hsame (setError_isSuspended p message)).elim
    | checkHandlerStop => exact isAsked_of_checkHandlerStop hp hsuspended
    | emitText text =>
      change (p.emitText text).core.isSuspended = true at hsuspended
      show (p.deliversText text && (p.emit (.characterData text)).requestsStop) = true ∧
        (p.emitText text).IsAsked
      rw [emitText_eq] at hsuspended ⊢
      split at hsuspended
      · next hdelivers =>
        rw [if_pos hdelivers, hdelivers, Bool.true_and]
        exact isAsked_of_checkHandlerStop hp hsuspended
      · rw [hp] at hsuspended
        cases hsuspended
    | emitDefault text => exact hdefault hsuspended
    | emitDefaultWhen kind text =>
      change (if p.handler.wantsDefault kind then p.emitDefault text else p).core.isSuspended = true
        at hsuspended
      show (p.handler.wantsDefault kind && p.deliversDefault text &&
          (p.emit (.default text)).requestsStop) = true ∧
        (if p.handler.wantsDefault kind then p.emitDefault text else p).IsAsked
      cases hwants : p.handler.wantsDefault kind with
      | true =>
        rw [hwants, if_pos rfl] at hsuspended
        rw [Bool.true_and, if_pos rfl]
        exact hdefault hsuspended
      | false =>
        rw [hwants, if_neg Bool.false_ne_true, hp] at hsuspended
        cases hsuspended
    | noteEntityExpansion count =>
      refine (hsame ?_).elim
      simp only [step, stepRoutine, noteEntityExpansion]
      split
      · exact setError_isSuspended _ _
      · rfl
    | resolve request =>
      exact (hsame (resolve_unchanged (fun q ↦ q.core.isSuspended) p request (fun _ _ _ ↦ rfl)
        (fun _ _ ↦ rfl))).elim
    | _ => exact (hsame rfl).elim
  | _ => exact (hsame rfl).elim

/-- A stop is recorded only when the handler asks for it. -/
theorem stopRequested_of_recordsStop {a : Act} {p : Parser} (h : p.recordsStop a = true) :
    p.handler.stopRequested (p.step a).view.events = true := by
  have hrequests {q : Parser} (hq : q.requestsStop = true) :
      q.handler.stopRequested q.checkHandlerStop.view.events = true := by
    rw [requestsStop, Bool.and_eq_true] at hq
    rw [checkHandlerStop_events]
    exact hq.2
  have hdefault {text : String8} (hdelivers : p.deliversDefault text = true)
      (hq : (p.emit (.default text)).requestsStop = true) :
      p.handler.stopRequested (p.emitDefault text).view.events = true := by
    rw [emitDefault_eq, if_pos hdelivers]
    exact hrequests hq
  unfold recordsStop at h
  split at h
  · exact hrequests h
  · rw [Bool.and_eq_true] at h
    show p.handler.stopRequested (p.emitText _).view.events = true
    rw [emitText_eq, if_pos h.1]
    exact hrequests h.2
  · rw [Bool.and_eq_true] at h
    exact hdefault h.1 h.2
  · rw [Bool.and_eq_true, Bool.and_eq_true] at h
    show p.handler.stopRequested
      (if p.handler.wantsDefault _ then p.emitDefault _ else p).view.events = true
    rw [if_pos h.1.1]
    exact hdefault h.1.2 h.2
  · cases h

theorem handler_at {p : Parser} (cs : List Act) :
    (machine.execute cs p).handler = p.handler :=
  congrArg Settings.handler (machine.execute_invariant (I := fun r ↦ r.settings = p.settings)
    (fun c r hr ↦ (step_settings c r).trans hr) cs rfl)

/-- A run that records a stop, and honours it, ends with the events at which the handler has asked for
it. -/
theorem stopRequested_of_run {α : Type} {m : Content α} {p q : Parser} {a : α}
    (hm : HonoursStop m p) (hrun : m.run machine p = some (a, q)) (hstops : StopsIn m p) :
    p.handler.stopRequested q.view.events = true := by
  obtain ⟨n, c, hc, hrecords⟩ := hstops
  have hevents := hm.eq_at_end hc hrecords hrun
  have hrequested := stopRequested_of_recordsStop hrecords
  rw [handler_at] at hrequested
  rw [hevents]
  exact hrequested

/-- A run that ends suspended, and honours its stop, ends with the events at which the handler has
asked for it. -/
theorem isAsked_of_run {α : Type} {m : Content α} {p q : Parser} {a : α} (hm : HonoursStop m p)
    (hp : p.core.isSuspended = false) (hrun : m.run machine p = some (a, q))
    (hq : q.core.isSuspended = true) : q.IsAsked := by
  have hend : (machine.execute (m.trace machine p) p).core.isSuspended = true := by
    rw [← run_eq_execute hrun]
    exact hq
  obtain ⟨n, c, hc, hbefore, hafter⟩ := machine.exists_change (P := fun r ↦ r.core.isSuspended = true)
    (m.trace machine p) (by rw [hp]; exact Bool.false_ne_true) hend
  obtain ⟨hrecords, hasked⟩ := isAsked_of_step (Bool.eq_false_iff.2 hbefore) hafter
  have hevents := hm.eq_at_end hc hrecords hrun
  have hhandler : q.handler =
      (machine.step c (machine.execute ((m.trace machine p).take n) p)).handler := by
    rw [run_eq_execute hrun, handler_at]
    exact (handler_at (p := p) ((m.trace machine p).take n)).symm.trans
      (congrArg Settings.handler (step_settings c _)).symm
  unfold IsAsked
  rw [hevents, hhandler]
  exact hasked

/-! ## Calls -/

section

variable {entry : Entry} {bound : Nat} {input : String8} {p q p' q' : Parser} {ok ok' : Bool}

/-- The same call of a parser and of one that nothing stops. -/
theorem call_interrupted (h : IsStill (p.start entry) (q.start entry))
    (hhonours : HonoursStop (entry.program bound input) (p.start entry))
    (hp : p.call entry bound input = some (ok, p')) (hq : q.call entry bound input = some (ok', q')) :
    p'.view.events <+: q'.view.events ∧
      (StopsIn (entry.program bound input) (p.start entry) ∨ ok = ok' ∧ p'.still = q'.still) := by
  obtain ⟨⟨a, r⟩, hrun, hr⟩ := Option.map_eq_some_iff.1 hp
  obtain ⟨rfl, rfl⟩ := Prod.mk.inj hr
  obtain ⟨⟨b, t⟩, hrun', ht⟩ := Option.map_eq_some_iff.1 hq
  obtain ⟨rfl, rfl⟩ := Prod.mk.inj ht
  have hblind := (uninterested_program input bound entry).isBlind
  obtain ⟨hshown, hend⟩ := lockstep_still.shown_prefix hblind h hhonours hrun hrun'
  refine ⟨hshown, hend.imp_right fun hsame ↦ ⟨hsame.1, ?_⟩⟩
  have hstill := congrArg (finish entry) (show r.still = t.still from hsame.2.still)
  exact hstill

/-- A call in which a stop is recorded does not succeed. -/
theorem call_of_stopsIn (hstops : StopsIn (entry.program bound input) (p.start entry))
    (hp : p.call entry bound input = some (ok, p')) : ok = false := by
  obtain ⟨⟨a, r⟩, hrun, hr⟩ := Option.map_eq_some_iff.1 hp
  obtain ⟨rfl, rfl⟩ := Prod.mk.inj hr
  obtain ⟨n, c, hc, hrecords⟩ := hstops
  rw [answersOngoing_program entry bound input hrun]
  exact isOngoing_eq_false (stopMonitor.halted_of_run hrun hc hrecords)

/-- A call in which a stop is recorded ends with the events at which the handler has asked for it. -/
theorem call_stopRequested (hhonours : HonoursStop (entry.program bound input) (p.start entry))
    (hstops : StopsIn (entry.program bound input) (p.start entry))
    (hp : p.call entry bound input = some (ok, p')) :
    p.handler.stopRequested p'.view.events = true := by
  obtain ⟨⟨a, r⟩, hrun, hr⟩ := Option.map_eq_some_iff.1 hp
  obtain ⟨rfl, rfl⟩ := Prod.mk.inj hr
  have hrequested := stopRequested_of_run (q := r) hhonours hrun hstops
  exact hrequested

/-- A call that ends suspended ends with the events at which the handler has asked for it. -/
theorem call_isAsked (hhonours : HonoursStop (entry.program bound input) (p.start entry))
    (hp : p.call entry bound input = some (ok, p')) (hsuspended : p'.core.isSuspended = true) :
    p.handler.stopRequested p'.view.events = true ∧
      p.handler.stopIsResumable p'.view.events = true := by
  obtain ⟨⟨a, r⟩, hrun, hr⟩ := Option.map_eq_some_iff.1 hp
  obtain ⟨rfl, rfl⟩ := Prod.mk.inj hr
  have hasked := isAsked_of_run (q := r) hhonours rfl hrun hsuspended
  have hhandler : r.handler = p.handler :=
    congrArg Settings.handler (run_unchanged settings step_settings hrun)
  rw [IsAsked, hhandler] at hasked
  exact hasked

end

end Parser

/-- A call that honours its stops tells the application a beginning of what the same call tells when
nothing stops it.  It is stopped, fails, and the handler has asked for that in the events so far; or
it ends as the other one. -/
theorem stopped_call_tells_prefix {p p' q' : Parser} {entry : Entry} {bound : Nat} {input : String8}
    {ok ok' : Bool} (hmemoryless : p.IsMemoryless)
    (hhonours : Parser.HonoursStop (entry.program bound input) (p.start entry))
    (hp : p.call entry bound input = some (ok, p'))
    (hq : p.still.call entry bound input = some (ok', q')) :
    p'.view.events <+: q'.view.events ∧
      (ok = false ∧ p.handler.stopRequested p'.view.events = true ∨
        ok = ok' ∧ p'.still = q'.still) := by
  have hstart : Parser.IsStill (p.start entry) (p.still.start entry) :=
    ⟨rfl, fun _ ↦ rfl, hmemoryless⟩
  obtain ⟨htold, hstops | hsame⟩ := Parser.call_interrupted hstart hhonours hp hq
  · refine ⟨htold, Or.inl ⟨Parser.call_of_stopsIn hstops hp, ?_⟩⟩
    exact Parser.call_stopRequested hhonours hstops hp
  · exact ⟨htold, Or.inr hsame⟩

/-- A parser whose handler stops the parse in its first event. -/
def stoppedParser : Parser := Parser.make {} impatientHandler

theorem isSome_stoppedCall : (stoppedParser.call .document 5 (str "<a/>")).isSome = true := by
  decide +kernel

theorem isSome_unstoppedCall :
    (stoppedParser.still.call .document 5 (str "<a/>")).isSome = true := by decide +kernel

theorem stopped_call_tells_prefix_start :
    let stopped := (stoppedParser.call .document 5 (str "<a/>")).get isSome_stoppedCall
    let whole := (stoppedParser.still.call .document 5 (str "<a/>")).get isSome_unstoppedCall
    stopped.2.view.events <+: whole.2.view.events ∧
      (stopped.1 = false ∧ impatientHandler.stopRequested stopped.2.view.events = true ∨
        stopped.1 = whole.1 ∧ stopped.2.still = whole.2.still) :=
  stopped_call_tells_prefix (p := stoppedParser) nofun (by decide +kernel)
    (Option.some_get isSome_stoppedCall).symm (Option.some_get isSome_unstoppedCall).symm

end Xpact
