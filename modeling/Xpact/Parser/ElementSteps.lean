import Xpact.Parser.Brackets
import Xpact.Parser.ContentLogic

/-!
# Opening and closing an element

The steps of `open_element` and `close_element`, with their namespaces, open and close one bracket of
the spine.  A run that ends with an error says nothing, since no error is ever taken back.
-/

namespace Xpact

open Library Program

namespace Parser

section

variable {α β : Type} {h : Handler} {s : Spine Bracket Notice} {p q : Parser} {l : List Mark}

/-! ## Errors and reports -/

/-- A program is well nested when its runs without an error are. -/
theorem nests_of {m : Content α}
    (hm : ∀ s, Matches h s p → Ensures machine marks m p fun l _ q ↦ q.core.hasError = false →
      ∃ s', Matches h s' q ∧ s'.flatten (spelling h) = s.flatten (spelling h) ++ l ∧
        Bracket.base s'.frames = Bracket.base s.frames) : Nests h m p :=
  fun _ _ hrun ↦ ⟨hasError_of_run hrun, fun s hq hs ↦ hm s hs hrun hq⟩

/-- Report some events and change nothing else. -/
def report (p : Parser) (es : List Event) : Parser :=
  { p with view := { p.view with events := p.view.events ++ es } }

theorem report_nil (p : Parser) : p.report [] = p := by
  rw [report, List.append_nil]

theorem report_report (p : Parser) (es es' : List Event) :
    (p.report es).report es' = p.report (es ++ es') := by
  rw [report, report, report, List.append_assoc]

/-- The handler never stops the parse, and neither an error nor a suspension has ended it. -/
structure IsGoing (p : Parser) : Prop where
  neverStops : p.handler.NeverStops
  hasError : p.core.hasError = false
  isSuspended : p.core.isSuspended = false

/-- Between `p` and `q` the events `es` are reported, and nothing else happens. -/
structure Reports (p : Parser) (es : List Event) (l : List Mark) (q : Parser) : Prop where
  log : l = es.map .event
  state : q = p.report es

theorem IsGoing.report (hp : p.IsGoing) (es : List Event) : (p.report es).IsGoing :=
  ⟨hp.neverStops, hp.hasError, hp.isSuspended⟩

theorem ensures_emitStructural (hstops : p.handler.NeverStops) (e : Event) :
    Ensures machine marks (Content.emitStructural e) p fun l _ q ↦ Reports p [e] l q := by
  refine Ensures.bind (Ensures.command ?_)
  have hmarks : marks (.emitStructural e) p = [.event e] := by
    show ((p.view.events ++ [e]).drop p.view.events.length).map Mark.event = _
    rw [List.drop_left]
    rfl
  have hcheck : (p.report [e]).checkHandlerStop = p.report [e] :=
    checkHandlerStop_of_neverStops hstops
  refine Ensures.command ⟨?_, hcheck⟩
  show marks (.emitStructural e) p ++
    ((p.report [e]).checkHandlerStop.view.events.drop (p.report [e]).view.events.length).map _ = _
  rw [hcheck, hmarks, List.drop_length]
  rfl

/-- One report for each of some things. -/
theorem ensures_forM {γ : Type} {f : γ → Content Unit} {e : γ → Event} {cs : List γ}
    (hf : ∀ c ∈ cs, ∀ p : Parser, p.IsGoing →
      Ensures machine marks (f c) p fun l _ q ↦ Reports p [e c] l q) (hp : p.IsGoing) :
    Ensures machine marks (cs.forM f) p fun l _ q ↦ Reports p (cs.map e) l q := by
  induction cs generalizing p with
  | nil => exact Ensures.done ⟨rfl, (report_nil p).symm⟩
  | cons c cs ih =>
    refine Ensures.bind ((hf c List.mem_cons_self p hp).mono ?_)
    rintro l - q ⟨rfl, rfl⟩
    have hrest := ih (fun c hc ↦ hf c (List.mem_cons_of_mem _ hc)) (hp.report [e c])
    refine hrest.mono ?_
    rintro l - q ⟨rfl, rfl⟩
    exact ⟨by rw [List.map_cons, List.map_cons]; rfl, report_report p [e c] _⟩

theorem ensures_whileOngoing {m : Content Unit} {P : List Mark → Unit → Parser → Prop}
    (hp : p.IsGoing) (hm : Ensures machine marks m p P) :
    Ensures machine marks (do if ← Routine.isOngoing then m) p P := by
  refine Ensures.read_bind rfl rfl ?_
  show Ensures _ _ (if (!p.core.hasError && !p.core.isSuspended) = true then m else pure ()) p P
  rw [hp.hasError, hp.isSuspended]
  exact hm

theorem ensures_emitStartNamespaceDeclarations {declared : List String8} {scope : NamespaceScope}
    (hdeclared : ∀ nsPrefix ∈ declared, ∃ uri, scope.lookup nsPrefix = some uri) (hp : p.IsGoing) :
    Ensures machine marks (emitStartNamespaceDeclarations declared scope) p fun l _ q ↦
      Reports p (declared.map fun nsPrefix ↦
        .startNamespaceDecl (optionalString nsPrefix) ((scope.lookup nsPrefix).getD [])) l q := by
  refine ensures_forM (fun nsPrefix hmem p hp ↦ ensures_whileOngoing hp ?_) hp
  obtain ⟨uri, huri⟩ := hdeclared nsPrefix hmem
  rw [huri]
  exact ensures_emitStructural hp.neverStops _

theorem ensures_emitEndNamespaceDeclarations (declared : List String8) (hp : p.IsGoing) :
    Ensures machine marks (emitEndNamespaceDeclarations declared) p fun l _ q ↦
      Reports p (declared.reverse.map fun nsPrefix ↦ .endNamespaceDecl (optionalString nsPrefix))
        l q :=
  ensures_forM (fun _ _ _ hp ↦ ensures_whileOngoing hp (ensures_emitStructural hp.neverStops _)) hp

/-! ## The start of an element -/

theorem config_of_routine {m : Routine α} {a : α} (hrun : m.run routineMachine p = some (a, q)) :
    q.config = p.config :=
  run_unchanged (M := routineMachine) (fun p : Parser ↦ p.config)
    (fun c p ↦ congrArg Settings.config (stepRoutine_settings c p)) hrun

theorem no_error_of_routine {m : Routine α} {a : α} (hrun : m.run routineMachine p = some (a, q))
    (hq : q.core.hasError = false) : p.core.hasError = false :=
  no_error_of_run (m := Content.ofRoutine m) ((Content.run_ofRoutine m p).trans hrun) hq

end

end Parser

/-- The reported name is the expanded one, and every declared prefix is bound in the scope. -/
structure ElementEvent.IsPrepared (cfg : Config) (name : String8) (event : ElementEvent) : Prop where
  name : if cfg.namespaceMode then expandElementName cfg name event.scope = .ok event.name
    else event.name = name
  declared : ∀ nsPrefix ∈ event.declared, ∃ uri, event.scope.lookup nsPrefix = some uri
  plain : cfg.namespaceMode = false → event.declared = []

namespace Parser

section

variable {α β μ : Type} {h : Handler} {s : Spine Bracket Notice} {p q : Parser} {l : List Mark}
  (note : Command → Parser → List μ)

/-- The prefixes that a start tag declares are bound in its scope. -/
theorem ensures_namespaceScopeForElement (a : Attributes) (outer : NamespaceScope) (p : Parser) :
    Ensures routineMachine note (namespaceScopeForElement a outer) p fun _ r _ ↦
      ∀ nsPrefix ∈ r.2, ∃ uri, r.1.lookup nsPrefix = some uri := by
  refine Ensures.foldlM (I := fun r : NamespaceScope × List String8 ↦
    ∀ nsPrefix ∈ r.2, ∃ uri, r.1.lookup nsPrefix = some uri) ?_ _ ?_ _
  · rintro ⟨scope, declared⟩ ⟨name, value⟩ p hdeclared
    refine Ensures.read_bind rfl rfl ?_
    split
    · exact Ensures.done hdeclared
    · refine Ensures.bind fun _ q _ ↦ Ensures.read_bind rfl rfl ?_
      split
      · exact Ensures.done hdeclared
      · refine Ensures.done fun nsPrefix hmem ↦ ?_
        by_cases heq : nsPrefix = namespaceDeclarationPrefix name
        · exact ⟨value, by rw [heq, AList.lookup_insert]⟩
        · rcases List.mem_append.1 hmem with hold | hnew
          · obtain ⟨uri, huri⟩ := hdeclared nsPrefix hold
            exact ⟨uri, by rw [AList.lookup_insert_ne heq, huri]⟩
          · exact absurd (List.mem_singleton.1 hnew) heq
  · intro nsPrefix hmem
    cases hmem

theorem ensures_expandedElementName (name : String8) (scope : NamespaceScope) (p : Parser) :
    Ensures routineMachine note (expandedElementName name scope) p fun l expanded q ↦
      q.core.hasError = false →
        expandElementName p.config name scope = .ok expanded ∧ l = [] ∧ q = p := by
  refine Ensures.read_bind rfl rfl ?_
  show Ensures _ _ (reportExpanded name (expandElementName p.config name scope)) p _
  cases expandElementName p.config name scope with
  | ok expanded => exact Ensures.done fun _ ↦ ⟨rfl, rfl, rfl⟩
  | error message =>
    intro a q hrun hq
    obtain ⟨rfl, rfl⟩ := Prod.mk.inj (Option.some.inj hrun)
    exact absurd (hq.symm.trans (setError_hasError p message)) Bool.false_ne_true

theorem ensures_prepareElement (name : String8) (attributes : Attributes) (p : Parser) :
    Ensures routineMachine note (prepareElement name attributes) p fun _ event q ↦
      q.core.hasError = false → event.IsPrepared p.config name := by
  refine Ensures.bind fun attributes t hdefaults ↦ ?_
  have hconfig : t.config = p.config := config_of_routine hdefaults
  rw [← hconfig]
  refine Ensures.read_bind rfl rfl ?_
  show Ensures _ _ (if t.core.hasError || !t.config.namespaceMode then _ else _) t _
  split
  · rename_i hplain
    refine Ensures.done fun hq ↦ ?_
    -- Without an error, only a parse without namespaces stops here.
    have hmode : t.config.namespaceMode = false := by
      rw [hq, Bool.false_or] at hplain
      exact Bool.not_eq_true' _ ▸ hplain
    exact ⟨by rw [if_neg (by rw [hmode]; exact Bool.false_ne_true)],
      fun _ hmem ↦ (List.not_mem_nil hmem).elim, fun _ ↦ rfl⟩
  · rename_i hplain
    have hmode : t.config.namespaceMode = true := by
      cases hmode : t.config.namespaceMode with
      | true => rfl
      | false => exact absurd (by rw [hmode, Bool.not_false, Bool.or_true]) hplain
    refine Ensures.bind fun r u hscope ↦ ?_
    obtain ⟨scope, declared⟩ := r
    have hdeclared := ensures_namespaceScopeForElement note attributes _ t hscope
    have hu : u.config = t.config := config_of_routine hscope
    refine Ensures.read_bind rfl rfl ?_
    split
    · rename_i herror
      exact Ensures.done fun hq ↦ absurd (hq.symm.trans herror) Bool.false_ne_true
    · refine Ensures.bind fun expanded v hname ↦ ?_
      have hexpanded := ensures_expandedElementName note name scope u hname
      refine Ensures.read_bind rfl rfl ?_
      split
      · rename_i herror
        exact Ensures.done fun hq ↦ absurd (hq.symm.trans herror) Bool.false_ne_true
      · refine Ensures.bind fun attributes w hattributes ↦ Ensures.done fun hq ↦ ?_
        obtain ⟨hok, -⟩ := hexpanded (no_error_of_routine hattributes hq)
        refine ⟨?_, hdeclared, fun hfalse ↦ ?_⟩
        · rw [if_pos hmode, ← hu]
          exact hok
        · exact absurd (hfalse.symm.trans hmode) Bool.false_ne_true

/-- The outcome of a check: `I` holds and nothing has happened, or there is an error. -/
def Checks (I : Parser → Prop) (l : List Mark) (b : Bool) (q : Parser) : Prop :=
  (b = true → l = [] ∧ I q) ∧ (b = false → q.core.hasError = true)

theorem ensures_failAt (I : Parser → Prop) (message : String) (p : Parser) :
    Ensures machine marks (liftM (Routine.failAt message false) : Content Bool) p
      fun l b q ↦ Checks I l b q := by
  intro b q hrun
  obtain ⟨rfl, rfl⟩ := Prod.mk.inj (Option.some.inj hrun)
  exact ⟨fun hb ↦ absurd hb Bool.false_ne_true, fun _ ↦ setError_hasError p message⟩

theorem ensures_pass {I : Parser → Prop} (hI : I p) :
    Ensures machine marks (pure true : Content Bool) p fun l b q ↦ Checks I l b q :=
  Ensures.done ⟨fun _ ↦ ⟨rfl, hI⟩, fun hb ↦ absurd hb.symm Bool.false_ne_true⟩

/-- What comes after a check begins where the check holds. -/
theorem ensures_checked {check : Content Bool} {rest : Content Unit} {I : Parser → Prop}
    {P : List Mark → Parser → Prop}
    (hcheck : Ensures machine marks check p fun l b q ↦ Checks I l b q)
    (hrest : ∀ q, I q →
      Ensures machine marks rest q fun l _ u ↦ u.core.hasError = false → P l u) :
    Ensures machine marks (do if ← check then rest) p fun l _ u ↦
      u.core.hasError = false → P l u := by
  refine Ensures.bind (hcheck.mono ?_)
  rintro l b q ⟨hpass, hfail⟩
  cases b with
  | true =>
    obtain ⟨rfl, hI⟩ := hpass rfl
    exact hrest q hI
  | false => exact Ensures.done fun hq ↦ absurd (hq.symm.trans (hfail rfl)) Bool.false_ne_true

/-- Count the document element when none is open. -/
def beginElement (p : Parser) : Parser :=
  if p.elements.stack = [] then
    { p with core := { p.core with documentElementCount := 1 } }
  else
    p

theorem ensures_checkElementStart (hp : p.core.parsingExternalEntity = false) :
    Ensures machine marks checkElementStart p fun l b q ↦ Checks
      (fun q ↦ q = p.beginElement ∧ (p.elements.stack = [] → p.core.documentElementCount = 0))
      l b q := by
  refine Ensures.read_bind rfl rfl ?_
  show Ensures _ _ (if p.config.maxElementDepth ≤ p.elements.stack.length then _ else
    if p.elements.stack.length = 0 ∧ 0 < p.core.documentElementCount ∧
      (!p.core.parsingExternalEntity) = true then _ else _) p _
  split
  · exact ensures_failAt _ _ p
  split
  · exact ensures_failAt _ _ p
  · rename_i hmultiple
    have hcount : p.elements.stack = [] → p.core.documentElementCount = 0 := by
      intro hempty
      rw [hp, hempty] at hmultiple
      by_contra hne
      exact hmultiple ⟨rfl, Nat.pos_of_ne_zero hne, rfl⟩
    split
    · rename_i hfirst
      have hempty : p.elements.stack = [] := List.length_eq_zero_iff.1 hfirst.1
      refine Ensures.command_bind (marks_of_events rfl) (ensures_pass ⟨?_, hcount⟩)
      rw [beginElement, if_pos hempty]
      rfl
    · rename_i hlater
      refine ensures_pass ⟨?_, hcount⟩
      rw [beginElement, if_neg]
      exact fun hempty ↦ hlater ⟨List.length_eq_zero_iff.2 hempty, hcount hempty⟩

theorem Agrees.beginElement (hs : Agrees h s p) : Agrees h s p.beginElement := by
  unfold Parser.beginElement
  split
  · exact { hs with namespaces := fun hmode ↦ ⟨(hs.namespaces hmode).1, (hs.namespaces hmode).2⟩ }
  · exact hs

/-- The first element that is opened is the document element. -/
theorem Matches.rootsAre_push (hs : Matches h s p)
    (hcount : p.elements.stack = [] → p.core.documentElementCount = 0) (e : OpenElement) :
    RootsAre p.beginElement.core.documentElementCount (s.push (.element e)) := by
  have hroots := hs.roots
  unfold Parser.beginElement
  split
  · rename_i hempty
    rw [hcount hempty] at hroots
    exact rootsAre_push_root hroots e
  · rename_i hopen
    exact rootsAre_push_inside hroots (hs.frames_ne_nil hopen) _

end

/-- The element that a prepared start tag opens. -/
def openedElement (name : String8) (event : ElementEvent) : OpenElement where
  name := name
  eventName := event.name
  attributes := event.attributes
  scope := event.scope
  declared := event.declared.map fun nsPrefix ↦ (nsPrefix, (event.scope.lookup nsPrefix).getD [])

section

variable {h : Handler} {s : Spine Bracket Notice} {p q : Parser}

theorem openedElement_isValid {cfg : Config} {name : String8} {event : ElementEvent}
    (hevent : event.IsPrepared cfg name) : (openedElement name event).IsValid cfg where
  eventName := hevent.name
  declared := fun hmode ↦ by rw [openedElement, hevent.plain hmode, List.map_nil]

theorem opening_openedElement (h : Handler) (name : String8) (event : ElementEvent) :
    (openedElement name event).opening h =
      .opens name :: ((event.declared.map fun nsPrefix ↦ Event.startNamespaceDecl
          (optionalString nsPrefix) ((event.scope.lookup nsPrefix).getD [])).map .event ++
        (if h.wantsStartElementEvents then [.startElement event.name event.attributes]
          else []).map .event) := by
  unfold OpenElement.opening OpenElement.startNamespaces
  rw [List.map_map, List.cons_append]
  show _ :: (List.map _ (List.map _ event.declared) ++ _) = _
  rw [List.map_map]
  cases h.wantsStartElementEvents <;> rfl

/-- After an error nothing is reported. -/
theorem ensures_emitStartElement_of_error {event : ElementEvent} (hp : p.core.hasError = true) :
    Ensures machine marks
      (do
        let p ← Content.scene
        if (← Routine.isOngoing) && p.handler.wantsStartElementEvents then
          Content.emitStructural (.startElement event.name event.attributes))
      p fun _ _ q ↦ q = p := by
  refine Ensures.read_bind rfl rfl (Ensures.read_bind rfl rfl ?_)
  show Ensures _ _ (if (!p.core.hasError && !p.core.isSuspended &&
    p.handler.wantsStartElementEvents) = true then _ else _) p _
  rw [hp]
  exact Ensures.done rfl

theorem ensures_emitStartElement {event : ElementEvent} (hp : p.IsGoing) :
    Ensures machine marks
      (do
        let p ← Content.scene
        if (← Routine.isOngoing) && p.handler.wantsStartElementEvents then
          Content.emitStructural (.startElement event.name event.attributes))
      p fun l _ q ↦
        Reports p (if p.handler.wantsStartElementEvents then
          [.startElement event.name event.attributes] else []) l q := by
  refine Ensures.read_bind rfl rfl (Ensures.read_bind rfl rfl ?_)
  show Ensures _ _ (if (!p.core.hasError && !p.core.isSuspended &&
    p.handler.wantsStartElementEvents) = true then _ else _) p _
  rw [hp.hasError, hp.isSuspended]
  cases hwants : p.handler.wantsStartElementEvents with
  | true => exact ensures_emitStructural hp.neverStops _
  | false => exact Ensures.done ⟨rfl, (report_nil p).symm⟩

theorem ensures_routine {α : Type} {m : Routine α} {P : List Mark → α → Parser → Prop}
    (hm : Ensures routineMachine (fun c ↦ marks (.routine c)) m p P) :
    Ensures machine marks (liftM m : Content α) p P := Ensures.lift hm

/-- What is known of a routine, with its being quiet. -/
theorem ensures_quiet {α : Type} {m : Routine α} {I : α → Parser → Prop}
    (hm : Ensures routineMachine (fun _ _ ↦ ([] : List Mark)) m p fun _ a q ↦ I a q) :
    Ensures machine marks (liftM m : Content α) p fun l a q ↦ Quiet p l q ∧ I a q :=
  fun _ _ hrun ↦ ⟨quiet_ofRoutine m p hrun, hm ((Content.run_ofRoutine m p).symm.trans hrun)⟩

/-- The steps that open a prepared element. -/
theorem ensures_openPrepared {name : String8} {event : ElementEvent}
    (hs : Agrees h s p) (hgoing : p.IsGoing) (hevent : event.IsPrepared p.config name)
    (hroots : RootsAre p.core.documentElementCount (s.push (.element (openedElement name event)))) :
    Ensures machine marks
      (do
        Content.act (.pushElement name)
        if (← Content.scene).config.namespaceMode then
          Content.act (.pushNamespace event.scope event.declared)
          emitStartNamespaceDeclarations event.declared event.scope
        let p ← Content.scene
        if (← Routine.isOngoing) && p.handler.wantsStartElementEvents then
          Content.emitStructural (.startElement event.name event.attributes))
      p fun l _ q ↦ Matches h (s.push (.element (openedElement name event))) q ∧
        l = (openedElement name event).opening h := by
  have hvalid := openedElement_isValid hevent
  have hopens {q : Parser} : Opens (openedElement name event) p q → _ := hs.push hvalid
  have hdeclared : (openedElement name event).declared.map Prod.fst = event.declared := by
    rw [openedElement, List.map_map]
    exact List.map_id _
  refine Ensures.command_bind rfl ?_
  refine Ensures.read_bind rfl rfl ?_
  split
  · rename_i hmode
    refine Ensures.command_bind (marks_of_events rfl) ?_
    refine Ensures.bind ((ensures_emitStartNamespaceDeclarations hevent.declared ?_).mono ?_)
    · exact ⟨hgoing.neverStops, hgoing.hasError, hgoing.isSuspended⟩
    rintro l - q ⟨rfl, rfl⟩
    refine (ensures_emitStartElement ?_).mono ?_
    · exact ⟨hgoing.neverStops, hgoing.hasError, hgoing.isSuspended⟩
    rintro l - q ⟨rfl, rfl⟩
    refine ⟨⟨hopens ?_, hroots⟩, ?_⟩
    · exact
        { settings := rfl
          isSuspended := rfl
          isAligned := Nat.le_succ_of_le hs.isAligned
          names := Elements.names_push hs.isAligned name
          floor := rfl
          contexts := fun _ ↦ rfl
          declarations := fun _ ↦ congrArg (· :: p.core.namespaceDeclarations) hdeclared.symm }
    · rw [opening_openedElement, ← hs.handler]
      rfl
  · rename_i hmode
    refine (ensures_emitStartElement ?_).mono ?_
    · exact ⟨hgoing.neverStops, hgoing.hasError, hgoing.isSuspended⟩
    rintro l - q ⟨rfl, rfl⟩
    refine ⟨⟨hopens ?_, hroots⟩, ?_⟩
    · exact
        { settings := rfl
          isSuspended := rfl
          isAligned := Nat.le_succ_of_le hs.isAligned
          names := Elements.names_push hs.isAligned name
          floor := rfl
          contexts := fun hmode' ↦ absurd hmode' hmode
          declarations := fun hmode' ↦ absurd hmode' hmode }
    · rw [opening_openedElement, ← hs.handler,
        hevent.plain (Bool.eq_false_iff.2 hmode)]
      rfl

theorem nests_openElement (hstops : h.NeverStops) (name : String8) (attributes : Attributes)
    (p : Parser) : Nests h (openElement name attributes) p := by
  refine nests_of fun s hs ↦ ?_
  refine ensures_checked (ensures_checkElementStart hs.parsingExternalEntity) ?_
  rintro p₁ ⟨hp₁, hcount⟩
  have hs₁ : Agrees h s p₁ := hp₁ ▸ hs.toAgrees.beginElement
  refine Ensures.bind ((ensures_quiet (ensures_prepareElement _ name attributes p₁)).mono ?_)
  rintro l event p₂ ⟨hquiet, hevent⟩
  obtain ⟨notices, rfl⟩ := hquiet.notices
  refine Ensures.read_bind rfl rfl ?_
  split
  · rename_i herror
    refine (ensures_emitStartElement_of_error herror).mono ?_
    rintro l - q rfl hq
    exact absurd (hq.symm.trans herror) Bool.false_ne_true
  · rename_i hongoing
    have hsuspended : p₂.core.isSuspended = false :=
      (hquiet.isSuspended (hs₁.handler ▸ hstops)).trans hs₁.isSuspended
    have hs₂ := (hs₁.of_frame hquiet.frame hsuspended).add notices
    have hgoing : p₂.IsGoing :=
      ⟨hs₂.handler ▸ hstops, Bool.eq_false_iff.2 hongoing, hsuspended⟩
    have hconfig : p₂.config = p₁.config := congrArg (fun f : Frame ↦ f.config) hquiet.frame
    have hcount₂ : p₂.core.documentElementCount = p.beginElement.core.documentElementCount :=
      (congrArg Frame.documentElementCount hquiet.frame).trans (hp₁ ▸ rfl)
    have hroots := (hs.add notices).rootsAre_push hcount (openedElement name event)
    refine (ensures_openPrepared hs₂ hgoing (hconfig ▸ hevent hgoing.hasError)
      (hcount₂ ▸ hroots)).mono ?_
    rintro l - q ⟨hmatches, rfl⟩ -
    refine ⟨_, hmatches, ?_, ?_⟩
    · rw [Spine.flatten_push, Spine.flatten_add, flattenForest_leaves, List.append_assoc]
      rfl
    · rw [Spine.frames_push, Bracket.base_element, Spine.frames_add]

/-- An element on the slice path has neither events nor namespaces. -/
theorem nests_openElementRange (hmode : p.config.namespaceMode = false)
    (hstart : p.handler.wantsStartElementEvents = false) (hslices : p.elements.usesSlice = true)
    (input : String8) (nameStart nameEnd : Nat) :
    Nests h (openElementRange input nameStart nameEnd) p := by
  refine nests_of fun s hs ↦ ?_
  refine ensures_checked (ensures_checkElementStart hs.parsingExternalEntity) ?_
  rintro q ⟨rfl, hcount⟩
  let name : TokenSlice := ⟨input, nameStart, nameEnd + 1 - nameStart⟩
  let e : OpenElement := ⟨name.text, name.text, .make, ∅, []⟩
  have hbegin : p.beginElement.config = p.config ∧ p.beginElement.elements = p.elements := by
    unfold beginElement
    split <;> exact ⟨rfl, rfl⟩
  have hvalid : e.IsValid p.beginElement.config := by
    rw [hbegin.1]
    exact ⟨by rw [if_neg (by rw [hmode]; exact Bool.false_ne_true)], fun _ ↦ rfl⟩
  have hopens : Opens e p.beginElement (p.beginElement.step (.pushElementSlice name)) := by
    have hslices' : p.beginElement.elements.usesSlice = true := hbegin.2 ▸ hslices
    have hmode' : ¬p.beginElement.config.namespaceMode = true := by
      rw [hbegin.1, hmode]
      exact Bool.false_ne_true
    exact
      { settings := rfl
        isSuspended := rfl
        isAligned := by
          show (name :: _).length ≤ ([] :: _).length
          rw [List.length_cons, List.length_cons, Elements.usesSlice_iff.1 hslices']
        names := Elements.names_pushSlice hslices' name
        floor := rfl
        contexts := fun h ↦ absurd h hmode'
        declarations := fun h ↦ absurd h hmode' }
  refine Ensures.command fun _ ↦ ⟨s.push (.element e), ⟨?_, ?_⟩, ?_, ?_⟩
  · exact hs.toAgrees.beginElement.push hvalid hopens
  · exact hs.rootsAre_push hcount e
  · rw [Spine.flatten_push]
    show _ ++ e.opening h = _
    rw [OpenElement.opening, ← hs.handler, hstart]
    rfl
  · rw [Spine.frames_push, Bracket.base_element]

/-! ## The end of an element -/

theorem ensures_checkElementEnd (name : String8) (p : Parser) :
    Ensures machine marks (checkElementEnd name) p fun l b q ↦ Checks
      (fun q ↦ q = p ∧ p.elements.floor < p.elements.stack.length ∧ p.elements.top = some name)
      l b q := by
  refine Ensures.read_bind rfl rfl ?_
  show Ensures _ _ (if p.elements.stack.length = 0 then _ else
    if p.elements.stack.length ≤ p.elements.floor then _ else
    if (!p.elements.openElementMatches name) = true then _ else _) p _
  split
  · exact ensures_failAt _ _ p
  split
  · refine Ensures.bind (Ensures.command ?_)
    refine (ensures_failAt (fun _ ↦ False) _ _).mono fun l b q hcheck ↦ ?_
    exact ⟨fun hb ↦ (hcheck.1 hb).2.elim, hcheck.2⟩
  split
  · exact ensures_failAt _ _ p
  · rename_i hfloor hmatches
    have hname : p.elements.openElementMatches name = true := by
      cases hname : p.elements.openElementMatches name with
      | true => rfl
      | false => exact absurd (by rw [hname]; rfl) hmatches
    exact ensures_pass ⟨rfl, Nat.lt_of_not_le hfloor, eq_of_beq hname⟩

/-- The innermost open element is the one that an end tag may close. -/
theorem Agrees.innermost {name : String8} (hs : Agrees h s p)
    (hfloor : p.elements.floor < p.elements.stack.length) (htop : p.elements.top = some name) :
    ∃ e rest, s.frames = .element e :: rest ∧ e.name = name := by
  have hlength := Elements.length_names hs.isAligned
  rw [hs.names, List.length_map] at hlength
  rw [hs.floor, ← hlength] at hfloor
  obtain ⟨e, rest, hframes⟩ := Bracket.element_of_floor_lt hfloor
  refine ⟨e, rest, hframes, ?_⟩
  rw [Elements.top_eq_head? hs.isAligned, hs.names, hframes, Bracket.elements_element,
    List.map_cons, List.head?_cons, Option.some.injEq] at htop
  exact htop

/-- The namespaces of the innermost element end, in the reverse order of their start. -/
theorem ensures_closeNamespaces {declared : List String8} {rest : List (List String8)}
    (hp : p.IsGoing) (hdeclarations : p.core.namespaceDeclarations = declared :: rest)
    (hcontexts : 1 < p.core.namespaceContexts.length) :
    Ensures machine marks closeNamespaces p fun l _ q ↦ ∃ es,
      es = declared.reverse.map (fun nsPrefix ↦ Event.endNamespaceDecl (optionalString nsPrefix)) ∧
      l = es.map .event ∧
      q = ((p.report es).step .popNamespaceDeclarations).step .popNamespaceContext := by
  refine Ensures.read_bind rfl rfl ?_
  rw [show (machine.see p).core.namespaceDeclarations = declared :: rest from hdeclarations]
  refine Ensures.bind ((ensures_emitEndNamespaceDeclarations declared hp).mono ?_)
  rintro l - q ⟨rfl, rfl⟩
  refine Ensures.command_bind (marks_of_events rfl) ?_
  refine Ensures.read_bind rfl rfl ?_
  show Ensures _ _ (if 1 < p.core.namespaceContexts.length then _ else _) _ _
  rw [if_pos hcontexts]
  refine Ensures.command ⟨_, rfl, ?_, rfl⟩
  rw [show marks Act.popNamespaceContext _ = [] from marks_of_events rfl, List.nil_append,
    List.append_nil]

/-- After the end of the innermost element, its namespaces end. -/
theorem ensures_endNamespaces {e : OpenElement} {rest : List Bracket} (hs : Matches h s p)
    (hgoing : p.IsGoing) (hframes : s.frames = .element e :: rest) (es : List Event) :
    Ensures machine marks (if p.config.namespaceMode then closeNamespaces else pure ())
      ((p.step .popElement).report es) fun l _ q ↦ Matches h s.pop q ∧ l = e.endNamespaces := by
  have hroots := rootsAre_pop hs.roots
  by_cases hmode : p.config.namespaceMode = true
  · have hmatch := hs.namespaces hmode
    rw [hframes, Bracket.elements_element] at hmatch
    have hcontexts : 1 < p.core.namespaceContexts.length := by
      rw [hmatch.contexts, List.map_cons, List.cons_append, List.length_cons, List.length_append,
        List.length_singleton]
      omega
    rw [if_pos hmode]
    have hgoing' : ((p.step .popElement).report es).IsGoing :=
      ⟨hgoing.neverStops, hgoing.hasError, hgoing.isSuspended⟩
    refine (ensures_closeNamespaces hgoing' hmatch.declarations hcontexts).mono ?_
    rintro l - q ⟨es', rfl, rfl, rfl⟩
    refine ⟨⟨hs.toAgrees.pop hframes ?_, hroots⟩, ?_⟩
    · exact ⟨rfl, rfl, rfl, fun _ ↦ rfl, fun _ ↦ rfl⟩
    · rw [OpenElement.endNamespaces, ← List.map_reverse, List.map_map, List.map_map]
      rfl
  · have hdeclared : e.declared = [] := by
      have he : e ∈ Bracket.elements s.frames := by
        rw [hframes, Bracket.elements_element]
        exact List.mem_cons_self
      exact (hs.valid e he).declared (Bool.eq_false_iff.2 hmode)
    rw [if_neg hmode]
    refine Ensures.done ⟨⟨hs.toAgrees.pop hframes ?_, hroots⟩, ?_⟩
    · exact ⟨rfl, rfl, rfl, fun h ↦ absurd h hmode, fun h ↦ absurd h hmode⟩
    · rw [OpenElement.endNamespaces, hdeclared, List.reverse_nil, List.map_nil]

/-- The steps that close the innermost element. -/
theorem ensures_closeChecked {eventName : String8} {e : OpenElement} {rest : List Bracket}
    (hs : Matches h s p) (hgoing : p.IsGoing) (hframes : s.frames = .element e :: rest)
    (hevent : p.handler.wantsEndElementEvents = true → eventName = e.eventName) :
    Ensures machine marks
      (do
        Content.act .popElement
        unless ← Routine.hasError do
          if p.handler.wantsEndElementEvents then
            Content.emitStructural (.endElement eventName)
        if p.config.namespaceMode then
          closeNamespaces)
      p fun l _ q ↦ Matches h s.pop q ∧ l = e.closing h := by
  have hname : p.elements.top = some e.name := by
    rw [Elements.top_eq_head? hs.isAligned, hs.names, hframes]
    rfl
  refine Ensures.command_bind (l := [.closes e.name]) ?_ ?_
  · show [Mark.closes (p.elements.top.getD [])] = _
    rw [hname, Option.getD_some]
  refine Ensures.read_bind rfl rfl ?_
  show Ensures _ _ (if p.core.hasError = true then _ else _) _ _
  rw [if_neg (by rw [hgoing.hasError]; exact Bool.false_ne_true)]
  obtain rfl := hs.handler
  unfold OpenElement.closing
  split
  · rename_i hwants
    rw [hevent hwants]
    have hstops : (p.step .popElement).handler.NeverStops := hgoing.neverStops
    refine Ensures.bind ((ensures_emitStructural hstops _).mono ?_)
    rintro l - q ⟨rfl, rfl⟩
    refine (ensures_endNamespaces hs hgoing hframes _).mono ?_
    rintro l - q ⟨hmatches, rfl⟩
    exact ⟨hmatches, rfl⟩
  · show Ensures _ _ (if p.config.namespaceMode = true then closeNamespaces else pure ())
      (p.step .popElement) _
    rw [← report_nil (p.step .popElement)]
    refine (ensures_endNamespaces hs hgoing hframes _).mono ?_
    rintro l - q ⟨hmatches, rfl⟩
    exact ⟨hmatches, rfl⟩

theorem nests_closeElement (hstops : h.NeverStops) (name : String8) (p : Parser) :
    Nests h (closeElement name) p := by
  refine nests_of fun s hs ↦ ?_
  refine ensures_checked (ensures_checkElementEnd name p) ?_
  rintro q ⟨rfl, hfloor, htop⟩
  obtain ⟨e, rest, hframes, hname⟩ := hs.innermost hfloor htop
  -- The expanded name is only needed for an end event; it is the one reported at the start.
  have hvalid : e.IsValid q.config := hs.valid e (by rw [hframes]; exact List.mem_cons_self)
  have hrest {eventName : String8} (hq : q.core.hasError = false)
      (hevent : q.handler.wantsEndElementEvents = true → eventName = e.eventName) :=
    ensures_closeChecked hs ⟨hs.handler ▸ hstops, hq, hs.isSuspended⟩ hframes hevent
  have hdone {l : List Mark} {u : Parser} (hu : Matches h s.pop u ∧ l = e.closing h) :
      ∃ s', Matches h s' u ∧ s'.flatten (spelling h) = s.flatten (spelling h) ++ l ∧
        Bracket.base s'.frames = Bracket.base s.frames := by
    obtain ⟨hmatches, rfl⟩ := hu
    refine ⟨_, hmatches, Spine.flatten_pop _ hframes, ?_⟩
    rw [Spine.frames_pop, hframes, List.tail_cons, Bracket.base_element]
  refine Ensures.read_bind rfl rfl ?_
  show Ensures _ _ (if (q.handler.wantsEndElementEvents && q.config.namespaceMode) = true
    then _ else _) q _
  split
  · rename_i hexpand
    obtain ⟨hwants, hmode⟩ := Bool.and_eq_true_iff.1 hexpand
    refine Ensures.bind ((ensures_routine (ensures_expandedElementName _ name _ q)).mono ?_)
    rintro l eventName t hexpanded _ u hrun hu
    obtain ⟨hok, rfl, rfl⟩ := hexpanded (no_error_of_run hrun hu)
    have hsame : eventName = e.eventName := by
      have heventName := hvalid.eventName
      have hscope : t.scene.core.namespaceContexts.headD ∅ = e.scope := by
        show t.core.namespaceContexts.headD ∅ = e.scope
        rw [(hs.namespaces hmode).contexts, hframes]
        rfl
      rw [if_pos hmode, hname] at heventName
      exact Except.ok.inj ((hscope ▸ hok : _ = Except.ok eventName).symm.trans heventName)
    exact hdone (hrest (no_error_of_run hrun hu) (fun _ ↦ hsame) hrun)
  · rename_i hplain
    refine Ensures.read_bind rfl rfl fun _ u hrun hu ↦ ?_
    have hsame : q.handler.wantsEndElementEvents = true → name = e.eventName := by
      intro hwants
      have heventName := hvalid.eventName
      rw [if_neg fun hmode ↦ hplain (Bool.and_eq_true_iff.2 ⟨hwants, hmode⟩)] at heventName
      exact (heventName.trans hname).symm
    exact hdone (hrest (no_error_of_run hrun hu) hsame hrun)

/-- On the slice path an element is closed without events. -/
theorem nests_closeElementRange (hmode : p.config.namespaceMode = false)
    (hend : p.handler.wantsEndElementEvents = false) (input : String8) (nameStart nameEnd : Nat) :
    Nests h (closeElementRange input nameStart nameEnd) p := by
  refine nests_of fun s hs ↦ ?_
  refine ensures_checked (ensures_checkElementEnd _ p) ?_
  rintro q ⟨rfl, hfloor, htop⟩
  obtain ⟨e, rest, hframes, hname⟩ := hs.innermost hfloor htop
  have hvalid : e.IsValid q.config := hs.valid e (by rw [hframes]; exact List.mem_cons_self)
  have hmode' : ¬q.config.namespaceMode = true := by
    rw [hmode]
    exact Bool.false_ne_true
  have hcloses : Closes q (q.step .popElement) :=
    ⟨rfl, rfl, rfl, fun h ↦ absurd h hmode', fun h ↦ absurd h hmode'⟩
  refine Ensures.command fun _ ↦ ⟨s.pop, ⟨?_, rootsAre_pop hs.roots⟩, ?_, ?_⟩
  · exact hs.toAgrees.pop hframes hcloses
  · rw [Spine.flatten_pop _ hframes]
    show _ ++ e.closing h = _ ++ [Mark.closes (q.elements.top.getD [])]
    rw [OpenElement.closing, OpenElement.endNamespaces, hvalid.declared hmode, ← hs.handler, hend,
      htop, hname]
    rfl
  · rw [Spine.frames_pop, hframes, List.tail_cons, Bracket.base_element]

end

end Parser

end Xpact
