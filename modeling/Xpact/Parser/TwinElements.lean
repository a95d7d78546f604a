import Xpact.Parser.ElementSteps
import Xpact.Parser.Twins

/-!
# Elements of twins

Opening and closing an element does the same on twins, whether its tags are reported or not.
-/

namespace Xpact

open Library Program

namespace Parser

section

variable {α β : Type} {p q : Parser}

/-! ## OnlyReports -/

/-- The program reports at most, when the handler never stops. -/
def OnlyReports (m : Content Unit) : Prop :=
  ∀ p : Parser, p.handler.NeverStops → ∃ v, m.run machine p = some ((), { p with view := v })

theorem onlyReports_done : OnlyReports (pure ()) := fun p _ ↦ ⟨p.view, rfl⟩

theorem OnlyReports.bind {m n : Content Unit} (hm : OnlyReports m) (hn : OnlyReports n) :
    OnlyReports (m >>= fun _ ↦ n) := by
  intro p hp
  obtain ⟨v, hv⟩ := hm p hp
  obtain ⟨w, hw⟩ := hn { p with view := v } hp
  refine ⟨w, ?_⟩
  rw [run_bind, hv, Option.bind_some, hw]

theorem onlyReports_emitStructural (e : Event) : OnlyReports (Content.emitStructural e) := by
  intro p hp
  refine ⟨(p.emit e).view, ?_⟩
  have hstop : (p.emit e).checkHandlerStop = p.emit e := checkHandlerStop_of_neverStops hp
  show some ((), (p.emit e).checkHandlerStop) = _
  rw [hstop]
  rfl

/-- What is reported only while the parse goes on. -/
theorem OnlyReports.ongoing {m : Content Unit} (hm : OnlyReports m) :
    OnlyReports (do if ← Routine.isOngoing then m) := by
  intro p hp
  show ∃ v, (if (!p.core.hasError && !p.core.isSuspended) = true then m
    else pure ()).run machine p = _
  split
  · exact hm p hp
  · exact ⟨p.view, rfl⟩

theorem OnlyReports.forM {γ : Type} {f : γ → Content Unit} (hf : ∀ c, OnlyReports (f c)) (cs : List γ) :
    OnlyReports (cs.forM f) := by
  induction cs with
  | nil => exact onlyReports_done
  | cons c cs ih => exact (hf c).bind ih

theorem onlyReports_emitStartNamespaceDeclarations (declared : List String8) (scope : NamespaceScope) :
    OnlyReports (emitStartNamespaceDeclarations declared scope) := by
  refine OnlyReports.forM (fun nsPrefix ↦ OnlyReports.ongoing ?_) declared
  split
  · exact onlyReports_emitStructural _
  · exact onlyReports_done

theorem onlyReports_emitEndNamespaceDeclarations (declared : List String8) :
    OnlyReports (emitEndNamespaceDeclarations declared) :=
  OnlyReports.forM (fun _ ↦ (onlyReports_emitStructural _).ongoing) declared.reverse

/-- The program reports when the condition holds. -/
theorem OnlyReports.when {m : Content Unit} (hm : OnlyReports m) (c : Prop) [Decidable c] :
    OnlyReports (if c then m else pure ()) := by
  split
  · exact hm
  · exact onlyReports_done

/-- What the parsers report may differ. -/
theorem Alike.reports_bind {m n : Content Unit} {f : Unit → Content α} {g : Unit → Content β}
    {Q : α → Parser → β → Parser → Prop} (h : Alike p q) (hm : OnlyReports m) (hn : OnlyReports n)
    (hrest : ∀ v w, Coupled parted (f ()) (g ()) { p with view := v } { q with view := w } Q) :
    Coupled parted (m >>= f) (n >>= g) p q Q := by
  obtain ⟨v, hv⟩ := hm p h.observed.neverStops
  obtain ⟨w, hw⟩ := hn q h.observed.neverStops'
  refine Coupled.left fun a p' hp ↦ Coupled.right fun b q' hq ↦ ?_
  obtain ⟨-, rfl⟩ := Prod.mk.inj (Option.some.inj (hv.symm.trans hp))
  obtain ⟨-, rfl⟩ := Prod.mk.inj (Option.some.inj (hw.symm.trans hq))
  exact hrest v w

/-- One of the parsers may report what the other does not. -/
theorem Alike.reports_when {c d : Prop} [Decidable c] [Decidable d] {m n : Content Unit}
    {f : Content α} {g : Content β} {Q : α → Parser → β → Parser → Prop} (h : Alike p q)
    (hm : OnlyReports m) (hn : OnlyReports n)
    (hrest : ∀ v w, Coupled parted f g { p with view := v } { q with view := w } Q) :
    Coupled parted (if c then m >>= fun _ ↦ f else f) (if d then n >>= fun _ ↦ g else g)
      p q Q := by
  have heq {c : Prop} [Decidable c] {m : Content Unit} {γ : Type} {f : Content γ} :
      (if c then m >>= fun _ ↦ f else f) = (if c then m else pure ()) >>= fun _ ↦ f := by
    split <;> rfl
  rw [heq, heq]
  exact h.reports_bind (hm.when c) (hn.when d) hrest

theorem Alike.reports {m n : Content Unit} (h : Alike p q) (hm : OnlyReports m) (hn : OnlyReports n) :
    Coupled parted m n p q fun _ p' _ q' ↦
      ∃ v w, p' = { p with view := v } ∧ q' = { q with view := w } := by
  intro a p' b q' hp hq
  obtain ⟨v, hv⟩ := hm p h.observed.neverStops
  obtain ⟨w, hw⟩ := hn q h.observed.neverStops'
  obtain ⟨-, rfl⟩ := Prod.mk.inj (Option.some.inj (hv.symm.trans hp))
  obtain ⟨-, rfl⟩ := Prod.mk.inj (Option.some.inj (hw.symm.trans hq))
  exact .inr ⟨v, w, rfl, rfl⟩

/-! ## The start of an element -/

/-- An element may be opened on both sides; it may have to be counted. -/
theorem Twin.checkElementStart (h : Twin p q) :
    Coupled parted checkElementStart checkElementStart p q fun b p' b' q' ↦
      b = true ∧ b' = true ∧ Twin p' q' ∧ p'.elements = p.elements ∧ q'.elements = q.elements ∧
        p'.config = p.config ∧ p'.core.context = p.core.context := by
  unfold Xpact.checkElementStart
  refine scene_bind ?_
  dsimp only
  have hdepth : q.scene.elements.stack.length = p.scene.elements.stack.length := h.stack_length
  have hconfig : q.scene.config = p.scene.config := h.config
  have hcore : q.scene.core = p.scene.core := h.core
  rw [hdepth, hconfig, hcore]
  refine Coupled.ite Iff.rfl (fun _ ↦ Alike.failAt) fun _ ↦ ?_
  refine Coupled.ite Iff.rfl (fun _ ↦ Alike.failAt) fun _ ↦ ?_
  refine Coupled.ite Iff.rfl (fun _ ↦ ?_) fun _ ↦ ?_
  · refine act_bind (Coupled.done ⟨rfl, rfl, ⟨{ h.toAlike with core := ?_ }, h.scopesExpand⟩, rfl,
      rfl, rfl, rfl⟩)
    show { q.core with documentElementCount := 1 } = { p.core with documentElementCount := 1 }
    rw [h.core]
  · exact Coupled.done ⟨rfl, rfl, h, rfl, rfl, rfl, rfl⟩

/-- The scopes of a start tag go with its name, which has been pushed. -/
theorem Alike.openNamespaces {m n : Content Unit} {Q : Unit → Parser → Unit → Parser → Prop}
    {event : ElementEvent} (h : Alike p q)
    (hscopes : p.config.namespaceMode = true → ∃ scopes,
      p.core.namespaceContexts = scopes ++ [baseNamespaceScope] ∧
        List.Forall₂ (fun name scope ↦ ∃ e, expandElementName p.config name scope = .ok e)
          p.elements.names (event.scope :: scopes))
    (hrest : ∀ p' q', Twin p' q' → Coupled parted m n p' q' Q) :
    Coupled parted
      (do
        if (← Content.scene).config.namespaceMode then
          Content.act (.pushNamespace event.scope event.declared)
          emitStartNamespaceDeclarations event.declared event.scope
        m)
      (do
        if (← Content.scene).config.namespaceMode then
          Content.act (.pushNamespace event.scope event.declared)
          emitStartNamespaceDeclarations event.declared event.scope
        n) p q Q := by
  refine scene_bind ?_
  have hmodes : p.config.namespaceMode = true ↔ q.config.namespaceMode = true := by rw [h.config]
  refine Coupled.ite hmodes (fun hmode ↦ ?_) fun hmode ↦ ?_
  · refine act_bind ?_
    have hpushed : Alike (p.step (.pushNamespace event.scope event.declared))
        (q.step (.pushNamespace event.scope event.declared)) :=
      { h with core := by simp only [step, h.core] }
    refine hpushed.reports_bind (onlyReports_emitStartNamespaceDeclarations _ _)
      (onlyReports_emitStartNamespaceDeclarations _ _) fun v w ↦ hrest _ _ ⟨hpushed.views v w, ?_⟩
    obtain ⟨scopes, hcontexts, hexpand⟩ := hscopes hmode
    exact fun _ ↦ ⟨event.scope :: scopes, congrArg (event.scope :: ·) hcontexts, hexpand⟩
  · exact hrest p q ⟨h, fun hmode' ↦ absurd hmode' hmode⟩

/-- What is read of the state by both. -/
theorem Alike.hasError_bind {f : Bool → Content α} {g : Bool → Content β}
    {Q : α → Parser → β → Parser → Prop} (h : Alike p q)
    (hfg : p.core.hasError = false → Coupled parted (f false) (g false) p q Q) :
    Coupled parted (liftM Routine.hasError >>= f) (liftM Routine.hasError >>= g) p q Q := by
  show Coupled parted (f p.core.hasError) (g q.core.hasError) p q Q
  cases herror : p.core.hasError with
  | true => exact h.failed herror
  | false =>
    rw [h.hasError, herror]
    exact hfg herror

theorem Alike.isOngoing_bind {f : Bool → Content α} {g : Bool → Content β}
    {Q : α → Parser → β → Parser → Prop} (h : Alike p q)
    (hfg : p.core.hasError = false → Coupled parted (f true) (g true) p q Q) :
    Coupled parted (liftM Routine.isOngoing >>= f) (liftM Routine.isOngoing >>= g) p q Q := by
  show Coupled parted (f (!p.core.hasError && !p.core.isSuspended))
    (g (!q.core.hasError && !q.core.isSuspended)) p q Q
  rw [h.core, h.isSuspended]
  cases herror : p.core.hasError with
  | true => exact h.failed herror
  | false => exact hfg herror

theorem Twin.openElement (h : Twin p q) (name : String8) (attributes : Attributes) :
    Coupled parted (openElement name attributes) (openElement name attributes) p q
      fun _ p' _ q' ↦ Twin p' q' := by
  unfold Xpact.openElement
  refine Coupled.bind (h.checkElementStart.mono ?_)
  rintro b p₁ b' q₁ ⟨rfl, rfl, h₁, -⟩
  refine h₁.routine_bind fun event p₂ q₂ hprepared h₂ ↦ h₂.hasError_bind fun herror ↦ ?_
  -- Slices may lie below on the left, but the names are the same.
  have hpushed : Alike (p₂.step (.pushElement name)) (q₂.step (.pushElement name)) :=
    { h₂.toAlike with
      isAligned := Nat.le_succ_of_le h₂.isAligned
      isAligned' := Nat.le_succ_of_le h₂.isAligned'
      names := (Elements.names_push h₂.isAligned' name).trans
        ((congrArg (name :: ·) h₂.names).trans (Elements.names_push h₂.isAligned name).symm) }
  refine act_bind (hpushed.openNamespaces (fun hmode ↦ ?_) fun p₃ q₃ h₃ ↦ ?_)
  · have hmode : p₂.config.namespaceMode = true := hmode
    obtain ⟨scopes, hcontexts, hexpand⟩ := h₂.scopesExpand hmode
    have hconfig : p₂.config = p₁.config := config_of_routine hprepared
    -- The name has been expanded without an error, so it can be expanded again at the end.
    have hname := (ensures_prepareElement (fun _ _ ↦ ([] : List Unit)) name attributes p₁ hprepared
      herror).name
    rw [← hconfig, if_pos hmode] at hname
    refine ⟨scopes, hcontexts, ?_⟩
    rw [show (p₂.step (.pushElement name)).elements.names = name :: p₂.elements.names from
      Elements.names_push h₂.isAligned name]
    exact .cons ⟨event.name, hname⟩ hexpand
  · refine scene_bind (h₃.isOngoing_bind fun _ ↦ ?_)
    refine (h₃.reports ((onlyReports_emitStructural _).when _)
      ((onlyReports_emitStructural _).when _)).mono ?_
    rintro - p' - q' ⟨v, w, rfl, rfl⟩
    exact ⟨h₃.views v w, h₃.scopesExpand⟩

/-! ## The end of an element -/

/-- An end tag passes on both sides without a trace, where its name is that of the innermost element. -/
theorem Alike.checkElementEnd (h : Alike p q) (name : String8) :
    Coupled parted (checkElementEnd name) (checkElementEnd name) p q fun b p' b' q' ↦
      b = true ∧ b' = true ∧ p' = p ∧ q' = q ∧ p.elements.names.head? = some name := by
  unfold Xpact.checkElementEnd
  refine scene_bind ?_
  dsimp only
  have hdepth : q.scene.elements.stack.length = p.scene.elements.stack.length := h.stack_length
  have hfloor : q.scene.elements.floor = p.scene.elements.floor := h.floor
  have hmatches : q.scene.elements.openElementMatches name =
      p.scene.elements.openElementMatches name := h.openElementMatches name
  rw [hdepth, hfloor, hmatches]
  refine Coupled.ite Iff.rfl (fun _ ↦ Alike.failAt) fun _ ↦ ?_
  refine Coupled.ite Iff.rfl (fun _ ↦ act_bind Alike.failAt) fun _ ↦ ?_
  refine Coupled.ite Iff.rfl (fun _ ↦ Alike.failAt) fun hname ↦ ?_
  refine Coupled.done ⟨rfl, rfl, rfl, rfl, ?_⟩
  rw [Bool.not_eq_true, Bool.not_eq_false'] at hname
  rw [← Elements.top_eq_head? h.isAligned]
  exact beq_iff_eq.1 hname

/-- The end of the namespaces of an element: one declaration list and one scope are left. -/
theorem exists_run_closeNamespaces (hp : p.handler.NeverStops)
    (hcontexts : 1 < p.core.namespaceContexts.length) :
    ∃ v, closeNamespaces.run machine p = some ((), { p with
      view := v
      core := { p.core with
        namespaceDeclarations := p.core.namespaceDeclarations.tail
        namespaceContexts := p.core.namespaceContexts.tail } }) := by
  have hcontext (r : Parser) (hr : 1 < r.core.namespaceContexts.length) :
      (do if 1 < (← Content.scene).core.namespaceContexts.length then
            Content.act .popNamespaceContext : Content Unit).run machine r =
        some ((), r.step .popNamespaceContext) := by
    show (if 1 < r.core.namespaceContexts.length then Content.act .popNamespaceContext
      else pure ()).run machine r = _
    rw [if_pos hr]
    rfl
  unfold closeNamespaces
  rw [Content.scene, run_sight_bind]
  cases hstack : p.core.namespaceDeclarations with
  | nil =>
    rw [show (machine.see p).core.namespaceDeclarations = [] from hstack]
    refine ⟨p.view, (hcontext p hcontexts).trans ?_⟩
    rw [List.tail_nil, ← hstack]
    rfl
  | cons declared rest =>
    rw [show (machine.see p).core.namespaceDeclarations = declared :: rest from hstack]
    obtain ⟨v, hv⟩ := onlyReports_emitEndNamespaceDeclarations declared p hp
    refine ⟨v, ?_⟩
    dsimp only
    rw [run_bind, hv, Option.bind_some, Content.act, run_command_bind]
    rw [← hstack]
    exact hcontext (({ p with view := v } : Parser).step .popNamespaceDeclarations) hcontexts

/-- The innermost element is popped on both sides. -/
theorem Alike.popped (h : Alike p q) : Alike (p.step .popElement) (q.step .popElement) :=
  { h with
    isAligned := Elements.isAligned_pop h.isAligned
    isAligned' := Elements.isAligned_pop h.isAligned'
    names := (Elements.names_pop h.isAligned').trans
      ((congrArg List.tail h.names).trans (Elements.names_pop h.isAligned).symm) }

/-- The steps that close the innermost element, which has been checked. -/
theorem Twin.closeChecked (h : Twin p q) {name : String8}
    (hname : p.elements.names.head? = some name) {wants wants' : Bool} {event event' : String8} :
    Coupled parted
      (do
        Content.act .popElement
        unless ← Routine.hasError do
          if wants then
            Content.emitStructural (.endElement event)
        if p.config.namespaceMode then
          closeNamespaces)
      (do
        Content.act .popElement
        unless ← Routine.hasError do
          if wants' then
            Content.emitStructural (.endElement event')
        if q.config.namespaceMode then
          closeNamespaces) p q fun _ p' _ q' ↦ Twin p' q' := by
  have hpopped := h.popped
  have hrest (v w : View) : Coupled parted
      (if p.config.namespaceMode then closeNamespaces else pure ())
      (if q.config.namespaceMode then closeNamespaces else pure ())
      { p.step .popElement with view := v } { q.step .popElement with view := w }
      fun _ p' _ q' ↦ Twin p' q' := by
    have hviews := hpopped.views v w
    refine Coupled.ite (by rw [h.config]) (fun hmode ↦ ?_) fun hmode ↦ ?_
    -- The element has its own scope above the base scope, so one is left.
    · obtain ⟨scopes, hcontexts, hexpand⟩ := h.scopesExpand hmode
      obtain ⟨rest, hnames⟩ := List.head?_eq_some_iff.1 hname
      rw [hnames] at hexpand
      obtain _ | ⟨-, hexpand⟩ := hexpand
      rename_i scope scopes
      have hlength : 1 < p.core.namespaceContexts.length := by
        rw [hcontexts, List.length_append]
        simp
      obtain ⟨v', hp⟩ := exists_run_closeNamespaces (p := { p.step .popElement with view := v })
        h.observed.neverStops hlength
      obtain ⟨w', hq⟩ := exists_run_closeNamespaces (p := { q.step .popElement with view := w })
        h.observed.neverStops' (show 1 < q.core.namespaceContexts.length by rwa [h.core])
      intro a p' b q' hp' hq'
      obtain ⟨-, rfl⟩ := Prod.mk.inj (Option.some.inj (hp.symm.trans hp'))
      obtain ⟨-, rfl⟩ := Prod.mk.inj (Option.some.inj (hq.symm.trans hq'))
      refine .inr ⟨{ hviews with core := ?_ }, fun _ ↦ ⟨scopes, ?_, ?_⟩⟩
      · simp only [step, h.core]
      · show p.core.namespaceContexts.tail = _
        rw [hcontexts]
        rfl
      · show List.Forall₂ _ p.elements.pop.names scopes
        rw [Elements.names_pop h.isAligned, hnames]
        exact hexpand
    · exact Coupled.done ⟨hviews, fun hmode' ↦ absurd hmode' hmode⟩
  refine act_bind (hpopped.hasError_bind fun herror ↦ ?_)
  exact hpopped.reports_when (onlyReports_emitStructural _) (onlyReports_emitStructural _) hrest

/-- The name that is reported at the end of an element has been expanded at its start. -/
theorem ScopesExpand.run_endName (h : p.ScopesExpand) {name : String8}
    (hname : p.elements.names.head? = some name) :
    ∃ event, (if p.handler.wantsEndElementEvents && p.config.namespaceMode then
        liftM (expandedElementName name (p.core.namespaceContexts.headD ∅))
      else pure name : Content String8).run machine p = some (event, p) := by
  split
  · next hwants =>
    obtain ⟨-, hmode⟩ := Bool.and_eq_true_iff.1 hwants
    obtain ⟨scopes, hcontexts, hexpand⟩ := h hmode
    obtain ⟨rest, hnames⟩ := List.head?_eq_some_iff.1 hname
    rw [hnames] at hexpand
    obtain _ | ⟨⟨event, hevent⟩, -⟩ := hexpand
    refine ⟨event, ?_⟩
    rw [hcontexts]
    show (Content.ofRoutine (reportExpanded name (expandElementName p.config name _))).run machine p = _
    rw [List.cons_append, List.headD_cons, hevent]
    rfl
  · exact ⟨name, rfl⟩

theorem Alike.scopesExpand (h : Alike p q) (hp : p.ScopesExpand) : q.ScopesExpand := by
  unfold ScopesExpand
  rw [h.config, h.core, h.names]
  exact hp

theorem Twin.closeElement (h : Twin p q) (name : String8) :
    Coupled parted (closeElement name) (closeElement name) p q fun _ p' _ q' ↦ Twin p' q' := by
  unfold Xpact.closeElement
  refine Coupled.bind ((h.checkElementEnd name).mono ?_)
  rintro b p₁ b' q₁ ⟨rfl, rfl, rfl, rfl, hname⟩
  obtain ⟨event, hevent⟩ := h.scopesExpand.run_endName hname
  obtain ⟨event', hevent'⟩ := (h.toAlike.scopesExpand h.scopesExpand).run_endName (h.names ▸ hname)
  -- Only a listener has the name expanded for its event; here that cannot fail.
  refine scene_bind (Coupled.left_ite fun a p' hp ↦ Coupled.right_ite fun b q' hq ↦ ?_)
  obtain ⟨-, rfl⟩ := Prod.mk.inj (Option.some.inj (hevent.symm.trans hp))
  obtain ⟨-, rfl⟩ := Prod.mk.inj (Option.some.inj (hevent'.symm.trans hq))
  exact h.closeChecked hname

/-! ## Names that stay slices -/

/-- When nobody wants the end of an element, its name need not be a string. -/
theorem run_closeElementRange (hmode : p.config.namespaceMode = false)
    (hend : p.handler.wantsEndElementEvents = false) (input : String8) (nameStart nameEnd : Nat) :
    (closeElementRange input nameStart nameEnd).run machine p =
      (Xpact.closeElement (inputRange input nameStart nameEnd)).run machine p := by
  unfold closeElementRange Xpact.closeElement
  rw [run_bind, run_bind]
  cases hchecked : (checkElementEnd (inputRange input nameStart nameEnd)).run machine p with
  | none => rfl
  | some r =>
    have hsettings : r.2.settings = p.settings := settings_of_run hchecked
    have hmode' : r.2.config.namespaceMode = false :=
      (congrArg (fun s : Settings ↦ s.config.namespaceMode) hsettings).trans hmode
    have hend' : r.2.handler.wantsEndElementEvents = false :=
      (congrArg (fun s : Settings ↦ s.handler.wantsEndElementEvents) hsettings).trans hend
    rw [Option.bind_some, Option.bind_some]
    cases r.1 with
    | false => rfl
    | true =>
      rw [if_pos rfl, if_pos rfl, Content.scene, run_sight_bind]
      dsimp only
      rw [show (machine.see r.2).handler.wantsEndElementEvents = false from hend',
        show (machine.see r.2).config.namespaceMode = false from hmode']
      show _ = (if (r.2.core.hasError) = true then pure () else pure () : Content Unit).run machine _
      split <;> rfl

/-- Without namespaces and declared defaults a tag is reported as it is. -/
theorem run_prepareElement_plain (hmode : p.config.namespaceMode = false)
    (hdefaults : p.core.context.attributeDecl.entries.isEmpty = true) (name : String8)
    (attributes : Attributes) :
    (prepareElement name attributes).run routineMachine p =
      some (⟨name, attributes, ∅, []⟩, p) := by
  have hdecls : p.core.context.attributeDecls name = [] := by
    unfold EntityContext.attributeDecls
    have htable : p.core.context.attributeDecl = ∅ := AList.ext (List.isEmpty_iff.1 hdefaults)
    rw [htable]
    rfl
  have happly : (applyDefaultAttributes name attributes).run routineMachine p =
      some (attributes, p) := by
    show Program.run routineMachine
      ((p.core.context.attributeDecls name).foldlM _ attributes : Routine Attributes) p = _
    rw [hdecls]
    rfl
  unfold prepareElement
  rw [run_bind, happly, Option.bind_some]
  show (if (p.core.hasError || !p.config.namespaceMode) = true then _ else _ : Routine _).run _ p = _
  rw [hmode, Bool.not_false, Bool.or_true]
  rfl

theorem isAligned_pushElementSlice (hslices : p.elements.usesSlice = true) (slice : TokenSlice) :
    (p.step (.pushElementSlice slice)).elements.IsAligned := by
  show p.elements.sliceStack.length + 1 ≤ p.elements.stack.length + 1
  rw [Elements.usesSlice_iff.1 hslices]

/-- Without namespaces and declared defaults a start tag opens a slice as it opens a string. -/
theorem Twin.openElement_range (h : Twin p q) (hmode : p.config.namespaceMode = false)
    (hslices : p.elements.usesSlice = true)
    (hdefaults : p.core.context.attributeDecl.entries.isEmpty = true) (input : String8)
    (nameStart nameEnd : Nat) (attributes : Attributes) :
    Coupled parted (openElementRange input nameStart nameEnd)
      (Xpact.openElement (inputRange input nameStart nameEnd) attributes) p q
      fun _ p' _ q' ↦ Twin p' q' := by
  unfold openElementRange Xpact.openElement
  refine Coupled.bind (h.checkElementStart.mono ?_)
  rintro b p₁ b' q₁ ⟨rfl, rfl, h₁, helements, -, hconfig, hcontext⟩
  rw [if_pos rfl, if_pos rfl]
  have hmode₁ : q₁.config.namespaceMode = false := by rw [h₁.config, hconfig, hmode]
  have hprepared := run_prepareElement_plain hmode₁ (by rw [h₁.core, hcontext, hdefaults])
    (inputRange input nameStart nameEnd) attributes
  -- The right goes ahead: it prepares the tag, which changes nothing here.
  refine Coupled.right fun event q₂ hq₂ ↦ ?_
  obtain ⟨rfl, rfl⟩ := Prod.mk.inj (Option.some.inj
    (hprepared.symm.trans ((Content.run_ofRoutine _ _).symm.trans hq₂)))
  have huses : p₁.elements.usesSlice = true := helements ▸ hslices
  have hpushed : Alike (p₁.step (.pushElementSlice ⟨input, nameStart, nameEnd + 1 - nameStart⟩))
      (q₁.step (.pushElement (inputRange input nameStart nameEnd))) :=
    { h₁.toAlike with
      isAligned := isAligned_pushElementSlice huses _
      isAligned' := Nat.le_succ_of_le h₁.isAligned'
      names := (Elements.names_push h₁.isAligned' _).trans
        ((congrArg (_ :: ·) h₁.names).trans (Elements.names_pushSlice huses
          ⟨input, nameStart, nameEnd + 1 - nameStart⟩).symm) }
  cases herror : p₁.core.hasError with
  | true => exact h₁.failed herror
  | false =>
    refine Coupled.right fun b q₂ hq₂ ↦ ?_
    obtain ⟨rfl, rfl⟩ := Prod.mk.inj (Option.some.inj hq₂)
    have herror' : (machine.see q₁).sight.core.hasError = false := h₁.hasError.trans herror
    rw [herror', if_neg Bool.false_ne_true]
    refine Coupled.right fun _ q₂ hq₂ ↦ ?_
    obtain ⟨-, rfl⟩ := Prod.mk.inj (Option.some.inj hq₂)
    refine Coupled.right fun s q₂ hq₂ ↦ ?_
    obtain ⟨rfl, rfl⟩ := Prod.mk.inj (Option.some.inj hq₂)
    split
    · next hmode' =>
      exact absurd (hmode₁.symm.trans hmode') Bool.false_ne_true
    · refine Coupled.right fun s q₂ hq₂ ↦ Coupled.right fun ongoing q₃ hq₃ ↦ ?_
      obtain ⟨rfl, rfl⟩ := Prod.mk.inj (Option.some.inj hq₂)
      obtain ⟨rfl, rfl⟩ := Prod.mk.inj (Option.some.inj hq₃)
      rw [← bind_pure (Content.act (.pushElementSlice _))]
      refine Coupled.left fun _ p' hp ↦ ?_
      obtain ⟨-, rfl⟩ := Prod.mk.inj (Option.some.inj hp)
      refine (hpushed.reports onlyReports_done ((onlyReports_emitStructural _).when _)).mono ?_
      rintro - p' - q' ⟨v, w, rfl, rfl⟩
      refine ⟨hpushed.views v w, fun hmode' ↦ ?_⟩
      exact absurd ((hconfig ▸ hmode).symm.trans hmode') Bool.false_ne_true

end

end Parser

end Xpact
