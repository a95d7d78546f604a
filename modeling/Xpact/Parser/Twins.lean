import Xpact.Library.Coupling
import Xpact.Parser.AttributeUniqueness
import Xpact.Parser.ContentLogic
import Xpact.Parser.Recognizers

/-!
# Parsers with different listeners

Two parsers are twins when they differ only in what their handlers listen to, in how they keep the
names of the open elements, and in what they have reported.  The second of them receives text.
Routines do the same on both.
-/

namespace Xpact

open Library Program

/-- The handler wants the text of a document, in one way or another. -/
def Handler.ReceivesText (h : Handler) : Prop :=
  (h.wantsCharacterDataEvents || h.wantsDefaultEvents || h.wantsAutomaticCharacterDataDefault) = true

/-- The handlers differ only in what they listen to, and neither asks for a stop.  The second one
receives text. -/
structure Handler.ObservedBy (h h' : Handler) : Prop where
  expands : h'.expandsInternalGeneralEntityReferences = h.expandsInternalGeneralEntityReferences
  onNotStandalone : h'.onNotStandalone = h.onNotStandalone
  neverStops : h.NeverStops
  neverStops' : h'.NeverStops
  receivesText : h'.ReceivesText

namespace Parser

/-! ## The first error -/

theorem notePosition_lastError (v : View) (i : Nat) : (v.notePosition i).lastError = v.lastError := by
  unfold View.notePosition
  split
  · rfl
  · exact v.countLinesTo_lastError _

theorem checkHandlerStop_of_hasError {p : Parser} (h : p.core.hasError = true) :
    p.checkHandlerStop = p := by
  unfold checkHandlerStop
  rw [h, Bool.not_true, Bool.false_and, Bool.false_and, if_neg Bool.false_ne_true]

theorem emitText_lastError {p : Parser} (h : p.core.hasError = true) (text : String8) :
    (p.emitText text).view.lastError = p.view.lastError := by
  unfold emitText
  split
  · rw [checkHandlerStop_of_hasError (show (p.emit _).core.hasError = true from h)]
    rfl
  · rfl

theorem emitDefault_lastError {p : Parser} (h : p.core.hasError = true) (text : String8) :
    (p.emitDefault text).view.lastError = p.view.lastError := by
  unfold emitDefault
  split
  · rw [checkHandlerStop_of_hasError (show (p.emit _).core.hasError = true from h)]
    rfl
  · rfl

/-- The first error is the one that is reported. -/
theorem step_lastError (a : Act) {p : Parser} (h : p.core.hasError = true) :
    (p.step a).view.lastError = p.view.lastError := by
  cases a with
  | routine c =>
    cases c with
    | setError message => exact congrArg (·.view.lastError) (setError_of_hasError h message)
    | checkHandlerStop => exact congrArg (·.view.lastError) (checkHandlerStop_of_hasError h)
    | emitText text => exact emitText_lastError h text
    | emitDefault text => exact emitDefault_lastError h text
    | emitDefaultWhen kind text =>
      simp only [step, stepRoutine]
      split
      · exact emitDefault_lastError h text
      · rfl
    | notePosition i => exact notePosition_lastError p.view i
    | noteTokenPosition i byteCount => exact notePosition_lastError p.view i
    | noteCurrentEntityReferencePosition =>
      show p.view.noteCurrentEntityReferencePosition.lastError = _
      unfold View.noteCurrentEntityReferencePosition
      split
      · exact notePosition_lastError p.view _
      · rfl
    | noteEntityExpansion count =>
      simp only [step, stepRoutine, noteEntityExpansion]
      split
      · rw [setError_of_hasError (by exact h)]
      · rfl
    | resolve request =>
      exact resolve_unchanged (·.view.lastError) p request (fun _ _ _ ↦ rfl) fun _ _ ↦ rfl
    | _ => rfl
  | forceCurrentPosition =>
    show p.view.forceCurrentPosition.lastError = _
    unfold View.forceCurrentPosition
    split <;> rfl
  | _ => rfl

/-! ## Twins -/

/-- The parsers have parted: both have failed, or the first alone does not take a byte for a
character. -/
def parted : Settled machine machine where
  Holds p q := p.core.hasError = true ∧
    (q.core.hasError = true ∨ p.view.lastError = "invalid XML character")
  left c _ _ h := ⟨step_hasError c _ h.1, h.2.imp_right (step_lastError c h.1).trans⟩
  right c _ _ h := ⟨h.1, h.2.imp_left (step_hasError c _)⟩

/-- The parsers are the same but for what they listen to, keep of the open elements and report. -/
structure Alike (p q : Parser) : Prop where
  config : q.config = p.config
  core : q.core = p.core
  cachedDoctype : q.cachedDoctype = p.cachedDoctype
  externalEntityResolver : q.externalEntityResolver = p.externalEntityResolver
  requests : q.requests = p.requests
  observed : p.handler.ObservedBy q.handler
  isAligned : p.elements.IsAligned
  isAligned' : q.elements.IsAligned
  names : q.elements.names = p.elements.names
  floor : q.elements.floor = p.elements.floor
  isSuspended : p.core.isSuspended = false

/-- Each open element has a scope in which its name expands, and the base scope is below them. -/
def ScopesExpand (p : Parser) : Prop :=
  p.config.namespaceMode = true → ∃ scopes,
    p.core.namespaceContexts = scopes ++ [baseNamespaceScope] ∧
      List.Forall₂ (fun name scope ↦ ∃ e, expandElementName p.config name scope = .ok e)
        p.elements.names scopes

/-- What holds of two parsers between operations on elements. -/
structure Twin (p q : Parser) : Prop extends Alike p q where
  scopesExpand : p.ScopesExpand

section

variable {α β : Type} {p q : Parser}

namespace Alike

theorem stack_length (h : Alike p q) : q.elements.stack.length = p.elements.stack.length := by
  rw [← Elements.length_names h.isAligned, ← Elements.length_names h.isAligned', h.names]

theorem isEmpty_stack (h : Alike p q) : q.elements.stack.isEmpty = p.elements.stack.isEmpty := by
  rw [Bool.eq_iff_iff, List.isEmpty_iff_length_eq_zero, List.isEmpty_iff_length_eq_zero,
    h.stack_length]

theorem openElementMatches (h : Alike p q) (name : String8) :
    q.elements.openElementMatches name = p.elements.openElementMatches name := by
  rw [Elements.openElementMatches, Elements.openElementMatches, Elements.top_eq_head? h.isAligned,
    Elements.top_eq_head? h.isAligned', h.names]

theorem hasError (h : Alike p q) : q.core.hasError = p.core.hasError := by rw [h.core]

theorem sight (h : Alike p q) : p.sight = q.sight := by
  simp only [Parser.sight, Scene.sight, scene, h.config, h.core, h.stack_length,
    h.observed.onNotStandalone, h.externalEntityResolver]

/-- What the parsers have reported may differ. -/
theorem views (h : Alike p q) (v w : View) :
    Alike { p with view := v } { q with view := w } := { h with }

end Alike

theorem Alike.setError (h : Alike p q) (message : String) :
    Alike (p.setError message) (q.setError message) := by
  unfold Parser.setError
  rw [h.core]
  split
  · exact h
  · exact { h with core := rfl }

theorem exists_view_emitText (hp : p.handler.NeverStops) (text : String8) :
    ∃ v, p.emitText text = { p with view := v } := by
  unfold emitText
  split
  · rw [checkHandlerStop_of_neverStops (show (p.emit _).handler.NeverStops from hp)]
    exact ⟨_, rfl⟩
  · exact ⟨p.view, rfl⟩

theorem exists_view_emitDefault (hp : p.handler.NeverStops) (text : String8) :
    ∃ v, p.emitDefault text = { p with view := v } := by
  unfold emitDefault
  split
  · rw [checkHandlerStop_of_neverStops (show (p.emit _).handler.NeverStops from hp)]
    exact ⟨_, rfl⟩
  · exact ⟨p.view, rfl⟩

theorem exists_view_emitDefaultWhen (hp : p.handler.NeverStops) (kind : DefaultKind)
    (text : String8) :
    ∃ v, p.stepRoutine (.emitDefaultWhen kind text) = { p with view := v } := by
  unfold stepRoutine
  dsimp only
  split
  · exact exists_view_emitDefault hp text
  · exact ⟨p.view, rfl⟩

/-- Neither parser changes more than its view. -/
theorem Alike.of_views {p' q' : Parser} (h : Alike p q) (hp : ∃ v, p' = { p with view := v })
    (hq : ∃ v, q' = { q with view := v }) : Alike p' q' := by
  obtain ⟨v, rfl⟩ := hp
  obtain ⟨w, rfl⟩ := hq
  exact h.views v w

theorem Alike.stepRoutine (h : Alike p q) (c : Command) :
    Alike (p.stepRoutine c) (q.stepRoutine c) := by
  have hp := h.observed.neverStops
  have hq := h.observed.neverStops'
  cases c with
  | setError message => exact h.setError message
  | checkHandlerStop =>
    show Alike p.checkHandlerStop q.checkHandlerStop
    rw [checkHandlerStop_of_neverStops hp, checkHandlerStop_of_neverStops hq]
    exact h
  | emitText text => exact h.of_views (exists_view_emitText hp text) (exists_view_emitText hq text)
  | emitDefault text =>
    exact h.of_views (exists_view_emitDefault hp text) (exists_view_emitDefault hq text)
  | emitDefaultWhen kind text =>
    exact h.of_views (exists_view_emitDefaultWhen hp kind text)
      (exists_view_emitDefaultWhen hq kind text)
  | noteEntityExpansion count =>
    simp only [Parser.stepRoutine, noteEntityExpansion]
    rw [h.core]
    have hcounted : Alike
        { p with core := { p.core with expandedEntityBytes := p.core.expandedEntityBytes + count } }
        { q with core := { p.core with expandedEntityBytes := p.core.expandedEntityBytes + count } } :=
      { h with core := rfl }
    split
    · exact hcounted.setError _
    · exact hcounted
  | resolve request =>
    -- Both have made the same requests before, so they get the same answer.
    simp only [Parser.stepRoutine, resolve, resolution, reference]
    rw [h.core, h.requests, h.externalEntityResolver]
    split
    · exact { h with
        core := by simp only [noteAnswer, mergeEntityContextFrom, updateDeclarations, h.core]
        cachedDoctype := rfl
        requests := by simp only [noteAnswer, mergeEntityContextFrom, updateDeclarations, h.requests] }
    · exact { h with
        core := by simp only [noteAnswer, h.core]
        requests := by simp only [noteAnswer, h.requests] }
    · exact h
  -- Reports and positions belong to the view.
  | emit e he => exact h.views _ _
  | notePosition i => exact h.views _ _
  | noteTokenPosition i byteCount => exact h.views _ _
  | noteCurrentEntityReferencePosition => exact h.views _ _
  | _ =>
    refine { h with core := ?_ }
    simp only [Parser.stepRoutine, updateDeclarations, updateContext, putExternalEntity, h.core]

/-! ## Routines -/

theorem frame_of_run {m : Routine α} {a : α} {p' : Parser}
    (h : m.run routineMachine p = some (a, p')) : p'.frame = p.frame :=
  run_unchanged frame (M := routineMachine) (fun c p ↦ stepRoutine_frame c p) h

theorem ScopesExpand.of_frame {p' : Parser} (h : p.ScopesExpand) (hframe : p'.frame = p.frame) :
    p'.ScopesExpand := by
  simp only [frame, settings, Frame.mk.injEq, Settings.mk.injEq] at hframe
  obtain ⟨⟨hconfig, -⟩, -, helements, -, hcontexts, -⟩ := hframe
  unfold ScopesExpand
  rw [hconfig, helements, hcontexts]
  exact h

/-- A routine does the same on both parsers. -/
theorem Alike.routine_bind {γ δ : Type} {m : Routine α} {f : α → Content γ} {g : α → Content δ}
    {Q : γ → Parser → δ → Parser → Prop} (h : Alike p q)
    (hf : ∀ a p' q', m.run routineMachine p = some (a, p') → m.run routineMachine q = some (a, q') →
      Alike p' q' → Coupled parted (f a) (g a) p' q' Q) :
    Coupled parted (liftM m >>= f) (liftM m >>= g) p q Q := by
  intro c u d v hp hq
  obtain ⟨⟨a, p'⟩, hm, hfr⟩ := (run_bind_eq_some machine p).1 hp
  obtain ⟨⟨b, q'⟩, hm', hgr⟩ := (run_bind_eq_some machine q).1 hq
  have hm : m.run routineMachine p = some (a, p') := (Content.run_ofRoutine m p).symm.trans hm
  have hm' : m.run routineMachine q = some (b, q') := (Content.run_ofRoutine m q).symm.trans hm'
  have hagree := run_related (M := routineMachine) (N := routineMachine) (R := Alike)
    (fun _ _ h ↦ h.sight) (fun c _ _ h ↦ h.stepRoutine c) m h
  rw [hm, hm'] at hagree
  obtain ⟨rfl, h'⟩ := hagree
  exact hf a p' q' hm hm' h' hfr hgr

theorem Twin.routine_bind {γ δ : Type} {m : Routine α} {f : α → Content γ} {g : α → Content δ}
    {Q : γ → Parser → δ → Parser → Prop} (h : Twin p q)
    (hf : ∀ a p' q', m.run routineMachine p = some (a, p') → Twin p' q' →
      Coupled parted (f a) (g a) p' q' Q) :
    Coupled parted (liftM m >>= f) (liftM m >>= g) p q Q :=
  h.toAlike.routine_bind fun a p' q' hp _ h' ↦
    hf a p' q' hp ⟨h', h.scopesExpand.of_frame (frame_of_run hp)⟩

theorem Twin.routine (h : Twin p q) (m : Routine α) :
    Coupled parted (liftM m : Content α) (liftM m) p q
      fun a p' b q' ↦ a = b ∧ Twin p' q' ∧ p'.frame = p.frame := by
  rw [← bind_done (liftM m : Content α)]
  exact h.routine_bind fun a p' q' hp h' ↦ .done ⟨rfl, h', frame_of_run hp⟩

/-- Both parsers look at what they have. -/
theorem scene_bind {γ δ : Type} {f : Scene → Content γ} {g : Scene → Content δ}
    {Q : γ → Parser → δ → Parser → Prop}
    (h : Coupled parted (f p.scene) (g q.scene) p q Q) :
    Coupled parted (Content.scene >>= f) (Content.scene >>= g) p q Q := h

/-- Both parsers execute a command. -/
theorem act_bind {γ δ : Type} {a b : Act} {f : Unit → Content γ} {g : Unit → Content δ}
    {Q : γ → Parser → δ → Parser → Prop}
    (h : Coupled parted (f ()) (g ()) (p.step a) (q.step b) Q) :
    Coupled parted (Content.act a >>= f) (Content.act b >>= g) p q Q := h

/-- After an error in both parsers nothing else matters. -/
theorem Alike.failed {m : Content α} {n : Content β} {Q : α → Parser → β → Parser → Prop}
    (h : Alike p q) (hp : p.core.hasError = true) : Coupled parted m n p q Q :=
  Coupled.settled ⟨hp, .inl (h.hasError.trans hp)⟩

theorem Alike.setError_bind {message message' : String} {f : Unit → Content α}
    {g : Unit → Content β} {Q : α → Parser → β → Parser → Prop} :
    Coupled parted (liftM (Routine.setError message) >>= f)
      (liftM (Routine.setError message') >>= g) p q Q :=
  Coupled.settled (s := p.setError message) (t := q.setError message')
    ⟨setError_hasError p message, .inl (setError_hasError q message')⟩

theorem Alike.failAt {message message' : String} {a : α} {b : β}
    {Q : α → Parser → β → Parser → Prop} :
    Coupled parted (liftM (Routine.failAt message a) : Content α)
      (liftM (Routine.failAt message' b) : Content β) p q Q :=
  Coupled.settled (m := Program.done a) (n := Program.done b) (s := p.setError message)
    (t := q.setError message')
    ⟨setError_hasError p message, .inl (setError_hasError q message')⟩

end

end Parser

end Xpact
