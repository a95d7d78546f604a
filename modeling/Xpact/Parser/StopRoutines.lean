import Xpact.Parser.StopLaw

/-!
# Routines that honour a stop

Routine by routine, up to the document type declaration.  A routine honours a stop that was recorded
before it when all of its events stand behind a test; other routines rely on their callers for that,
and honour a stop that is recorded during them.  Two parts of a routine without a test between them
are a place of the law, so the second need not look back.
-/

namespace Xpact

open Library Program Routine

-- A routine is one goal of instance search for each of its steps.
set_option synthInstance.maxSize 100000
set_option synthInstance.maxHeartbeats 200000

/-! ## Silent routines -/

/-- The command delivers nothing, and does not look for a stop request. -/
@[reducible] def Command.isSilent : Command → Bool
  | .checkHandlerStop | .emit .. | .emitText _ | .emitDefault _ | .emitDefaultWhen .. => false
  | _ => true

@[reducible] def Act.isSilent : Act → Bool
  | .routine c => c.isSilent
  | .emitStructural _ => false
  | _ => true

/-- The routine delivers nothing, and does not look for a stop request. -/
abbrev IsSilent (m : Routine α) : Prop := Uses Command.isSilent m

instance (priority := low) silent_of_plain {α : Type} (m : Routine α) [hm : IsPlain m] :
    IsSilent m := by
  apply hm.mono
  intro c hc
  cases c <;> first | rfl | cases hc

section

variable (input subset text name : String8) (start stop close i depth : Nat)

instance silent_noteEntityExpansion (count : Int) : IsSilent (noteEntityExpansion count) := by
  unfold noteEntityExpansion; infer_instance

instance silent_pushEntity : IsSilent (pushEntity name) := by unfold pushEntity; infer_instance

instance silent_popEntity : IsSilent popEntity := by unfold popEntity; infer_instance

instance silent_resolvedGeneralEntityNameStep (w : AliasWalk) :
    IsSilent (resolvedGeneralEntityNameStep w) := by
  unfold resolvedGeneralEntityNameStep
  apply Uses.bind inferInstance
  intro s
  apply Uses.ite inferInstance
  apply Uses.ite inferInstance
  split <;> infer_instance

instance silent_resolvedGeneralEntityName : IsSilent (resolvedGeneralEntityName name) := by
  unfold resolvedGeneralEntityName; infer_instance

instance silent_resolvedParameterEntityNameStep (w : AliasWalk) :
    IsSilent (resolvedParameterEntityNameStep w) := by
  unfold resolvedParameterEntityNameStep
  apply Uses.bind inferInstance
  intro s
  apply Uses.ite inferInstance
  split <;> infer_instance

instance silent_resolvedParameterEntityName : IsSilent (resolvedParameterEntityName name) := by
  unfold resolvedParameterEntityName; infer_instance

instance silent_appendPredefinedEntity : IsSilent (appendPredefinedEntity name) := by
  unfold appendPredefinedEntity
  apply Uses.bind inferInstance
  intro c
  split <;> infer_instance

section Literal

variable (expandLiteralText : String8 → Routine String8)
  [hexpand : ∀ text, IsSilent (expandLiteralText text)]

include hexpand

instance silent_includeGeneralEntityInLiteral :
    IsSilent (includeGeneralEntityInLiteral expandLiteralText name) := by
  unfold includeGeneralEntityInLiteral
  apply Uses.bind inferInstance
  intro name
  apply Uses.bind inferInstance
  intro s
  apply Uses.ite inferInstance
  apply Uses.ite inferInstance
  apply Uses.ite inferInstance
  split <;> infer_instance

instance silent_appendReferenceInLiteral :
    IsSilent (appendReferenceInLiteral expandLiteralText input start) := by
  unfold appendReferenceInLiteral; infer_instance

instance silent_expandLiteralTextStep (t : Nat × String8) :
    IsSilent (expandLiteralTextStep expandLiteralText input t) := by
  unfold expandLiteralTextStep; infer_instance

end Literal

instance silent_expandLiteralText : IsSilent (expandLiteralText depth input) := by
  induction depth generalizing input with
  | zero => exact uses_stuck _
  | succ depth ih =>
    unfold expandLiteralText
    infer_instance

instance silent_parseAttributeValueStep (t : Nat × String8) :
    IsSilent (parseAttributeValueStep depth input t) := by
  unfold parseAttributeValueStep; infer_instance

instance silent_parseAttributeValue (quote : Character8) :
    IsSilent (parseAttributeValue depth input start quote) := by
  unfold parseAttributeValue; infer_instance

instance silent_attlistDefaultValueStep (t : Nat × String8) :
    IsSilent (attlistDefaultValueStep depth subset stop t) := by
  unfold attlistDefaultValueStep; infer_instance

instance silent_parseAttlistDefaultValue :
    IsSilent (parseAttlistDefaultValue depth subset start stop) := by
  unfold parseAttlistDefaultValue; infer_instance

instance silent_parseAttlistDefault : IsSilent (parseAttlistDefault depth subset i close) := by
  unfold parseAttlistDefault; infer_instance

instance silent_skipScanStep (k : SkipScan) : IsSilent (skipScanStep subset stop k) := by
  unfold skipScanStep
  dsimp only
  split <;> infer_instance

instance silent_skipDeclarationForUndefinedParameter :
    IsSilent (skipDeclarationForUndefinedParameter subset start stop) := by
  unfold skipDeclarationForUndefinedParameter; infer_instance

instance silent_parseAttribute (attributes : Attributes) :
    IsSilent (parseAttribute depth input start attributes) := by
  unfold parseAttribute; infer_instance

instance silent_attributeStep (t : Nat × Attributes) : IsSilent (attributeStep depth input t) := by
  unfold attributeStep; infer_instance

instance silent_parseAttributes : IsSilent (parseAttributes depth input start) := by
  unfold parseAttributes; infer_instance

end

namespace Parser

/-! ## Parts of routines -/

/-- The machine of routines under the monitor. -/
abbrev watchedRoutineMachine : Machine Command Sight stopMonitor.Watched :=
  stopMonitor.machine.restrict Act.routine Scene.sight

theorem step_events_of_isSilent {a : Act} (ha : a.isSilent = true) (p : Parser) :
    (p.step a).view.events = p.view.events := by
  cases a with
  | routine c =>
    cases c with
    | setError message => exact setError_events p message
    | notePosition i => exact View.notePosition_events _ i
    | noteTokenPosition i byteCount => exact View.notePosition_events _ i
    | noteCurrentEntityReferencePosition => exact View.noteCurrentEntityReferencePosition_events _
    | noteEntityExpansion count =>
      show (p.noteEntityExpansion count).view.events = p.view.events
      unfold noteEntityExpansion
      dsimp only
      split
      · exact setError_events _ _
      · rfl
    | resolve request =>
      exact resolve_unchanged (fun q ↦ q.view.events) p request (fun _ _ _ ↦ rfl) (fun _ _ ↦ rfl)
    | checkHandlerStop | emit e h | emitText text | emitDefault text | emitDefaultWhen kind text =>
      cases ha
    | _ => rfl
  | forceCurrentPosition => exact View.forceCurrentPosition_events _
  | emitStructural e => cases ha
  | _ => rfl

theorem recordsStop_of_isSilent {a : Act} (ha : a.isSilent = true) (p : Parser) :
    p.recordsStop a = false := by
  cases a with
  | routine c =>
    cases c with
    | checkHandlerStop | emit e h | emitText text | emitDefault text | emitDefaultWhen kind text =>
      cases ha
    | _ => rfl
  | _ => rfl

section

variable {α β : Type} {w : stopMonitor.Watched}

theorem isUnstopped_step {a : Act} (ha : a.isSilent = true) (hw : IsUnstopped w) :
    IsUnstopped (stopMonitor.machine.step a w) := by
  show (w.raised || w.state.recordsStop a) = false
  rw [recordsStop_of_isSilent ha, Bool.or_false]
  exact hw

theorem holds_act {a : Act}
    (ha : w.raised = true → (w.state.step a).view.events = w.state.view.events) :
    stopLaw.Holds (Content.act a) w := fun _ ↦ Assures.command ha trivial

theorem holds_silent {a : Act} (ha : a.isSilent = true) (w : stopMonitor.Watched) :
    stopLaw.Holds (Content.act a) w := holds_act fun _ ↦ step_events_of_isSilent ha w.state

theorem holds_unstopped {a : Act} (hw : IsUnstopped w) : stopLaw.Holds (Content.act a) w :=
  holds_act fun hraised ↦ absurd (hw.symm.trans hraised) Bool.false_ne_true

instance (priority := low) honours_of_silent (m : Routine α) [hm : IsSilent m] : Honours m :=
  ⟨fun w ↦ Law.of_issuesOnly routineStopLaw (fun _ w hc ↦ holds_silent hc w) hm.issuesOnly w⟩

instance keeps_of_silent (m : Routine α) [hm : IsSilent m] :
    Program.Keeps watchedRoutineMachine IsUnstopped m := by
  have hcommand (c : Command) (w : stopMonitor.Watched) (hc : c.isSilent = true)
      (hw : IsUnstopped w) : IsUnstopped (stopMonitor.machine.step (.routine c) w) :=
    isUnstopped_step (a := .routine c) hc hw
  exact ⟨Preserves.of_issuesOnly hcommand hm.issuesOnly⟩

/-! ### Tests -/

theorem isUnstopped_of_isOngoing {w : stopMonitor.Watched}
    (h : (!w.state.core.hasError && !w.state.core.isSuspended) = true) : IsUnstopped w := by
  rw [Bool.and_eq_true, Bool.not_eq_true', Bool.not_eq_true'] at h
  show w.raised = false
  apply Bool.eq_false_iff.2
  intro hraised
  cases w.halted hraised with
  | inl herror => exact absurd (h.1.symm.trans herror) Bool.false_ne_true
  | inr hsuspended => exact absurd (h.2.symm.trans hsuspended) Bool.false_ne_true

instance guards_isOngoing :
    Guards watchedRoutineMachine IsUnstopped isOngoing true := by
  constructor
  intro w v hrun
  obtain ⟨hongoing, rfl⟩ := Prod.mk.inj (Option.some.inj hrun)
  exact isUnstopped_of_isOngoing hongoing

instance honours_isOngoing_bind (f : Bool → Routine α) [hf : HonoursUnstopped (f true)]
    [hnot : Honours (f false)] : Honours (isOngoing >>= f) :=
  Obeys.guard inferInstance inferInstance hf hnot

instance honours_loop {γ : Type} (finished : γ → Routine Bool) (body : γ → Routine γ)
    [hfinished : ∀ c, Honours (finished c)]
    [hguards : ∀ c, Guards watchedRoutineMachine IsUnstopped (finished c) false]
    [hbody : ∀ c, HonoursUnstopped (body c)] (n : Nat) (c : γ) :
    Honours (Program.loop finished body n c) :=
  Obeys.loop_guard hfinished hguards hbody n c

instance honours_whileOngoing (m : Routine Unit) [HonoursUnstopped m] :
    Honours (whileOngoing m) := by unfold whileOngoing; infer_instance

instance honours_unlessError (m : Routine Unit) [Honours m] : Honours (unlessError m) := by
  unfold unlessError; infer_instance

instance unstopped_unlessError (m : Routine Unit) [HonoursUnstopped m] :
    HonoursUnstopped (unlessError m) := by
  unfold unlessError; infer_instance

/-! ### Events -/

instance honours_checkHandlerStop : Honours Routine.checkHandlerStop := by
  constructor
  intro w
  show stopLaw.Holds (Content.act (.routine .checkHandlerStop)) w
  apply holds_act
  intro _
  exact checkHandlerStop_events w.state

instance unstopped_command (c : Command) : HonoursUnstopped (Program.command c) :=
  ⟨fun _ hw ↦ holds_unstopped hw⟩

instance unstopped_emit (e : Event) (h : e.isStructural = false) :
    HonoursUnstopped (Routine.emit e h) := by unfold Routine.emit; infer_instance

instance unstopped_emitText (text : String8) : HonoursUnstopped (Routine.emitText text) := by
  unfold Routine.emitText; infer_instance

instance unstopped_emitDefaultWhen (kind : DefaultKind) (text : String8) :
    HonoursUnstopped (Routine.emitDefaultWhen kind text) := by
  unfold Routine.emitDefaultWhen; infer_instance

/-! ### Late events -/

theorem emit_events_ne (p : Parser) (e : Event) : (p.emit e).view.events ≠ p.view.events := by
  intro h
  have hlength := congrArg List.length h
  have happend : (p.emit e).view.events.length = p.view.events.length + 1 := List.length_append
  omega

theorem delivers_emit (p : Parser) (e : Event) (he : e.isStructural = false) :
    Delivers (Content.ofRoutine (Routine.emit e he)) p :=
  Monitor.changes_exec.2 (.inl (emit_events_ne p e))

/-- What stands behind the test of what the handler wants. -/
theorem events_ne_iff (p : Parser) (e : Event) (wanted : Bool) :
    (if wanted then (p.emit e).checkHandlerStop else p).view.events ≠ p.view.events ↔
      wanted = true := by
  cases wanted with
  | false => exact iff_of_false (fun hne ↦ hne rfl) Bool.false_ne_true
  | true =>
    rw [if_pos rfl, checkHandlerStop_events]
    exact iff_of_true (emit_events_ne p e) rfl

theorem delivers_act (a : Act) (p : Parser) :
    Delivers (Content.act a) p ↔ (p.step a).view.events ≠ p.view.events :=
  Monitor.changes_exec.trans (or_iff_left (Monitor.not_changes_done ()))

theorem delivers_emitText (p : Parser) (text : String8) :
    Delivers (Content.ofRoutine (Routine.emitText text)) p ↔ p.deliversText text = true :=
  (delivers_act (.routine (.emitText text)) p).trans (events_ne_iff p _ (p.deliversText text))

theorem delivers_emitDefault (p : Parser) (text : String8) :
    Delivers (Content.ofRoutine (Routine.emitDefault text)) p ↔ p.deliversDefault text = true :=
  (delivers_act (.routine (.emitDefault text)) p).trans (events_ne_iff p _ (p.deliversDefault text))

/-- A silent command in front of an event. -/
theorem delivers_silent {a : Act} (ha : a.isSilent = true) (p : Parser) (m : Content α) :
    Delivers (.exec a m) p ↔ Delivers m (p.step a) :=
  Monitor.changes_exec.trans (or_iff_right fun hne ↦ hne (step_events_of_isSilent ha p))

theorem deliversText_step (a : Act) (p : Parser) (text : String8) :
    (p.step a).deliversText text = p.deliversText text :=
  congrArg (fun s : Settings ↦ s.handler.wantsCharacterDataEvents && !text.isEmpty)
    (step_settings a p)

theorem deliversDefault_step (a : Act) (p : Parser) (text : String8) :
    (p.step a).deliversDefault text = p.deliversDefault text :=
  congrArg (fun s : Settings ↦ s.handler.wantsDefaultEvents && !text.isEmpty) (step_settings a p)

theorem deliversDeclaration_step (a : Act) (p : Parser) (isProcessed : Bool) (kind : DefaultKind)
    (text : String8) :
    (p.step a).deliversDeclaration isProcessed kind text =
      p.deliversDeclaration isProcessed kind text :=
  congrArg (fun s : Settings ↦ (!isProcessed || s.handler.wantsDefault kind) &&
    (s.handler.wantsDefaultEvents && !text.isEmpty)) (step_settings a p)

theorem delivers_emitDefaultWhen (p : Parser) (kind : DefaultKind) (text : String8) :
    Delivers (Content.ofRoutine (Routine.emitDefaultWhen kind text)) p ↔
      p.deliversDeclaration true kind text = true := by
  refine (delivers_act (.routine (.emitDefaultWhen kind text)) p).trans ?_
  show (if p.handler.wantsDefault kind then p.emitDefault text else p).view.events ≠ _ ↔
    (p.handler.wantsDefault kind && p.deliversDefault text) = true
  cases p.handler.wantsDefault kind with
  | false => exact iff_of_false (fun hne ↦ hne rfl) Bool.false_ne_true
  | true => exact events_ne_iff p _ (p.deliversDefault text)

theorem not_delivers_silent (m : Routine α) [hm : IsSilent m] (p : Parser) :
    ¬Delivers (Content.ofRoutine m) p := by
  have hcommands : (Content.ofRoutine m).IssuesOnly Act.isSilent := IssuesOnly.lift hm.issuesOnly
  exact Monitor.not_changes_of_issuesOnly hcommands fun _ s hc ↦ step_events_of_isSilent hc s

theorem delivers_bind {m : Routine α} {f : α → Routine β} {p : Parser} :
    Delivers (Content.ofRoutine (m >>= f)) p ↔ Delivers (Content.ofRoutine m) p ∨
      ∃ a q, (Content.ofRoutine m).run machine p = some (a, q) ∧
        Delivers (Content.ofRoutine (f a)) q := by
  unfold Content.ofRoutine
  rw [lift_bind]
  exact Monitor.changes_bind

theorem delivers_bind_pure (m : Routine α) (b : β) (p : Parser) :
    Delivers (Content.ofRoutine (m >>= fun _ ↦ pure b)) p ↔ Delivers (Content.ofRoutine m) p := by
  refine delivers_bind.trans (or_iff_left ?_)
  rintro ⟨a, q, -, hdelivers⟩
  exact Monitor.not_changes_done b hdelivers

/-- A branch that delivers nothing. -/
theorem delivers_ite_left {c : Prop} [Decidable c] {m n : Routine α} {p : Parser}
    (hm : ¬Delivers (Content.ofRoutine m) p) :
    Delivers (Content.ofRoutine (if c then m else n)) p ↔
      ¬c ∧ Delivers (Content.ofRoutine n) p := by
  split
  · exact iff_of_false hm fun h ↦ h.1 ‹_›
  · exact (and_iff_right ‹_›).symm

theorem delivers_ite_right {c : Prop} [Decidable c] {m n : Routine α} {p : Parser}
    (hn : ¬Delivers (Content.ofRoutine n) p) :
    Delivers (Content.ofRoutine (if c then m else n)) p ↔
      c ∧ Delivers (Content.ofRoutine m) p := by
  split
  · exact (and_iff_right ‹_›).symm
  · exact iff_of_false hn fun h ↦ absurd h.1 ‹_›

/-- Behind a test of the error. -/
theorem delivers_hasError_ite (m₀ m : Routine α) [IsSilent m₀] (p : Parser) :
    Delivers (Content.ofRoutine (do if ← hasError then m₀ else m)) p ↔
      p.core.hasError = false ∧ Delivers (Content.ofRoutine m) p := by
  refine (delivers_ite_left (not_delivers_silent m₀ p)).trans (and_congr_left fun _ ↦ ?_)
  exact iff_of_eq (Bool.not_eq_true _)

theorem delivers_unlessError (m : Routine Unit) (p : Parser) :
    Delivers (Content.ofRoutine (unlessError m)) p ↔
      p.core.hasError = false ∧ Delivers (Content.ofRoutine m) p :=
  delivers_hasError_ite (pure ()) m p

/-! ### A parse that goes no further -/

theorem requestsStop_of_isHalted {p : Parser} (h : p.IsHalted) : p.requestsStop = false := by
  show (!p.core.hasError && !p.core.isSuspended && _) = false
  cases h with
  | inl herror => rw [herror, Bool.not_true, Bool.false_and, Bool.false_and]
  | inr hsuspended => rw [hsuspended, Bool.not_true, Bool.and_false, Bool.false_and]

theorem recordsStop_of_isHalted {a : Act} {p : Parser} (h : p.IsHalted) :
    p.recordsStop a = false := by
  have hemit (e : Event) : (p.emit e).requestsStop = false := requestsStop_of_isHalted h
  unfold recordsStop
  split
  · exact requestsStop_of_isHalted h
  · rw [hemit, Bool.and_false]
  · rw [hemit, Bool.and_false]
  · rw [hemit, Bool.and_false]
  · rfl

theorem isHalted_of_run {m : Content α} {p q : Parser} {a : α} (h : p.IsHalted)
    (hrun : m.run machine p = some (a, q)) : q.IsHalted :=
  run_invariant (I := IsHalted) (fun a _ h ↦ isHalted_step a h) h hrun

theorem isHalted_of_stopsIn {m : Content α} {p q : Parser} {a : α} (h : StopsIn m p)
    (hrun : m.run machine p = some (a, q)) : q.IsHalted := by
  obtain ⟨n, c, hc, hrecords⟩ := h
  exact stopMonitor.halted_of_run hrun hc hrecords

theorem stopsIn_silent {a : Act} (ha : a.isSilent = true) (p : Parser) (m : Content α) :
    StopsIn (.exec a m) p ↔ StopsIn m (p.step a) := by
  refine Monitor.raisesIn_exec.trans (or_iff_right fun hrecords ↦ ?_)
  exact Bool.false_ne_true ((recordsStop_of_isSilent ha p).symm.trans hrecords)

theorem stopsIn_checkNotStandalone (p : Parser) :
    StopsIn (Content.ofRoutine checkNotStandalone) p ↔ p.asksInNotStandalone = true := by
  unfold asksInNotStandalone
  show StopsIn (Content.ofRoutine (if p.putsNotStandalone then do
      assign fun f ↦ { f with notStandaloneChecked := true }
      Program.command (.emit .notStandalone rfl)
      if p.handler.onNotStandalone then Routine.checkHandlerStop
      else Routine.setError "not standalone"
    else pure ())) p ↔ _
  cases p.putsNotStandalone with
  | false => exact iff_of_false (Monitor.not_raisesIn_done ()) Bool.false_ne_true
  | true =>
    refine (stopsIn_silent rfl p _).trans ?_
    refine Monitor.raisesIn_exec.trans ((or_iff_right Bool.false_ne_true).trans ?_)
    cases p.handler.onNotStandalone with
    | false =>
      exact iff_of_false (fun h ↦ Monitor.not_raisesIn_done () ((stopsIn_silent rfl _ _).1 h))
        Bool.false_ne_true
    | true => exact Monitor.raisesIn_exec.trans (or_iff_left (Monitor.not_raisesIn_done ()))

theorem stopsIn_emit {p : Parser} {e : Event} {he : e.isStructural = false} :
    StopsIn (Content.ofRoutine (Routine.emit e he)) p ↔ (p.emit e).requestsStop = true := by
  refine Monitor.raisesIn_exec.trans ((or_iff_right Bool.false_ne_true).trans ?_)
  exact Monitor.raisesIn_exec.trans (or_iff_left (Monitor.not_raisesIn_done ()))

/-- At a place a stop is recorded in the first part. -/
theorem LateRoutine.stopsIn {p : Parser} {first : Routine α} {second : α → Routine β}
    (h : LateRoutine p first second) : StopsIn (Content.ofRoutine first) p := by
  cases h with
  | comment _ _ _ _ hasks | processingInstruction _ _ _ _ _ hasks | startCdata _ _ hasks
  | endCdata _ _ hasks | text _ _ _ _ hasks | skippedReference _ _ hasks
  | defaultReference _ _ hasks => exact Monitor.raisesIn_exec.2 (.inl hasks)
  | unparsedEntity _ _ _ _ _ _ hasks => exact stopsIn_emit.2 hasks
  | notStandalone _ hasks => exact (stopsIn_checkNotStandalone p).2 hasks
  | nested _ hstops => exact hstops

theorem LatePlace.stopsIn {p : Parser} {first : Content α} {second : α → Content β}
    (h : LatePlace p first second) : StopsIn first p := by
  cases h with
  | routine h => exact h.stopsIn
  | endElement _ _ hasks => exact Monitor.raisesIn_exec.2 (.inl hasks)
  | entity _ _ _ _ _ hasks => exact Monitor.raisesIn_exec.2 (.inl hasks)

/-- What honours a stop delivers nothing behind it. -/
theorem not_delivers_of_honours {p : Parser} (h : p.IsHalted) (m : Content α)
    [hm : Obeys stopLaw m] : ¬Delivers m p :=
  Monitor.not_changes_of_halted recordsStop_of_isHalted LatePlace.stopsIn h (hm.holds _)

theorem not_delivers_routine {p : Parser} (h : p.IsHalted) (m : Routine α) [hm : Honours m] :
    ¬Delivers (Content.ofRoutine m) p :=
  @not_delivers_of_honours _ _ h _ ⟨hm.holds⟩

theorem delivers_bind_of_honours {p : Parser} (h : p.IsHalted) (m : Routine α) (f : α → Routine β)
    [∀ a, Honours (f a)] :
    Delivers (Content.ofRoutine (m >>= f)) p ↔ Delivers (Content.ofRoutine m) p := by
  refine delivers_bind.trans (or_iff_left ?_)
  rintro ⟨a, q, hrun, hdelivers⟩
  exact not_delivers_routine (isHalted_of_run h hrun) (f a) hdelivers

/-! ### Places -/

theorem isListed_comment (text comment : String8) (i byteCount : Nat) :
    IsListed (Routine.emitDefaultWhen .comment text) fun _ ↦ (do
      Routine.noteTokenPosition i byteCount
      emitComment comment) :=
  fun _ hlate ↦ .comment _ _ _ _ (Monitor.isLate_exec.1 hlate).1

theorem isListed_processingInstruction (text target data : String8) (i byteCount : Nat) :
    IsListed (Routine.emitDefaultWhen .processingInstruction text) fun _ ↦ (do
      Routine.noteTokenPosition i byteCount
      Routine.emit (.processingInstruction target data)) :=
  fun _ hlate ↦ .processingInstruction _ _ _ _ _ (Monitor.isLate_exec.1 hlate).1

theorem isListed_startCdata (text : String8) (i : Nat) :
    IsListed (Routine.emitDefaultWhen .startCdata text) fun _ ↦ (do
      Routine.notePosition i
      Routine.emit .startCdataSection) :=
  fun _ hlate ↦ .startCdata _ _ (Monitor.isLate_exec.1 hlate).1

theorem isListed_endCdata (text : String8) (i : Nat) :
    IsListed (Routine.emitDefaultWhen .endCdata text) fun _ ↦ (do
      Routine.notePosition i
      Routine.emit .endCdataSection) :=
  fun _ hlate ↦ .endCdata _ _ (Monitor.isLate_exec.1 hlate).1

theorem isListed_text (defaultText text : String8) (i byteCount : Nat) :
    IsListed (Routine.emitDefaultWhen .automaticCharacterData defaultText) fun _ ↦ (do
      Routine.noteTokenPosition i byteCount
      Routine.emitText text) := by
  intro p hlate
  obtain ⟨hasks, hdelivers⟩ := Monitor.isLate_exec.1 hlate
  have hnext :=
    (delivers_silent (a := .routine (.noteTokenPosition i byteCount)) rfl _ _).1 hdelivers
  have htext := (delivers_emitText _ text).1 hnext
  rw [deliversText_step] at htext
  exact .text _ _ _ _ hasks ((deliversText_step _ p text).symm.trans htext)

theorem isListed_skippedReference (text name : String8) :
    IsListed (Routine.emitText text) fun _ ↦ Routine.emit (.skippedEntity name false) :=
  fun _ hlate ↦ .skippedReference _ _ (Monitor.isLate_exec.1 hlate).1

theorem isListed_defaultReference (text reference : String8) :
    IsListed (Routine.emitText text) fun _ ↦ Routine.emitDefault reference := by
  intro p hlate
  obtain ⟨hasks, hdelivers⟩ := Monitor.isLate_exec.1 hlate
  have hdefault := (delivers_emitDefault _ reference).1 hdelivers
  exact .defaultReference _ _ hasks ((deliversDefault_step _ p reference).symm.trans hdefault)

theorem isListed_unparsedEntity (e : Event) (he : e.isStructural = false) (name systemId : String8)
    (publicId notationName : Option String8) :
    IsListed (Routine.emit e he) fun _ ↦
      Routine.emit (.unparsedEntityDecl name systemId publicId notationName) :=
  fun _ hlate ↦ .unparsedEntity _ _ _ _ _ _ (stopsIn_emit.1 hlate.1)

theorem isListed_notStandalone {second : Unit → Routine α} {DeliversSecond : Parser → Prop}
    (h : NotStandaloneRoutine second DeliversSecond)
    (hdelivers : ∀ {q : Parser}, q.IsHalted → Delivers (Content.ofRoutine (second ())) q →
      DeliversSecond q) :
    IsListed checkNotStandalone second := by
  rintro p ⟨hstops, _, q, hrun, hsecond⟩
  have hhalted := isHalted_of_stopsIn hstops hrun
  exact .notStandalone h ((stopsIn_checkNotStandalone p).1 hstops) hrun (hdelivers hhalted hsecond)

theorem isListed_nested {first : Routine α} {second : α → Routine β}
    {DeliversSecond : α → Parser → Prop} (h : NestedRoutine first second DeliversSecond)
    (hdelivers : ∀ {a} {q : Parser}, q.IsHalted → Delivers (Content.ofRoutine (second a)) q →
      DeliversSecond a q) :
    IsListed first second := by
  rintro p ⟨hstops, a, q, hrun, hsecond⟩
  exact .nested h hstops hrun (hdelivers (isHalted_of_stopsIn hstops hrun) hsecond)

section Places

variable {γ : Type}

/-- A listed place, in front of a routine that honours every stop. -/
theorem unstopped_place {first : Routine α} {second : α → Routine β} {k : α → β → Routine γ}
    (hplace : IsListed first second) (hfirst : HonoursUnstopped first)
    (hsecond : ∀ a, HonoursUnstopped (second a)) (hk : ∀ a b, Honours (k a b)) :
    HonoursUnstopped (first >>= fun a ↦ second a >>= k a) := by
  constructor
  intro w hw
  show stopLaw.Holds ((first >>= fun a ↦ second a >>= k a).lift Act.routine Scene.sight) w
  simp only [lift_bind]
  apply Monitor.law_pair (fun hlate ↦ .routine (hplace _ hlate)) hw (hfirst.holds w hw)
  · exact fun a v hv ↦ (hsecond a).holds v hv
  · exact fun a b v ↦ (hk a b).holds v

/-- A place whose second part begins with a silent one. -/
theorem unstopped_place_after {δ : Type} {first : Routine α} {note : Routine β} {event : Routine γ}
    {k : γ → Routine δ} (hplace : IsListed first fun _ ↦ do let _ ← note; event)
    (hfirst : HonoursUnstopped first) (hnote : IsSilent note) (hevent : HonoursUnstopped event)
    (hk : ∀ c, Honours (k c)) :
    HonoursUnstopped (first >>= fun _ ↦ note >>= fun _ ↦ event >>= k) := by
  have hpair := unstopped_place hplace hfirst (fun _ ↦ inferInstance) fun _ c ↦ hk c
  simp only [bind_assoc] at hpair
  exact hpair

/-- A place at the end of a routine. -/
theorem unstopped_place_last {first : Routine α} {second : α → Routine β}
    (hplace : IsListed first second) (hfirst : HonoursUnstopped first)
    (hsecond : ∀ a, HonoursUnstopped (second a)) : HonoursUnstopped (first >>= second) := by
  have hpair := unstopped_place hplace hfirst hsecond fun _ b ↦ obeys_pure routineStopLaw b
  simp only [bind_pure] at hpair
  exact hpair

/-- A loop that does not test both flags between its rounds. -/
theorem unstopped_loop {finished : γ → Routine Bool} {body : γ → Routine γ}
    (hfinished : ∀ c, IsSilent (finished c)) (hbody : ∀ c, HonoursUnstopped (body c))
    (hplace : ∀ n c, IsListed (body c) (Program.loop finished body n)) (n : Nat) (c : γ) :
    HonoursUnstopped (Program.loop finished body n c) := by
  induction n generalizing c with
  | zero => exact Obeys.obeysFrom (obeys_stuck _)
  | succ n ih =>
    apply ObeysFrom.bind inferInstance inferInstance
    intro b
    apply ObeysFrom.ite inferInstance
    exact unstopped_place_last (hplace n c) (hbody c) ih

/-- A loop that has come to its end. -/
theorem honours_loop_finished {finished : γ → Routine Bool} {body : γ → Routine γ} {c : γ}
    (hfinished : IsSilent (finished c)) (hvalue : (finished c).Yields (· = true)) (n : Nat) :
    Honours (Program.loop finished body n c) := by
  cases n with
  | zero => exact obeys_stuck _
  | succ n =>
    constructor
    intro w
    apply routineStopLaw.bind ((honours_of_silent (finished c)).holds w)
    intro b v hrun
    rw [hvalue.of_run hrun, if_pos rfl]
    exact routineStopLaw.done c v

/-- A loop that ends behind a round that records a stop. -/
theorem unstopped_loop_last {finished : γ → Routine Bool} {body : γ → Routine γ} {IsLast : γ → Prop}
    (hfinished : ∀ c, IsSilent (finished c))
    (hvalue : ∀ c, IsLast c → (finished c).Yields (· = true))
    (hbody : ∀ c, HonoursUnstopped (body c))
    (hlast : ∀ c, YieldsUnless watchedRoutineMachine IsUnstopped IsUnstopped IsLast (body c))
    (n : Nat) (c : γ) : HonoursUnstopped (Program.loop finished body n c) := by
  induction n generalizing c with
  | zero => exact Obeys.obeysFrom (obeys_stuck _)
  | succ n ih =>
    apply ObeysFrom.bind inferInstance inferInstance
    intro b
    apply ObeysFrom.ite inferInstance
    constructor
    intro w hw
    apply routineStopLaw.bind ((hbody c).holds w hw)
    intro d v hrun
    cases (hlast c).of_run hw hrun with
    | inl hunstopped => exact (ih d).holds v hunstopped
    | inr hd => exact (honours_loop_finished (hfinished d) (hvalue d hd) n).holds v

end Places

/-! ### Comments and processing instructions -/

variable (input : String8) (start i byteCount : Nat) (text : String8) (external : Bool)

instance unstopped_emitDefault : HonoursUnstopped (Routine.emitDefault text) := by
  unfold Routine.emitDefault; infer_instance

instance unstopped_emitDefaultRange (stop : Nat) :
    HonoursUnstopped (Routine.emitDefaultRange input start stop) := by
  unfold Routine.emitDefaultRange; infer_instance

instance unstopped_emitComment : HonoursUnstopped (emitComment text) := by
  unfold emitComment; infer_instance

instance unstopped_parseComment : HonoursUnstopped (parseComment input start) := by
  unfold parseComment
  apply ObeysFrom.ite inferInstance
  apply ObeysFrom.bind inferInstance inferInstance
  intro cfg
  apply ObeysFrom.ite inferInstance
  split
  · infer_instance
  · exact unstopped_place_after (isListed_comment _ _ _ _) inferInstance inferInstance inferInstance
      inferInstance

instance unstopped_parseXmlDeclarationData :
    HonoursUnstopped (parseXmlDeclarationData external text) := by
  unfold parseXmlDeclarationData; infer_instance

instance unstopped_parseProcessingInstructionAs :
    HonoursUnstopped (parseProcessingInstructionAs external input start) := by
  unfold parseProcessingInstructionAs
  apply ObeysFrom.ite inferInstance
  apply ObeysFrom.bind inferInstance inferInstance
  intro cfg
  apply ObeysFrom.ite inferInstance
  apply ObeysFrom.ite inferInstance
  apply ObeysFrom.bind inferInstance inferInstance
  intro nameEnd
  apply ObeysFrom.bind inferInstance inferInstance
  intro failed
  repeat
    first
      | refine ObeysFrom.ite (by infer_instance) ?_
      | refine ObeysFrom.bind (by infer_instance) (by infer_instance) fun _ ↦ ?_
  exact unstopped_place_after (isListed_processingInstruction _ _ _ _ _) inferInstance inferInstance
    inferInstance inferInstance

instance unstopped_parseProcessingInstruction :
    HonoursUnstopped (parseProcessingInstruction input start) := by
  unfold parseProcessingInstruction; infer_instance

/-! ### External replacement texts -/

instance unstopped_normalizedExternalReplacement :
    HonoursUnstopped (normalizedExternalReplacement text) := by
  unfold normalizedExternalReplacement; infer_instance

variable (name subset : String8) (stop close depth : Nat) (isParameter isProcessed : Bool)

instance unstopped_resolvedExternalReplacement (publicId systemId : String8)
    (base : Option String8) (isParameterLiteral : Bool) :
    HonoursUnstopped (resolvedExternalReplacement name publicId systemId isParameter base
      isParameterLiteral) := by
  unfold resolvedExternalReplacement
  repeat' first
    | infer_instance
    | apply ObeysFrom.ite
    | refine ObeysFrom.bind ?_ inferInstance fun _ ↦ ?_
    | split

instance unstopped_resolvedEntityReplacement (e : ExternalEntity) (isParameterLiteral : Bool) :
    HonoursUnstopped (resolvedEntityReplacement e isParameterLiteral) := by
  unfold resolvedEntityReplacement; infer_instance

instance unstopped_checkNotStandalone : HonoursUnstopped checkNotStandalone := by
  unfold checkNotStandalone; infer_instance

/-! ### Entity values -/

instance unstopped_appendResolvedParameterEntity (e : ExternalEntity) (base : Option String8) :
    HonoursUnstopped (appendResolvedParameterEntity e base) := by
  unfold appendResolvedParameterEntity
  apply ObeysFrom.bind inferInstance inferInstance
  intro failed
  apply ObeysFrom.ite inferInstance
  apply ObeysFrom.bind_obeys inferInstance
  intro r
  split <;> infer_instance

theorem delivers_appendResolvedParameterEntity {p : Parser} (h : p.IsHalted) (e : ExternalEntity)
    (base : Option String8) :
    Delivers (Content.ofRoutine (appendResolvedParameterEntity e base)) p ↔
      p.core.hasError = false ∧
        Delivers (Content.ofRoutine (resolvedEntityReplacement e true)) p := by
  refine (delivers_hasError_ite _ _ p).trans (and_congr_right fun _ ↦ ?_)
  refine @delivers_bind_of_honours _ _ _ h _ _ fun r ↦ ?_
  split <;> infer_instance

instance unstopped_appendExternalParameterEntityInLiteral (e : ExternalEntity) :
    HonoursUnstopped (appendExternalParameterEntityInLiteral e) := by
  unfold appendExternalParameterEntityInLiteral
  apply ObeysFrom.bind inferInstance inferInstance
  intro f
  apply ObeysFrom.bind inferInstance inferInstance
  intro allowed
  apply ObeysFrom.ite inferInstance
  apply ObeysFrom.bind inferInstance inferInstance
  intro present
  apply ObeysFrom.ite inferInstance
  have hlisted := isListed_notStandalone (.parameterLiteral e f.currentExternalEntityBase)
    fun h ↦ (delivers_appendResolvedParameterEntity h _ _).1
  have hplace := unstopped_place_last hlisted inferInstance inferInstance
  exact hplace

section EntityValue

variable (appendParameterEntityLiteral : String8 → Routine String8)
  [happend : ∀ name, HonoursUnstopped (appendParameterEntityLiteral name)]

include happend

instance unstopped_appendParameterReferenceInEntityValue :
    HonoursUnstopped
      (appendParameterReferenceInEntityValue appendParameterEntityLiteral input start) := by
  unfold appendParameterReferenceInEntityValue
  apply ObeysFrom.bind inferInstance inferInstance
  intro s
  apply ObeysFrom.ite inferInstance
  apply ObeysFrom.ite inferInstance
  apply ObeysFrom.ite inferInstance
  apply ObeysFrom.ite inferInstance
  split <;> infer_instance

instance unstopped_appendParameterTextStep (t : Nat × String8) :
    HonoursUnstopped (appendParameterTextStep appendParameterEntityLiteral input t) := by
  unfold appendParameterTextStep; infer_instance

end EntityValue

/-- A round that records a stop is the last of the walk. -/
theorem yields_appendParameterEntityLiteralStep (append : String8 → Routine String8)
    (t : AliasWalk × String8) :
    Program.YieldsUnless watchedRoutineMachine IsUnstopped IsUnstopped (fun t ↦ t.1.isDone = true)
      (appendParameterEntityLiteralStep append t) := by
  have hsilent {m : Routine (AliasWalk × String8)} (hm : IsSilent m) :
      Program.YieldsUnless watchedRoutineMachine IsUnstopped IsUnstopped (fun t ↦ t.1.isDone = true)
        m := YieldsUnless.of_preserves (keeps_of_silent m).preserves
  unfold appendParameterEntityLiteralStep
  apply YieldsUnless.of_bind (keeps_of_silent _).preserves
  intro s
  apply YieldsUnless.ite (fun _ ↦ hsilent inferInstance)
  intro _
  split
  · exact hsilent inferInstance
  · apply YieldsUnless.of_bind (keeps_of_silent _).preserves
    intro _
    apply YieldsUnless.of_bind (keeps_of_silent _).preserves
    intro failed
    apply YieldsUnless.ite (fun _ ↦ hsilent inferInstance)
    intro _
    split
    · exact hsilent inferInstance
    · apply YieldsUnless.ite (fun _ ↦ hsilent inferInstance)
      intro _
      apply Yields.yieldsUnless
      apply Yields.of_bind
      intro _
      apply Yields.of_bind
      intro r
      apply Yields.of_bind
      intro _
      exact Yields.pure rfl

theorem unstopped_appendParameterText
    (happend : ∀ name, HonoursUnstopped (appendParameterEntityLiteral depth name)) (n : Nat)
    (t : Nat × String8) :
    HonoursUnstopped (Program.loop (entityValueFinished text)
      (appendParameterTextStep (appendParameterEntityLiteral depth) text) n t) :=
  unstopped_loop (fun _ ↦ inferInstance) (fun _ ↦ inferInstance)
    (fun n t ↦ isListed_nested (.parameterText depth text n t) fun _ h ↦ h) n t

theorem unstopped_appendParameterEntityLiteralStep
    (happend : ∀ name, HonoursUnstopped (appendParameterEntityLiteral depth name))
    (t : AliasWalk × String8) :
    HonoursUnstopped (appendParameterEntityLiteralStep (appendParameterEntityLiteral depth) t) := by
  have hloop (text : String8) := unstopped_appendParameterText text depth happend
  unfold appendParameterEntityLiteralStep
  apply ObeysFrom.bind inferInstance inferInstance
  intro s
  apply ObeysFrom.ite inferInstance
  split
  · infer_instance
  · apply ObeysFrom.bind inferInstance inferInstance
    intro _
    apply ObeysFrom.bind inferInstance inferInstance
    intro failed
    apply ObeysFrom.ite inferInstance
    split
    · infer_instance
    · apply ObeysFrom.ite inferInstance
      apply ObeysFrom.bind inferInstance inferInstance
      intro _
      exact ObeysFrom.bind_obeys (hloop _ _ _) inferInstance

instance unstopped_appendParameterEntityLiteral :
    HonoursUnstopped (appendParameterEntityLiteral depth name) := by
  induction depth generalizing name with
  | zero => exact Obeys.obeysFrom (obeys_stuck _)
  | succ depth ih =>
    unfold appendParameterEntityLiteral
    apply ObeysFrom.bind inferInstance inferInstance
    intro before
    refine ObeysFrom.bind_obeys ?_ inferInstance
    apply unstopped_loop_last (fun _ ↦ inferInstance) _
      (unstopped_appendParameterEntityLiteralStep depth ih)
      (yields_appendParameterEntityLiteralStep _)
    intro t ht
    show Yields _ (walkFinished t.1)
    unfold walkFinished
    rw [ht]
    exact Yields.of_bind fun _ ↦ Yields.pure rfl

instance unstopped_parseEntityLiteralStep (t : Nat × String8) :
    HonoursUnstopped (parseEntityLiteralStep depth input t) := by
  unfold parseEntityLiteralStep; infer_instance

instance unstopped_parseEntityLiteral (quote : Character8) :
    HonoursUnstopped (parseEntityLiteral depth input start quote) := by
  have hloop := unstopped_loop (fun _ ↦ inferInstance)
    (unstopped_parseEntityLiteralStep input depth)
    (fun n t ↦ isListed_nested (.entityLiteral depth input quote n t) fun _ h ↦ h)
  unfold parseEntityLiteral
  apply ObeysFrom.bind inferInstance inferInstance
  intro _
  refine ObeysFrom.bind_obeys (hloop _ _) ?_
  intro r
  apply Obeys.bind inferInstance
  intro failed
  apply Obeys.ite inferInstance
  apply Obeys.bind inferInstance
  intro f
  apply Obeys.ite _ inferInstance
  split <;> infer_instance

/-! ### Declarations -/

instance unstopped_parseElementDeclaration :
    HonoursUnstopped (parseElementDeclaration subset start) := by
  unfold parseElementDeclaration
  -- The model, which may be absent, is looked at last.
  repeat' first
    | infer_instance
    | apply ObeysFrom.ite
    | refine ObeysFrom.bind ?_ inferInstance fun _ ↦ ?_
    | split

instance unstopped_parseNotationDeclaration :
    HonoursUnstopped (parseNotationDeclaration subset start) := by
  unfold parseNotationDeclaration; infer_instance

instance unstopped_parseAttlistDefinition :
    HonoursUnstopped (parseAttlistDefinition depth subset name close i) := by
  unfold parseAttlistDefinition; infer_instance

instance guards_definitions :
    Guards watchedRoutineMachine IsUnstopped (return !(← isOngoing) || close ≤ i) false := by
  constructor
  intro w v hrun
  obtain ⟨hgoing, rfl⟩ := Prod.mk.inj (Option.some.inj hrun)
  apply isUnstopped_of_isOngoing
  rw [Bool.or_eq_false_iff, Bool.not_eq_false'] at hgoing
  exact hgoing.1

theorem delivers_endAttlistDeclaration (p : Parser) :
    Delivers (Content.ofRoutine (endAttlistDeclaration subset start close)) p ↔
      p.core.hasError = false ∧
        p.deliversDeclaration (!p.core.declarations.dtdDeclarationsDisabled) .attlistDecl
          (subset.substring start close) = true := by
  refine (delivers_hasError_ite _ _ p).trans (and_congr_right fun _ ↦ ?_)
  show Delivers (Content.ofRoutine (if p.core.declarations.dtdDeclarationsDisabled then
      Routine.emitDefault (subset.substring start close) >>= fun _ ↦ pure (close + 1)
    else Routine.emitDefaultWhen .attlistDecl (subset.substring start close) >>= fun _ ↦
      pure (close + 1))) p ↔ _
  cases p.core.declarations.dtdDeclarationsDisabled with
  | true => exact (delivers_bind_pure _ _ p).trans (delivers_emitDefault p _)
  | false => exact (delivers_bind_pure _ _ p).trans (delivers_emitDefaultWhen p _ _)

instance unstopped_parseAttlistDeclaration :
    HonoursUnstopped (parseAttlistDeclaration depth subset start) := by
  unfold parseAttlistDeclaration
  repeat
    first
      | refine ObeysFrom.ite (by infer_instance) ?_
      | refine ObeysFrom.bind (by infer_instance) (by infer_instance) fun _ ↦ ?_
  have hlisted (name : String8) (close bound i : Nat) :=
    isListed_nested (.attlist depth subset name start close bound i)
      fun _ ↦ (delivers_endAttlistDeclaration _ _ _ _).1
  exact unstopped_place_last (hlisted _ _ _ _) inferInstance inferInstance

instance unstopped_unparsedEntity (e : Event) (he : e.isStructural = false) (systemId : String8)
    (publicId notationName : Option String8) (isUnparsed : Bool) :
    HonoursUnstopped (do
      Routine.emit e he
      if isUnparsed then
        Routine.emit (.unparsedEntityDecl name systemId publicId notationName)
      return close) := by
  cases isUnparsed with
  | false => infer_instance
  | true =>
    exact unstopped_place (isListed_unparsedEntity e he _ _ _ _) inferInstance inferInstance
      inferInstance

instance unstopped_parseExternalEntityDeclaration :
    HonoursUnstopped (parseExternalEntityDeclaration subset start close name isParameter) := by
  unfold parseExternalEntityDeclaration; infer_instance

instance unstopped_emitInternalEntityDeclarationDefault (emitPiece : String8 → Routine Unit)
    [∀ piece, HonoursUnstopped (emitPiece piece)] (nameStart nameEnd literalStart literalEnd : Nat) :
    HonoursUnstopped (emitInternalEntityDeclarationDefault emitPiece subset start nameStart nameEnd
      literalStart literalEnd close) := by
  unfold emitInternalEntityDeclarationDefault; infer_instance

instance unstopped_parseInternalEntityValue :
    HonoursUnstopped (parseInternalEntityValue depth subset i close name isParameter isProcessed) := by
  unfold parseInternalEntityValue; infer_instance

instance unstopped_endInternalEntityDeclaration (nameStart nameEnd literalStart : Nat)
    (value : Nat × String8 × Int) :
    HonoursUnstopped (endInternalEntityDeclaration subset start nameStart nameEnd literalStart close
      name isParameter isProcessed value) := by
  unfold endInternalEntityDeclaration; infer_instance

/-- Behind a check that may set an error. -/
theorem delivers_check (failed : Bool) (message : String) (m : Routine α) (a : α) (p : Parser) :
    Delivers (Content.ofRoutine (do
      if !(← hasError) && failed then
        Routine.setError message
      if ← hasError then return a else m)) p ↔
      p.core.hasError = false ∧ failed = false ∧ Delivers (Content.ofRoutine m) p := by
  have htest (q : Parser) := delivers_hasError_ite (pure a) m q
  cases failed with
  | false =>
    have hskip (b : Bool) : (!b && false) = false := Bool.and_false _
    simp only [hskip]
    exact (htest p).trans (and_congr_right fun _ ↦ (and_iff_right trivial).symm)
  | true =>
    refine iff_of_false ?_ fun h ↦ Bool.false_ne_true h.2.1.symm
    show ¬Delivers (Content.ofRoutine (if !p.core.hasError && true then
      Routine.setError message >>= fun _ ↦ (do if ← hasError then return a else m)
      else (do if ← hasError then return a else m))) p
    intro h
    cases herror : p.core.hasError with
    | true =>
      rw [herror] at h
      exact Bool.false_ne_true (((htest p).1 h).1.symm.trans herror)
    | false =>
      rw [herror] at h
      have hrest := (delivers_silent (a := .routine (.setError message)) rfl _ _).1 h
      exact Bool.false_ne_true (((htest _).1 hrest).1.symm.trans (setError_hasError p message))

/-- The first piece of the default text of an entity declaration stands behind no test. -/
theorem delivers_emitInternalEntityDeclarationDefault {p : Parser} (h : p.IsHalted)
    (emitPiece : String8 → Routine Unit) [∀ piece, HonoursUnstopped (emitPiece piece)]
    (nameStart nameEnd literalStart literalEnd : Nat) :
    Delivers (Content.ofRoutine (emitInternalEntityDeclarationDefault emitPiece subset start
      nameStart nameEnd literalStart literalEnd close)) p ↔
      Delivers (Content.ofRoutine (emitPiece (subset.substring start (start + 7)))) p :=
  delivers_bind_of_honours h _ _

theorem delivers_endInternalEntityDeclaration {p : Parser} (h : p.IsHalted)
    (nameStart nameEnd literalStart : Nat) (literal : Nat × String8 × Int) :
    Delivers (Content.ofRoutine (endInternalEntityDeclaration subset start nameStart nameEnd
      literalStart close name isParameter isProcessed literal)) p ↔
      p.core.hasError = false ∧ skipSpaces subset (literal.1 + 1) = close ∧
        p.deliversDeclaration isProcessed (.entityDecl false)
          (subset.substring start (start + 7)) = true := by
  obtain ⟨literalEnd, value, count⟩ := literal
  refine (delivers_check _ _ _ _ p).trans (and_congr_right fun _ ↦ ?_)
  rw [bne_eq_false_iff_eq]
  refine and_congr_right fun _ ↦ ?_
  cases isProcessed with
  | false =>
    refine (delivers_bind_of_honours h _ _).trans ?_
    exact (delivers_emitInternalEntityDeclarationDefault _ _ _ h _ _ _ _ _).trans
      (delivers_emitDefault p _)
  | true =>
    have hput (c : Command) (hc : c.isSilent = true) :
        Delivers (.exec (.routine c) (Content.ofRoutine (do
          emitInternalEntityDeclarationDefault (emitDefaultWhen (.entityDecl false)) subset start
            nameStart nameEnd literalStart literalEnd close
          whileOngoing (Routine.emit (.entityDecl name isParameter (some value) none none none))
          return close + 1))) p ↔
          p.deliversDeclaration true (.entityDecl false)
            (subset.substring start (start + 7)) = true := by
      have hhalted : (p.step (.routine c)).IsHalted := isHalted_step _ h
      rw [delivers_silent (a := .routine c) hc, delivers_bind_of_honours hhalted,
        delivers_emitInternalEntityDeclarationDefault _ _ _ hhalted, delivers_emitDefaultWhen,
        deliversDeclaration_step]
    cases isParameter with
    | true => exact hput (.putParameterEntity name value count) rfl
    | false => exact hput (.putGeneralEntity name value) rfl

instance unstopped_parseInternalEntityDeclaration (nameStart nameEnd literalStart : Nat) :
    HonoursUnstopped (parseInternalEntityDeclaration depth subset start nameStart nameEnd
      literalStart close name isParameter isProcessed) := by
  have hlisted := isListed_nested (.entityValue depth subset start nameStart nameEnd literalStart
    close name isParameter isProcessed)
    fun h ↦ (delivers_endInternalEntityDeclaration _ _ _ _ _ _ h _ _ _ _).1
  have hplace := unstopped_place_last hlisted inferInstance inferInstance
  exact hplace

instance unstopped_parseEntityDeclaration :
    HonoursUnstopped (parseEntityDeclaration depth subset start) := by
  unfold parseEntityDeclaration; infer_instance

end

end Parser

end Xpact
