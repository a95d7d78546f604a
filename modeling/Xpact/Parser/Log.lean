import Xpact.Parser.Frames
import Xpact.Library.Nesting

/-!
# The log of a parse

The log holds the delivered events in order, and between them marks where an element is opened or
closed on the stack and where the replacement text of an entity in content begins and ends.  Only
tags and entities in content make marks; a routine is quiet: it adds events that do not belong to the
element structure, and changes neither the stacks nor the settings.
-/

namespace Xpact

open Library Program

inductive Mark where
  | event (e : Event)
  | opens (name : String8)
  | closes (name : String8)
  | enters
  | leaves

def Mark.event? : Mark → Option Event
  | .event e => some e
  | _ => none

/-- An event that does not belong to the element structure. -/
abbrev Notice := { e : Event // e.isStructural = false }

namespace View

/-! ## Events of a view -/

theorem retreatPositionTo_events (v : View) (i : Nat) : (v.retreatPositionTo i).events = v.events := by
  simp only [retreatPositionTo]
  split <;> rfl

theorem countLinesTo_events (v : View) (i : Nat) : (v.countLinesTo i).events = v.events := by
  unfold countLinesTo
  split
  · rfl
  · split
    · rfl
    · split
      · exact retreatPositionTo_events v i
      · rfl

theorem notePosition_events (v : View) (i : Nat) : (v.notePosition i).events = v.events := by
  unfold notePosition
  split
  · rfl
  · exact countLinesTo_events v _

theorem forceCurrentPosition_events (v : View) : v.forceCurrentPosition.events = v.events := by
  unfold forceCurrentPosition
  split <;> rfl

theorem noteCurrentEntityReferencePosition_events (v : View) :
    v.noteCurrentEntityReferencePosition.events = v.events := by
  unfold noteCurrentEntityReferencePosition
  split
  · exact notePosition_events v _
  · rfl

theorem recordError_events (v : View) (message : String) : (v.recordError message).events = v.events := by
  unfold recordError
  simp only
  split
  · split
    · exact forceCurrentPosition_events _
    · exact notePosition_events _ _
  · rfl

end View

namespace Parser

/-! ## Events of a command -/

theorem setError_events (p : Parser) (message : String) :
    (p.setError message).view.events = p.view.events := by
  unfold setError
  split
  · rfl
  · exact p.view.recordError_events message

theorem checkHandlerStop_events (p : Parser) : p.checkHandlerStop.view.events = p.view.events := by
  unfold checkHandlerStop
  split
  · split
    · rfl
    · exact setError_events p _
  · rfl

/-- A command of a routine delivers events that do not belong to the element structure. -/
theorem stepRoutine_events (c : Command) (p : Parser) :
    ∃ notices : List Notice,
      (p.stepRoutine c).view.events = p.view.events ++ notices.map Subtype.val := by
  have hnone : ∀ q : Parser, q.view.events = p.view.events → ∃ notices : List Notice,
      q.view.events = p.view.events ++ notices.map Subtype.val :=
    fun q hq ↦ ⟨[], by rw [hq, List.map_nil, List.append_nil]⟩
  have hone : ∀ (q : Parser) (n : Notice), q.view.events = p.view.events ++ [n.1] →
      ∃ notices : List Notice, q.view.events = p.view.events ++ notices.map Subtype.val :=
    fun q n hq ↦ ⟨[n], hq⟩
  have hdefault : ∀ text, ∃ notices : List Notice,
      (p.emitDefault text).view.events = p.view.events ++ notices.map Subtype.val := by
    intro text
    unfold emitDefault
    split
    · exact hone _ ⟨.default text, rfl⟩ (checkHandlerStop_events _)
    · exact hnone p rfl
  cases c with
  | setError message => exact hnone _ (setError_events p message)
  | checkHandlerStop => exact hnone _ (checkHandlerStop_events p)
  | emit e h => exact hone _ ⟨e, h⟩ rfl
  | emitText text =>
    simp only [stepRoutine, emitText]
    split
    · exact hone _ ⟨.characterData text, rfl⟩ (checkHandlerStop_events _)
    · exact hnone p rfl
  | emitDefault text => exact hdefault text
  | emitDefaultWhen kind text =>
    simp only [stepRoutine]
    split
    · exact hdefault text
    · exact hnone p rfl
  | notePosition i => exact hnone _ (View.notePosition_events _ i)
  | noteTokenPosition i byteCount => exact hnone _ (View.notePosition_events _ i)
  | noteCurrentEntityReferencePosition =>
    exact hnone _ (View.noteCurrentEntityReferencePosition_events _)
  | noteEntityExpansion count =>
    simp only [stepRoutine, noteEntityExpansion]
    split
    · exact hnone _ (setError_events _ _)
    · exact hnone _ rfl
  | resolve request =>
    refine hnone _ ?_
    exact resolve_unchanged (fun q ↦ q.view.events) p request (fun _ _ _ ↦ rfl) (fun _ _ ↦ rfl)
  | _ => exact hnone _ rfl

/-! ## Marks -/

/-- What the log records of a command. -/
def marks (a : Act) (p : Parser) : List Mark :=
  match a with
  | .pushElement name => [.opens name]
  | .pushElementSlice name => [.opens name.text]
  | .popElement => [.closes (p.elements.top.getD [])]
  | .raiseFloor => [.enters]
  | .restoreFloor _ => [.leaves]
  | a => ((p.step a).view.events.drop p.view.events.length).map .event

/-- A step that delivers nothing leaves no event in the log. -/
theorem marks_of_events {es es' : List Event} (hes : es' = es) :
    (es'.drop es.length).map Mark.event = [] := by
  rw [hes, List.drop_length, List.map_nil]

def log {α : Type} (m : Content α) (p : Parser) : List Mark := Program.log machine marks m p

/-! ## Errors -/

theorem setError_hasError (p : Parser) (message : String) :
    (p.setError message).core.hasError = true := by
  unfold setError
  split
  · assumption
  · rfl

theorem checkHandlerStop_hasError (p : Parser) (h : p.core.hasError = true) :
    p.checkHandlerStop.core.hasError = true := by
  unfold checkHandlerStop
  split
  · split
    · exact h
    · exact setError_hasError p _
  · exact h

theorem checkHandlerStop_of_neverStops {p : Parser} (h : p.handler.NeverStops) :
    p.checkHandlerStop = p := by
  unfold checkHandlerStop
  rw [h, Bool.and_false, if_neg Bool.false_ne_true]

theorem emitText_hasError (p : Parser) (text : String8) (h : p.core.hasError = true) :
    (p.emitText text).core.hasError = true := by
  unfold emitText
  split
  · exact checkHandlerStop_hasError _ h
  · exact h

theorem emitDefault_hasError (p : Parser) (text : String8) (h : p.core.hasError = true) :
    (p.emitDefault text).core.hasError = true := by
  unfold emitDefault
  split
  · exact checkHandlerStop_hasError _ h
  · exact h

/-- No command takes an error back. -/
theorem step_hasError (a : Act) (p : Parser) (h : p.core.hasError = true) :
    (p.step a).core.hasError = true := by
  cases a with
  | routine c =>
    cases c with
    | setError message => exact setError_hasError p message
    | checkHandlerStop => exact checkHandlerStop_hasError p h
    | emitText text => exact emitText_hasError p text h
    | emitDefault text => exact emitDefault_hasError p text h
    | emitDefaultWhen kind text =>
      simp only [step, stepRoutine]
      split
      · exact emitDefault_hasError p text h
      · exact h
    | noteEntityExpansion count =>
      simp only [step, stepRoutine, noteEntityExpansion]
      split
      · exact setError_hasError _ _
      · exact h
    | resolve request =>
      have hresolve := resolve_unchanged (fun q ↦ q.core.hasError) p request (fun _ _ _ ↦ rfl)
        (fun _ _ ↦ rfl)
      exact hresolve.trans h
    | _ => exact h
  | _ => exact h

/-! ## Suspension -/

theorem setError_isSuspended (p : Parser) (message : String) :
    (p.setError message).core.isSuspended = p.core.isSuspended := by
  unfold setError
  split <;> rfl

theorem checkHandlerStop_isSuspended {p : Parser} (h : p.handler.NeverStops) :
    p.checkHandlerStop.core.isSuspended = p.core.isSuspended := by
  rw [checkHandlerStop_of_neverStops h]

theorem emitDefault_isSuspended {p : Parser} (h : p.handler.NeverStops) (text : String8) :
    (p.emitDefault text).core.isSuspended = p.core.isSuspended := by
  unfold emitDefault
  split
  · exact checkHandlerStop_isSuspended h
  · rfl

/-- A parse whose handler never stops it is never suspended. -/
theorem step_isSuspended {p : Parser} (h : p.handler.NeverStops) (a : Act) :
    (p.step a).core.isSuspended = p.core.isSuspended := by
  cases a with
  | routine c =>
    cases c with
    | setError message => exact setError_isSuspended p message
    | checkHandlerStop => exact checkHandlerStop_isSuspended h
    | emitText text =>
      simp only [step, stepRoutine, emitText]
      split
      · exact checkHandlerStop_isSuspended h
      · rfl
    | emitDefault text => exact emitDefault_isSuspended h text
    | emitDefaultWhen kind text =>
      simp only [step, stepRoutine]
      split
      · exact emitDefault_isSuspended h text
      · rfl
    | noteEntityExpansion count =>
      simp only [step, stepRoutine, noteEntityExpansion]
      split
      · exact setError_isSuspended _ _
      · rfl
    | resolve request =>
      exact resolve_unchanged (fun q ↦ q.core.isSuspended) p request (fun _ _ _ ↦ rfl)
        (fun _ _ ↦ rfl)
    | _ => rfl
  | _ => rfl

/-! ## Quiet programs -/

/-- `q` comes from `p` by steps that leave the element structure alone. -/
structure Quiet (p : Parser) (l : List Mark) (q : Parser) : Prop where
  frame : q.frame = p.frame
  hasError : p.core.hasError = true → q.core.hasError = true
  isSuspended : p.handler.NeverStops → q.core.isSuspended = p.core.isSuspended
  notices : ∃ notices : List Notice, l = notices.map fun n ↦ .event n.1

theorem Quiet.handler {p q : Parser} {l : List Mark} (h : Quiet p l q) : q.handler = p.handler :=
  congrArg (fun f : Frame ↦ f.handler) h.frame

/-- The contract of a quiet program. -/
def quietContract : Contract Parser Mark where
  Rel := Quiet
  refl p := ⟨rfl, id, fun _ ↦ rfl, [], rfl⟩
  trans := by
    intro p q r l l' hpq hqr
    obtain ⟨notices, rfl⟩ := hpq.notices
    obtain ⟨notices', rfl⟩ := hqr.notices
    refine ⟨hqr.frame.trans hpq.frame, fun h ↦ hqr.hasError (hpq.hasError h), ?_,
      notices ++ notices', List.map_append.symm⟩
    intro hstops
    rw [hqr.isSuspended (hpq.handler ▸ hstops), hpq.isSuspended hstops]

theorem quiet_stepRoutine (c : Command) (p : Parser) :
    Quiet p (marks (.routine c) p) (p.stepRoutine c) := by
  obtain ⟨notices, hnotices⟩ := stepRoutine_events c p
  refine ⟨stepRoutine_frame c p, step_hasError (.routine c) p, fun h ↦ step_isSuspended h (.routine c),
    notices, ?_⟩
  simp only [marks, step, hnotices, List.drop_left, List.map_map]
  rfl

/-- Every routine is quiet. -/
theorem quiet_ofRoutine {α : Type} (m : Routine α) (p : Parser) :
    Meets machine marks quietContract (Content.ofRoutine m) p := by
  intro a q h
  rw [Content.run_ofRoutine] at h
  rw [Content.ofRoutine, log_lift, ← routineMachine_eq]
  exact Meets.of_commands quiet_stepRoutine m h

end Parser

end Xpact
