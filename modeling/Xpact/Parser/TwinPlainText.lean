import Xpact.Parser.TwinText

/-!
# Text that nobody is told

Without listeners a text is only scanned.  The scan comes to the end at which the text would have
been delivered, or both fail, but for a carriage return: the scan does not take it for a character.
When it finds a reference it gives up and leaves no trace.
-/

namespace Xpact

open Library Program

namespace Parser

section

variable {α β : Type} {input : String8} {p q : Parser} {literalDefault : Bool}
  {parseEntityContent : String8 → Content Unit}

/-! ## One step of the scan -/

theorem isXmlSpaceAscii_of_plain {c : Character8}
    (h : (32 ≤ c.toNat ∧ c.toNat < 128) ∨ c.toNat = 9 ∨ c.toNat = 10) :
    isXmlSpaceAscii c = isXmlSpace c := by
  have hreturn : (c == '\r') = false := by
    rw [beq_eq_false_iff_ne]
    rintro rfl
    revert h
    decide
  unfold isXmlSpaceAscii isXmlSpace
  rw [hreturn, Bool.or_false]

/-- A character is stepped over, or refused: it is a carriage return, or it may not stand outside the
document element. -/
def PlainStep (input : String8) (outside : Bool) (t : PlainText) (p : Parser)
    (r : PlainText × Parser) : Prop :=
  match textByte input t.index with
  | .reference => r = ({ t with index := 0 }, p)
  | .refused | .cutOff => r.2.core.hasError = true
  | .character =>
    (r = ({ t with index := t.index + 1 }, p) ∧
        ((outside && t.allSpace) = true → isXmlSpace (input.item t.index) = true)) ∨
      r.2.core.hasError = true ∧ (r.2.view.lastError = "invalid XML character" ∨
        outside = true ∧ isXmlSpace (input.item t.index) = false)

theorem run_failTextAt (input : String8) (hp : p.core.hasError = false) (message : String) (t : PlainText) :
    ∃ q, (failTextAt input message t).run routineMachine p =
        some ({ t with index := input.length + 1 }, q) ∧ q.core.hasError = true ∧
      q.view.lastError = message := by
  obtain ⟨herror, hlast⟩ := setError_of_ongoing
    (show (p.stepRoutine (.notePosition t.index)).core.hasError = false from hp) message
  exact ⟨_, rfl, herror, hlast⟩

theorem plainStep_of_character {outside : Bool} {t : PlainText} (hp : p.core.hasError = false)
    (hmet : textByte input t.index = .character) {r : PlainText × Parser}
    (hrun : (plainTextCharacter input outside (isXmlSpace (input.item t.index)) t).run
      routineMachine p = some r) : PlainStep input outside t p r := by
  unfold PlainStep
  rw [hmet]
  unfold plainTextCharacter at hrun
  split at hrun
  · next houtside =>
    split at hrun
    · next hspace =>
      cases hrun
      exact .inl ⟨rfl, fun _ ↦ hspace⟩
    · next hspace =>
      obtain ⟨q, hfailed, herror, -⟩ := run_failTextAt input hp
        "character data outside document element" { t with allSpace := false }
      obtain rfl := Option.some.inj (hrun.symm.trans hfailed)
      exact .inr ⟨herror, .inr ⟨(Bool.and_eq_true_iff.1 houtside).1, Bool.eq_false_iff.2 hspace⟩⟩
  · next houtside =>
    cases hrun
    exact .inl ⟨rfl, fun h ↦ absurd h houtside⟩

theorem plainStep_of_run {outside : Bool} {t : PlainText} (hp : p.core.hasError = false)
    {r : PlainText × Parser}
    (hrun : (plainTextStep input outside t).run routineMachine p = some r) :
    PlainStep input outside t p r := by
  have hfailed {message : String} (h : (failTextAt input message t).run routineMachine p = some r) :
      r.2.core.hasError = true ∧ r.2.view.lastError = message := by
    obtain ⟨q, hq, herror, hlast⟩ := run_failTextAt input hp message t
    obtain rfl := Option.some.inj (h.symm.trans hq)
    exact ⟨herror, hlast⟩
  unfold plainTextStep at hrun
  dsimp only at hrun
  by_cases hreference : input.item t.index = '&'
  · have hmet : textByte input t.index = .reference := by
      unfold textByte
      dsimp only
      rw [hreference, if_neg (fun h ↦ absurd h.1 (by decide)), if_pos rfl]
    rw [if_pos hreference] at hrun
    unfold PlainStep
    rw [hmet]
    exact (Option.some.inj hrun).symm
  rw [if_neg hreference] at hrun
  by_cases hmarker : input.item t.index = ']' ∧ hasAt input t.index (str "]]>") = true
  · have hmet : textByte input t.index = .refused := if_pos hmarker
    rw [if_pos hmarker] at hrun
    unfold PlainStep
    rw [hmet]
    exact (hfailed hrun).1
  rw [if_neg hmarker] at hrun
  have hmet : textByte input t.index =
      (if 128 ≤ (input.item t.index).toNat ∧ isIncompleteUtf8SequenceAt input t.index then .cutOff
      else if !isXmlCharacterCode (input.item t.index).toNat then .refused else .character) := by
    unfold textByte
    dsimp only
    rw [if_neg hmarker, if_neg hreference]
  -- Neither a reference nor a marker: a character, a refused byte or one that is cut off.
  by_cases hplain : (32 ≤ (input.item t.index).toNat ∧ (input.item t.index).toNat < 128) ∨
      (input.item t.index).toNat = 9 ∨ (input.item t.index).toNat = 10
  · rw [if_pos hplain, isXmlSpaceAscii_of_plain hplain] at hrun
    rw [if_neg (by omega), isXmlCharacterCode_of_plain hplain] at hmet
    exact plainStep_of_character hp hmet hrun
  rw [if_neg hplain] at hrun
  by_cases hascii : (input.item t.index).toNat < 128
  · -- A carriage return is the only such byte that the other scan takes for a character.
    rw [if_pos hascii] at hrun
    rw [if_neg (by omega)] at hmet
    obtain ⟨herror, hlast⟩ := hfailed hrun
    unfold PlainStep
    rw [hmet]
    split
    · next heq => split at heq <;> cases heq
    · exact herror
    · exact herror
    · exact .inr ⟨herror, .inl hlast⟩
  rw [if_neg hascii] at hrun
  by_cases hcut : isIncompleteUtf8SequenceAt input t.index = true
  · rw [if_pos hcut] at hrun
    rw [if_pos ⟨Nat.not_lt.1 hascii, hcut⟩] at hmet
    unfold PlainStep
    rw [hmet]
    exact (hfailed hrun).1
  rw [if_neg hcut] at hrun
  rw [if_neg fun h ↦ hcut h.2] at hmet
  split at hrun
  · next hcode =>
    rw [if_pos hcode] at hmet
    unfold PlainStep
    rw [hmet]
    exact (hfailed hrun).1
  · next hcode =>
    rw [if_neg hcode] at hmet
    exact plainStep_of_character hp hmet hrun

/-! ## Text outside the document element -/

variable {t : PlainText} {u : TextScan}

/-- After something else than white space a text outside the document element is an error. -/
theorem run_textLoop_outside {k : Nat} {r : TextScan × Parser} (houtside : ¬q.IsInside)
    (hu : u.isSpace = false)
    (hrun : (Program.loop (fun t ↦ liftM (textFinished input t))
      (textStep parseEntityContent true literalDefault input) k u).run machine q = some r) :
    r.2.core.hasError = true ∨ ¬r.2.IsInside ∧ r.1.isSpace = false := by
  -- On the rounds: what is not white space stays so, and a reference is refused outside.
  induction k generalizing u q with
  | zero => cases hrun
  | succ k ih =>
    obtain ⟨-, rfl⟩ | ⟨-, l, ⟨u', q'⟩, hl, hstep, hrest⟩ :=
      run_loop_of_test hrun (run_textFinished input u q)
    · exact .inr ⟨houtside, hu⟩
    obtain rfl := Nat.succ.inj hl
    have hfailed (h : q'.core.hasError = true) : r.2.core.hasError = true := hasError_of_run hrest h
    cases hmet : textByte input u.index with
    | refused => exact .inl (hfailed (run_textStep_refused hmet hstep))
    | cutOff => exact .inl (hfailed (run_textStep_cutOff hmet hstep))
    | character =>
      obtain ⟨v, u₁, hrun₁, -, -, hspace⟩ := run_textStep_character true literalDefault
        parseEntityContent hmet q
      cases hrun₁.symm.trans hstep
      exact ih (q := { q with view := v }) houtside (by rw [hspace, hu, Bool.false_and]) hrest
    | reference =>
      obtain ⟨v, hrun₁⟩ := run_textStep_reference true literalDefault
        parseEntityContent hmet q
      rw [isInside_iff, Bool.not_eq_false] at houtside
      rw [if_neg (fun h ↦ Bool.false_ne_true h.1), if_pos houtside, hstep] at hrun₁
      cases hrun₁
      exact .inl (hfailed (setError_hasError _ _))

/-- Nobody has stopped the parse, and nobody will. -/
def Unstopped (p : Parser) : Prop := p.handler.NeverStops ∧ p.core.isSuspended = false

theorem Unstopped.of_run {m : Content α} {a : α} {p' : Parser} (h : p.Unstopped)
    (hrun : m.run machine p = some (a, p')) : p'.Unstopped := by
  refine run_invariant (I := Unstopped) (fun c p hp ↦ ⟨?_, (step_isSuspended hp.1 c).trans hp.2⟩) h
    hrun
  have hhandler : (p.step c).handler = p.handler := congrArg Settings.handler (step_settings c p)
  show (p.step c).handler.NeverStops
  rw [hhandler]
  exact hp.1

/-- What follows the loop is an error then, too. -/
theorem run_finishText_outside (houtside : ¬q.IsInside) (hu : u.isSpace = false) (start : Nat)
    {r : Nat × Parser}
    (hrun : (do
      if 0 < u.pendingPosition then Routine.notePosition u.pendingPosition
      if ← Routine.isOngoing then deliverText literalDefault input start u
      else return input.length + 1 : Content Nat).run machine q = some r)
    (hunstopped : q.Unstopped) : r.2.core.hasError = true := by
  have hrest (v : View) (h : (do
      if ← Routine.isOngoing then deliverText literalDefault input start u
      else return input.length + 1 : Content Nat).run machine { q with view := v } = some r) :
      r.2.core.hasError = true := by
    have h : (if (!q.core.hasError && !q.core.isSuspended) = true then
      deliverText literalDefault input start u else pure (input.length + 1) : Content Nat).run machine
        { q with view := v } = some r := h
    cases herror : q.core.hasError with
    | true => exact hasError_of_run h herror
    | false =>
      rw [herror, hunstopped.2, if_pos (by decide)] at h
      exact run_deliverText_outside (p := { q with view := v }) houtside hu start h
  dsimp only at hrun
  split at hrun
  · exact hrest (q.view.notePosition u.pendingPosition) hrun
  · exact hrest q.view hrun

/-! ## The scan and the text -/

/-- `parted`, for a routine before content. -/
def partedScan : Settled routineMachine machine where
  Holds := parted.Holds
  left := parted_left_routine
  right := parted.right

theorem Coupled.ofScan {m : Routine α} {n : Content β} {Q : α → Parser → β → Parser → Prop}
    (h : Coupled partedScan m n p q Q) : Coupled parted (liftM m : Content α) n p q Q :=
  fun _ _ _ _ hp hq ↦ h ((Content.run_ofRoutine m p).symm.trans hp) hq

/-- What the scan and the text have in common while both go on. -/
structure ScansText (p : Parser) (t : PlainText) (p' : Parser) (u : TextScan) (q' : Parser) :
    Prop where
  left : p' = p
  twin : Twin p q'
  index : t.index = u.index
  pos : 1 ≤ t.index
  allSpace : t.allSpace = true
  isDone : u.isDone = false
  isSpace : p.IsInside ∨ u.isSpace = true

/-- The scan has given up without a trace, or the text cannot be delivered any more. -/
def LeavesOff (p : Parser) (t : PlainText) (p' : Parser) (u : TextScan) (q' : Parser) : Prop :=
  t.index = 0 ∧ p' = p ∨
    p'.core.hasError = true ∧ q'.Unstopped ∧ ¬q'.IsInside ∧ u.isSpace = false

theorem run_plainTextFinished (input : String8) (t : PlainText) (p : Parser) :
    (plainTextFinished input t).run routineMachine p =
      some (t.index == 0 || decide (input.length < t.index) ||
        !(!p.core.hasError && !p.core.isSuspended) || input.item t.index == '<', p) := rfl

theorem LeavesOff.loops {outside : Bool} {p' q' : Parser} (h : LeavesOff p t p' u q') (k l : Nat) :
    Coupled partedScan (Program.loop (plainTextFinished input) (plainTextStep input outside) k t)
      (Program.loop (fun t ↦ liftM (textFinished input t))
        (textStep parseEntityContent true literalDefault input) l u) p' q' (LeavesOff p) := by
  intro t' p'' u' q'' hp hq
  rcases h with ⟨hzero, rfl⟩ | ⟨herror, hunstopped, houtside, hspace⟩
  · have hover : (plainTextFinished input t).run routineMachine p' = some (true, p') := by
      rw [run_plainTextFinished, hzero]
      rfl
    obtain ⟨-, heq⟩ | ⟨hopen, -⟩ := run_loop_of_test hp hover
    · obtain ⟨rfl, rfl⟩ := Prod.mk.inj heq
      exact .inr (.inl ⟨hzero, rfl⟩)
    · cases hopen
  · have herror' : p''.core.hasError = true := hasError_of_run_routine herror hp
    exact (run_textLoop_outside houtside hspace hq).elim (fun h ↦ .inl ⟨herror', .inl h⟩)
      fun h ↦ .inr (.inr ⟨herror', hunstopped.of_run hq, h⟩)

theorem ScansText.finished {p' q' : Parser} (h : ScansText p t p' u q') :
    Coupled partedScan (plainTextFinished input t)
      (liftM (textFinished input u) : Content Bool) p' q' fun x p'' y q'' ↦
      x = y ∧ ScansText p t p'' u q'' ∧ (x = false → True) := by
  obtain rfl := h.left
  refine Coupled.of_run_eq (m := Program.done _) (n := Program.done _) (run_plainTextFinished input t p')
    (run_textFinished input u q') (Coupled.done ⟨?_, h, fun _ ↦ trivial⟩)
  have hindex := h.index
  have hpos := h.pos
  rw [h.isDone, h.twin.core, ← hindex, beq_false_of_ne (by omega), Bool.false_or, Bool.or_false]

/-- One step of the scan and of the text. -/
theorem ScansText.step {outside : Bool} {p' q' : Parser} (hp : p.core.hasError = false)
    (houtside : outside = true ↔ ¬p.IsInside) (h : ScansText p t p' u q') :
    Coupled partedScan (plainTextStep input outside t)
      (textStep parseEntityContent true literalDefault input u) p' q' fun t' p'' u' q'' ↦
      LeavesOff p t' p'' u' q'' ∨ ScansText p t' p'' u' q'' := by
  obtain rfl := h.left
  have hbyte : textByte input u.index = textByte input t.index := by rw [h.index]
  have hinside : q'.IsInside ↔ p'.IsInside := by
    rw [isInside_iff, isInside_iff, show q'.scene.core = p'.scene.core from h.twin.core,
      show q'.scene.elements.stack.isEmpty = p'.scene.elements.stack.isEmpty from
        h.twin.isEmpty_stack]
  intro t' p'' u' q'' hscan htext
  have hstep := plainStep_of_run hp hscan
  unfold PlainStep at hstep
  cases hmet : textByte input t.index with
  | reference =>
    rw [hmet] at hstep
    cases hstep
    exact .inr (.inl (.inl ⟨rfl, rfl⟩))
  | refused =>
    rw [hmet] at hstep
    exact .inl ⟨hstep, .inl (run_textStep_refused (hbyte.trans hmet) htext)⟩
  | cutOff =>
    rw [hmet] at hstep
    exact .inl ⟨hstep, .inl (run_textStep_cutOff (hbyte.trans hmet) htext)⟩
  | character =>
    rw [hmet] at hstep
    obtain ⟨v, u₁, hrun, hnext, hdone, hspace⟩ := run_textStep_character true literalDefault
      parseEntityContent (hbyte.trans hmet) q'
    cases hrun.symm.trans htext
    -- Outside, the scan refuses text at its first character, and the other way at its end.
    rcases hstep with ⟨heq, hadvances⟩ | ⟨herror, hlast | ⟨hout, hnospace⟩⟩
    · cases heq
      refine .inr (.inr ⟨rfl, ?_, ?_, Nat.le_add_left 1 _, h.allSpace, ?_, ?_⟩)
      · exact ⟨{ h.twin.toAlike with }, h.twin.scopesExpand⟩
      · rw [hnext, h.index]
      · rw [hdone, h.isDone]
      · refine (Classical.em p'.IsInside).imp_right fun hnot ↦ ?_
        have hspaceHere := hadvances (by rw [houtside.2 hnot, h.allSpace]; rfl)
        rw [hspace, ← h.index, hspaceHere, h.isSpace.resolve_left hnot]
        rfl
    · exact .inl ⟨herror, .inr hlast⟩
    · refine .inr (.inl (.inr ⟨herror, ⟨h.twin.observed.neverStops', ?_⟩,
        mt hinside.1 (houtside.1 hout), ?_⟩))
      · exact (congrArg Core.isSuspended h.twin.core).trans h.twin.isSuspended
      rw [hspace, ← h.index, hnospace, Bool.and_false]

variable (input literalDefault) in
/-- Text that can be delivered is. -/
theorem run_finishText (hq : q.Unstopped) (herror : q.core.hasError = false)
    (hu : q.IsInside ∨ u.isSpace = true) (start : Nat) :
    ∃ v, (do
      if 0 < u.pendingPosition then Routine.notePosition u.pendingPosition
      if ← Routine.isOngoing then deliverText literalDefault input start u
      else return input.length + 1 : Content Nat).run machine q =
        some (u.index, { q with view := v }) := by
  have hrest (v : View) : ∃ w, (do
      if ← Routine.isOngoing then deliverText literalDefault input start u
      else return input.length + 1 : Content Nat).run machine { q with view := v } =
        some (u.index, { q with view := w }) := by
    show ∃ w, (if (!q.core.hasError && !q.core.isSuspended) = true then
      deliverText literalDefault input start u else pure (input.length + 1) : Content Nat).run machine
        { q with view := v } = _
    rw [herror, hq.2, if_pos (by decide)]
    exact run_deliverText input literalDefault (p := { q with view := v }) hq.1 hu start
  dsimp only
  split
  · exact hrest (q.view.notePosition u.pendingPosition)
  · exact hrest q.view

/-- The scan of a text comes to its end without a trace, or gives up without one. -/
theorem Twin.coupled_parseCharacterDataNoEvents (parseEntityContent : String8 → Content Unit)
    (h : Twin p q) (hp : p.core.hasError = false) (start : Nat) :
    Coupled partedScan (parseCharacterDataNoEvents input start)
      (Xpact.collectCharacterData parseEntityContent true input start) p q fun i p' j q' ↦
      i = 0 ∧ p' = p ∨ i ≠ 0 ∧ i = j ∧ Twin p' q' := by
  have houtside : (p.sight.elementCount == 0 && !p.sight.core.parsingExternalEntity) = true ↔
      ¬p.IsInside := by
    rw [isInside_iff, Bool.not_eq_false]
    show (p.elements.stack.length == 0 && _) = true ↔ (p.elements.stack.isEmpty && _) = true
    rw [show (p.elements.stack.length == 0) = p.elements.stack.isEmpty by
      cases p.elements.stack <;> rfl]
    rfl
  unfold parseCharacterDataNoEvents Xpact.collectCharacterData
  show Coupled partedScan (Program.loop (plainTextFinished input) (plainTextStep input
    (p.sight.elementCount == 0 && !p.sight.core.parsingExternalEntity)) _ _ >>= _)
    (Program.loop _ _ _ _ >>= _) p q _
  -- The loops go in step until the scan gives up, or refuses a character outside.
  refine Coupled.bind (Coupled.mono (Q := fun t p' u q' ↦ LeavesOff p t p' u q' ∨
    ScansText p t p' u q') ?_ ?_)
  · cases start with
    | zero =>
      -- The index 0 is what a scan that gives up returns, so this one is over at once.
      have hleft (u : TextScan) : LeavesOff p { index := 0 } p u q := .inl ⟨rfl, rfl⟩
      exact ((hleft _).loops _ _).mono fun _ _ _ _ ↦ .inl
    | succ start =>
      refine Coupled.loop_until (J := fun _ _ ↦ True) (fun hleft k l ↦ hleft.loops k l)
        (fun t p' u q' hboth ↦ hboth.finished) (fun t p' u q' hboth _ ↦ hboth.step hp houtside) _ _ ?_
      exact ⟨rfl, h, rfl, Nat.le_add_left 1 start, rfl, rfl, .inr (isSpace_begin _ _ _)⟩
  rintro t p₁ u q₁ ((⟨hzero, rfl⟩ | ⟨herror, hunstopped, houtside', hspace⟩) | hboth)
  · rw [if_pos hzero]
    exact fun i p' j q' hp' _ ↦ by
      cases hp'
      exact .inr (.inl ⟨rfl, rfl⟩)
  · intro i p' j q' hp' hq'
    exact .inl ⟨hasError_of_run_routine herror hp', .inl
      (run_finishText_outside houtside' hspace start hq' hunstopped)⟩
  · obtain rfl := hboth.left
    have hunstopped : q₁.Unstopped := ⟨hboth.twin.observed.neverStops',
      (congrArg Core.isSuspended hboth.twin.core).trans hboth.twin.isSuspended⟩
    have hdelivered : q₁.IsInside ∨ u.isSpace = true := hboth.isSpace.imp_left fun hinside ↦ by
      rw [isInside_iff] at hinside ⊢
      rw [show q₁.scene.core = p₁.scene.core from hboth.twin.core,
        show q₁.scene.elements.stack.isEmpty = p₁.scene.elements.stack.isEmpty from
          hboth.twin.isEmpty_stack, hinside]
    obtain ⟨v, hrun⟩ := run_finishText input
      (q.scene.handler.wantsAutomaticCharacterDataDefault &&
        q.scene.handler.wantsLiteralCharacterDataDefault) hunstopped
      (hboth.twin.hasError.trans hp) hdelivered start
    refine Coupled.of_run_eq (m := Program.done t.index) (n := Program.done u.index) (s := p₁) ?_
      hrun (Coupled.done ?_)
    · rw [if_neg (Nat.one_le_iff_ne_zero.1 hboth.pos)]
      show (if (!p₁.core.hasError && !p₁.core.isSuspended) = true then _ else _ : Routine Nat).run _ _ =
        _
      rw [hp, h.isSuspended]
      rfl
    · exact .inr ⟨Nat.one_le_iff_ne_zero.1 hboth.pos, hboth.index,
        ⟨{ hboth.twin.toAlike with }, hboth.twin.scopesExpand⟩⟩

theorem Twin.parseCharacterData (hcontent : ParsesAlike parseEntityContent) (h : Twin p q)
    (start : Nat) :
    Coupled parted (parseCharacterData parseEntityContent input start)
      (Xpact.parseCharacterData parseEntityContent input start) p q
      fun i p' j q' ↦ i = j ∧ Twin p' q' := by
  cases hp : p.core.hasError with
  | true => exact h.failed hp
  | false =>
    -- What is done when the text is not scanned, or the scan has given up.
    let collected : Content Nat := do
      Content.act .forceCurrentPosition
      Xpact.collectCharacterData parseEntityContent true input start
    have hcollected : Coupled parted collected collected p q fun i p' j q' ↦ i = j ∧ Twin p' q' :=
      act_bind ((h.views _ _).collectCharacterData hcontent start)
    have hreceives : (q.scene.handler.wantsCharacterDataEvents || q.scene.handler.wantsDefaultEvents ||
        q.scene.handler.wantsAutomaticCharacterDataDefault) = true := h.observed.receivesText
    unfold Xpact.parseCharacterData
    refine scene_bind ?_
    dsimp only
    rw [hreceives, Bool.not_true, Bool.and_false, if_neg Bool.false_ne_true]
    split
    · have hscanned : Coupled parted (liftM (parseCharacterDataNoEvents input start)) collected p q
          fun i p' j q' ↦ i = 0 ∧ p' = p ∨ i ≠ 0 ∧ i = j ∧ Twin p' q' :=
        Coupled.ofScan (Coupled.right fun _ q₁ hq₁ ↦ by
          obtain ⟨-, rfl⟩ := Prod.mk.inj (Option.some.inj hq₁)
          exact Twin.coupled_parseCharacterDataNoEvents parseEntityContent
            (h.views p.view q.view.forceCurrentPosition) hp start)
      -- A scan that gives up has left no trace, so the left collects the text from where it began.
      have hagain := Coupled.bind_again (f := fun i ↦ if i = 0 then collected else pure i)
        (g := Program.done) (Q := fun i p' j q' ↦ i = j ∧ Twin p' q') (hscanned.mono ?_)
      · rw [bind_done] at hagain
        exact hagain
      · rintro i p₁ j q₁ (⟨rfl, rfl⟩ | ⟨hi, rfl, h₁⟩)
        · rw [if_pos rfl, bind_done]
          exact .inr ⟨rfl, hcollected⟩
        · rw [if_neg hi]
          exact .inl (Coupled.done ⟨rfl, h₁⟩)
    · exact hcollected

end

end Parser

end Xpact
