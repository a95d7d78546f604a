import Xpact.Parser.TwinAttributes

/-!
# Tags of twins

A tag is parsed alike on twins: one may read it without strings, and check only that they would be
fine.
-/

namespace Xpact

open Library Program

namespace Parser

section

variable {α β : Type} {input : String8} {p q : Parser}

theorem Coupled.ofRoutine {m : Routine α} {n : Routine β} {Q : α → Parser → β → Parser → Prop}
    (h : Coupled partedRoutines m n p q Q) :
    Coupled parted (liftM m : Content α) (liftM n : Content β) p q Q :=
  fun _ _ _ _ hp hq ↦ h ((Content.run_ofRoutine m p).symm.trans hp)
    ((Content.run_ofRoutine n q).symm.trans hq)

theorem Twin.views (h : Twin p q) (v w : View) :
    Twin { p with view := v } { q with view := w } := ⟨h.toAlike.views v w, h.scopesExpand⟩

theorem onlyReports_emitDefaultWhen (kind : DefaultKind) (text : String8) :
    OnlyReports (liftM (Routine.emitDefaultWhen kind text)) := by
  intro p hp
  obtain ⟨v, hv⟩ := exists_view_emitDefaultWhen hp kind text
  exact ⟨v, congrArg (fun p ↦ some ((), p)) hv⟩

theorem onlyReports_notePosition (i : Nat) : OnlyReports (liftM (Routine.notePosition i)) :=
  fun p _ ↦ ⟨p.view.notePosition i, rfl⟩

/-! ## Start tags -/

/-- The end of a start tag leaves no trace, or is refused on both sides. -/
theorem Alike.coupled_startTagEnd (h : Alike p q) (i : Nat) :
    Coupled partedRoutines (startTagEnd input i) (startTagEnd input i) p q fun r p' s q' ↦
      r = s ∧ p' = p ∧ q' = q := by
  unfold startTagEnd
  show Coupled _ (if (!(!p.core.hasError && !p.core.isSuspended)) = true then _ else _ : Routine _)
    (if (!(!q.core.hasError && !q.core.isSuspended)) = true then _ else _ : Routine _) _ _ _
  rw [h.core, h.isSuspended]
  refine Coupled.ite Iff.rfl (fun herror ↦ ?_) fun _ ↦ ?_
  · have hp : p.core.hasError = true := by simpa using herror
    exact Coupled.settled (S := partedRoutines) ⟨hp, .inl (h.hasError.trans hp)⟩
  refine Coupled.ite Iff.rfl (fun _ ↦ coupled_failAt) fun _ ↦ ?_
  refine Coupled.ite Iff.rfl (fun _ ↦ ?_) fun _ ↦ Coupled.done ⟨rfl, rfl, rfl⟩
  exact Coupled.ite Iff.rfl (fun _ ↦ Coupled.done ⟨rfl, rfl, rfl⟩) fun _ ↦ coupled_failAt

theorem Twin.finishStartTag (h : Twin p q) {opening closing opening' closing' : Content Unit}
    (hopening : ∀ v w, Coupled parted opening opening' { p with view := v } { q with view := w }
      fun _ p' _ q' ↦ Twin p' q')
    (hclosing : ∀ p' q', Twin p' q' → p'.settings = p.settings →
      Coupled parted closing closing' p' q' fun _ p' _ q' ↦ Twin p' q') (start i : Nat) :
    Coupled parted (finishStartTag input start i opening closing)
      (finishStartTag input start i opening' closing') p q
      fun r p' s q' ↦ r = s ∧ Twin p' q' := by
  refine Coupled.bind ((Coupled.ofRoutine (h.coupled_startTagEnd i)).mono ?_)
  rintro r p₁ _ q₁ ⟨rfl, rfl, rfl⟩
  refine h.isOngoing_bind fun _ ↦ ?_
  refine h.reports_bind (onlyReports_emitDefaultWhen _ _) (onlyReports_emitDefaultWhen _ _)
    fun v w ↦ ?_
  refine (h.toAlike.views v w).reports_bind (onlyReports_notePosition _) (onlyReports_notePosition _)
    fun v w ↦ ?_
  refine Coupled.bind fun a p₂ b q₂ hp hq ↦ ?_
  have hsettings : p₂.settings = p₁.settings := (settings_of_run hp).trans rfl
  refine (hopening v w hp hq).imp_right fun h₂ ↦ h₂.isOngoing_bind fun _ ↦ ?_
  refine Coupled.ite Iff.rfl (fun _ ↦ ?_) fun _ ↦ Coupled.done ⟨rfl, h₂⟩
  refine h₂.reports_bind (onlyReports_notePosition _) (onlyReports_notePosition _) fun v w ↦ ?_
  exact Coupled.bind ((hclosing _ _ (h₂.views v w) hsettings).mono fun _ p₃ _ q₃ h₃ ↦
    Coupled.done ⟨rfl, h₃⟩)

theorem Twin.parseStartTagStrings (h : Twin p q) (bound : Nat) (start i : Nat) (name : String8) :
    Coupled parted (parseStartTagStrings bound input start i name)
      (Xpact.parseStartTagStrings bound input start i name) p q
      fun r p' s q' ↦ r = s ∧ Twin p' q' :=
  h.routine_bind fun r _ _ _ h₁ ↦ h₁.finishStartTag
    (fun v w ↦ (h₁.views v w).openElement name r.2) (fun _ _ h₂ _ ↦ h₂.closeElement name) start r.1

/-- A handler that receives text needs the names as strings. -/
theorem Alike.canUseElementNameSlices (h : Alike p q) :
    q.scene.canUseElementNameSlices = false := by
  have hreceives := h.observed.receivesText
  show Scene.canUseElementNameSlices _ = false
  unfold Scene.canUseElementNameSlices
  rw [← Bool.not_eq_true]
  simp only [Bool.and_eq_true, Bool.not_eq_true']
  rintro ⟨⟨⟨⟨⟨⟨⟨⟨⟨-, -⟩, -⟩, htext⟩, hautomatic⟩, hdefault⟩, -⟩, -⟩, -⟩, -⟩
  unfold Handler.ReceivesText at hreceives
  rw [show q.handler.wantsCharacterDataEvents = false from htext,
    show q.handler.wantsAutomaticCharacterDataDefault = false from hautomatic,
    show q.handler.wantsDefaultEvents = false from hdefault] at hreceives
  cases hreceives

/-- What else has to hold when names stay slices. -/
theorem noDefaults_of_canUse {s : Scene} (h : s.canUseElementNameSlices = true) :
    s.config.useForeignDtd = false ∧ s.core.context.attributeDecl.entries.isEmpty = true := by
  unfold Scene.canUseElementNameSlices at h
  simp only [Bool.and_eq_true, Bool.not_eq_true'] at h
  obtain ⟨⟨⟨⟨-, hforeign⟩, -⟩, hdefaults⟩, -⟩ := h
  exact ⟨hforeign, hdefaults⟩

/-- Without namespaces and a foreign DTD there is nothing to check about the name of an element. -/
theorem run_checkStartTagName (hmode : p.config.namespaceMode = false)
    (hforeign : p.config.useForeignDtd = false) (bound : Nat) (name : String8) :
    (checkStartTagName bound name).run routineMachine p = some ((), p) := by
  have hnone : (includeForeignDtdIfNeeded bound name).run routineMachine p = some ((), p) := by
    show ((if (p.config.useForeignDtd && !p.core.flags.foreignDtdLoaded &&
      !p.core.flags.documentHasExternalSubset) = true then _ else _ : Routine _) >>= _).run _ p = _
    rw [hforeign, Bool.false_and, Bool.false_and, if_neg Bool.false_ne_true]
    rfl
  have hrest : (Routine.unlessError do
      if p.sight.elementCount = 0 ∧ p.sight.core.documentElementCount = 0 ∧
          !p.sight.core.parsingExternalEntity then
        includeForeignDtdIfNeeded bound name).run routineMachine p = some ((), p) := by
    show (if p.core.hasError = true then _ else _ : Routine _).run _ p = _
    split
    · rfl
    · split
      · exact hnone
      · rfl
  show (if (p.config.namespaceMode && _) = true then _ else _ : Routine _).run _ p = _
  rw [hmode, Bool.false_and, if_neg Bool.false_ne_true]
  exact hrest

/-- A start tag that is read without strings, and with them. -/
theorem Twin.parseStartTag_slices (h : Twin p q) (hp : p.core.hasError = false)
    (hslices : p.scene.canUseElementNameSlices = true) (bound : Nat) (start : Nat)
    {nameStart next : Nat} (hnext : 1 ≤ next)
    (hname : input.substring nameStart (next - 1) = inputRange input nameStart (next - 1)) :
    Coupled parted
      (do
        let i ← liftM (parseAttributesNoEvents input (skipSpaces input next))
        if i = 0 then
          Xpact.parseStartTagStrings bound input start (skipSpaces input next)
            (input.substring nameStart (next - 1))
        else
          Xpact.finishStartTag input start i (openElementRange input nameStart (next - 1))
            (closeElementRange input nameStart (next - 1)))
      (Xpact.parseStartTagStrings bound input start (skipSpaces input next)
        (input.substring nameStart (next - 1))) p q
      fun r p' s q' ↦ r = s ∧ Twin p' q' := by
  obtain ⟨hmode, -, hend, huses⟩ := Logic.slices_of_canUse hslices
  obtain ⟨-, hdefaults⟩ := noDefaults_of_canUse hslices
  have hstart : 1 ≤ skipSpaces input next := Nat.le_trans hnext (le_skipSpaces input next)
  -- With the index 0 the left begins again and reads the attributes with strings.
  refine Coupled.bind_again ((Coupled.ofRoutine
    (h.coupled_parseAttributes bound hp hmode hstart)).mono ?_)
  rintro i p₁ u q₁ ⟨rfl, rfl | ⟨hi, rfl, rfl⟩⟩
  · rw [if_pos rfl]
    exact .inr ⟨rfl, h.parseStartTagStrings bound start _ _⟩
  · rw [if_neg hi, hname]
    refine .inl (h.finishStartTag (fun v w ↦ ?_) (fun p₂ q₂ h₂ hsettings ↦ ?_) start u.1)
    · exact (h.views v w).openElement_range hmode huses hdefaults input nameStart (next - 1) u.2
    · have hmode₂ : p₂.config.namespaceMode = false :=
        (congrArg (fun s : Settings ↦ s.config.namespaceMode) hsettings).trans hmode
      have hend₂ : p₂.handler.wantsEndElementEvents = false :=
        (congrArg (fun s : Settings ↦ s.handler.wantsEndElementEvents) hsettings).trans hend
      intro a p' b q' hp' hq'
      rw [run_closeElementRange hmode₂ hend₂] at hp'
      exact h₂.closeElement _ hp' hq'

theorem Twin.parseStartTag (h : Twin p q) (bound : Nat) (start : Nat) :
    Coupled parted (parseStartTag bound input start) (Xpact.parseStartTag bound input start) p q
      fun r p' s q' ↦ r = s ∧ Twin p' q' := by
  unfold Xpact.parseStartTag
  refine Coupled.ite Iff.rfl (fun _ ↦ Alike.failAt) fun hin ↦ ?_
  refine Coupled.ite Iff.rfl (fun _ ↦ Alike.failAt) fun _ ↦ ?_
  refine Coupled.ite Iff.rfl (fun _ ↦ Alike.failAt) fun _ ↦ ?_
  refine Coupled.bind ((Coupled.ofRoutine (h.coupled_scanName (start + 1))).mono ?_)
  rintro next p₁ _ q₁ ⟨hend, rfl, rfl, rfl⟩
  refine scene_bind (Coupled.ite ?_ (fun _ ↦ Alike.failAt) fun _ ↦ ?_)
  · show p₁.config.maxNameLength < _ ↔ q₁.config.maxNameLength < _
    rw [h.config]
  rw [if_neg (show ¬q₁.scene.canUseElementNameSlices = true by
    rw [h.canUseElementNameSlices]; exact Bool.false_ne_true)]
  by_cases hslices : p₁.scene.canUseElementNameSlices = true
  · rw [if_pos hslices]
    obtain ⟨hmode, -⟩ := Logic.slices_of_canUse hslices
    obtain ⟨hforeign, -⟩ := noDefaults_of_canUse hslices
    have hchecked := run_checkStartTagName (p := q₁) (by rw [h.config]; exact hmode)
      (by rw [h.config]; exact hforeign) bound (input.substring (start + 1) (next - 1))
    have hlater : start + 1 < next := by
      rw [hend]
      exact lt_scannedName (Nat.not_lt.1 hin)
    have hname := substring_scanName p₁.config (Nat.le_add_left 1 start) (Nat.not_lt.1 hin)
    rw [← hend] at hname
    -- The check of the name is skipped on the left; on the right it has nothing to do.
    refine Coupled.right fun _ q₂ hq₂ ↦ ?_
    obtain ⟨-, rfl⟩ := Prod.mk.inj (Option.some.inj
      (hchecked.symm.trans ((Content.run_ofRoutine _ _).symm.trans hq₂)))
    refine h.hasError_bind fun hp ↦ ?_
    exact h.parseStartTag_slices hp hslices bound start (by omega) hname
  · rw [if_neg hslices]
    refine h.routine_bind fun _ p₂ q₂ _ h₂ ↦ h₂.hasError_bind fun _ ↦ ?_
    exact h₂.parseStartTagStrings bound start _ _

/-! ## End tags -/

/-- The element is closed as its name says, however the name is passed on. -/
theorem run_closeElement_either {nameStart nameEnd : Nat}
    (hname : input.substring nameStart nameEnd = inputRange input nameStart nameEnd)
    (rest : Unit → Content α) :
    (if (!p.config.namespaceMode && !p.handler.wantsEndElementEvents) = true then
        closeElementRange input nameStart nameEnd >>= rest
      else
        Xpact.closeElement (input.substring nameStart nameEnd) >>= rest).run machine p =
      (Xpact.closeElement (input.substring nameStart nameEnd) >>= rest).run machine p := by
  split
  · next hrange =>
    rw [Bool.and_eq_true, Bool.not_eq_true', Bool.not_eq_true'] at hrange
    rw [run_bind, run_bind, run_closeElementRange hrange.1 hrange.2, hname]
  · rfl

theorem Twin.parseEndTag (h : Twin p q) (start : Nat) :
    Coupled parted (parseEndTag input start) (Xpact.parseEndTag input start) p q
      fun r p' s q' ↦ r = s ∧ Twin p' q' := by
  unfold Xpact.parseEndTag
  refine h.routine_bind fun _ p₁ q₁ _ h₁ ↦ ?_
  refine Coupled.ite Iff.rfl (fun _ ↦ Alike.failAt) fun hin ↦ ?_
  rw [not_or, Nat.not_lt] at hin
  have hname := substring_scanName p₁.config (show 1 ≤ start + 2 by omega) hin.1
  refine Coupled.bind ((Coupled.ofRoutine (h₁.coupled_scanName (start + 2))).mono ?_)
  rintro next p₂ _ q₂ ⟨hend, rfl, rfl, rfl⟩
  have hconfig : q₂.scene.config = p₂.scene.config := h₁.config
  rw [← hend] at hname
  refine scene_bind (Coupled.ite (by rw [hconfig]) (fun _ ↦ Alike.failAt) fun _ ↦ ?_)
  refine Coupled.ite (by rw [hconfig]) (fun _ ↦ Alike.setError_bind) fun _ ↦ ?_
  refine h₁.hasError_bind fun _ ↦ Coupled.ite Iff.rfl (fun h ↦ absurd h Bool.false_ne_true)
    fun _ ↦ Coupled.ite Iff.rfl (fun _ ↦ ?_) fun _ ↦ ?_
  · refine h₁.reports_bind (onlyReports_notePosition _) (onlyReports_notePosition _) fun v w ↦ ?_
    refine (h₁.toAlike.views v w).reports_bind (onlyReports_emitDefaultWhen _ _)
      (onlyReports_emitDefaultWhen _ _) fun v w ↦ ?_
    dsimp only
    refine Coupled.of_run_eq (run_closeElement_either (p := { p₂ with view := v }) hname _)
      (run_closeElement_either (p := { q₂ with view := w }) hname _) ?_
    exact Coupled.bind (((h₁.views v w).closeElement _).mono fun _ p₃ _ q₃ h₃ ↦
      Coupled.done ⟨rfl, h₃⟩)
  · exact h₁.routine_bind fun _ p₃ q₃ _ h₃ ↦ Alike.failAt

end

end Parser

end Xpact
