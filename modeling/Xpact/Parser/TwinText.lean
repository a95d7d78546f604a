import Xpact.Parser.TwinReferences

/-!
# Text of twins

Text is collected alike on twins.  A twin that nobody tells the text only scans it; it comes to the
same end, but for a carriage return, or finds a reference and begins again.
-/

namespace Xpact

open Library Program

/-! ## One step -/

/-- What the scan of a text meets. -/
inductive TextByte where
  | refused
  | reference
  | cutOff
  | character

/-- What the scan of a text meets at `i`. -/
def textByte (input : String8) (i : Nat) : TextByte :=
  let c := input.item i
  if c = ']' ∧ hasAt input i (str "]]>") then .refused
  else if c = '&' then .reference
  else if 128 ≤ c.toNat ∧ isIncompleteUtf8SequenceAt input i then .cutOff
  else if !isXmlCharacterCode c.toNat then .refused
  else .character

/-- Is the text white space so far? -/
def TextScan.isSpace (t : TextScan) : Bool :=
  match t.text with
  | some text => isAllXmlSpace text
  | none => t.allSpace

namespace Parser

section

variable {α β : Type} {input : String8} {p q : Parser} {t u : TextScan} {isFinal literalDefault : Bool}
  {parseEntityContent : String8 → Content Unit}

/-- A bracket is noted before the byte is judged. -/
theorem run_noteBracket {c : Prop} [Decidable c] (rest : TextScan → Content α) :
    ∃ v n, (if c then liftM t.note >>= rest else pure t >>= rest).run machine p =
      (rest { t with pendingPosition := n }).run machine { p with view := v } := by
  split
  · exact ⟨p.view.notePosition t.index, 0, rfl⟩
  · exact ⟨p.view, t.pendingPosition, rfl⟩

variable (parseEntityContent isFinal literalDefault) in
/-- A character is stepped over. -/
theorem run_textStep_character (h : textByte input t.index = .character) (p : Parser) :
    ∃ v u, (textStep parseEntityContent isFinal literalDefault input t).run machine p =
        some (u, { p with view := v }) ∧ u.index = t.index + 1 ∧ u.isDone = t.isDone ∧
      u.isSpace = (t.isSpace && isXmlSpace (input.item t.index)) := by
  unfold textByte at h
  dsimp only at h
  split at h
  · cases h
  split at h
  · cases h
  split at h
  · cases h
  split at h
  · cases h
  -- None of the four tests of the step applies.
  next hmarker hreference hcut hcode =>
  unfold textStep
  rw [Content.scene, run_sight_bind]
  obtain ⟨v, n, hnoted⟩ := run_noteBracket (t := t) (p := p) (c := input.item t.index = ']') _
  dsimp only
  rw [hnoted]
  dsimp only
  rw [if_neg hmarker, if_neg hreference, if_neg hcut, if_neg hcode]
  unfold TextScan.isSpace
  cases htext : t.text with
  | some text =>
    refine ⟨v.notePosition t.index, _, rfl, rfl, rfl, ?_⟩
    show isAllXmlSpace (text ++ [input.item t.index]) = _
    unfold isAllXmlSpace
    rw [List.all_append, List.all_cons, List.all_nil, Bool.and_true]
  | none => exact ⟨v, _, rfl, rfl, rfl, rfl⟩

/-- A byte that may not stand in a text is an error. -/
theorem run_textStep_refused (h : textByte input t.index = .refused) {r : TextScan × Parser}
    (hrun : (textStep parseEntityContent isFinal literalDefault input t).run machine p = some r) :
    r.2.core.hasError = true := by
  unfold textStep at hrun
  rw [Content.scene, run_sight_bind] at hrun
  obtain ⟨v, n, hnoted⟩ := run_noteBracket (t := t) (p := p) (c := input.item t.index = ']') _
  dsimp only at hrun
  rw [hnoted] at hrun
  dsimp only at hrun
  unfold textByte at h
  dsimp only at h
  split at h
  · next hmarker =>
    rw [if_pos hmarker] at hrun
    cases hrun
    exact setError_hasError _ _
  · next hmarker =>
    rw [if_neg hmarker] at hrun
    split at h
    · cases h
    next hreference =>
    rw [if_neg hreference] at hrun
    split at h
    · cases h
    next hcut =>
    rw [if_neg hcut] at hrun
    split at h
    · next hcode =>
      rw [if_pos hcode] at hrun
      cases hrun
      exact setError_hasError _ _
    · cases h

/-- A character that the end of the input cuts off ends a text that is not final. -/
theorem run_textStep_cutOff (h : textByte input t.index = .cutOff) {r : TextScan × Parser}
    (hrun : (textStep parseEntityContent isFinal literalDefault input t).run machine p = some r) :
    if isFinal then r.2.core.hasError = true
    else r.1.index = input.length + 1 ∧ r.1.isDone = true ∧ r.1.isSpace = t.isSpace ∧
      ∃ v, r.2 = { p with view := v } := by
  unfold textStep at hrun
  rw [Content.scene, run_sight_bind] at hrun
  obtain ⟨v, n, hnoted⟩ := run_noteBracket (t := t) (p := p) (c := input.item t.index = ']') _
  dsimp only at hrun
  rw [hnoted] at hrun
  dsimp only at hrun
  unfold textByte at h
  dsimp only at h
  split at h
  · cases h
  next hmarker =>
  rw [if_neg hmarker] at hrun
  split at h
  · cases h
  next hreference =>
  rw [if_neg hreference] at hrun
  split at h
  · next hcut =>
    rw [if_pos hcut] at hrun
    cases isFinal with
    | true =>
      cases hrun
      exact setError_hasError _ _
    | false =>
      cases hrun
      exact ⟨rfl, rfl, rfl, _, rfl⟩
  · split at h <;> cases h

/-- An entity may not be referred to here. -/
theorem isInside_iff : p.IsInside ↔
    (p.scene.elements.stack.isEmpty && !p.scene.core.parsingExternalEntity) = false := by
  unfold IsInside
  rw [Bool.and_eq_false_iff, Bool.not_eq_false', ← Bool.not_eq_true, List.isEmpty_iff]
  rfl

variable (parseEntityContent isFinal literalDefault) in
/-- A reference is expanded, unless the end of the input cuts it off or it may not stand here. -/
theorem run_textStep_reference (h : textByte input t.index = .reference) (p : Parser) :
    ∃ v, (textStep parseEntityContent isFinal literalDefault input t).run machine p =
      (if !isFinal ∧ findCharacter input ';' (t.index + 1) = 0 then
          pure { t with index := input.length + 1, isDone := true, pendingPosition := 0 }
        else if p.scene.elements.stack.isEmpty && !p.scene.core.parsingExternalEntity then
          liftM (Routine.failAt "entity reference outside document element"
            { t with index := input.length + 1, pendingPosition := 0 })
        else
          textReference parseEntityContent input literalDefault { t with pendingPosition := 0 } :
        Content TextScan).run machine { p with view := v } := by
  unfold textByte at h
  dsimp only at h
  split at h
  · cases h
  next hmarker =>
  split at h
  · next hreference =>
    unfold textStep
    rw [Content.scene, run_sight_bind]
    obtain ⟨v, n, hnoted⟩ := run_noteBracket (t := t) (p := p) (c := input.item t.index = ']') _
    dsimp only
    rw [hnoted]
    dsimp only
    rw [if_neg hmarker, if_pos hreference]
    exact ⟨v.notePosition t.index, rfl⟩
  · split at h
    · cases h
    · split at h <;> cases h

variable (parseEntityContent input literalDefault) in
/-- What a reference stands for is appended to the text, whatever is reported before. -/
theorem run_textReference (hp : p.handler.NeverStops) (herror : p.core.hasError = false)
    (hsuspended : p.core.isSuspended = false) (t : TextScan) :
    ∃ (v : View) (text : String8) (finish : Nat × String8 → TextScan),
      (∀ r, (finish r).index = r.1 ∧ (finish r).isDone = t.isDone) ∧
      (textReference parseEntityContent input literalDefault t).run machine p =
        (appendReferenceInContent parseEntityContent input t.index text >>= fun r ↦
          pure (finish r)).run machine { p with view := v } := by
  unfold textReference
  dsimp only
  split
  -- The text before the reference is reported first when default data is literal.
  · obtain ⟨v, hv⟩ := onlyReports_emitDefault
      (input.substring t.defaultStart (t.index - 1)) p hp
    refine ⟨v, t.text.getD [], fun r ↦ { t with
      index := r.1, text := some r.2, defaultStart := r.1, defaultEnd := r.1 - 1 },
      fun r ↦ ⟨rfl, rfl⟩, ?_⟩
    rw [Routine.emitDefaultRange, run_bind, hv, Option.bind_some]
    show (if (!p.core.hasError && !p.core.isSuspended) = true then _ else _ : Content TextScan).run
      machine _ = _
    rw [herror, hsuspended]
    rfl
  · exact ⟨p.view, t.text.getD [], fun r ↦ { t with
      index := r.1, text := some r.2, defaultEnd := r.1 - 1 }, fun r ↦ ⟨rfl, rfl⟩, rfl⟩

/-! ## Steps of twins -/

/-- The scans are at the same place, and have seen the same white space where it matters. -/
structure SameScan (p : Parser) (t u : TextScan) : Prop where
  index : t.index = u.index
  isDone : t.isDone = u.isDone
  isSpace : p.IsInside ∨ t.isSpace = u.isSpace

theorem Twin.textReference (hcontent : ParsesAlike parseEntityContent) {literalDefault' : Bool}
    (h : Twin p q) (hindex : t.index = u.index) (hdone : t.isDone = u.isDone) :
    Coupled parted (textReference parseEntityContent input literalDefault t)
      (Xpact.textReference parseEntityContent input literalDefault' u) p q fun t' p' u' q' ↦
      t'.index = u'.index ∧ t'.isDone = u'.isDone ∧ Balanced p p' q' := by
  cases herror : p.core.hasError with
  | true => exact h.failed herror
  | false =>
    obtain ⟨v, text, finish, hfinish, hrun⟩ := run_textReference input literalDefault parseEntityContent
      h.observed.neverStops herror h.isSuspended t
    obtain ⟨w, text', finish', hfinish', hrun'⟩ := run_textReference input literalDefault' parseEntityContent
      h.observed.neverStops' (h.hasError.trans herror) (by rw [h.core]; exact h.isSuspended) u
    rw [← hindex] at hrun'
    have hviews : Balanced p { p with view := v } { q with view := w } := ⟨h.views v w, rfl⟩
    refine Coupled.of_run_eq hrun hrun' (Coupled.bind ((hviews.appendReferenceInContent hcontent
      input t.index text text').mono fun a p₁ b q₁ h₁ ↦ Coupled.done ⟨?_, ?_, h₁.2⟩))
    · rw [(hfinish a).1, (hfinish' b).1, h₁.1]
    · rw [(hfinish a).2, (hfinish' b).2, hdone]

theorem Twin.textStep (hcontent : ParsesAlike parseEntityContent) {literalDefault' : Bool}
    (h : Twin p q) (hsame : SameScan p t u) :
    Coupled parted (textStep parseEntityContent isFinal literalDefault input t)
      (Xpact.textStep parseEntityContent isFinal literalDefault' input u) p q fun t' p' u' q' ↦
      Twin p' q' ∧ SameScan p' t' u' := by
  have hindex := hsame.index
  have hbyte : textByte input u.index = textByte input t.index := by rw [hindex]
  cases hmet : textByte input t.index with
  | refused =>
    intro t' p' u' q' hp hq
    exact .inl ⟨run_textStep_refused hmet hp, .inl (run_textStep_refused (hbyte.trans hmet) hq)⟩
  | cutOff =>
    intro t' p' u' q' hp hq
    have hcut := run_textStep_cutOff hmet hp
    have hcut' := run_textStep_cutOff (hbyte.trans hmet) hq
    cases isFinal with
    | true => exact .inl ⟨hcut, .inl hcut'⟩
    | false =>
      obtain ⟨hstop, hdone, hspace, v, rfl⟩ := hcut
      obtain ⟨hstop', hdone', hspace', w, rfl⟩ := hcut'
      refine .inr ⟨h.views v w, hstop.trans hstop'.symm, hdone.trans hdone'.symm, ?_⟩
      exact hsame.isSpace.imp id fun heq ↦ hspace.trans (heq.trans hspace'.symm)
  | character =>
    obtain ⟨v, t', hrun, hnext, hdone, hspace⟩ := run_textStep_character isFinal literalDefault
      parseEntityContent hmet p
    obtain ⟨w, u', hrun', hnext', hdone', hspace'⟩ := run_textStep_character isFinal literalDefault'
      parseEntityContent (hbyte.trans hmet) q
    refine Coupled.of_run_eq (m := Program.done t') (n := Program.done u') hrun hrun'
      (Coupled.done ⟨h.views v w, ?_, ?_, ?_⟩)
    · rw [hnext, hnext', hindex]
    · rw [hdone, hdone', hsame.isDone]
    · exact hsame.isSpace.imp id fun heq ↦ by rw [hspace, hspace', heq, hindex]
  | reference =>
    obtain ⟨v, hrun⟩ := run_textStep_reference isFinal literalDefault
      parseEntityContent hmet p
    obtain ⟨w, hrun'⟩ := run_textStep_reference isFinal literalDefault'
      parseEntityContent (hbyte.trans hmet) q
    refine Coupled.of_run_eq hrun hrun' ?_
    have hviews := h.views v w
    refine Coupled.ite (by rw [hindex]) (fun _ ↦ Coupled.done ⟨hviews, rfl, rfl, ?_⟩) fun _ ↦ ?_
    · exact hsame.isSpace
    refine Coupled.ite ?_ (fun _ ↦ Alike.failAt) fun hinside ↦ ?_
    · rw [show q.scene.core = p.scene.core from h.core,
        show q.scene.elements.stack.isEmpty = p.scene.elements.stack.isEmpty from h.isEmpty_stack]
    · have hinside : p.IsInside := isInside_iff.2 (Bool.not_eq_true _ ▸ hinside)
      intro t' p' u' q' hp hq
      refine (hviews.textReference hcontent (t := { t with pendingPosition := 0 })
        (u := { u with pendingPosition := 0 }) hindex hsame.isDone hp hq).imp_right fun h' ↦ ?_
      refine ⟨h'.2.2.twin, h'.1, h'.2.1, .inl ?_⟩
      have hexternal : p'.core.parsingExternalEntity = p.core.parsingExternalEntity :=
        congrArg Settings.parsingExternalEntity (settings_of_run hp)
      -- The replacement text is balanced, so what encloses the reference is still there.
      rcases hinside with hopen | hexternal'
      · refine .inl fun hempty ↦ hopen (List.length_eq_zero_iff.1 ?_)
        rw [← List.length_eq_zero_iff, h'.2.2.length] at hempty
        exact hempty
      · exact .inr (hexternal.trans hexternal')

/-! ## Delivery -/

/-- The program reports at most, and returns `a`, when the handler never stops. -/
def ReportsAndReturns (m : Content α) (a : α) : Prop :=
  ∀ p : Parser, p.handler.NeverStops → ∃ v, m.run machine p = some (a, { p with view := v })

theorem OnlyReports.before {m : Content Unit} {n : Content α} {a : α} (hm : OnlyReports m)
    (hn : ReportsAndReturns n a) : ReportsAndReturns (m >>= fun _ ↦ n) a := by
  intro p hp
  obtain ⟨v, hv⟩ := hm p hp
  obtain ⟨w, hw⟩ := hn { p with view := v } hp
  refine ⟨w, ?_⟩
  rw [run_bind, hv, Option.bind_some, hw]

theorem reportsAndReturns_done (a : α) : ReportsAndReturns (pure a) a := fun p _ ↦ ⟨p.view, rfl⟩

theorem onlyReports_noteTokenPosition (i byteCount : Nat) :
    OnlyReports (liftM (Routine.noteTokenPosition i byteCount)) :=
  fun p _ ↦ ⟨p.view.noteTokenPosition i byteCount, rfl⟩

variable (input literalDefault) in
/-- Text is delivered inside an element, and dropped outside when it is white space. -/
theorem run_deliverText (hp : p.handler.NeverStops) (ht : p.IsInside ∨ t.isSpace = true)
    (start : Nat) :
    ∃ v, (deliverText literalDefault input start t).run machine p =
      some (t.index, { p with view := v }) := by
  unfold deliverText
  rw [Content.scene, run_sight_bind]
  show ∃ v, (if (p.scene.elements.stack.isEmpty && !p.scene.core.parsingExternalEntity) = true then _
    else _ : Content Nat).run machine p = _
  split
  · next houtside =>
    have hspace : t.isSpace = true := ht.resolve_left fun hinside ↦ by
      rw [isInside_iff.1 hinside] at houtside
      cases houtside
    show ∃ v, (if (!t.isSpace) = true then _ else _ : Content Nat).run machine p = _
    rw [hspace]
    exact (onlyReports_emitDefault _).before (reportsAndReturns_done _) p hp
  · split
    · refine (onlyReports_emitDefaultWhen _ _).before ?_ p hp
      have hrest (text : String8) : ReportsAndReturns
          (do liftM (Routine.emitText text); return t.index : Content Nat) t.index :=
        (onlyReports_emitText text).before (reportsAndReturns_done _)
      dsimp only
      split
      · exact (onlyReports_noteTokenPosition _ _).before (hrest _)
      · exact (onlyReports_noteTokenPosition _ _).before (hrest _)
    · exact ⟨p.view, rfl⟩

/-- Other text outside the document element is an error. -/
theorem run_deliverText_outside (houtside : ¬p.IsInside) (ht : t.isSpace = false) (start : Nat)
    {r : Nat × Parser} (hrun : (deliverText literalDefault input start t).run machine p = some r) :
    r.2.core.hasError = true := by
  rw [isInside_iff, Bool.not_eq_false] at houtside
  unfold deliverText at hrun
  rw [Content.scene, run_sight_bind] at hrun
  have hrun : (if (p.scene.elements.stack.isEmpty && !p.scene.core.parsingExternalEntity) = true then
    (if (!t.isSpace) = true then _ else _) else _ : Content Nat).run machine p = some r := hrun
  rw [if_pos houtside, ht, Bool.not_false, if_pos rfl] at hrun
  cases hrun
  exact setError_hasError p _

theorem Twin.deliverText {literalDefault' : Bool} (h : Twin p q) (hsame : SameScan p t u)
    (start : Nat) :
    Coupled parted (deliverText literalDefault input start t)
      (Xpact.deliverText literalDefault' input start u) p q fun i p' j q' ↦ i = j ∧ Twin p' q' := by
  have hinside : q.IsInside ↔ p.IsInside := by
    rw [isInside_iff, isInside_iff, show q.scene.core = p.scene.core from h.core,
      show q.scene.elements.stack.isEmpty = p.scene.elements.stack.isEmpty from h.isEmpty_stack]
  -- Outside, white space is dropped and other text is an error, whoever listens.
  by_cases hdelivered : p.IsInside ∨ t.isSpace = true
  · obtain ⟨v, hrun⟩ := run_deliverText input literalDefault
      h.observed.neverStops hdelivered start
    have hdelivered' : q.IsInside ∨ u.isSpace = true := by
      rw [hinside]
      by_cases hp : p.IsInside
      · exact .inl hp
      · exact .inr ((hsame.isSpace.resolve_left hp).symm.trans (hdelivered.resolve_left hp))
    obtain ⟨w, hrun'⟩ := run_deliverText input literalDefault'
      h.observed.neverStops' hdelivered' start
    exact Coupled.of_run_eq (m := Program.done t.index) (n := Program.done u.index) hrun hrun'
      (Coupled.done ⟨hsame.index, h.views v w⟩)
  · rw [not_or, Bool.not_eq_true] at hdelivered
    obtain ⟨hp, ht⟩ := hdelivered
    have hu : u.isSpace = false := (hsame.isSpace.resolve_left hp).symm.trans ht
    exact fun _ _ _ _ hrun hrun' ↦ .inl ⟨run_deliverText_outside hp ht start hrun,
      .inl (run_deliverText_outside (mt hinside.1 hp) hu start hrun')⟩

/-! ## Collected text -/

/-- Is the scan of a text over? -/
theorem run_textFinished (input : String8) (t : TextScan) (p : Parser) :
    (liftM (textFinished input t) : Content Bool).run machine p =
      some (decide (input.length < t.index) || t.isDone ||
        !(!p.core.hasError && !p.core.isSuspended) || input.item t.index == '<', p) := rfl

/-- Scans of twins are over together. -/
theorem Twin.textFinished (h : Twin p q) (hsame : SameScan p t u) :
    Coupled parted (liftM (textFinished input t) : Content Bool) (liftM (Xpact.textFinished input u))
      p q fun x p' y q' ↦ x = y ∧ Twin p' q' ∧ SameScan p' t u := by
  refine Coupled.of_run_eq (m := Program.done _) (n := Program.done _) (run_textFinished input t p)
    (run_textFinished input u q) (Coupled.done ⟨?_, h, hsame⟩)
  rw [hsame.index, hsame.isDone, h.core]

/-- The end of a text: its position is noted, and it is delivered. -/
theorem Twin.finishText {literalDefault' : Bool} (h : Twin p q) (hsame : SameScan p t u)
    (start : Nat) :
    Coupled parted
      (do
        if 0 < t.pendingPosition then Routine.notePosition t.pendingPosition
        if ← Routine.isOngoing then Xpact.deliverText literalDefault input start t
        else return input.length + 1)
      (do
        if 0 < u.pendingPosition then Routine.notePosition u.pendingPosition
        if ← Routine.isOngoing then Xpact.deliverText literalDefault' input start u
        else return input.length + 1) p q fun i p' j q' ↦ i = j ∧ Twin p' q' := by
  refine h.toAlike.reports_when (onlyReports_notePosition _) (onlyReports_notePosition _) fun v w ↦ ?_
  have hviews := h.views v w
  refine hviews.isOngoing_bind fun _ ↦ ?_
  exact hviews.deliverText ⟨hsame.index, hsame.isDone, hsame.isSpace⟩ start

theorem isSpace_begin {c : Prop} [Decidable c] (i j k : Nat) :
    ({ index := i, text := (if c then some [] else none), defaultStart := j,
       defaultEnd := k } : TextScan).isSpace = true := by
  unfold TextScan.isSpace
  by_cases hc : c
  · rw [if_pos hc]
    rfl
  · rw [if_neg hc]

theorem Twin.collectCharacterData (hcontent : ParsesAlike parseEntityContent) (h : Twin p q)
    (start : Nat) :
    Coupled parted (collectCharacterData parseEntityContent isFinal input start)
      (Xpact.collectCharacterData parseEntityContent isFinal input start) p q
      fun i p' j q' ↦ i = j ∧ Twin p' q' := by
  unfold Xpact.collectCharacterData
  refine scene_bind ?_
  refine Coupled.bind ((Coupled.loop (I := fun t p' u q' ↦ Twin p' q' ∧ SameScan p' t u) ?_ ?_ _ _
    ?_).mono fun t p₁ u q₁ h₁ ↦ ?_)
  · exact fun t p₁ u q₁ h₁ ↦ h₁.1.textFinished h₁.2
  · exact fun t p₁ u q₁ h₁ ↦ h₁.1.textStep hcontent h₁.2
  -- One side keeps the text, the other only whether it is white space; both begin empty.
  · refine ⟨h, rfl, rfl, .inr ?_⟩
    rw [isSpace_begin, isSpace_begin]
  · exact h₁.1.finishText h₁.2 start

end

end Parser

end Xpact
