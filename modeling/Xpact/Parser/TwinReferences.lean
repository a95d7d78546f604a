import Xpact.Parser.TwinTags

/-!
# References of twins

A reference in content is expanded alike on twins, when the replacement texts of entities are.
-/

namespace Xpact

open Library Program

namespace Parser

section

variable {parseEntityContent : String8 → Content Unit}

/-- Replacement texts are parsed alike on twins. -/
def ParsesAlike (parseEntityContent : String8 → Content Unit) : Prop :=
  ∀ text p q, Twin p q → Coupled parted (parseEntityContent text) (parseEntityContent text) p q
    fun _ p' _ q' ↦ Twin p' q'

/-- The parsers are twins, and as many elements are open as in `r`. -/
structure Balanced (r p q : Parser) : Prop where
  twin : Twin p q
  length : p.elements.stack.length = r.elements.stack.length

variable {α β : Type} {p q r : Parser} (hcontent : ParsesAlike parseEntityContent)

theorem Balanced.routine_bind {γ δ : Type} {m : Routine α} {f : α → Content γ} {g : α → Content δ}
    {Q : γ → Parser → δ → Parser → Prop} (h : Balanced r p q)
    (hf : ∀ a p' q', Balanced r p' q' → Coupled parted (f a) (g a) p' q' Q) :
    Coupled parted (liftM m >>= f) (liftM m >>= g) p q Q :=
  h.twin.routine_bind fun a p' q' hp h' ↦ hf a p' q' ⟨h',
    (congrArg (fun f : Frame ↦ f.elements.stack.length) (frame_of_run hp)).trans h.length⟩

theorem Balanced.routine (h : Balanced r p q) (m : Routine α) :
    Coupled parted (liftM m : Content α) (liftM m) p q fun a p' b q' ↦ a = b ∧ Balanced r p' q' := by
  rw [← bind_done (liftM m : Content α)]
  exact h.routine_bind fun a p' q' h' ↦ .done ⟨rfl, h'⟩

theorem Twin.raised (h : Twin p q) : Twin (p.step .raiseFloor) (q.step .raiseFloor) :=
  ⟨{ h.toAlike with floor := h.stack_length }, h.scopesExpand⟩

theorem Twin.restored (h : Twin p q) (depth : Nat) :
    Twin (p.step (.restoreFloor depth)) (q.step (.restoreFloor depth)) :=
  ⟨{ h.toAlike with floor := rfl }, h.scopesExpand⟩

include hcontent

/-- Balanced content leaves as many elements open as it finds. -/
theorem Balanced.parseBalancedContent (h : Balanced r p q) (text : String8)
    {entering leaving : Content Unit}
    (hentering : ∀ p q, Twin p q → Coupled parted entering entering p q fun _ p' _ q' ↦ Twin p' q')
    (hleaving : ∀ p q, Twin p q → Coupled parted leaving leaving p q fun _ p' _ q' ↦ Twin p' q') :
    Coupled parted (parseBalancedContent parseEntityContent text entering leaving)
      (Xpact.parseBalancedContent parseEntityContent text entering leaving) p q
      fun b p' b' q' ↦ b = b' ∧ (b = true → Balanced r p' q') := by
  unfold Xpact.parseBalancedContent
  refine scene_bind (scene_bind (act_bind ?_))
  refine Coupled.bind ((hentering _ _ h.twin.raised).mono fun _ p₁ _ q₁ h₁ ↦ ?_)
  refine Coupled.bind ((hcontent text p₁ q₁ h₁).mono fun _ p₂ _ q₂ h₂ ↦ ?_)
  refine Coupled.bind ((hleaving p₂ q₂ h₂).mono fun _ p₃ _ q₃ h₃ ↦ ?_)
  rw [show q.scene.elements.floor = p.scene.elements.floor from h.twin.floor,
    show q.scene.elements.stack.length = p.scene.elements.stack.length from h.twin.stack_length]
  refine act_bind (scene_bind ?_)
  -- The answer compares depths, which are those of the left on both sides.
  have h₄ := h₃.restored p.scene.elements.floor
  cases herror : p₃.core.hasError with
  | true => exact h₄.failed herror
  | false =>
    refine Coupled.done ⟨?_, fun hbalanced ↦ ⟨h₄, ?_⟩⟩
    · show (p₃.core.hasError || p₃.elements.stack.length == p.elements.stack.length) =
        (q₃.core.hasError || q₃.elements.stack.length == p.elements.stack.length)
      rw [h₃.core, h₃.stack_length]
    · have hlength : (p₃.core.hasError || p₃.elements.stack.length == p.elements.stack.length) =
        true := hbalanced
      rw [herror, Bool.false_or] at hlength
      exact (beq_iff_eq.1 hlength).trans h.length

theorem Balanced.includeExternalEntityInContent (h : Balanced r p q)
    (e : ExternalEntity) :
    Coupled parted (includeExternalEntityInContent parseEntityContent e)
      (Xpact.includeExternalEntityInContent parseEntityContent e) p q
      fun _ p' _ q' ↦ Balanced r p' q' := by
  have hconfig : q.scene.config = p.scene.config := h.twin.config
  have hcore : q.scene.core = p.scene.core := h.twin.core
  have hresolver : q.scene.hasResolver = p.scene.hasResolver :=
    congrArg Option.isSome h.twin.externalEntityResolver
  have hpop {m m' : Routine Unit} {p₁ q₁ : Parser} (h₁ : Balanced r p₁ q₁) :
      Coupled parted (liftM m >>= fun _ ↦ liftM m' : Content Unit) (liftM m >>= fun _ ↦ liftM m') p₁ q₁
        fun _ p' _ q' ↦ Balanced r p' q' :=
    h₁.routine_bind fun _ _ _ h₂ ↦ (h₂.routine m').mono fun _ _ _ _ h₃ ↦ h₃.2
  unfold Xpact.includeExternalEntityInContent
  refine scene_bind ?_
  rw [hconfig, hcore, hresolver]
  refine Coupled.ite Iff.rfl (fun _ ↦ hpop h) fun _ ↦ ?_
  refine Coupled.ite Iff.rfl (fun _ ↦ Coupled.ite Iff.rfl (fun _ ↦ hpop h) fun _ ↦ hpop h) fun _ ↦ ?_
  refine Coupled.ite Iff.rfl (fun _ ↦ hpop h) fun _ ↦ ?_
  refine h.routine_bind fun _ p₁ q₁ h₁ ↦ h₁.routine_bind fun replacement p₂ q₂ h₂ ↦ ?_
  cases replacement with
  | none => exact Alike.setError_bind
  | some found =>
    refine h₂.routine_bind fun _ p₃ q₃ h₃ ↦ h₃.twin.hasError_bind fun _ ↦ ?_
    have hbalanced {p₄ q₄ : Parser} (h₄ : Balanced r p₄ q₄) {m m' : Routine Unit} :
        Coupled parted
          (do
            if ← Xpact.parseBalancedContent parseEntityContent found.1 (pure ()) (pure ()) then
              liftM m >>= fun _ ↦ liftM m'
            else
              liftM (Routine.setError "asynchronous entity") >>= fun _ ↦ liftM m >>= fun _ ↦ liftM m')
          (do
            if ← Xpact.parseBalancedContent parseEntityContent found.1 (pure ()) (pure ()) then
              liftM m >>= fun _ ↦ liftM m'
            else
              liftM (Routine.setError "asynchronous entity") >>= fun _ ↦ liftM m >>= fun _ ↦ liftM m')
          p₄ q₄ fun _ p' _ q' ↦ Balanced r p' q' := by
      refine Coupled.bind ((h₄.parseBalancedContent hcontent found.1 (fun _ _ h ↦ .done h)
        fun _ _ h ↦ .done h).mono ?_)
      rintro b p₅ _ q₅ ⟨rfl, h₅⟩
      exact Coupled.ite Iff.rfl (fun hb ↦ hpop (h₅ hb)) fun _ ↦ Alike.setError_bind
    refine Coupled.ite Iff.rfl (fun h ↦ absurd h Bool.false_ne_true) fun _ ↦ ?_
    exact Coupled.ite Iff.rfl (fun _ ↦ h₃.routine_bind fun _ _ _ h₄ ↦ hbalanced h₄) fun _ ↦
      hbalanced h₃

omit hcontent in
theorem onlyReports_emit (e : Event) (he : e.isStructural = false) :
    OnlyReports (liftM (Routine.emit e he)) := by
  intro p hp
  refine ⟨(p.emit e).view, ?_⟩
  show some ((), (p.emit e).checkHandlerStop) = _
  rw [checkHandlerStop_of_neverStops (show (p.emit e).handler.NeverStops from hp)]
  rfl

omit hcontent in
theorem onlyReports_emitText (text : String8) : OnlyReports (liftM (Routine.emitText text)) := by
  intro p hp
  obtain ⟨v, hv⟩ := exists_view_emitText hp text
  exact ⟨v, congrArg (fun p ↦ some ((), p)) hv⟩

omit hcontent in
theorem onlyReports_emitDefault (text : String8) : OnlyReports (liftM (Routine.emitDefault text)) := by
  intro p hp
  obtain ⟨v, hv⟩ := exists_view_emitDefault hp text
  exact ⟨v, congrArg (fun p ↦ some ((), p)) hv⟩

omit hcontent in
theorem Balanced.reports (h : Balanced r p q) {m n : Content Unit} (hm : OnlyReports m)
    (hn : OnlyReports n) :
    Coupled parted m n p q fun _ p' _ q' ↦ Balanced r p' q' := by
  refine (h.twin.reports hm hn).mono ?_
  rintro - p' - q' ⟨v, w, rfl, rfl⟩
  exact ⟨h.twin.views v w, h.length⟩

omit hcontent in
/-- Each parser reports in one of two ways. -/
theorem Twin.reports_either {c d : Prop} [Decidable c] [Decidable d] {m m' n n' : Content Unit}
    {f : Content α} {g : Content β} {Q : α → Parser → β → Parser → Prop} (h : Twin p q)
    (hm : OnlyReports m) (hm' : OnlyReports m') (hn : OnlyReports n) (hn' : OnlyReports n')
    (hrest : ∀ v w, Coupled parted f g { p with view := v } { q with view := w } Q) :
    Coupled parted (if c then m >>= fun _ ↦ f else m' >>= fun _ ↦ f)
      (if d then n >>= fun _ ↦ g else n' >>= fun _ ↦ g) p q Q := by
  split
  · split
    · exact h.reports_bind hm hn hrest
    · exact h.reports_bind hm hn' hrest
  · split
    · exact h.reports_bind hm' hn hrest
    · exact h.reports_bind hm' hn' hrest

theorem Balanced.includeGeneralEntityInContent (h : Balanced r p q) (written : String8) :
    Coupled parted (includeGeneralEntityInContent parseEntityContent written)
      (Xpact.includeGeneralEntityInContent parseEntityContent written) p q
      fun _ p' _ q' ↦ Balanced r p' q' := by
  have hroutine {m : Routine Unit} {p₁ q₁ : Parser} (h₁ : Balanced r p₁ q₁) :
      Coupled parted (liftM m : Content Unit) (liftM m) p₁ q₁ fun _ p' _ q' ↦ Balanced r p' q' :=
    (h₁.routine m).mono fun _ _ _ _ h₂ ↦ h₂.2
  unfold Xpact.includeGeneralEntityInContent
  refine h.routine_bind fun name p₁ q₁ h₁ ↦ scene_bind ?_
  rw [show q₁.scene.core = p₁.scene.core from h₁.twin.core]
  refine Coupled.ite Iff.rfl (fun _ ↦ Coupled.done h₁) fun _ ↦ ?_
  refine Coupled.ite Iff.rfl (fun _ ↦ hroutine h₁) fun _ ↦ ?_
  refine Coupled.ite Iff.rfl (fun _ ↦ hroutine h₁) fun _ ↦ ?_
  split
  · refine h₁.routine_bind fun _ p₂ q₂ h₂ ↦ h₂.twin.hasError_bind fun _ ↦ ?_
    refine Coupled.ite Iff.rfl (fun h ↦ absurd h Bool.false_ne_true) fun _ ↦ ?_
    refine Coupled.bind ((h₂.parseBalancedContent hcontent _ (fun p₃ q₃ h₃ ↦ ?_)
      fun p₃ q₃ h₃ ↦ ?_).mono ?_)
    · exact h₃.routine_bind fun _ p₄ q₄ _ h₄ ↦ act_bind (f := Program.done) (g := Program.done)
        (Coupled.done (h₄.views _ _))
    · exact act_bind ((h₃.views _ _).routine _ |>.mono fun _ _ _ _ h₄ ↦ h₄.2.1)
    · rintro b p₅ _ q₅ ⟨rfl, h₅⟩
      refine Coupled.ite Iff.rfl (fun hb ↦ Coupled.done (h₅ hb)) fun _ ↦ ?_
      exact act_bind (Alike.setError_bind (f := Program.done) (g := Program.done))
  · exact h₁.includeExternalEntityInContent hcontent _
  · refine Coupled.ite Iff.rfl (fun _ ↦ ?_) fun _ ↦ hroutine h₁
    exact h₁.reports ((onlyReports_emit _ rfl).when _) ((onlyReports_emit _ rfl).when _)

/-! ## The reference itself -/

theorem Balanced.appendReferenceInContent (h : Balanced r p q) (input : String8) (start : Nat)
    (text text' : String8) :
    Coupled parted (appendReferenceInContent parseEntityContent input start text)
      (Xpact.appendReferenceInContent parseEntityContent input start text') p q
      fun a p' b q' ↦ a.1 = b.1 ∧ Balanced r p' q' := by
  have hconfig : q.scene.config = p.scene.config := h.twin.config
  unfold Xpact.appendReferenceInContent
  refine scene_bind ?_
  dsimp only
  rw [hconfig]
  refine Coupled.ite Iff.rfl (fun _ ↦ Alike.failAt) fun _ ↦ ?_
  refine Coupled.ite Iff.rfl (fun _ ↦ Alike.failAt) fun _ ↦ ?_
  refine Coupled.ite Iff.rfl (fun _ ↦ h.routine_bind fun _ _ _ h₁ ↦ Coupled.done ⟨rfl, h₁⟩)
    fun _ ↦ ?_
  refine Coupled.ite Iff.rfl (fun _ ↦ Alike.failAt) fun _ ↦ ?_
  refine Coupled.ite Iff.rfl (fun _ ↦ h.routine_bind fun _ _ _ h₁ ↦ Coupled.done ⟨rfl, h₁⟩)
    fun _ ↦ ?_
  -- The text that has been read so far may differ; it is only reported.
  refine Coupled.bind ((h.reports (onlyReports_emitText _) (onlyReports_emitText _)).mono
    fun _ p₁ _ q₁ h₁ ↦ ?_)
  refine Coupled.ite (by rw [show q.scene.handler.expandsInternalGeneralEntityReferences =
    p.scene.handler.expandsInternalGeneralEntityReferences from h.twin.observed.expands])
    (fun _ ↦ ?_) fun _ ↦ ?_
  · refine act_bind ?_
    have h₂ : Balanced r (p₁.step (.pushEntityReferencePosition start
          (findCharacter input ';' (start + 1) - start + 1)))
        (q₁.step (.pushEntityReferencePosition start
          (findCharacter input ';' (start + 1) - start + 1))) := ⟨h₁.twin.views _ _, h₁.length⟩
    refine Coupled.bind ((h₂.includeGeneralEntityInContent hcontent _).mono
      fun _ p₃ _ q₃ h₃ ↦ act_bind ?_)
    have h₄ : Balanced r (p₃.step .popEntityReferencePosition) (q₃.step .popEntityReferencePosition) :=
      ⟨h₃.twin.views _ _, h₃.length⟩
    exact h₄.twin.hasError_bind fun _ ↦ Coupled.done ⟨rfl, h₄⟩
  · refine h₁.twin.reports_either ?_ ?_ ?_ ?_ fun v w ↦
      Coupled.done ⟨rfl, h₁.twin.views v w, h₁.length⟩
    · exact onlyReports_emit _ rfl
    · exact onlyReports_emitDefault _
    · exact onlyReports_emit _ rfl
    · exact onlyReports_emitDefault _

end

end Parser

end Xpact
