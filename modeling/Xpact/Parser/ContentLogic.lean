import Xpact.Parser.Log
import Xpact.Parser.Entry

/-!
# Reasoning about content

A `Logic` is a property of runs that can be established routine by routine: it holds of routines, it
is kept by sequences and choices, and it holds of the four ways to open and close an element and of
the replacement text of an entity.  Such a property holds of every program that an entry point runs.
-/

namespace Xpact

open Library Program

namespace Parser

section

variable {α β : Type} {p q : Parser}

/-! ## Errors -/

/-- An error is never taken back during a run. -/
theorem hasError_of_run {m : Content α} {a : α} (hrun : m.run machine p = some (a, q))
    (hp : p.core.hasError = true) : q.core.hasError = true :=
  run_invariant (I := fun p : Parser ↦ p.core.hasError = true) step_hasError hp hrun

/-- Before a run without an error there was none. -/
theorem no_error_of_run {m : Content α} {a : α} (hrun : m.run machine p = some (a, q))
    (hq : q.core.hasError = false) : p.core.hasError = false := by
  cases hp : p.core.hasError with
  | false => rfl
  | true => exact absurd (hq.symm.trans (hasError_of_run hrun hp)) Bool.false_ne_true

/-- After a reported error there is one at the end. -/
theorem ensures_setError_bind {message : String} {f : Unit → Content α} (p : Parser) :
    Ensures machine marks (liftM (Routine.setError message) >>= f) p fun _ _ q ↦
      q.core.hasError = true :=
  Ensures.bind fun _ q hrun _ _ hrest ↦ by
    obtain ⟨-, rfl⟩ := Prod.mk.inj (Option.some.inj hrun)
    exact hasError_of_run hrest (setError_hasError p message)

theorem settings_of_run {m : Content α} {a : α} (hrun : m.run machine p = some (a, q)) :
    q.settings = p.settings := run_unchanged settings step_settings hrun

/-! ## Places -/

/-- An entity may be referred to here: inside an element, or anywhere in an external entity. -/
def IsInside (p : Parser) : Prop :=
  p.elements.stack ≠ [] ∨ p.core.parsingExternalEntity = true

theorem isInside_of_frame (hframe : q.frame = p.frame) (hp : p.IsInside) : q.IsInside := by
  have helements : q.elements = p.elements := congrArg Frame.elements hframe
  have hexternal : q.core.parsingExternalEntity = p.core.parsingExternalEntity :=
    congrArg (fun f : Frame ↦ f.parsingExternalEntity) hframe
  unfold IsInside
  rw [helements, hexternal]
  exact hp

end

/-! ## Logics -/

structure Logic where
  Holds {α : Type} : Content α → Parser → Prop
  done {α : Type} (a : α) {p : Parser} : Holds (.done a) p
  stuck {α : Type} {p : Parser} : Holds (.stuck : Content α) p
  look {α : Type} {k : Scene → Content α} {p : Parser} : Holds (k p.scene) p → Holds (.look k) p
  bind {α β : Type} {m : Content α} {f : α → Content β} {p : Parser} : Holds m p →
    (∀ a q, m.run machine p = some (a, q) → Holds (f a) q) → Holds (m >>= f) p
  routine {α : Type} (m : Routine α) (p : Parser) : Holds (Content.ofRoutine m) p
  /-- A command that changes the view without delivering anything. -/
  view {a : Act} {p : Parser} (v : View) : p.step a = { p with view := v } → marks a p = [] →
    Holds (Content.act a) p
  openElement (name : String8) (attributes : Attributes) (p : Parser) :
    Holds (openElement name attributes) p
  closeElement (name : String8) (p : Parser) : Holds (closeElement name) p
  openElementRange {p : Parser} : p.config.namespaceMode = false →
    p.handler.wantsStartElementEvents = false → p.elements.usesSlice = true →
    ∀ input nameStart nameEnd, Holds (openElementRange input nameStart nameEnd) p
  closeElementRange {p : Parser} : p.config.namespaceMode = false →
    p.handler.wantsEndElementEvents = false →
    ∀ input nameStart nameEnd, Holds (closeElementRange input nameStart nameEnd) p
  /-- The replacement text of an entity, with what happens when it is not balanced. -/
  balanced {α : Type} {p : Parser} {parseEntityContent : String8 → Content Unit} :
    (∀ text q, Holds (parseEntityContent text) q) → ∀ {entering leaving : Content Unit},
    (∀ q, Holds entering q) → (∀ q, Holds leaving q) → ∀ text : String8, p.IsInside →
    ∀ {rest : Bool → Content α}, (∀ b q, Holds (rest b) q) →
    (∀ q, Ensures machine marks (rest false) q fun _ _ r ↦ r.core.hasError = true) →
    Holds (parseBalancedContent parseEntityContent text entering leaving >>= rest) p

namespace Logic

section

variable (L : Logic) {α β γ : Type} {p q : Parser}

/-! ## Rules -/

/-- A part that only reads hands its value on. -/
theorem read_bind {m : Content α} {f : α → Content β} {a : α} (hrun : m.run machine p = some (a, p))
    (htrace : m.trace machine p = []) (hf : L.Holds (f a) p) : L.Holds (m >>= f) p := by
  induction m with
  | done b =>
    obtain ⟨rfl, -⟩ := Prod.mk.inj (Option.some.inj hrun)
    exact hf
  | look k ih => exact L.look (ih p.scene hrun htrace)
  | exec c k => cases htrace
  | stuck => cases hrun

theorem ite {c : Prop} [Decidable c] {m n : Content α} (hm : c → L.Holds m p)
    (hn : ¬c → L.Holds n p) : L.Holds (if c then m else n) p := by
  split
  · exact hm ‹_›
  · exact hn ‹_›

theorem loop {finished : γ → Content Bool} {body : γ → Content γ}
    (hfinished : ∀ c q, L.Holds (finished c) q) (hbody : ∀ c q, L.Holds (body c) q) (n : Nat) (c : γ) :
    L.Holds (Program.loop finished body n c) p := by
  induction n generalizing c p with
  | zero => exact L.stuck
  | succ n ih =>
    refine L.bind (hfinished c p) fun b q _ ↦ ?_
    cases b with
    | true => exact L.done c
    | false => exact L.bind (hbody c q) fun c' r _ ↦ ih c'

/-- A routine before the rest. -/
theorem routine_bind {m : Routine α} {f : α → Content β}
    (hf : ∀ a q, q.frame = p.frame → L.Holds (f a) q) : L.Holds (liftM m >>= f) p :=
  L.bind (L.routine m p) fun a q hrun ↦ hf a q (quiet_ofRoutine m p hrun).frame

/-- A routine that runs only sometimes, before the rest. -/
theorem when {c : Prop} [Decidable c] {m : Routine Unit} {f : Unit → Content α}
    (hf : ∀ q, q.frame = p.frame → L.Holds (f ()) q) :
    L.Holds (if c then liftM m >>= f else f ()) p := by
  split
  · exact L.routine_bind fun _ q hq ↦ hf q hq
  · exact hf p rfl

/-- A value that a routine computes only sometimes, before the rest. -/
theorem pick {c : Prop} [Decidable c] {m : Routine α} {a : α} {f : α → Content β}
    (hf : ∀ a q, q.frame = p.frame → L.Holds (f a) q) :
    L.Holds (if c then liftM m >>= f else pure a >>= f) p := by
  split
  · exact L.routine_bind hf
  · exact hf a p rfl

/-! ## Tags -/

theorem holds_finishStartTag {opening closing : Content Unit}
    (hopening : ∀ q, q.frame = p.frame → L.Holds opening q)
    (hclosing : ∀ q, q.settings = p.settings → L.Holds closing q) (input : String8)
    (start i : Nat) : L.Holds (finishStartTag input start i opening closing) p := by
  refine L.routine_bind fun r p₁ h₁ ↦ ?_
  refine L.read_bind rfl rfl ?_
  split
  · refine L.routine_bind fun _ p₂ h₂ ↦ ?_
    refine L.routine_bind fun _ p₃ h₃ ↦ ?_
    have hframe : p₃.frame = p.frame := h₃.trans (h₂.trans h₁)
    refine L.bind (hopening p₃ hframe) fun _ p₄ h₄ ↦ L.read_bind rfl rfl ?_
    split
    · refine L.routine_bind fun _ p₅ h₅ ↦ ?_
      have hsettings : p₅.settings = p.settings :=
        (congrArg Frame.toSettings h₅).trans ((settings_of_run h₄).trans (congrArg Frame.toSettings hframe))
      exact L.bind (hclosing p₅ hsettings) fun _ _ _ ↦ L.done _
    · exact L.done _
  · exact L.done _

theorem holds_parseStartTagStrings (bound : Nat) (input : String8)
    (start i : Nat) (name : String8) (p : Parser) :
    L.Holds (parseStartTagStrings bound input start i name) p :=
  L.routine_bind fun r _ _ ↦
    L.holds_finishStartTag (fun q _ ↦ L.openElement name r.2 q)
      (fun q _ ↦ L.closeElement name q) input start r.1

/-- Names stay slices only when neither namespaces nor tags are reported. -/
theorem slices_of_canUse {p : Scene} (hslices : p.canUseElementNameSlices = true) :
    p.config.namespaceMode = false ∧ p.handler.wantsStartElementEvents = false ∧
      p.handler.wantsEndElementEvents = false ∧ p.elements.usesSlice = true := by
  unfold Scene.canUseElementNameSlices at hslices
  simp only [Bool.and_eq_true, Bool.not_eq_true'] at hslices
  obtain ⟨⟨⟨⟨⟨⟨⟨⟨⟨hmode, hstart⟩, hend⟩, -⟩, -⟩, -⟩, -⟩, -⟩, -⟩, huses⟩ := hslices
  exact ⟨hmode, hstart, hend, huses⟩

theorem holds_parseStartTag (bound : Nat) (input : String8) (start : Nat)
    (p : Parser) : L.Holds (parseStartTag bound input start) p := by
  have hfail (message : String) (q : Parser) :
      L.Holds (liftM (Routine.failAt message (input.length + 1)) : Content Nat) q :=
    L.routine _ q
  unfold parseStartTag
  refine L.ite (fun _ ↦ hfail _ p) fun _ ↦ ?_
  refine L.ite (fun _ ↦ hfail _ p) fun _ ↦ ?_
  refine L.ite (fun _ ↦ hfail _ p) fun _ ↦ ?_
  refine L.routine_bind fun next p₁ _ ↦ L.read_bind rfl rfl ?_
  refine L.ite (fun _ ↦ hfail _ p₁) fun _ ↦ L.ite (fun hslices ↦ ?_) fun _ ↦ ?_
  · refine L.read_bind rfl rfl (L.ite (fun _ ↦ L.done _) fun _ ↦ ?_)
    refine L.routine_bind fun i p₂ h₂ ↦ L.ite (fun _ ↦ ?_) fun _ ↦ ?_
    · exact L.holds_parseStartTagStrings bound input start _ _ p₂
    · obtain ⟨hmode, hstart, hend, huses⟩ := slices_of_canUse hslices
      refine L.holds_finishStartTag (fun q hq ↦ ?_) (fun q hq ↦ ?_) input start i
      · have hsame := hq.trans h₂
        apply L.openElementRange
        · exact (congrArg (fun f : Frame ↦ f.config.namespaceMode) hsame).trans hmode
        · exact (congrArg (fun f : Frame ↦ f.handler.wantsStartElementEvents) hsame).trans hstart
        · exact (congrArg (fun f : Frame ↦ f.elements.usesSlice) hsame).trans huses
      · have hsame := hq.trans (congrArg Frame.toSettings h₂)
        apply L.closeElementRange
        · exact (congrArg (fun f : Settings ↦ f.config.namespaceMode) hsame).trans hmode
        · exact (congrArg (fun f : Settings ↦ f.handler.wantsEndElementEvents) hsame).trans hend
  · refine L.routine_bind fun _ p₂ _ ↦ L.read_bind rfl rfl ?_
    refine L.ite (fun _ ↦ L.done _) fun _ ↦ ?_
    exact L.holds_parseStartTagStrings bound input start _ _ p₂

theorem holds_parseEndTag (input : String8) (start : Nat)
    (p : Parser) : L.Holds (parseEndTag input start) p := by
  have hfail (message : String) (q : Parser) :
      L.Holds (liftM (Routine.failAt message (input.length + 1)) : Content Nat) q :=
    L.routine _ q
  refine L.routine_bind fun _ p₁ _ ↦ ?_
  refine L.ite (fun _ ↦ hfail _ p₁) fun _ ↦ ?_
  refine L.routine_bind fun next p₂ _ ↦ L.read_bind rfl rfl ?_
  refine L.ite (fun _ ↦ hfail _ p₂) fun _ ↦ ?_
  refine L.when fun p₃ h₃ ↦ L.read_bind rfl rfl ?_
  refine L.ite (fun _ ↦ L.done _) fun _ ↦ L.ite (fun _ ↦ ?_) fun _ ↦ ?_
  · refine L.routine_bind fun _ p₄ h₄ ↦ ?_
    refine L.routine_bind fun _ p₅ h₅ ↦ ?_
    have hframe := h₅.trans (h₄.trans h₃)
    refine L.ite (fun hslices ↦ ?_) fun _ ↦ ?_
    · rw [Bool.and_eq_true, Bool.not_eq_true', Bool.not_eq_true'] at hslices
      refine L.bind (L.closeElementRange ?_ ?_ _ _ _) fun _ _ _ ↦ L.done _
      · exact (congrArg (fun f : Frame ↦ f.config.namespaceMode) hframe).trans hslices.1
      · exact (congrArg (fun f : Frame ↦ f.handler.wantsEndElementEvents) hframe).trans hslices.2
    · exact L.bind (L.closeElement _ p₅) fun _ _ _ ↦ L.done _
  · exact L.routine_bind fun _ q _ ↦ hfail _ q

/-! ## References in content -/

section Content

variable {parseEntityContent : String8 → Content Unit}
  (hcontent : ∀ text q, L.Holds (parseEntityContent text) q)

include hcontent

theorem holds_includeExternalEntityInContent
    (e : ExternalEntity)
    (hinside : p.IsInside) :
    L.Holds (includeExternalEntityInContent parseEntityContent e) p := by
  have hlast {m : Routine Unit} (q : Parser) : L.Holds (liftM m) q := L.routine m q
  have hpop {m m' : Routine Unit} (q : Parser) : L.Holds (liftM m >>= fun _ ↦ liftM m') q :=
    L.routine_bind fun _ r _ ↦ hlast r
  unfold includeExternalEntityInContent
  refine L.read_bind rfl rfl ?_
  refine L.ite (fun _ ↦ hpop p) fun _ ↦ ?_
  refine L.ite (fun _ ↦ L.ite (fun _ ↦ hpop p) fun _ ↦ hpop p) fun _ ↦ ?_
  refine L.ite (fun _ ↦ hpop p) fun _ ↦ ?_
  refine L.routine_bind fun _ p₁ h₁ ↦ L.routine_bind fun r p₂ h₂ ↦ ?_
  split
  · refine L.routine_bind fun _ p₃ h₃ ↦ L.read_bind rfl rfl ?_
    refine L.ite (fun _ ↦ hpop p₃) fun _ ↦ L.when fun p₄ h₄ ↦ ?_
    have hinside₄ : p₄.IsInside :=
      isInside_of_frame (h₄.trans (h₃.trans (h₂.trans h₁))) hinside
    refine L.balanced hcontent (fun q ↦ L.done ()) (fun q ↦ L.done ()) _ hinside₄ (fun b q ↦ ?_)
      fun q ↦ ensures_setError_bind q
    exact L.ite (fun _ ↦ hpop q) fun _ ↦ L.routine_bind fun _ r _ ↦ hpop r
  · exact L.routine_bind fun _ q _ ↦ hpop q

theorem holds_includeGeneralEntityInContent (written : String8)
    (hinside : p.IsInside) :
    L.Holds (includeGeneralEntityInContent parseEntityContent written) p := by
  unfold includeGeneralEntityInContent
  refine L.routine_bind fun name p₁ h₁ ↦ L.read_bind rfl rfl ?_
  have hinside₁ : p₁.IsInside := isInside_of_frame h₁ hinside
  refine L.ite (fun _ ↦ L.done _) fun _ ↦ ?_
  refine L.ite (fun _ ↦ L.routine _ _) fun _ ↦ ?_
  refine L.ite (fun _ ↦ L.routine _ _) fun _ ↦ ?_
  split
  · refine L.routine_bind fun _ p₂ h₂ ↦ L.read_bind rfl rfl ?_
    refine L.ite (fun _ ↦ L.done _) fun _ ↦ ?_
    refine L.balanced hcontent (fun q ↦ ?_) (fun q ↦ ?_) _ (isInside_of_frame h₂ hinside₁)
      (fun b q ↦ ?_) fun q ↦ ?_
    · exact L.routine_bind fun _ r _ ↦ L.view _ rfl (marks_of_events rfl)
    · exact L.bind (L.view _ rfl (marks_of_events rfl)) fun _ r _ ↦ L.routine _ r
    · exact L.ite (fun _ ↦ L.done ()) fun _ ↦
        L.routine (do Program.command .noteCurrentEntityReferencePosition; Routine.setError _) q
    · exact Ensures.bind fun _ r _ _ _ hrun ↦ by
        obtain ⟨-, rfl⟩ := Prod.mk.inj (Option.some.inj hrun)
        exact setError_hasError r _
  · exact L.holds_includeExternalEntityInContent hcontent _ hinside₁
  · refine L.ite (fun _ ↦ L.ite (fun _ ↦ ?_) fun _ ↦ L.done _) fun _ ↦ ?_
    · exact L.routine _ p₁
    · exact L.routine _ p₁

theorem holds_appendReferenceInContent (input : String8) (start : Nat)
    (text : String8) (hinside : p.IsInside) :
    L.Holds (appendReferenceInContent parseEntityContent input start text) p := by
  unfold appendReferenceInContent
  refine L.read_bind rfl rfl ?_
  refine L.ite (fun _ ↦ L.routine _ p) fun _ ↦ ?_
  refine L.ite (fun _ ↦ L.routine _ p) fun _ ↦ ?_
  refine L.ite (fun _ ↦ L.routine_bind fun _ q _ ↦ L.done _) fun _ ↦ ?_
  refine L.ite (fun _ ↦ L.routine _ p) fun _ ↦ ?_
  refine L.ite (fun _ ↦ L.routine_bind fun _ q _ ↦ L.done _) fun _ ↦ ?_
  refine L.routine_bind fun _ p₁ h₁ ↦ L.ite (fun _ ↦ ?_) fun _ ↦ ?_
  · have hinside₁ : (p₁.step (.pushEntityReferencePosition start
        (findCharacter input ';' (start + 1) - start + 1))).IsInside :=
      isInside_of_frame h₁ hinside
    refine L.bind (L.view _ rfl (marks_of_events rfl)) fun _ p₂ h₂ ↦ ?_
    obtain ⟨-, rfl⟩ := Prod.mk.inj (Option.some.inj h₂)
    refine L.bind (L.holds_includeGeneralEntityInContent hcontent _ hinside₁)
      fun _ p₃ _ ↦ ?_
    refine L.bind (L.view _ rfl (marks_of_events rfl)) fun _ p₄ _ ↦ ?_
    exact L.read_bind rfl rfl (L.done _)
  · refine L.ite (fun _ ↦ ?_) fun _ ↦ ?_
    · exact L.routine_bind fun _ q _ ↦ L.done _
    · exact L.routine_bind fun _ q _ ↦ L.done _

/-! ## Text -/

theorem holds_textReference (input : String8)
    (literalDefault : Bool) (t : TextScan) (hinside : p.IsInside) :
    L.Holds (textReference parseEntityContent input literalDefault t) p := by
  unfold textReference
  refine L.ite (fun _ ↦ ?_) fun _ ↦ ?_
  · refine L.routine_bind fun _ p₁ h₁ ↦ L.read_bind rfl rfl ?_
    refine L.ite (fun _ ↦ ?_) fun _ ↦ L.done _
    refine L.bind ?_ fun _ _ _ ↦ L.done _
    exact L.holds_appendReferenceInContent hcontent input _ _ (isInside_of_frame h₁ hinside)
  · refine L.bind ?_ fun _ _ _ ↦ L.done _
    exact L.holds_appendReferenceInContent hcontent input _ _ hinside

theorem holds_textStep (isFinal literalDefault : Bool)
    (input : String8) (t : TextScan) (p : Parser) :
    L.Holds (textStep parseEntityContent isFinal literalDefault input t) p := by
  unfold textStep
  refine L.read_bind rfl rfl ?_
  refine L.pick fun t₁ p₁ h₁ ↦ ?_
  refine L.ite (fun _ ↦ L.routine _ p₁) fun _ ↦ L.ite (fun _ ↦ ?_) fun _ ↦ ?_
  · refine L.routine_bind fun t₂ p₂ h₂ ↦ L.ite (fun _ ↦ L.done _) fun _ ↦ ?_
    refine L.ite (fun _ ↦ L.routine _ p₂) fun houtside ↦ ?_
    have hinside : p.IsInside := by
      by_cases hexternal : p.core.parsingExternalEntity = true
      · exact .inr hexternal
      · refine .inl fun hempty ↦ houtside ?_
        show (p.elements.stack.isEmpty && !p.core.parsingExternalEntity) = true
        rw [hempty, Bool.eq_false_iff.2 hexternal]
        rfl
    exact L.holds_textReference hcontent input literalDefault t₂
      (isInside_of_frame (h₂.trans h₁) hinside)
  refine L.ite (fun _ ↦ ?_) fun _ ↦ L.ite (fun _ ↦ ?_) fun _ ↦ ?_
  · refine L.routine_bind fun _ p₂ _ ↦ ?_
    exact L.ite (fun _ ↦ L.routine _ p₂) fun _ ↦ L.done _
  · exact L.routine_bind fun _ p₂ _ ↦ L.routine _ p₂
  · dsimp only
    split
    · exact L.routine_bind fun _ _ _ ↦ L.done _
    · exact L.done _

omit hcontent in
theorem holds_deliverText (literalDefault : Bool) (input : String8)
    (start : Nat) (t : TextScan) (p : Parser) :
    L.Holds (deliverText literalDefault input start t) p := by
  unfold deliverText
  refine L.read_bind rfl rfl (L.ite (fun _ ↦ ?_) fun _ ↦ ?_)
  · refine L.ite (fun _ ↦ L.routine _ p) fun _ ↦ ?_
    exact L.routine_bind fun _ _ _ ↦ L.done _
  · split
    · refine L.routine_bind fun _ p₁ _ ↦ ?_
      split
      · refine L.routine_bind fun _ p₂ _ ↦ ?_
        exact L.routine_bind fun _ _ _ ↦ L.done _
      · refine L.routine_bind fun _ p₂ _ ↦ ?_
        exact L.routine_bind fun _ _ _ ↦ L.done _
    · exact L.done _

theorem holds_collectCharacterData (isFinal : Bool) (input : String8)
    (start : Nat) (p : Parser) :
    L.Holds (collectCharacterData parseEntityContent isFinal input start) p := by
  unfold collectCharacterData
  refine L.read_bind rfl rfl (L.bind (L.loop ?_ ?_ _ _) fun t p₁ _ ↦ ?_)
  · exact fun t q ↦ L.routine _ q
  · exact fun t q ↦ L.holds_textStep hcontent isFinal _ input t q
  · refine L.when fun p₂ _ ↦ L.read_bind rfl rfl ?_
    refine L.ite (fun _ ↦ L.holds_deliverText _ input start t p₂) fun _ ↦ L.done _

theorem holds_parseCharacterData (input : String8) (start : Nat)
    (p : Parser) : L.Holds (parseCharacterData parseEntityContent input start) p := by
  unfold parseCharacterData
  refine L.read_bind rfl rfl (L.pick fun result p₁ _ ↦ ?_)
  refine L.ite (fun _ ↦ ?_) fun _ ↦ L.done _
  refine L.bind (L.view _ rfl ?_) fun _ p₂ _ ↦ ?_
  · exact marks_of_events (View.forceCurrentPosition_events _)
  · exact L.holds_collectCharacterData hcontent true input start p₂

/-! ## Markup and content -/

omit hcontent in
theorem holds_parseMarkup (bound : Nat) (input : String8) (start : Nat)
    (p : Parser) : L.Holds (parseMarkup bound input start) p := by
  unfold parseMarkup
  refine L.ite (fun _ ↦ L.holds_parseEndTag input start p) fun _ ↦ ?_
  refine L.ite (fun _ ↦ L.routine _ p) fun _ ↦ ?_
  refine L.ite (fun _ ↦ L.routine _ p) fun _ ↦ ?_
  refine L.ite (fun _ ↦ L.routine _ p) fun _ ↦ ?_
  refine L.ite (fun _ ↦ L.routine _ p) fun _ ↦ ?_
  refine L.ite (fun _ ↦ L.routine _ p) fun _ ↦ ?_
  refine L.ite (fun _ ↦ L.ite (fun _ ↦ ?_) fun _ ↦ ?_) fun _ ↦ ?_
  · exact L.routine _ p
  · exact L.routine _ p
  · exact L.holds_parseStartTag bound input start p

theorem holds_entityContentStep (bound : Nat) (content : String8)
    (i : Nat) (p : Parser) :
    L.Holds (entityContentStep bound parseEntityContent content i) p := by
  unfold entityContentStep
  refine L.routine_bind fun _ p₁ _ ↦ ?_
  refine L.ite (fun _ ↦ L.routine _ p₁) fun _ ↦ L.ite (fun _ ↦ ?_) fun _ ↦ ?_
  · exact L.holds_parseMarkup bound content i p₁
  · exact L.holds_parseCharacterData hcontent content i p₁

end Content

theorem holds_parseEntityContent (bound : Nat) (content : String8)
    (p : Parser) : L.Holds (parseEntityContent bound content) p := by
  induction bound generalizing content p with
  | zero => exact L.stuck
  | succ bound ih =>
    refine L.bind (L.loop ?_ ?_ _ _) fun _ _ _ ↦ L.done _
    · exact fun i q ↦ L.read_bind rfl rfl (L.done _)
    · exact fun i q ↦ L.holds_entityContentStep ih bound content i q

/-! ## Documents -/

theorem holds_documentStep (bound : Nat) (input : String8) (i : Nat)
    (p : Parser) : L.Holds (documentStep bound input i) p := by
  have hcontent := L.holds_parseEntityContent bound
  have hlast {next : Nat} (q : Parser) :
      L.Holds (do Routine.unlessError (Routine.notePosition next); return next) q :=
    L.routine_bind fun _ _ _ ↦ L.done _
  unfold documentStep
  refine L.routine_bind fun _ p₁ _ ↦ L.ite (fun _ ↦ ?_) fun _ ↦ ?_
  · exact L.bind (L.holds_parseMarkup bound input i p₁) fun _ q _ ↦ hlast q
  · exact L.bind (L.holds_parseCharacterData hcontent input i p₁) fun _ q _ ↦ hlast q

theorem holds_readInput (input : String8) (canDefer : Bool) (p : Parser) :
    L.Holds (readInput input canDefer) p := by
  unfold readInput
  refine L.read_bind rfl rfl (L.routine_bind fun _ p₁ _ ↦ ?_)
  refine L.bind (L.view _ rfl (marks_of_events rfl)) fun _ p₂ _ ↦ ?_
  refine L.bind (L.view _ rfl (marks_of_events rfl)) fun _ p₃ _ ↦ ?_
  exact L.routine_bind fun _ _ _ ↦ L.done _

theorem holds_checkAtEnd (text : String8) (condition : Scene → Bool) (message : String)
    (p : Parser) : L.Holds (checkAtEnd text condition message) p := by
  unfold checkAtEnd
  refine L.read_bind rfl rfl (L.ite (fun _ ↦ ?_) fun _ ↦ L.done ())
  exact L.routine (do Routine.notePosition (text.length + 1); Routine.setError message) p

/-- The tokens of a text, from those of each step. -/
theorem holds_tokens {step : String8 → Nat → Content Nat} (text : String8)
    (hstep : ∀ i q, L.Holds (step text i) q) (start : Nat) (p : Parser) :
    L.Holds (tokens step text start) p :=
  L.loop (fun _ q ↦ L.routine _ q) hstep _ _

theorem holds_document (bound : Nat) (input : String8) (p : Parser) :
    L.Holds (document bound input) p := by
  unfold document
  refine L.read_bind rfl rfl ?_
  refine L.bind (L.holds_readInput input _ p) fun text p₁ _ ↦ ?_
  refine L.bind (L.holds_tokens text (L.holds_documentStep bound text) 1 p₁) fun _ p₂ _ ↦ ?_
  refine L.bind (L.holds_checkAtEnd text _ _ p₂) fun _ p₃ _ ↦ ?_
  refine L.bind (L.holds_checkAtEnd text _ _ p₃) fun _ p₄ _ ↦ ?_
  refine L.routine_bind fun _ p₅ _ ↦ ?_
  refine L.bind (L.view _ rfl ?_) fun _ p₆ _ ↦ L.routine _ p₆
  exact marks_of_events (View.forceCurrentPosition_events _)

theorem holds_documentPrefixStep (bound : Nat) (input : String8) (i : Nat) (p : Parser) :
    L.Holds (documentPrefixStep bound input i) p := by
  have hcontent := L.holds_parseEntityContent bound
  have hlast (next : Nat) (q : Parser) :
      L.Holds (do Routine.unlessError (Routine.notePosition next); return next) q :=
    L.routine_bind fun _ _ _ ↦ L.done _
  unfold documentPrefixStep
  refine L.routine_bind fun _ p₁ _ ↦ L.ite (fun _ ↦ L.ite (fun _ ↦ ?_) fun _ ↦ ?_) fun _ ↦ ?_
  · exact L.when fun p₂ _ ↦ hlast _ p₂
  · exact L.bind (L.holds_parseMarkup bound input i p₁) fun next q _ ↦ hlast next q
  · exact L.bind (L.holds_collectCharacterData hcontent false input i p₁) fun next q _ ↦ hlast next q

theorem holds_documentPrefix (bound : Nat) (input : String8) (p : Parser) :
    L.Holds (documentPrefix bound input) p := by
  refine L.bind (L.holds_readInput input false p) fun text p₁ _ ↦ ?_
  refine L.bind (L.holds_tokens text (L.holds_documentPrefixStep bound text) 1 p₁) fun _ p₂ _ ↦ ?_
  exact L.routine _ p₂

theorem holds_externalEntity (bound : Nat) (input : String8) (p : Parser) :
    L.Holds (externalEntity bound input) p := by
  have hlast (text : String8) (q : Parser) :
      L.Holds (do
        checkAtEnd text (fun p ↦ !p.elements.stack.isEmpty) "asynchronous entity"
        Routine.whileOngoing (Routine.notePosition (text.length + 1))
        Routine.isOngoing) q :=
    L.bind (L.holds_checkAtEnd text _ _ q) fun _ r _ ↦ L.routine_bind fun _ t _ ↦ L.routine _ t
  unfold externalEntity
  refine L.bind (L.holds_readInput input false p) fun text p₁ _ ↦ L.read_bind rfl rfl ?_
  refine L.ite (fun _ ↦ hlast text p₁) fun _ ↦ L.ite (fun _ ↦ ?_) fun _ ↦ ?_
  · exact L.routine_bind fun _ p₂ _ ↦ hlast text p₂
  · exact L.bind (L.holds_tokens text (L.holds_documentStep bound text) 1 p₁) fun _ p₂ _ ↦
      hlast text p₂

theorem holds_externalSubset (bound : Nat) (input : String8) (entityContext : Option String8)
    (p : Parser) : L.Holds (externalSubset bound input entityContext) p := by
  unfold externalSubset
  refine L.bind (L.holds_readInput input false p) fun text p₁ _ ↦ L.read_bind rfl rfl ?_
  dsimp only
  split
  · refine L.routine_bind fun _ p₂ _ ↦ L.routine_bind fun _ p₃ _ ↦ L.when fun p₄ _ ↦ ?_
    exact L.routine_bind fun _ p₅ _ ↦ L.routine _ p₅
  · refine L.routine_bind fun _ p₃ _ ↦ L.when fun p₄ _ ↦ ?_
    exact L.routine_bind fun _ p₅ _ ↦ L.routine _ p₅

theorem holds_externalSubsetPrefix (bound : Nat) (input : String8) (p : Parser) :
    L.Holds (externalSubsetPrefix bound input) p := by
  refine L.bind (L.holds_readInput input false p) fun text p₁ _ ↦ ?_
  refine L.routine_bind fun _ p₂ _ ↦ L.routine_bind fun _ p₃ _ ↦ L.routine _ p₃

theorem holds_checkParameterLiteral (bound : Nat) (input : String8) (p : Parser) :
    L.Holds (checkParameterLiteral bound input) p := by
  unfold checkParameterLiteral
  refine L.ite (fun _ ↦ L.routine _ p) fun _ ↦ ?_
  exact L.bind (L.holds_tokens input (L.holds_documentStep bound input) 1 p) fun _ _ _ ↦ L.done ()

/-- What holds of the routines holds of every entry point. -/
theorem holds_program (entry : Entry) (bound : Nat) (input : String8) (p : Parser) :
    L.Holds (entry.program bound input) p := by
  cases entry with
  | document => exact L.holds_document bound input p
  | documentPrefix => exact L.holds_documentPrefix bound input p
  | externalEntity => exact L.holds_externalEntity bound input p
  | externalEntityPrefix => exact L.holds_documentPrefix bound input p
  | externalSubset entityContext => exact L.holds_externalSubset bound input entityContext p
  | externalSubsetPrefix => exact L.holds_externalSubsetPrefix bound input p

theorem holds_bodyStep (bound : Nat) (isFinal : Bool) (input : String8) (i : Nat) (p : Parser) :
    L.Holds (bodyStep bound isFinal input i) p := by
  have hcontent := L.holds_parseEntityContent bound
  have hlast (next : Nat) (q : Parser) :
      L.Holds (do Routine.unlessError (Routine.notePosition next); return next) q :=
    L.routine_bind fun _ _ _ ↦ L.done _
  unfold bodyStep
  refine L.routine_bind fun _ p₁ _ ↦ L.ite (fun _ ↦ L.ite (fun _ ↦ ?_) fun _ ↦ ?_) fun _ ↦
    L.ite (fun _ ↦ ?_) fun _ ↦ ?_
  · exact hlast _ p₁
  · exact L.bind (L.holds_parseMarkup bound input i p₁) fun next q _ ↦ hlast next q
  · exact L.bind (L.holds_parseCharacterData hcontent input i p₁) fun next q _ ↦ hlast next q
  · exact L.bind (L.holds_collectCharacterData hcontent false input i p₁) fun next q _ ↦ hlast next q

theorem holds_documentBody (bound : Nat) (isFinal : Bool) (textBefore body : String8) (p : Parser) :
    L.Holds (documentBody bound isFinal textBefore body) p := by
  have hlast (text : String8) (q : Parser) :
      L.Holds (do
        Routine.whileOngoing (Routine.notePosition (text.length + 1))
        Content.act .forceCurrentPosition
        Routine.isOngoing) q :=
    L.routine_bind fun _ r _ ↦
      L.bind (L.view _ rfl (marks_of_events (View.forceCurrentPosition_events _))) fun _ t _ ↦
        L.routine _ t
  unfold documentBody
  refine L.read_bind rfl rfl (L.routine_bind fun body p₁ _ ↦ ?_)
  refine L.bind (L.view _ rfl (marks_of_events rfl)) fun _ p₂ _ ↦ ?_
  refine L.bind (L.holds_tokens _ (L.holds_bodyStep bound isFinal _) _ p₂) fun _ p₃ _ ↦ ?_
  refine L.read_bind rfl rfl (L.ite (fun _ ↦ ?_) fun _ ↦ hlast _ p₃)
  refine L.ite (fun _ ↦ ?_) fun _ ↦ L.ite (fun _ ↦ ?_) fun _ ↦ hlast _ p₃
  · exact L.routine_bind fun _ p₄ _ ↦ hlast _ p₄
  · exact L.routine_bind fun _ p₄ _ ↦ hlast _ p₄

end

end Logic

end Parser

end Xpact
