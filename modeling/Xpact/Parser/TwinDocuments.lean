import Xpact.Parser.Interruptions
import Xpact.Parser.Normalization
import Xpact.Parser.TwinPlainText

/-!
# Documents of twins

What a parser reads of a text, accepts of it and keeps of it does not depend on whether anybody
listens, with one exception: without listeners a carriage return that a character reference has put
into the replacement text of an entity is refused.
-/

namespace Xpact

open Library Program

namespace Parser

section

variable {α β : Type} {input : String8} {p q : Parser}

/-- A routine that ends a step. -/
theorem Twin.routine_value (h : Twin p q) (m : Routine α) :
    Coupled parted (liftM m : Content α) (liftM m) p q fun a p' b q' ↦ a = b ∧ Twin p' q' :=
  (h.routine m).mono fun _ _ _ _ h' ↦ ⟨h'.1, h'.2.1⟩

/-! ## Content -/

theorem Twin.parseMarkup (h : Twin p q) (bound : Nat) (start : Nat) :
    Coupled parted (parseMarkup bound input start) (Xpact.parseMarkup bound input start) p q
      fun i p' j q' ↦ i = j ∧ Twin p' q' := by
  unfold Xpact.parseMarkup
  refine Coupled.ite Iff.rfl (fun _ ↦ h.parseEndTag start) fun _ ↦ ?_
  refine Coupled.ite Iff.rfl (fun _ ↦ h.routine_value _) fun _ ↦ ?_
  refine Coupled.ite Iff.rfl (fun _ ↦ h.routine_value _) fun _ ↦ ?_
  refine Coupled.ite Iff.rfl (fun _ ↦ h.routine_value _) fun _ ↦ ?_
  refine Coupled.ite Iff.rfl (fun _ ↦ h.routine_value _) fun _ ↦ ?_
  refine Coupled.ite Iff.rfl (fun _ ↦ h.routine_value _) fun _ ↦ ?_
  refine Coupled.ite Iff.rfl (fun _ ↦ ?_) fun _ ↦ h.parseStartTag bound start
  exact Coupled.ite Iff.rfl (fun _ ↦ h.routine_value _) fun _ ↦ h.routine_value _

theorem Twin.entityContentStep {parseEntityContent : String8 → Content Unit}
    (hcontent : ParsesAlike parseEntityContent) (h : Twin p q) (bound i : Nat) :
    Coupled parted (entityContentStep bound parseEntityContent input i)
      (Xpact.entityContentStep bound parseEntityContent input i) p q
      fun i p' j q' ↦ i = j ∧ Twin p' q' := by
  refine h.routine_bind fun _ p₁ q₁ _ h₁ ↦ ?_
  refine Coupled.ite Iff.rfl (fun _ ↦ h₁.routine_value _) fun _ ↦ ?_
  exact Coupled.ite Iff.rfl (fun _ ↦ h₁.parseMarkup bound i) fun _ ↦ h₁.parseCharacterData hcontent i

/-- Replacement texts are parsed alike, however deeply they are nested. -/
theorem parsesAlike_parseEntityContent (bound : Nat) : ParsesAlike (parseEntityContent bound) := by
  induction bound with
  | zero => exact fun _ _ _ _ ↦ Coupled.stuck_left
  | succ bound ih =>
    intro text p q h
    refine Coupled.bind ((Coupled.loop (I := fun i p' j q' ↦ i = j ∧ Twin p' q') ?_ ?_ _ _
      ⟨rfl, h⟩).mono fun _ _ _ _ h' ↦ Coupled.done h'.2)
    · rintro i p₁ _ q₁ ⟨rfl, h₁⟩
      exact (h₁.routine_value (do return text.length < i || !(← Routine.isOngoing))).mono
        fun _ _ _ _ h' ↦ ⟨h'.1, rfl, h'.2⟩
    · rintro i p₁ _ q₁ ⟨rfl, h₁⟩
      exact h₁.entityContentStep ih bound i

/-! ## Input -/

/-- Whether a text is copied or returned itself, it is read as it would be copied. -/
theorem run_normalizedInput_either {isUtf8 : Bool} (allowAlias : Bool) {source : String8} {same : Bool}
    {r : Parser} (hr : r.core.hasError = false) (hsame : same = true → source = input)
    (hdecoded : (decodedInput isUtf8 input).run routineMachine p = some ((source, same), r)) :
    ∃ text p', (normalizedInput isUtf8 input allowAlias).run routineMachine p = some (text, p') ∧
      p'.core.hasError = (normalizedFrom source (source.length + 1) (textStart r.config source same)).2 ∧
      (p'.core.hasError = false → p' = r ∧
        text = (normalizedFrom source (source.length + 1) (textStart r.config source same)).1) := by
  by_cases hcheck : (allowAlias && same && !holdsMark r.config source same) = true
  · have hstart : textStart r.config source same = 1 := by
      have hmark := (Bool.and_eq_true_iff.1 hcheck).2
      rw [Bool.not_eq_true'] at hmark
      unfold textStart
      rw [hmark, if_neg Bool.false_ne_true]
    obtain ⟨text, p', hread, herror, htext⟩ := check_agrees hr hsame hcheck hdecoded
    rw [hstart]
    exact ⟨text, p', hread, herror.trans (copied_hasError hr 1), fun h ↦ ⟨(htext h).2, (htext h).1⟩⟩
  · have hread := run_normalizedInput_of_copy hdecoded hr (Bool.not_eq_true _ ▸ hcheck)
    exact ⟨_, _, hread, copied_hasError hr _, fun h ↦ ⟨copied_snd hr h, rfl⟩⟩

/-- The input is read alike, whether it is copied or not. -/
theorem Twin.coupled_normalizedInput (h : Twin p q) (isUtf8 allowAlias allowAlias' : Bool) :
    Coupled partedRoutines (normalizedInput isUtf8 input allowAlias)
      (normalizedInput isUtf8 input allowAlias') p q fun t p' u q' ↦ t = u ∧ Twin p' q' := by
  cases hp : p.core.hasError with
  | true => exact Coupled.settled (S := partedRoutines) ⟨hp, .inl (h.hasError.trans hp)⟩
  | false =>
    obtain ⟨⟨source, same⟩, r, hdecoded, -, hsame⟩ := recognizes_decodedInput p.config isUtf8 input p rfl
    obtain ⟨d, r', hdecoded', -, -⟩ := recognizes_decodedInput q.config isUtf8 input q rfl
    -- The bytes are decoded alike; only what is done with the text depends on the listener.
    have hagree := run_related (M := routineMachine) (N := routineMachine) (R := Alike)
      (fun _ _ h ↦ h.sight) (fun c _ _ h ↦ h.stepRoutine c) (decodedInput isUtf8 input) h.toAlike
    rw [hdecoded, hdecoded'] at hagree
    obtain ⟨rfl, halike⟩ := hagree
    have hr' : r'.core.hasError = r.core.hasError := halike.hasError
    cases hr : r.core.hasError with
    | true =>
      have hread : (normalizedInput isUtf8 input allowAlias).run routineMachine p = some ([], r) :=
        run_normalizedInput_of_error hdecoded hr
      have hread' : (normalizedInput isUtf8 input allowAlias').run routineMachine q = some ([], r') :=
        run_normalizedInput_of_error hdecoded' (hr'.trans hr)
      exact Coupled.of_run_eq (m := Program.done []) (n := Program.done []) hread hread'
        (Coupled.settled (S := partedRoutines) ⟨hr, .inl (hr'.trans hr)⟩)
    | false =>
      obtain ⟨text, p', hread, herror, htext⟩ := run_normalizedInput_either allowAlias hr
        (fun hs ↦ hsame (Bool.eq_false_iff.1 hr) hs) hdecoded
      obtain ⟨text', q', hread', herror', htext'⟩ := run_normalizedInput_either allowAlias'
        (hr'.trans hr) (fun hs ↦ hsame (Bool.eq_false_iff.1 hr) hs) hdecoded'
      rw [halike.config] at herror' htext'
      refine Coupled.of_run_eq (m := Program.done text) (n := Program.done text') hread hread' ?_
      cases hp' : p'.core.hasError with
      | true =>
        exact Coupled.settled (S := partedRoutines) ⟨hp', .inl (herror'.trans (herror.symm.trans hp'))⟩
      | false =>
        obtain ⟨rfl, rfl⟩ := htext hp'
        obtain ⟨rfl, rfl⟩ := htext' (herror'.trans (herror.symm.trans hp'))
        exact Coupled.done ⟨rfl, halike, h.scopesExpand.of_frame (frame_of_run hdecoded)⟩

theorem Twin.readInput (h : Twin p q) (canDefer canDefer' : Bool) :
    Coupled parted (readInput input canDefer) (Xpact.readInput input canDefer') p q
      fun t p' u q' ↦ t = u ∧ Twin p' q' := by
  unfold Xpact.readInput
  show Coupled parted (liftM (normalizedInput p.core.inputIsUtf8 input canDefer) >>= _)
    (liftM (normalizedInput q.core.inputIsUtf8 input canDefer') >>= _) p q _
  rw [h.core]
  refine Coupled.bind ((Coupled.ofRoutine (h.coupled_normalizedInput _ _ _)).mono ?_)
  rintro text p₁ _ q₁ ⟨rfl, h₁⟩
  refine act_bind (act_bind ?_)
  exact (h₁.views _ _).routine_bind fun _ p₂ q₂ _ h₂ ↦ Coupled.done ⟨rfl, h₂⟩

/-! ## Documents -/

/-- The tokens of a text are read alike. -/
theorem Twin.tokens (h : Twin p q) {step : String8 → Nat → Content Nat}
    (hstep : ∀ i p q, Twin p q → Coupled parted (step input i) (step input i) p q
      fun i p' j q' ↦ i = j ∧ Twin p' q') (start : Nat) :
    Coupled parted (tokens step input start) (Xpact.tokens step input start) p q
      fun i p' j q' ↦ i = j ∧ Twin p' q' := by
  refine Coupled.loop (I := fun i p' j q' ↦ i = j ∧ Twin p' q') ?_ ?_ _ _ ⟨rfl, h⟩
  · rintro i p₁ _ q₁ ⟨rfl, h₁⟩
    exact (h₁.routine_value _).mono fun _ _ _ _ h' ↦ ⟨h'.1, rfl, h'.2⟩
  · rintro i p₁ _ q₁ ⟨rfl, h₁⟩
    exact hstep i p₁ q₁ h₁

/-- What follows a token. -/
theorem Twin.noteNext {m n : Content Nat} (hm : Coupled parted m n p q fun i p' j q' ↦ i = j ∧ Twin p' q') :
    Coupled parted
      (do let next ← m; Routine.unlessError (Routine.notePosition next); return next)
      (do let next ← n; Routine.unlessError (Routine.notePosition next); return next) p q
      fun i p' j q' ↦ i = j ∧ Twin p' q' := by
  refine Coupled.bind (hm.mono ?_)
  rintro next p₁ _ q₁ ⟨rfl, h₁⟩
  exact h₁.routine_bind fun _ _ _ _ h₂ ↦ Coupled.done ⟨rfl, h₂⟩

theorem Twin.documentStep (bound i : Nat) (h : Twin p q) :
    Coupled parted (documentStep bound input i) (Xpact.documentStep bound input i) p q
      fun i p' j q' ↦ i = j ∧ Twin p' q' := by
  refine h.routine_bind fun _ p₁ q₁ _ h₁ ↦ ?_
  refine Coupled.ite Iff.rfl (fun _ ↦ Twin.noteNext (h₁.parseMarkup bound i)) fun _ ↦ ?_
  exact Twin.noteNext (h₁.parseCharacterData (parsesAlike_parseEntityContent bound) i)

theorem Twin.documentPrefixStep (bound i : Nat) (h : Twin p q) :
    Coupled parted (documentPrefixStep bound input i) (Xpact.documentPrefixStep bound input i) p q
      fun i p' j q' ↦ i = j ∧ Twin p' q' := by
  have hlast {p₁ q₁ : Parser} (h₁ : Twin p₁ q₁) (next : Nat) :
      Coupled parted
        (do Routine.unlessError (Routine.notePosition next); return next : Content Nat)
        (do Routine.unlessError (Routine.notePosition next); return next) p₁ q₁
        fun i p' j q' ↦ i = j ∧ Twin p' q' :=
    h₁.routine_bind fun _ _ _ _ h₂ ↦ Coupled.done ⟨rfl, h₂⟩
  refine h.routine_bind fun _ p₁ q₁ _ h₁ ↦ Coupled.ite Iff.rfl (fun _ ↦ ?_) fun _ ↦ ?_
  · refine Coupled.ite Iff.rfl (fun _ ↦ ?_) fun _ ↦ Twin.noteNext (h₁.parseMarkup bound i)
    refine Coupled.ite Iff.rfl (fun _ ↦ ?_) fun _ ↦ hlast h₁ _
    exact h₁.routine_bind fun _ p₂ q₂ _ h₂ ↦ hlast h₂ _
  · exact Twin.noteNext (h₁.collectCharacterData (parsesAlike_parseEntityContent bound) i)

/-- What is found missing at the end is missing on both sides. -/
theorem Twin.checkAtEnd (h : Twin p q) (text : String8) {condition : Scene → Bool}
    (hcondition : condition q.scene = condition p.scene) (message : String) :
    Coupled parted (checkAtEnd text condition message) (Xpact.checkAtEnd text condition message) p q
      fun _ p' _ q' ↦ Twin p' q' := by
  unfold Xpact.checkAtEnd
  refine scene_bind (Coupled.ite ?_ (fun _ ↦ ?_) fun _ ↦ Coupled.done h)
  · rw [hcondition, Scene.isOngoing, Scene.isOngoing, show q.scene.core = p.scene.core from h.core]
  · exact h.routine_bind fun _ p₁ q₁ _ _ ↦ Alike.setError_bind (f := Program.done) (g := Program.done)

theorem Twin.isEmpty_stack (h : Twin p q) :
    (!q.scene.elements.stack.isEmpty) = !p.scene.elements.stack.isEmpty :=
  congrArg not h.toAlike.isEmpty_stack

theorem Twin.documentElementCount (h : Twin p q) :
    (q.scene.core.documentElementCount == 0) = (p.scene.core.documentElementCount == 0) :=
  congrArg (fun c : Core ↦ c.documentElementCount == 0) h.core

theorem Twin.document (h : Twin p q) (bound : Nat) :
    Coupled parted (document bound input) (Xpact.document bound input) p q
      fun ok p' ok' q' ↦ ok = ok' ∧ Twin p' q' := by
  unfold Xpact.document
  refine scene_bind (Coupled.bind ((h.readInput _ _).mono ?_))
  rintro text p₁ _ q₁ ⟨rfl, h₁⟩
  refine Coupled.bind ((h₁.tokens (fun i _ _ h ↦ h.documentStep bound i) 1).mono ?_)
  rintro _ p₂ _ q₂ ⟨-, h₂⟩
  refine Coupled.bind ((h₂.checkAtEnd text h₂.isEmpty_stack _).mono fun _ p₃ _ q₃ h₃ ↦ ?_)
  refine Coupled.bind ((h₃.checkAtEnd text h₃.documentElementCount _).mono fun _ p₄ _ q₄ h₄ ↦ ?_)
  exact h₄.routine_bind fun _ p₅ q₅ _ h₅ ↦ act_bind ((h₅.views _ _).routine_value _)

theorem Twin.documentPrefix (h : Twin p q) (bound : Nat) :
    Coupled parted (documentPrefix bound input) (Xpact.documentPrefix bound input) p q
      fun ok p' ok' q' ↦ ok = ok' ∧ Twin p' q' := by
  refine Coupled.bind ((h.readInput false false).mono ?_)
  rintro text p₁ _ q₁ ⟨rfl, h₁⟩
  refine Coupled.bind ((h₁.tokens (fun i _ _ h ↦ h.documentPrefixStep bound i) 1).mono ?_)
  rintro _ p₂ _ q₂ ⟨-, h₂⟩
  exact h₂.routine_value _

theorem Twin.externalEntity (h : Twin p q) (bound : Nat) :
    Coupled parted (externalEntity bound input) (Xpact.externalEntity bound input) p q
      fun ok p' ok' q' ↦ ok = ok' ∧ Twin p' q' := by
  have hlast {p₁ q₁ : Parser} (h₁ : Twin p₁ q₁) (text : String8) :
      Coupled parted
        (do
          Xpact.checkAtEnd text (fun p ↦ !p.elements.stack.isEmpty) "asynchronous entity"
          Routine.whileOngoing (Routine.notePosition (text.length + 1))
          Routine.isOngoing)
        (do
          Xpact.checkAtEnd text (fun p ↦ !p.elements.stack.isEmpty) "asynchronous entity"
          Routine.whileOngoing (Routine.notePosition (text.length + 1))
          Routine.isOngoing) p₁ q₁ fun ok p' ok' q' ↦ ok = ok' ∧ Twin p' q' :=
    Coupled.bind ((h₁.checkAtEnd text h₁.isEmpty_stack _).mono fun _ p₂ _ q₂ h₂ ↦
      h₂.routine_bind fun _ p₃ q₃ _ h₃ ↦ h₃.routine_value _)
  unfold Xpact.externalEntity
  refine Coupled.bind ((h.readInput false false).mono ?_)
  rintro text p₁ _ q₁ ⟨rfl, h₁⟩
  refine h₁.hasError_bind fun _ ↦ Coupled.ite Iff.rfl (fun h ↦ absurd h Bool.false_ne_true) fun _ ↦ ?_
  refine Coupled.ite Iff.rfl (fun _ ↦ ?_) fun _ ↦ ?_
  · exact h₁.routine_bind fun _ p₂ q₂ _ h₂ ↦ hlast h₂ text
  · refine Coupled.bind ((h₁.tokens (fun i _ _ h ↦ h.documentStep bound i) 1).mono ?_)
    exact fun _ p₂ _ q₂ h₂ ↦ hlast h₂.2 text

theorem Twin.externalSubset (h : Twin p q) (bound : Nat) (entityContext : Option String8) :
    Coupled parted (externalSubset bound input entityContext)
      (Xpact.externalSubset bound input entityContext) p q
      fun ok p' ok' q' ↦ ok = ok' ∧ Twin p' q' := by
  have hlast {p₁ q₁ : Parser} (h₁ : Twin p₁ q₁) (text : String8) :
      Coupled parted
        (do Routine.whileOngoing (Routine.notePosition (text.length + 1)); Routine.isOngoing : Content Bool)
        (do Routine.whileOngoing (Routine.notePosition (text.length + 1)); Routine.isOngoing) p₁ q₁
        fun ok p' ok' q' ↦ ok = ok' ∧ Twin p' q' :=
    h₁.routine_bind fun _ p₂ q₂ _ h₂ ↦ h₂.routine_value _
  unfold Xpact.externalSubset
  refine Coupled.bind ((h.readInput false false).mono ?_)
  rintro text p₁ _ q₁ ⟨rfl, h₁⟩
  refine h₁.routine_bind fun cfg p₂ q₂ _ h₂ ↦ ?_
  dsimp only
  split
  · refine h₂.routine_bind fun _ p₃ q₃ _ h₃ ↦ h₃.routine_bind fun _ p₄ q₄ _ h₄ ↦ ?_
    exact Coupled.ite Iff.rfl (fun _ ↦ h₄.routine_bind fun _ _ _ _ h₅ ↦ hlast h₅ text) fun _ ↦
      hlast h₄ text
  · refine h₂.routine_bind fun _ p₃ q₃ _ h₃ ↦ ?_
    exact Coupled.ite Iff.rfl (fun _ ↦ h₃.routine_bind fun _ _ _ _ h₄ ↦ hlast h₄ text) fun _ ↦
      hlast h₃ text

theorem Twin.externalSubsetPrefix (h : Twin p q) (bound : Nat) :
    Coupled parted (externalSubsetPrefix bound input) (Xpact.externalSubsetPrefix bound input) p q
      fun ok p' ok' q' ↦ ok = ok' ∧ Twin p' q' := by
  refine Coupled.bind ((h.readInput false false).mono ?_)
  rintro text p₁ _ q₁ ⟨rfl, h₁⟩
  refine h₁.routine_bind fun _ p₂ q₂ _ h₂ ↦ h₂.routine_bind fun _ p₃ q₃ _ h₃ ↦ ?_
  exact h₃.routine_value _

/-- Twins read alike at every entry point. -/
theorem Twin.program (h : Twin p q) (entry : Entry) (bound : Nat) :
    Coupled parted (entry.program bound input) (entry.program bound input) p q
      fun ok p' ok' q' ↦ ok = ok' ∧ Twin p' q' := by
  cases entry with
  | document => exact h.document bound
  | documentPrefix => exact h.documentPrefix bound
  | externalEntity => exact h.externalEntity bound
  | externalEntityPrefix => exact h.documentPrefix bound
  | externalSubset entityContext => exact h.externalSubset bound entityContext
  | externalSubsetPrefix => exact h.externalSubsetPrefix bound

/-! ## Calls -/

/-- At the start of a call a parser and the same parser with another handler are twins. -/
theorem twin_start {handler : Handler} (h : p.handler.ObservedBy handler) (entry : Entry) :
    Twin (p.start entry) ({ p with handler := handler }.start entry) where
  config := rfl
  core := rfl
  cachedDoctype := rfl
  externalEntityResolver := rfl
  requests := rfl
  observed := h
  isAligned := Nat.le_refl 0
  isAligned' := Nat.le_refl 0
  names := rfl
  floor := rfl
  isSuspended := rfl
  scopesExpand _ := ⟨[], rfl, .nil⟩

end

end Parser

/-- What a handler listens to does not change what is accepted: the parser with a listener accepts what
the parser without one accepts, and ends with the same declarations, requests and state of the parse;
and it accepts more only where the parser without a listener does not take a byte for a character. -/
theorem observed_call_agrees {p p' q' : Parser} {handler : Handler}
    (hobserved : p.handler.ObservedBy handler) {entry : Entry} {bound : Nat} {input : String8}
    {ok ok' : Bool} (hp : p.call entry bound input = some (ok, p'))
    (hq : { p with handler := handler }.call entry bound input = some (ok', q')) :
    (ok = true → ok' = true ∧ q'.core = p'.core ∧ q'.elements.names = p'.elements.names ∧
        q'.requests = p'.requests) ∧
      (ok' = true → ok = true ∨ p'.view.lastError = "invalid XML character") := by
  obtain ⟨⟨a, r⟩, hrun, hr⟩ := Option.map_eq_some_iff.1 hp
  obtain ⟨rfl, rfl⟩ := Prod.mk.inj hr
  obtain ⟨⟨b, t⟩, hrun', ht⟩ := Option.map_eq_some_iff.1 hq
  obtain ⟨rfl, rfl⟩ := Prod.mk.inj ht
  have hanswer := Parser.answersOngoing_program entry bound input hrun
  have hanswer' := Parser.answersOngoing_program entry bound input hrun'
  have hfails {ok : Bool} {u : Parser} (hok : ok = u.scene.isOngoing) (hu : u.core.hasError = true) :
      ok ≠ true := by
    rw [hok, Scene.isOngoing, show u.scene.core.hasError = true from hu]
    exact Bool.false_ne_true
  rcases (Parser.twin_start hobserved entry).program entry bound hrun hrun' with hparted | ⟨rfl, htwin⟩
  · refine ⟨fun hok ↦ absurd hok (hfails hanswer hparted.1), fun hok ↦ .inr ?_⟩
    exact hparted.2.resolve_left fun hboth ↦ hfails hanswer' hboth hok
  · refine ⟨fun hok ↦ ⟨hok, ?_, htwin.names, htwin.requests⟩, .inl⟩
    simp only [Parser.finish, htwin.core]

/-! ## Examples -/

/-- A new parser to which nobody listens. -/
def unobserved : Parser := Parser.make {} .null

/-- A new parser to which somebody listens. -/
def observed : Parser := { unobserved with handler := .observing }

/-- A document with an attribute, an empty element and a reference. -/
def referringText : String8 := str "<!DOCTYPE a [<!ENTITY e \"x\">]><a b=\"1\"><c/>&e;</a>"

theorem isSome_unobserved : (unobserved.call .document 2 referringText).isSome = true := by
  decide +kernel

theorem isSome_observed : (observed.call .document 2 referringText).isSome = true := by
  decide +kernel

def unobservedCall : Bool × Parser :=
  (unobserved.call .document 2 referringText).get isSome_unobserved

def observedCall : Bool × Parser := (observed.call .document 2 referringText).get isSome_observed

theorem observedBy_observing : Handler.null.ObservedBy .observing :=
  ⟨rfl, rfl, fun _ ↦ rfl, fun _ ↦ rfl, rfl⟩

/-- The document is accepted without a listener, and so it is with one. -/
theorem observed_call_agrees_reference :
    observedCall.1 = true ∧ observedCall.2.core = unobservedCall.2.core := by
  have hp : unobserved.call .document 2 referringText = some (unobservedCall.1, unobservedCall.2) :=
    (Option.some_get isSome_unobserved).symm
  have hq : observed.call .document 2 referringText = some (observedCall.1, observedCall.2) :=
    (Option.some_get isSome_observed).symm
  have hagree := observed_call_agrees (p := unobserved) observedBy_observing hp hq
  obtain ⟨hok, hcore, -⟩ := hagree.1 (by decide +kernel)
  exact ⟨hok, hcore⟩

/-- The declarations of a parser that has read an entity whose text holds a carriage return. -/
def carriageReturnContext : Option Parser :=
  (unobserved.call .document 2 (str "<!DOCTYPE a [<!ENTITY e \"<b c='&#13;'/>\">]><a/>")).map Prod.snd

-- The exception: with these declarations the listener makes a difference.
example : carriageReturnContext.bind (fun parent ↦
    ((unobserved.importEntityContext parent).call .document 2 (str "<a>&e;</a>")).map Prod.fst) =
      some false := by
  decide +kernel

example : carriageReturnContext.bind (fun parent ↦
    ((observed.importEntityContext parent).call .document 2 (str "<a>&e;</a>")).map Prod.fst) =
      some true := by
  decide +kernel

end Xpact
