import Xpact.Parser.ElementStacks

/-!
# Limits

The class invariant as far as it bounds the state of a parse: the open elements, the counted
document elements, the scopes of namespaces and the accounted replacement text.  An element is
pushed only below the limit and the base scope is never left, which is checked right before; the
accounting of replacement text is right after every command.
-/

namespace Xpact

open Library Program

namespace Parser

/-- The clauses of the invariant on the stacks of elements. -/
structure WithinElementLimits (p : Parser) : Prop where
  isAligned : p.elements.IsAligned
  depth : p.elements.stack.length ≤ p.config.maxElementDepth
  documentElements : p.core.documentElementCount ≤ 1
  namespaces : p.core.namespaceContexts ≠ []

/-- The replacement text of a parse without an error is within its budget. -/
def WithinExpansionLimit (p : Parser) : Prop :=
  p.core.hasError = false → p.core.expandedEntityBytes ≤ maxEntityExpansionBytes

/-- Another element may be opened. -/
def HasDepth (p : Parser) : Prop := p.elements.stack.length < p.config.maxElementDepth

/-- What the code checks before a command. -/
def IsPermitted (a : Act) (p : Parser) : Prop :=
  match a with
  | .pushElement _ => p.HasDepth
  | .pushElementSlice _ => p.HasDepth ∧ p.elements.usesSlice = true
  | .popNamespaceContext => p.core.namespaceContexts.length ≠ 1
  | _ => True

/-- Every command of a program is permitted. -/
def Permits {α : Type} (m : Content α) (p : Parser) : Prop :=
  Assures machine IsPermitted m p fun _ _ ↦ True

section

variable {α β : Type} {p q : Parser}

/-! ## Commands -/

theorem WithinElementLimits.of_eq (hp : p.WithinElementLimits) (hconfig : q.config = p.config)
    (helements : q.elements.stack = p.elements.stack)
    (hslices : q.elements.sliceStack = p.elements.sliceStack)
    (hcount : q.core.documentElementCount = p.core.documentElementCount)
    (hcontexts : q.core.namespaceContexts = p.core.namespaceContexts) : q.WithinElementLimits := by
  constructor
  · show q.elements.sliceStack.length ≤ q.elements.stack.length
    rw [helements, hslices]
    exact hp.isAligned
  · rw [helements, hconfig]
    exact hp.depth
  · rw [hcount]
    exact hp.documentElements
  · rw [hcontexts]
    exact hp.namespaces

/-- A permitted command keeps the limits. -/
theorem WithinElementLimits.step (hp : p.WithinElementLimits) (a : Act) (ha : IsPermitted a p) :
    (p.step a).WithinElementLimits := by
  cases a with
  | routine c =>
    have hframe := stepRoutine_frame c p
    apply hp.of_eq
    · exact congrArg (fun f : Frame ↦ f.config) hframe
    · exact congrArg (fun f : Frame ↦ f.elements.stack) hframe
    · exact congrArg (fun f : Frame ↦ f.elements.sliceStack) hframe
    · exact congrArg Frame.documentElementCount hframe
    · exact congrArg Frame.namespaceContexts hframe
  | countDocumentElement => exact ⟨hp.isAligned, hp.depth, Nat.le_refl 1, hp.namespaces⟩
  | pushElement name =>
    exact ⟨Nat.le_succ_of_le hp.isAligned, ha, hp.documentElements, hp.namespaces⟩
  | pushElementSlice name =>
    exact ⟨Nat.succ_le_succ hp.isAligned, ha.1, hp.documentElements, hp.namespaces⟩
  | popElement =>
    refine ⟨Elements.isAligned_pop hp.isAligned, ?_, hp.documentElements, hp.namespaces⟩
    exact Nat.le_trans (List.length_tail ▸ Nat.sub_le _ 1) hp.depth
  | pushNamespace scope declared =>
    exact ⟨hp.isAligned, hp.depth, hp.documentElements, List.cons_ne_nil scope _⟩
  | popNamespaceContext =>
    -- Not the last scope, so another one is left.
    refine ⟨hp.isAligned, hp.depth, hp.documentElements, fun hempty ↦ ?_⟩
    have hlength := congrArg List.length (show p.core.namespaceContexts.tail = [] from hempty)
    rw [List.length_tail, List.length_nil] at hlength
    have hpos := List.length_pos_iff.2 hp.namespaces
    have hbase : p.core.namespaceContexts.length ≠ 1 := ha
    omega
  | _ => exact hp.of_eq rfl rfl rfl rfl rfl

theorem WithinExpansionLimit.of_eq (hp : p.WithinExpansionLimit)
    (hbytes : q.core.expandedEntityBytes = p.core.expandedEntityBytes)
    (herror : p.core.hasError = true → q.core.hasError = true) : q.WithinExpansionLimit := by
  intro hq
  rw [hbytes]
  apply hp
  cases hp : p.core.hasError with
  | false => rfl
  | true => exact absurd ((herror hp).symm.trans hq) Bool.noConfusion

/-- Text over the budget is an error at once. -/
theorem withinExpansionLimit_note (p : Parser) (count : Int) :
    (p.noteEntityExpansion count).WithinExpansionLimit := by
  intro herror
  unfold noteEntityExpansion at herror ⊢
  dsimp only at herror ⊢
  split at herror
  · exact absurd ((setError_hasError _ _).symm.trans herror) Bool.noConfusion
  · rename_i hbytes
    rw [if_neg hbytes]
    exact Int.not_lt.1 hbytes

theorem WithinExpansionLimit.step (hp : p.WithinExpansionLimit) (a : Act) :
    (p.step a).WithinExpansionLimit := by
  cases a with
  | routine c =>
    -- Other commands leave the counter alone, and none takes an error back.
    have hother (heffect : (p.effect c).core.expandedEntityBytes = p.core.expandedEntityBytes) :
        (p.stepRoutine c).WithinExpansionLimit :=
      hp.of_eq (stepRoutine_unchanged c p (·.core.expandedEntityBytes) (fun _ ↦ rfl) heffect)
        (step_hasError (.routine c) p)
    cases c with
    | noteEntityExpansion count => exact withinExpansionLimit_note p count
    | resolve request =>
      exact hother (resolve_unchanged (·.core.expandedEntityBytes) p request (fun _ _ _ ↦ rfl)
        fun _ _ ↦ rfl)
    | _ => exact hother rfl
  | _ => exact hp

/-! ## Elements -/

theorem permits_bind {m : Content α} {f : α → Content β} (hm : Permits m p)
    (hf : ∀ a q, m.run machine p = some (a, q) → Permits (f a) q) : Permits (m >>= f) p :=
  Assures.bind ⟨hm.always, fun hrun ↦ hf _ _ hrun⟩

theorem permits_routine (m : Routine α) (p : Parser) : Permits (Content.ofRoutine m) p :=
  Assures.lift (Assures.of_commands (J := fun _ ↦ True) (fun _ _ _ ↦ ⟨trivial, trivial⟩) m trivial)

theorem permits_emitStructural (e : Event) (p : Parser) : Permits (Content.emitStructural e) p :=
  Assures.bind (Assures.command trivial (permits_routine Routine.checkHandlerStop _))

theorem permits_forM {γ : Type} {f : γ → Content Unit} (cs : List γ)
    (hf : ∀ c q, Permits (f c) q) (p : Parser) : Permits (cs.forM f) p :=
  Assures.forM (J := fun _ ↦ True) cs (fun c _ q _ ↦ hf c q) trivial

/-- An element may be opened only below the limit. -/
theorem assures_hasDepth (p : Parser) :
    Assures machine IsPermitted checkElementStart p fun ok q ↦
      ok = true → q.HasDepth ∧ q.elements = p.elements := by
  have hfail (message : String) :
      Assures machine IsPermitted (liftM (Routine.failAt message false) : Content Bool) p
        fun ok q ↦ ok = true → q.HasDepth ∧ q.elements = p.elements := by
    refine ⟨(permits_routine _ p).always, fun hrun ↦ ?_⟩
    obtain ⟨rfl, -⟩ := Prod.mk.inj (Option.some.inj hrun)
    exact nofun
  unfold checkElementStart
  refine Assures.read_bind rfl rfl ?_
  dsimp only
  split
  · exact hfail _
  rename_i hdepth
  have hroom : p.HasDepth := Nat.lt_of_not_le hdepth
  split
  · exact hfail _
  split
  · exact Assures.bind (Assures.command trivial (Assures.done fun _ ↦ ⟨hroom, rfl⟩))
  · exact Assures.done fun _ ↦ ⟨hroom, rfl⟩

theorem permits_emitStartNamespaceDeclarations (declared : List String8) (scope : NamespaceScope)
    (p : Parser) : Permits (emitStartNamespaceDeclarations declared scope) p := by
  refine permits_forM declared (fun nsPrefix q ↦ Assures.read_bind rfl rfl ?_) p
  split
  · split
    · exact permits_emitStructural _ q
    · exact Assures.done trivial
  · exact Assures.done trivial

theorem permits_pushElement {rest : Content Unit} (name : String8) (event : ElementEvent)
    (hp : p.HasDepth) (hrest : ∀ q, Permits rest q) :
    Permits (Content.act (.pushElement name) >>= fun _ ↦
      Content.scene >>= fun s ↦
        if s.config.namespaceMode = true then
          Content.act (.pushNamespace event.scope event.declared) >>= fun _ ↦
            emitStartNamespaceDeclarations event.declared event.scope >>= fun _ ↦ rest
        else rest) p := by
  refine Assures.bind (Assures.command hp (Assures.read_bind rfl rfl ?_))
  split
  · refine Assures.bind (Assures.command trivial ?_)
    exact permits_bind (permits_emitStartNamespaceDeclarations _ _ _) fun _ q _ ↦ hrest q
  · exact hrest _

theorem permits_openElement (name : String8) (attributes : Attributes) (p : Parser) :
    Permits (openElement name attributes) p := by
  unfold openElement
  refine Assures.bind ((assures_hasDepth p).mono fun ok p₁ hok ↦ ?_)
  cases ok with
  | false => exact Assures.done trivial
  | true =>
    refine permits_bind (permits_routine (prepareElement name attributes) p₁) fun event p₂ hrun ↦ ?_
    have hframe : p₂.frame = p₁.frame := (quiet_ofRoutine _ p₁ hrun).frame
    -- Defaults and namespaces are applied between the check and the push; no routine pushes.
    have hroom : p₂.HasDepth := by
      have helements : p₂.elements = p₁.elements := congrArg Frame.elements hframe
      have hconfig : p₂.config = p₁.config := congrArg (fun f : Frame ↦ f.config) hframe
      show p₂.elements.stack.length < p₂.config.maxElementDepth
      rw [helements, hconfig]
      exact (hok rfl).1
    have hlast (q : Parser) : Permits
        (Content.scene >>= fun s ↦ liftM Routine.isOngoing >>= fun ongoing ↦
          if (ongoing && s.handler.wantsStartElementEvents) = true then
            Content.emitStructural (.startElement event.name event.attributes)
          else pure ()) q := by
      refine Assures.read_bind rfl rfl (Assures.read_bind rfl rfl ?_)
      split
      · exact permits_emitStructural _ _
      · exact Assures.done trivial
    refine Assures.read_bind rfl rfl ?_
    split
    · exact hlast p₂
    · exact permits_pushElement name event hroom hlast

theorem permits_openElementRange (hslices : p.elements.usesSlice = true) (input : String8)
    (nameStart nameEnd : Nat) : Permits (openElementRange input nameStart nameEnd) p := by
  refine Assures.bind ((assures_hasDepth p).mono fun ok q hok ↦ ?_)
  cases ok with
  | false => exact Assures.done trivial
  | true =>
    obtain ⟨hroom, helements⟩ := hok rfl
    exact Assures.command ⟨hroom, helements ▸ hslices⟩ trivial

theorem permits_checkElementEnd (name : String8) (p : Parser) :
    Permits (checkElementEnd name) p := by
  unfold checkElementEnd
  refine Assures.read_bind rfl rfl ?_
  dsimp only
  split
  · exact permits_routine _ p
  split
  · exact Assures.bind (Assures.command trivial (permits_routine _ _))
  split
  · exact permits_routine _ p
  · exact Assures.done trivial

theorem permits_closeElementRange (input : String8) (nameStart nameEnd : Nat) (p : Parser) :
    Permits (closeElementRange input nameStart nameEnd) p := by
  refine permits_bind (permits_checkElementEnd _ p) fun ok q _ ↦ ?_
  cases ok with
  | false => exact Assures.done trivial
  | true => exact Assures.command trivial trivial

theorem permits_closeNamespaces (p : Parser) : Permits closeNamespaces p := by
  have hleave (q : Parser) : Permits
      (Content.scene >>= fun s ↦
        if 1 < s.core.namespaceContexts.length then Content.act .popNamespaceContext
        else pure ()) q := by
    refine Assures.read_bind rfl rfl ?_
    split
    · rename_i hbase
      exact Assures.command (Nat.ne_of_gt hbase) trivial
    · exact Assures.done trivial
  unfold closeNamespaces
  refine Assures.read_bind rfl rfl ?_
  split
  · refine permits_bind (permits_forM _ (fun nsPrefix q ↦ ?_) _) fun _ q _ ↦ ?_
    · refine Assures.read_bind rfl rfl ?_
      split
      · exact permits_emitStructural _ q
      · exact Assures.done trivial
    · exact Assures.bind (Assures.command trivial (hleave _))
  · exact hleave p

theorem permits_closeElement (name : String8) (p : Parser) : Permits (closeElement name) p := by
  unfold closeElement
  refine permits_bind (permits_checkElementEnd name p) fun ok q _ ↦ ?_
  cases ok with
  | false => exact Assures.done trivial
  | true =>
    have hclose (mode : Bool) (r : Parser) :
        Permits (if mode then closeNamespaces else pure ()) r := by
      split
      · exact permits_closeNamespaces r
      · exact Assures.done trivial
    have hlast (wants mode : Bool) (eventName : String8) (r : Parser) : Permits
        (do
          Content.act .popElement
          unless ← Routine.hasError do
            if wants then
              Content.emitStructural (.endElement eventName)
          if mode then
            closeNamespaces) r := by
      refine Assures.bind (Assures.command trivial (Assures.read_bind rfl rfl ?_))
      dsimp only
      split
      · exact hclose mode _
      split
      · exact permits_bind (permits_emitStructural _ _) fun _ t _ ↦ hclose mode t
      · exact hclose mode _
    refine Assures.read_bind rfl rfl ?_
    dsimp only
    split
    · exact permits_bind (permits_routine _ q) fun eventName r _ ↦ hlast _ _ eventName r
    · exact hlast _ _ name q

theorem permits_parseBalancedContent {parseEntityContent : String8 → Content Unit}
    (hcontent : ∀ text q, Permits (parseEntityContent text) q) {entering leaving : Content Unit}
    (hentering : ∀ q, Permits entering q) (hleaving : ∀ q, Permits leaving q) (text : String8)
    (p : Parser) : Permits (parseBalancedContent parseEntityContent text entering leaving) p := by
  refine Assures.read_bind rfl rfl (Assures.read_bind rfl rfl ?_)
  refine Assures.bind (Assures.command trivial ?_)
  refine permits_bind (hentering _) fun _ p₂ _ ↦ permits_bind (hcontent text p₂) fun _ p₃ _ ↦ ?_
  refine permits_bind (hleaving p₃) fun _ p₄ _ ↦ Assures.bind (Assures.command trivial ?_)
  exact Assures.read_bind rfl rfl (Assures.done trivial)

/-- A command that changes the view only pushes nothing and leaves no scope. -/
theorem permits_view {a : Act} (v : View) (hstep : p.step a = { p with view := v })
    (hmarks : marks a p = []) : Permits (Content.act a) p := by
  refine Assures.command ?_ trivial
  cases a with
  | pushElement name => exact absurd hmarks (List.cons_ne_nil _ _)
  | pushElementSlice name => exact absurd hmarks (List.cons_ne_nil _ _)
  | popNamespaceContext =>
    intro hbase
    -- A pop of the last scope would change the state.
    have htail : p.core.namespaceContexts.tail = p.core.namespaceContexts :=
      congrArg (fun q : Parser ↦ q.core.namespaceContexts) hstep
    have hlength := congrArg List.length htail
    rw [List.length_tail] at hlength
    omega
  | _ => trivial

/-- The guards of the element stacks, routine by routine. -/
def guardLogic : Logic where
  Holds := Permits
  done _ _ := Assures.done trivial
  stuck := Assures.stuck
  look h := Assures.look h
  bind := permits_bind
  routine m p := permits_routine m p
  view := permits_view
  openElement := permits_openElement
  closeElement := permits_closeElement
  openElementRange _ _ hslices := permits_openElementRange hslices
  closeElementRange _ _ input nameStart nameEnd :=
    permits_closeElementRange input nameStart nameEnd _
  balanced hcontent _ _ hentering hleaving text _ _ hrest _ :=
    permits_bind (permits_parseBalancedContent hcontent hentering hleaving text _) fun b q _ ↦
      hrest b q

end

end Parser

/-- In every state that a call reaches, at most `max_element_depth` elements are open, with no more
slices than names; at most one document element is counted; a scope of namespaces remains; and unless
the parse has failed, the accounted replacement text of entities is within its budget. -/
theorem limits_enforced (p : Parser) (entry : Entry) (bound : Nat) (input : String8) (n : Nat) :
    let q := p.stateAt entry bound input n
    q.elements.sliceStack.length ≤ q.elements.stack.length ∧
      q.elements.stack.length ≤ p.config.maxElementDepth ∧
      q.core.documentElementCount ≤ 1 ∧ q.core.namespaceContexts ≠ [] ∧
      (q.core.hasError = false → q.core.expandedEntityBytes ≤ maxEntityExpansionBytes) := by
  have hpermits : Parser.Permits (entry.program bound input) (p.start entry) :=
    Parser.guardLogic.holds_program entry bound input _
  have helements : (p.stateAt entry bound input n).WithinElementLimits := by
    apply hpermits.always.invariant (J := fun _ q ↦ q.WithinElementLimits)
    · exact ⟨Nat.le_refl 0, Nat.zero_le _, Nat.zero_le 1, List.cons_ne_nil _ _⟩
    · exact fun _ a q ha hq ↦ hq.step a ha
  have hexpansion : (p.stateAt entry bound input n).WithinExpansionLimit := by
    apply Program.Machine.execute_invariant (I := Parser.WithinExpansionLimit)
    · exact fun a q hq ↦ hq.step a
    · exact fun _ ↦ (by decide : (0 : Int) ≤ maxEntityExpansionBytes)
  have hconfig : (p.stateAt entry bound input n).config = p.config :=
    congrArg Parser.Settings.config (Program.Machine.execute_invariant
      (I := fun q ↦ q.settings = (p.start entry).settings)
      (fun a q hq ↦ (Parser.step_settings a q).trans hq) _ rfl)
  exact ⟨helements.isAligned, hconfig ▸ helements.depth, helements.documentElements,
    helements.namespaces, hexpansion⟩

end Xpact
