import Xpact.Parser.ContentLogic

/-!
# The stacks of open elements

The open elements are kept on two stacks, names on the one and slices of the input on the other, and
their namespaces on two more.  The first two refine one list of names, on which every command acts in
the evident way; the other two are as long as that list whenever the parser is not just about to
finish opening or closing an element.
-/

namespace Xpact

open Library Program

/-- What a command does to a single stack of names. -/
def Act.onNames : Act → List String8 → List String8
  | .pushElement name, names => name :: names
  | .pushElementSlice name, names => name.text :: names
  | .popElement, names => names.tail
  | _, names => names

/-- The single stack after some commands. -/
def openNames (cs : List Act) : List String8 := cs.foldl (fun names c ↦ c.onNames names) []

/-- A name that stays a slice of the input is pushed. -/
def Act.pushesSlice : Act → Bool
  | .pushElementSlice _ => true
  | _ => false

/-- The command that finishes the opening of an element in namespace mode. -/
def Act.entersNamespace : Act → Bool
  | .pushNamespace .. => true
  | _ => false

/-- The commands between the pop of an element and the end of its scope. -/
def Act.leavesNamespace : Act → Bool
  | .emitStructural (.endElement _) | .emitStructural (.endNamespaceDecl _) => true
  | .routine .checkHandlerStop => true
  | .popNamespaceDeclarations | .popNamespaceContext => true
  | _ => false

namespace Parser

/-- The pair of stacks represents the list `names`, with slices at the bottom. -/
structure Represents (p : Parser) (names : List String8) : Prop where
  isAligned : p.elements.IsAligned
  names : p.elements.names = names

/-- An end tag matches the pair of stacks when it matches the list. -/
theorem Represents.openElementMatches {p : Parser} {names : List String8} (h : p.Represents names)
    (name : String8) : p.elements.openElementMatches name = (names.head? == some name) := by
  rw [Elements.openElementMatches, Elements.top_eq_head? h.isAligned, h.names]

theorem represents_empty {p : Parser} (helements : p.elements = .empty) : p.Represents [] := by
  constructor
  · rw [helements]
    exact Nat.le_refl 0
  · rw [helements]
    rfl

/-- A command acts on the pair of stacks as on the list; a slice is pushed on slices only. -/
theorem Represents.step {p : Parser} {names : List String8} (h : p.Represents names) (c : Act)
    (hslice : c.pushesSlice = true → p.elements.usesSlice = true) :
    (p.step c).Represents (c.onNames names) := by
  have hsame (q : Parser) (helements : q.elements = p.elements) : q.Represents names :=
    ⟨helements ▸ h.isAligned, helements ▸ h.names⟩
  cases c with
  | routine c => exact hsame _ (stepRoutine_elements c p)
  | pushElement name =>
    exact ⟨Nat.le_succ_of_le h.isAligned, (Elements.names_push h.isAligned name).trans
      (congrArg (name :: ·) h.names)⟩
  | pushElementSlice name =>
    have huses := hslice rfl
    refine ⟨?_, (Elements.names_pushSlice huses name).trans (congrArg (name.text :: ·) h.names)⟩
    show (name :: p.elements.sliceStack).length ≤ ([] :: p.elements.stack).length
    rw [List.length_cons, List.length_cons, Elements.usesSlice_iff.1 huses]
  | popElement =>
    exact ⟨Elements.isAligned_pop h.isAligned, (Elements.names_pop h.isAligned).trans
      (congrArg List.tail h.names)⟩
  | raiseFloor => exact ⟨h.isAligned, h.names⟩
  | restoreFloor depth => exact ⟨h.isAligned, h.names⟩
  | _ => exact hsame _ rfl

/-! ## The stacks of namespaces -/

/-- There is one scope for each open element, and the base scope. -/
structure NamespacesAgree (p : Parser) : Prop where
  contexts : p.core.namespaceContexts.length = p.elements.stack.length + 1
  declarations : p.core.namespaceDeclarations.length = p.elements.stack.length

/-- The innermost element has been pushed, and its scope has not. -/
structure LacksNamespace (p : Parser) : Prop where
  contexts : p.core.namespaceContexts.length = p.elements.stack.length
  declarations : p.core.namespaceDeclarations.length + 1 = p.elements.stack.length

/-- An element has been popped; its scope remains, and its declarations until they have ended. -/
structure KeepsNamespace (p : Parser) (declarations : Nat) : Prop where
  contexts : p.core.namespaceContexts.length = p.elements.stack.length + 2
  declarations : p.core.namespaceDeclarations.length = p.elements.stack.length + declarations

/-- The namespace stacks where a command is issued: they agree with the element stack unless the
command belongs to the operation that opens or closes an element. -/
inductive NamespacesFollow (c : Act) (p : Parser) : Prop
  | agree : p.NamespacesAgree → NamespacesFollow c p
  | opening : c.entersNamespace = true → p.LacksNamespace → NamespacesFollow c p
  | closing (declarations : Nat) : declarations ≤ 1 → c.leavesNamespace = true →
      p.KeepsNamespace declarations → NamespacesFollow c p

/-- What is known where a command is issued. -/
structure Disciplined (c : Act) (p : Parser) : Prop where
  slices : c.pushesSlice = true → p.elements.usesSlice = true
  namespaces : p.config.namespaceMode = true → NamespacesFollow c p

/-- Between two operations on elements. -/
def IsSettled (p : Parser) : Prop := p.config.namespaceMode = true → p.NamespacesAgree

/-- A program that opens and closes elements as a whole. -/
def Settles {α : Type} (m : Content α) (p : Parser) : Prop :=
  p.IsSettled → Assures machine Disciplined m p fun _ q ↦ q.IsSettled

section

variable {α β : Type} {p q : Parser}

/-! ## Commands that leave the stacks alone -/

theorem IsSettled.of_eq (hp : p.IsSettled) (hconfig : q.config = p.config)
    (hstack : q.elements.stack = p.elements.stack)
    (hcontexts : q.core.namespaceContexts = p.core.namespaceContexts)
    (hdeclarations : q.core.namespaceDeclarations = p.core.namespaceDeclarations) :
    q.IsSettled := by
  intro hmode
  have hagree := hp (hconfig ▸ hmode)
  constructor
  · rw [hcontexts, hstack]
    exact hagree.contexts
  · rw [hdeclarations, hstack]
    exact hagree.declarations

theorem IsSettled.of_frame (hp : p.IsSettled) (hframe : q.frame = p.frame) : q.IsSettled := by
  apply hp.of_eq
  · exact congrArg (fun f : Frame ↦ f.config) hframe
  · exact congrArg (fun f : Frame ↦ f.elements.stack) hframe
  · exact congrArg Frame.namespaceContexts hframe
  · exact congrArg Frame.namespaceDeclarations hframe

theorem disciplined_of_settled {c : Act} (hslices : c.pushesSlice = false) (hp : p.IsSettled) :
    Disciplined c p :=
  ⟨fun h ↦ absurd (hslices.symm.trans h) Bool.false_ne_true, fun hmode ↦ .agree (hp hmode)⟩

theorem assures_routine (m : Routine α) (hp : p.IsSettled) :
    Assures machine Disciplined (Content.ofRoutine m) p fun _ q ↦ q.IsSettled := by
  refine Assures.lift (Assures.of_commands (J := IsSettled) (fun c q hq ↦ ?_) m hp)
  exact ⟨disciplined_of_settled rfl hq, hq.of_frame (stepRoutine_frame c q)⟩

/-- A routine leaves the stacks as they are. -/
theorem assures_routine_frame (m : Routine α) (hp : p.IsSettled) :
    Assures machine Disciplined (Content.ofRoutine m) p fun _ q ↦ q.frame = p.frame :=
  ⟨(assures_routine m hp).always, fun hrun ↦ (quiet_ofRoutine m p hrun).frame⟩

theorem assures_emitStructural (e : Event) (hp : p.IsSettled) :
    Assures machine Disciplined (Content.emitStructural e) p fun _ q ↦ q.IsSettled :=
  Assures.bind (Assures.command (disciplined_of_settled rfl hp)
    (assures_routine Routine.checkHandlerStop (hp.of_eq rfl rfl rfl rfl)))

/-! ## The start of an element -/

theorem assures_checkElementStart (hp : p.IsSettled) :
    Assures machine Disciplined checkElementStart p fun _ q ↦
      q.IsSettled ∧ q.elements = p.elements ∧ q.config = p.config := by
  have hfail (message : String) :
      Assures machine Disciplined (liftM (Routine.failAt message false) : Content Bool) p fun _ q ↦
        q.IsSettled ∧ q.elements = p.elements ∧ q.config = p.config := by
    refine (assures_routine_frame _ hp).mono fun _ q hframe ↦ ?_
    exact ⟨hp.of_frame hframe, congrArg Frame.elements hframe,
      congrArg (fun f : Frame ↦ f.config) hframe⟩
  unfold checkElementStart
  refine Assures.read_bind rfl rfl ?_
  dsimp only
  split
  · exact hfail _
  split
  · exact hfail _
  split
  · have hq : (p.step .countDocumentElement).IsSettled := hp.of_eq rfl rfl rfl rfl
    refine Assures.bind (Assures.command (disciplined_of_settled rfl hp) ?_)
    exact Assures.done ⟨hq, rfl, rfl⟩
  · exact Assures.done ⟨hp, rfl, rfl⟩

theorem assures_emitStartNamespaceDeclarations (declared : List String8) (scope : NamespaceScope)
    (hp : p.IsSettled) :
    Assures machine Disciplined (emitStartNamespaceDeclarations declared scope) p fun _ q ↦
      q.IsSettled := by
  refine Assures.forM declared (fun nsPrefix _ q hq ↦ Assures.read_bind rfl rfl ?_) hp
  split
  · split
    · exact assures_emitStructural _ hq
    · exact Assures.done hq
  · exact Assures.done hq

/-- A name is pushed where the stacks agree, and its scope right after it. -/
theorem assures_pushElement {rest : Content Unit} (name : String8) (event : ElementEvent)
    (hp : p.IsSettled)
    (hrest : ∀ q : Parser, q.IsSettled → Assures machine Disciplined rest q fun _ r ↦ r.IsSettled) :
    Assures machine Disciplined (Content.act (.pushElement name) >>= fun _ ↦
      Content.scene >>= fun s ↦
        if s.config.namespaceMode = true then
          Content.act (.pushNamespace event.scope event.declared) >>= fun _ ↦
            emitStartNamespaceDeclarations event.declared event.scope >>= fun _ ↦ rest
        else rest) p fun _ q ↦ q.IsSettled := by
  refine Assures.bind (Assures.command (disciplined_of_settled rfl hp) ?_)
  refine Assures.read_bind rfl rfl ?_
  show Assures _ _ (if p.config.namespaceMode = true then _ else _) _ _
  split
  · rename_i hmode
    have hagree := hp hmode
    have hlacks : (p.step (.pushElement name)).LacksNamespace :=
      ⟨hagree.contexts, congrArg (· + 1) hagree.declarations⟩
    have hpushed : ((p.step (.pushElement name)).step
        (.pushNamespace event.scope event.declared)).IsSettled :=
      fun _ ↦ ⟨congrArg (· + 1) hlacks.contexts, hlacks.declarations⟩
    refine Assures.bind (Assures.command ⟨nofun, fun _ ↦ .opening rfl hlacks⟩ ?_)
    refine Assures.bind ((assures_emitStartNamespaceDeclarations _ _ hpushed).mono ?_)
    exact fun _ q hq ↦ hrest q hq
  · rename_i hmode
    exact hrest _ fun hmode' ↦ absurd hmode' hmode

theorem settles_openElement (name : String8) (attributes : Attributes) (p : Parser) :
    Settles (openElement name attributes) p := by
  intro hp
  unfold openElement
  refine Assures.bind ((assures_checkElementStart hp).mono ?_)
  rintro ok p₁ ⟨hp₁, -, -⟩
  cases ok with
  | false => exact Assures.done hp₁
  | true =>
    refine Assures.bind ((assures_routine (prepareElement name attributes) hp₁).mono ?_)
    intro event p₂ hp₂
    have hlast (q : Parser) (hq : q.IsSettled) : Assures machine Disciplined
        (Content.scene >>= fun s ↦ liftM Routine.isOngoing >>= fun ongoing ↦
          if (ongoing && s.handler.wantsStartElementEvents) = true then
            Content.emitStructural (.startElement event.name event.attributes)
          else pure ()) q fun _ r ↦ r.IsSettled := by
      refine Assures.read_bind rfl rfl (Assures.read_bind rfl rfl ?_)
      split
      · exact assures_emitStructural _ hq
      · exact Assures.done hq
    refine Assures.read_bind rfl rfl ?_
    split
    · exact hlast p₂ hp₂
    · exact assures_pushElement name event hp₂ hlast

/-- On the slice path there are no namespaces. -/
theorem settles_openElementRange (hmode : p.config.namespaceMode = false)
    (hslices : p.elements.usesSlice = true) (input : String8) (nameStart nameEnd : Nat) :
    Settles (openElementRange input nameStart nameEnd) p := by
  intro hp
  refine Assures.bind ((assures_checkElementStart hp).mono ?_)
  rintro ok q ⟨hq, helements, hconfig⟩
  cases ok with
  | false => exact Assures.done hq
  | true =>
    have hmode' : q.config.namespaceMode = false := hconfig ▸ hmode
    refine Assures.command ⟨fun _ ↦ helements ▸ hslices, fun h ↦ .agree (hq h)⟩ fun h ↦ ?_
    exact absurd (hmode'.symm.trans h) Bool.false_ne_true

/-! ## The end of an element -/

/-- An element may be closed only where there is one. -/
theorem assures_checkElementEnd (name : String8) (hp : p.IsSettled) :
    Assures machine Disciplined (checkElementEnd name) p fun ok q ↦
      q.IsSettled ∧ (ok = true → q = p ∧ p.elements.stack ≠ []) := by
  have hfail (message : String) (q : Parser) (hq : q.IsSettled) :
      Assures machine Disciplined (liftM (Routine.failAt message false) : Content Bool) q
        fun ok r ↦ r.IsSettled ∧ (ok = true → r = p ∧ p.elements.stack ≠ []) := by
    refine ⟨(assures_routine _ hq).always, fun hrun ↦ ⟨(assures_routine _ hq).ends hrun, ?_⟩⟩
    obtain ⟨rfl, -⟩ := Prod.mk.inj (Option.some.inj hrun)
    exact nofun
  unfold checkElementEnd
  refine Assures.read_bind rfl rfl ?_
  dsimp only
  split
  · exact hfail _ p hp
  rename_i hdepth
  split
  · refine Assures.bind (Assures.command (disciplined_of_settled rfl hp) ?_)
    exact hfail _ _ (hp.of_eq rfl rfl rfl rfl)
  split
  · exact hfail _ p hp
  · refine Assures.done ⟨hp, fun _ ↦ ⟨rfl, fun hempty ↦ hdepth ?_⟩⟩
    show p.elements.stack.length = 0
    rw [hempty, List.length_nil]

theorem KeepsNamespace.disciplined {declarations : Nat} {c : Act} (hp : p.KeepsNamespace declarations)
    (hdeclarations : declarations ≤ 1) (hc : c.leavesNamespace = true) : Disciplined c p := by
  refine ⟨fun hslice ↦ ?_, fun _ ↦ .closing declarations hdeclarations hc hp⟩
  cases c with
  | pushElementSlice name => exact absurd hc Bool.false_ne_true
  | _ => exact absurd hslice Bool.false_ne_true

theorem KeepsNamespace.of_frame {declarations : Nat} (hp : p.KeepsNamespace declarations)
    (hframe : q.frame = p.frame) : q.KeepsNamespace declarations := by
  have helements : q.elements = p.elements := congrArg Frame.elements hframe
  have hcontexts : q.core.namespaceContexts = p.core.namespaceContexts :=
    congrArg Frame.namespaceContexts hframe
  have hdeclarations : q.core.namespaceDeclarations = p.core.namespaceDeclarations :=
    congrArg Frame.namespaceDeclarations hframe
  constructor
  · rw [hcontexts, helements]
    exact hp.contexts
  · rw [hdeclarations, helements]
    exact hp.declarations

/-- While the end of an element is reported, its namespaces remain. -/
theorem assures_emitEnd {e : Event} (he : (Act.emitStructural e).leavesNamespace = true)
    (hp : p.KeepsNamespace 1) :
    Assures machine Disciplined (Content.emitStructural e) p fun _ q ↦ q.KeepsNamespace 1 := by
  have hemitted : (p.step (.emitStructural e)).KeepsNamespace 1 := ⟨hp.contexts, hp.declarations⟩
  refine Assures.bind (Assures.command (hp.disciplined (Nat.le_refl 1) he) ?_)
  refine Assures.command (hemitted.disciplined (Nat.le_refl 1) rfl) ?_
  exact hemitted.of_frame (stepRoutine_frame .checkHandlerStop _)

theorem assures_closeNamespaces (hp : p.KeepsNamespace 1) :
    Assures machine Disciplined closeNamespaces p fun _ q ↦ q.NamespacesAgree := by
  unfold closeNamespaces
  refine Assures.read_bind rfl rfl ?_
  cases hstack : p.core.namespaceDeclarations with
  | nil =>
    have hlength := hp.declarations
    rw [hstack, List.length_nil] at hlength
    omega
  | cons declared rest =>
    rw [show (machine.see p).core.namespaceDeclarations = declared :: rest from hstack]
    have hemit (nsPrefix : String8) (q : Parser) (hq : q.KeepsNamespace 1) :
        Assures machine Disciplined
          (do
            if ← Routine.isOngoing then
              Content.emitStructural (.endNamespaceDecl (optionalString nsPrefix)))
          q fun _ r ↦ r.KeepsNamespace 1 := by
      refine Assures.read_bind rfl rfl ?_
      split
      · exact assures_emitEnd rfl hq
      · exact Assures.done hq
    refine Assures.bind ((Assures.forM _ (fun nsPrefix _ q hq ↦ hemit nsPrefix q hq) hp).mono ?_)
    intro _ q hq
    refine Assures.bind (Assures.command (hq.disciplined (Nat.le_refl 1) rfl) ?_)
    have hended : (q.step .popNamespaceDeclarations).KeepsNamespace 0 := by
      refine ⟨hq.contexts, ?_⟩
      show q.core.namespaceDeclarations.tail.length = _
      rw [List.length_tail, hq.declarations]
      rfl
    refine Assures.read_bind rfl rfl ?_
    split
    · refine Assures.command (hended.disciplined (Nat.zero_le 1) rfl) ⟨?_, hended.declarations⟩
      show q.core.namespaceContexts.tail.length = _
      rw [List.length_tail, hq.contexts]
      rfl
    · rename_i hbase
      refine absurd ?_ hbase
      show 1 < q.core.namespaceContexts.length
      rw [hq.contexts]
      omega

/-- Where the stacks agree, a pop leaves the namespaces of the element behind. -/
theorem keepsNamespace_popElement (hp : p.NamespacesAgree) (hstack : p.elements.stack ≠ []) :
    (p.step .popElement).KeepsNamespace 1 := by
  obtain ⟨name, rest, hcons⟩ := List.exists_cons_of_ne_nil hstack
  have hlength : (p.step .popElement).elements.stack.length + 1 = p.elements.stack.length := by
    show p.elements.stack.tail.length + 1 = _
    rw [hcons]
    rfl
  constructor
  · exact hp.contexts.trans (by rw [← hlength])
  · exact hp.declarations.trans hlength.symm

/-- The steps that close the innermost element. -/
theorem assures_closeChecked {mode : Bool} (wants : Bool) (eventName : String8)
    (hmode : p.config.namespaceMode = mode) (hp : p.IsSettled) (hstack : p.elements.stack ≠ []) :
    Assures machine Disciplined
      (do
        Content.act .popElement
        unless ← Routine.hasError do
          if wants then
            Content.emitStructural (.endElement eventName)
        if mode then
          closeNamespaces) p fun _ q ↦ q.IsSettled := by
  refine Assures.bind (Assures.command (disciplined_of_settled rfl hp) ?_)
  refine Assures.read_bind rfl rfl ?_
  cases mode with
  | true =>
    have hkeeps := keepsNamespace_popElement (hp hmode) hstack
    have hlast (q : Parser) (hq : q.KeepsNamespace 1) :
        Assures machine Disciplined closeNamespaces q fun _ r ↦ r.IsSettled :=
      (assures_closeNamespaces hq).mono fun _ _ hr _ ↦ hr
    dsimp only
    split
    · exact hlast _ hkeeps
    · split
      · exact Assures.bind ((assures_emitEnd rfl hkeeps).mono fun _ q hq ↦ hlast q hq)
      · exact hlast _ hkeeps
  | false =>
    have hpopped : (p.step .popElement).IsSettled :=
      fun hmode' ↦ absurd (hmode.symm.trans hmode') Bool.false_ne_true
    dsimp only
    split
    · exact Assures.done hpopped
    · split
      · exact Assures.bind ((assures_emitStructural _ hpopped).mono fun _ q hq ↦ Assures.done hq)
      · exact Assures.done hpopped

theorem settles_closeElement (name : String8) (p : Parser) : Settles (closeElement name) p := by
  intro hp
  unfold closeElement
  refine Assures.bind ((assures_checkElementEnd name hp).mono ?_)
  rintro ok q ⟨hq, hok⟩
  cases ok with
  | false => exact Assures.done hq
  | true =>
    obtain ⟨rfl, hstack⟩ := hok rfl
    refine Assures.read_bind rfl rfl ?_
    dsimp only
    split
    · refine Assures.bind ((assures_routine_frame _ hq).mono fun eventName r hframe ↦ ?_)
      have hconfig : r.config = q.config := congrArg (fun f : Frame ↦ f.config) hframe
      have helements : r.elements = q.elements := congrArg Frame.elements hframe
      refine assures_closeChecked _ eventName ?_ (hq.of_frame hframe) (helements ▸ hstack)
      exact congrArg Config.namespaceMode hconfig
    · exact assures_closeChecked _ name rfl hq hstack

theorem settles_closeElementRange (hmode : p.config.namespaceMode = false) (input : String8)
    (nameStart nameEnd : Nat) : Settles (closeElementRange input nameStart nameEnd) p := by
  intro hp
  refine Assures.bind ((assures_checkElementEnd _ hp).mono ?_)
  rintro ok q ⟨hq, hok⟩
  cases ok with
  | false => exact Assures.done hq
  | true =>
    obtain ⟨rfl, -⟩ := hok rfl
    refine Assures.command (disciplined_of_settled rfl hq) fun h ↦ ?_
    exact absurd (hmode.symm.trans h) Bool.false_ne_true

/-! ## The replacement text of an entity -/

theorem settles_parseBalancedContent {parseEntityContent : String8 → Content Unit}
    (hcontent : ∀ text q, Settles (parseEntityContent text) q) {entering leaving : Content Unit}
    (hentering : ∀ q, Settles entering q) (hleaving : ∀ q, Settles leaving q) (text : String8)
    (p : Parser) : Settles (parseBalancedContent parseEntityContent text entering leaving) p := by
  intro hp
  have hraised : (p.step .raiseFloor).IsSettled := hp.of_eq rfl rfl rfl rfl
  refine Assures.read_bind rfl rfl (Assures.read_bind rfl rfl ?_)
  refine Assures.bind (Assures.command (disciplined_of_settled rfl hp) ?_)
  refine Assures.bind ((hentering _ hraised).mono fun _ p₂ h₂ ↦ ?_)
  refine Assures.bind ((hcontent text p₂ h₂).mono fun _ p₃ h₃ ↦ ?_)
  refine Assures.bind ((hleaving p₃ h₃).mono fun _ p₄ h₄ ↦ ?_)
  refine Assures.bind (Assures.command (disciplined_of_settled rfl h₄) ?_)
  exact Assures.read_bind rfl rfl (Assures.done (h₄.of_eq rfl rfl rfl rfl))

theorem settles_view {a : Act} (v : View) (hstep : p.step a = { p with view := v })
    (hmarks : marks a p = []) : Settles (Content.act a) p := by
  intro hp
  refine Assures.command (disciplined_of_settled ?_ hp) ?_
  · cases a with
    | pushElementSlice name => exact absurd hmarks (List.cons_ne_nil _ _)
    | _ => rfl
  · show (p.step a).IsSettled
    rw [hstep]
    exact hp.of_eq rfl rfl rfl rfl

theorem settles_bind {m : Content α} {f : α → Content β} (hm : Settles m p)
    (hf : ∀ a q, m.run machine p = some (a, q) → Settles (f a) q) : Settles (m >>= f) p :=
  fun hp ↦ Assures.bind ⟨(hm hp).always, fun hrun ↦ hf _ _ hrun ((hm hp).ends hrun)⟩

/-- The discipline of the element stacks, routine by routine. -/
def stackLogic : Logic where
  Holds := Settles
  done _ _ hp := Assures.done hp
  stuck _ := Assures.stuck
  look hk hp := Assures.look (hk hp)
  bind := settles_bind
  routine m _ hp := assures_routine m hp
  view := settles_view
  openElement := settles_openElement
  closeElement := settles_closeElement
  openElementRange hmode _ hslices := settles_openElementRange hmode hslices
  closeElementRange hmode _ := settles_closeElementRange hmode
  balanced hcontent _ _ hentering hleaving text _ _ hrest _ :=
    settles_bind (settles_parseBalancedContent hcontent hentering hleaving text _)
      fun b q _ ↦ hrest b q

/-! ## Runs -/

theorem isSettled_base (hcontexts : p.core.namespaceContexts = [baseNamespaceScope])
    (hdeclarations : p.core.namespaceDeclarations = []) (helements : p.elements = .empty) :
    p.IsSettled := by
  intro _
  constructor
  · rw [hcontexts, helements]
    rfl
  · rw [hdeclarations, helements]
    rfl

/-- Reading the input changes no elements and no namespaces. -/
theorem readInput_frame {input text : String8} {canDefer : Bool} {q : Parser}
    (hrun : (readInput input canDefer).run machine p = some (text, q)) : q.frame = p.frame := by
  unfold readInput at hrun
  obtain ⟨_, hcore, hrun⟩ := (run_bind_eq_some machine p).1 hrun
  obtain rfl := Option.some.inj hcore
  obtain ⟨⟨read, p₁⟩, hread, hrun⟩ := (run_bind_eq_some machine p).1 hrun
  obtain ⟨-, rfl⟩ := Prod.mk.inj (Option.some.inj hrun)
  exact (stepRoutine_frame (.notePosition 1) _).trans (quiet_ofRoutine _ p hread).frame

theorem enterContext_frame (name : Option String8) : (p.enterContext name).frame = p.frame := by
  cases name with
  | some name => exact stepRoutine_frame (.pushEntity name) p
  | none => rfl

end

/-- A program that reads a text, with the state in which a caller starts it.  An external parameter
entity in a literal is read by several programs: its input, its text, and the check of this text. -/
inductive Session : {α : Type} → Content α → Parser → Prop
  | call (entry : Entry) (bound : Nat) (input : String8) (p : Parser) :
      Session (entry.program bound input) (p.start entry)
  | document (bound : Nat) (input : String8) (p : Parser) :
      Session (document bound input) p.reset
  | documentPrefix (bound : Nat) (input : String8) (p : Parser) :
      Session (documentPrefix bound input) p.reset
  | documentBody (bound : Nat) (isFinal : Bool) (c : CachedDoctype) (body : String8) (p : Parser) :
      Session (documentBody bound isFinal c.textBefore body) (p.resetCachedDoctypeBody c)
  | literalInput (input : String8) (p : Parser) :
      Session (readInput input false) (p.start .externalEntity)
  | literal {p q : Parser} {input text : String8}
      (hinput : (readInput input false).run machine (p.start .externalEntity) = some (text, q))
      (bound : Nat) (entityContext : Option String8) :
      Session (Content.ofRoutine (externalParameterLiteral bound text))
        (q.enterContext (contextEntity q.config entityContext))
  | literalCheck {p q r : Parser} {input text : String8}
      (hinput : (readInput input false).run machine (p.start .externalEntity) = some (text, q))
      {bound start : Nat} {entityContext : Option String8}
      (hliteral : (Content.ofRoutine (externalParameterLiteral bound text)).run machine
        (q.enterContext (contextEntity q.config entityContext)) = some (.checked start, r)) :
      Session (checkParameterLiteral bound text) r.enterCheck

namespace Session

variable {α : Type} {m : Content α} {p : Parser}

/-- What holds of the routines holds of a session. -/
theorem holds (hm : Session m p) (L : Logic) : L.Holds m p := by
  cases hm with
  | call entry bound input p => exact L.holds_program entry bound input _
  | document bound input p => exact L.holds_document bound input _
  | documentPrefix bound input p => exact L.holds_documentPrefix bound input _
  | documentBody bound isFinal c body p =>
    exact L.holds_documentBody bound isFinal c.textBefore body _
  | literalInput input p => exact L.holds_readInput input false _
  | literal hinput bound entityContext => exact L.routine _ _
  | literalCheck hinput hliteral => exact L.holds_checkParameterLiteral _ _ _

/-- A session begins with no elements and the namespaces of no element. -/
theorem base (hm : Session m p) : p.elements = .empty ∧
    p.core.namespaceContexts = [baseNamespaceScope] ∧ p.core.namespaceDeclarations = [] := by
  have hframe {q r : Parser} (hqr : r.frame = q.frame) (hq : q.elements = .empty ∧
      q.core.namespaceContexts = [baseNamespaceScope] ∧ q.core.namespaceDeclarations = []) :
      r.elements = .empty ∧ r.core.namespaceContexts = [baseNamespaceScope] ∧
        r.core.namespaceDeclarations = [] := by
    have helements : r.elements = q.elements := congrArg Frame.elements hqr
    have hcontexts : r.core.namespaceContexts = q.core.namespaceContexts :=
      congrArg Frame.namespaceContexts hqr
    have hdeclarations : r.core.namespaceDeclarations = q.core.namespaceDeclarations :=
      congrArg Frame.namespaceDeclarations hqr
    rwa [helements, hcontexts, hdeclarations]
  cases hm with
  | literal hinput bound entityContext =>
    exact hframe ((enterContext_frame _).trans (readInput_frame hinput)) ⟨rfl, rfl, rfl⟩
  | @literalCheck p q r input text hinput bound start entityContext hliteral =>
    -- The silent handler is the only difference.
    have hq := hframe ((enterContext_frame (contextEntity q.config entityContext)).trans
      (readInput_frame hinput)) ⟨rfl, rfl, rfl⟩
    have hr := (quiet_ofRoutine _ _ hliteral).frame
    have hbase := hframe hr hq
    exact hbase
  | _ => exact ⟨rfl, rfl, rfl⟩

theorem elements (hm : Session m p) : p.elements = .empty := hm.base.1

theorem isSettled (hm : Session m p) : p.IsSettled :=
  isSettled_base hm.base.2.1 hm.base.2.2 hm.elements

end Session

/-- A call that returns, with the parser that is called and the parser that it leaves. -/
inductive CallReturns : Parser → Parser → Prop
  | call {entry : Entry} {bound : Nat} {input : String8} {p q : Parser} {ok : Bool}
      (h : p.call entry bound input = some (ok, q)) : CallReturns p q
  | cachedDoctype {bound : Nat} {input : String8} {isFinal : Bool} {p q : Parser} {ok : Bool}
      (h : p.parseWithCachedDoctype bound input isFinal = some (ok, q)) : CallReturns p q
  | parameterLiteral {bound : Nat} {input text : String8} {entityContext : Option String8}
      {p q : Parser} {ok : Bool}
      (h : p.parseExternalParameterLiteralWithContext bound input entityContext =
        some (ok, text, q)) : CallReturns p q

end Parser

/-- The two stacks of open elements refine the one list of their names: at every point of a run they
represent it, with slices at the bottom, an end tag matches them when it matches the list, and in
namespace mode the stacks of namespaces follow them. -/
theorem elementStacks_refine_openNames {α : Type} {m : Content α} {p : Parser} (hm : Parser.Session m p)
    (n : Nat) :
    let cs := (m.trace Parser.machine p).take n
    let q := Parser.machine.execute cs p
    q.Represents (openNames cs) ∧
      (∀ name, q.elements.openElementMatches name = ((openNames cs).head? == some name)) ∧
      (q.config.namespaceMode = true →
        ∀ c, (m.trace Parser.machine p)[n]? = some c → q.NamespacesFollow c) ∧
      ∀ b r, m.run Parser.machine p = some (b, r) → r.config.namespaceMode = true →
        r.NamespacesAgree := by
  have hsettles : Assures Parser.machine Parser.Disciplined m p fun _ q ↦ q.IsSettled :=
    hm.holds Parser.stackLogic hm.isSettled
  have hrepresents : (Parser.machine.execute ((m.trace Parser.machine p).take n) p).Represents
      (openNames ((m.trace Parser.machine p).take n)) := by
    apply hsettles.always.invariant (J := fun cs q ↦ q.Represents (openNames cs))
    · exact Parser.represents_empty hm.elements
    · intro cs c q hc hq
      rw [openNames, List.foldl_append]
      exact hq.step c hc.slices
  refine ⟨hrepresents, hrepresents.openElementMatches, fun hmode c hc ↦ ?_, fun b r hrun hmode ↦ ?_⟩
  · exact (hsettles.always.at hc).namespaces hmode
  · exact hsettles.ends hrun hmode

/-- A document without events: its own element is a slice, that of the entity a string. -/
def mixedDocument : String8 := str "<!DOCTYPE a [<!ENTITY e \"<b/>\">]><a>&e;</a>"

theorem elementStacks_refine_openNames_mixed :
    let p := (Parser.make {} .null).start .document
    let q := Parser.machine.execute
      (((document 9 mixedDocument).trace Parser.machine p).take 53) p
    q.Represents [str "b", str "a"] ∧ q.elements.sliceStack.length = 1 := by
  have hrefines := (elementStacks_refine_openNames
    (.call .document 9 mixedDocument (Parser.make {} .null)) 53).1
  have hnames : openNames (((document 9 mixedDocument).trace Parser.machine
      ((Parser.make {} .null).start .document)).take 53) = [str "b", str "a"] := by decide +kernel
  exact ⟨hnames ▸ hrefines, by decide +kernel⟩

end Xpact
