import Xpact.Parser.Log

/-!
# Open elements and entities

What can be open while a document is parsed is an element or the replacement text of an entity
reference.  The log of the parse is a spine of such brackets (`Matches`): its open nodes are the open
elements on the stack, with their namespaces, and the entities whose text is being read.  Here are
the brackets, what a quiet program adds to the spine, and the steps that open and close a bracket.
-/

namespace Xpact

open Library Program

/-! ## Brackets -/

/-- An open element: its name as written and as reported, the namespace scope inside it, and the
prefixes it declares with their URIs. -/
structure OpenElement where
  name : String8
  eventName : String8
  attributes : Attributes
  scope : NamespaceScope
  declared : List (String8 × String8)

/-- What can be open: an element, or the replacement text of an entity reference. -/
inductive Bracket where
  | element (e : OpenElement)
  | entity

namespace OpenElement

def startNamespaces (e : OpenElement) : List Mark :=
  e.declared.map fun d ↦ .event (.startNamespaceDecl (optionalString d.1) d.2)

def endNamespaces (e : OpenElement) : List Mark :=
  e.declared.reverse.map fun d ↦ .event (.endNamespaceDecl (optionalString d.1))

/-- What the start of an element makes the log hold, for a handler `h`. -/
def opening (h : Handler) (e : OpenElement) : List Mark :=
  .opens e.name :: e.startNamespaces ++
    if h.wantsStartElementEvents then [.event (.startElement e.eventName e.attributes)] else []

/-- What its end makes the log hold: the same name, and one end for each namespace. -/
def closing (h : Handler) (e : OpenElement) : List Mark :=
  .closes e.name :: (if h.wantsEndElementEvents then [.event (.endElement e.eventName)] else []) ++
    e.endNamespaces

/-- The reported name is the expanded one, and the declared prefixes are bound in the scope. -/
structure IsValid (cfg : Config) (e : OpenElement) : Prop where
  eventName : if cfg.namespaceMode then expandElementName cfg e.name e.scope = .ok e.eventName
    else e.eventName = e.name
  declared : cfg.namespaceMode = false → e.declared = []

end OpenElement

/-- How elements, entities and other events are written in the log. -/
def spelling (h : Handler) : Spelling Bracket Notice Mark where
  leaf n := [.event n.1]
  opening
    | .element e => e.opening h
    | .entity => [.enters]
  closing
    | .element e => e.closing h
    | .entity => [.leaves]

namespace Bracket

def element? : Bracket → Option OpenElement
  | .element e => some e
  | .entity => none

/-- The open elements. -/
def elements (fs : List Bracket) : List OpenElement := fs.filterMap element?

/-- What is open from the innermost entity on. -/
def base : List Bracket → List Bracket
  | .element _ :: fs => base fs
  | fs => fs

/-- How many elements are open outside the innermost entity. -/
def floor (fs : List Bracket) : Nat := (elements (base fs)).length

@[simp] theorem elements_element (e : OpenElement) (fs : List Bracket) :
    elements (.element e :: fs) = e :: elements fs := rfl

@[simp] theorem elements_entity (fs : List Bracket) : elements (.entity :: fs) = elements fs := rfl

@[simp] theorem base_element (e : OpenElement) (fs : List Bracket) :
    base (.element e :: fs) = base fs := rfl

@[simp] theorem base_entity (fs : List Bracket) : base (.entity :: fs) = .entity :: fs := rfl

theorem floor_element (e : OpenElement) (fs : List Bracket) :
    floor (.element e :: fs) = floor fs := rfl

/-- Above the floor, the innermost bracket is an element. -/
theorem element_of_floor_lt {fs : List Bracket} (h : floor fs < (elements fs).length) :
    ∃ e rest, fs = .element e :: rest := by
  cases fs with
  | nil => exact absurd h (Nat.lt_irrefl 0)
  | cons f rest =>
    cases f with
    | element e => exact ⟨e, rest, rfl⟩
    | entity => exact absurd h (Nat.lt_irrefl _)

/-- At the floor no element is open inside the innermost entity. -/
theorem eq_base_of_length {fs : List Bracket} (h : (elements fs).length = floor fs) :
    fs = base fs := by
  cases fs with
  | nil => rfl
  | cons f rest =>
    cases f with
    | entity => rfl
    | element e =>
      have hle : ∀ gs : List Bracket, floor gs ≤ (elements gs).length := by
        intro gs
        induction gs with
        | nil => exact Nat.le_refl 0
        | cons g gs ih =>
          cases g with
          | entity => exact Nat.le_refl _
          | element e => exact Nat.le_succ_of_le ih
      have hrest := hle rest
      rw [floor_element, elements_element, List.length_cons] at h
      omega

end Bracket

/-! ## Spines of a parse -/

/-- Notices as complete trees. -/
def leaves (notices : List Notice) : List (Tree Bracket Notice) := notices.map .leaf

theorem flattenForest_leaves (h : Handler) (notices : List Notice) :
    flattenForest (spelling h) (leaves notices) = notices.map fun n ↦ .event n.1 := by
  induction notices with
  | nil => rfl
  | cons n notices ih =>
    rw [leaves, List.map_cons, flattenForest, Tree.flatten, ← leaves, ih, List.map_cons]
    rfl

theorem leaves_append (notices notices' : List Notice) :
    leaves (notices ++ notices') = leaves notices ++ leaves notices' := List.map_append

/-- What is complete outside every element, when `count` document elements have begun: at most one
element, and no entity. -/
def RootsAre (count : Nat) (s : Spine Bracket Notice) : Prop :=
  match count with
  | 0 => ∃ before : List Notice, s = .root (leaves before)
  | _ + 1 =>
    (∃ (before after : List Notice) (e : OpenElement) (children : List (Tree Bracket Notice)),
      s = .root (leaves before ++ .node (.element e) children :: leaves after)) ∨
    (∃ (before : List Notice) (e : OpenElement), s.roots = leaves before ∧
      s.frames.getLast? = some (.element e))

section RootsAre

variable {count : Nat} {s : Spine Bracket Notice}

theorem rootsAre_add (hs : RootsAre count s) (notices : List Notice) :
    RootsAre count (s.add (leaves notices)) := by
  cases count with
  | zero =>
    obtain ⟨before, rfl⟩ := hs
    exact ⟨before ++ notices, by rw [Spine.add, ← leaves_append]⟩
  | succ n =>
    rcases hs with ⟨before, after, e, children, rfl⟩ | ⟨before, e, hroots, hlast⟩
    · refine .inl ⟨before, after ++ notices, e, children, ?_⟩
      rw [Spine.add, List.append_assoc, List.cons_append, ← leaves_append]
    · cases hframes : s.frames with
      | nil =>
        rw [hframes] at hlast
        cases hlast
      | cons f rest =>
        refine .inr ⟨before, e, ?_, ?_⟩
        · rw [Spine.roots_add_inside hframes, hroots]
        · rw [Spine.frames_add, hlast]

/-- The document element opens. -/
theorem rootsAre_push_root (hs : RootsAre 0 s) (e : OpenElement) :
    RootsAre 1 (s.push (.element e)) := by
  obtain ⟨before, rfl⟩ := hs
  exact .inr ⟨before, e, rfl, rfl⟩

/-- A bracket opens inside another one. -/
theorem rootsAre_push_inside (hs : RootsAre count s) (hframes : s.frames ≠ []) (f : Bracket) :
    RootsAre count (s.push f) := by
  cases count with
  | zero =>
    obtain ⟨before, rfl⟩ := hs
    exact absurd rfl hframes
  | succ n =>
    rcases hs with ⟨before, after, e, children, rfl⟩ | ⟨before, e, hroots, hlast⟩
    · exact absurd rfl hframes
    · refine .inr ⟨before, e, hroots, ?_⟩
      obtain ⟨g, rest, hcons⟩ := List.exists_cons_of_ne_nil hframes
      rw [Spine.frames_push, hcons, List.getLast?_cons_cons, ← hcons, hlast]

/-- The innermost bracket closes; when it is the outermost one too, it is the document element. -/
theorem rootsAre_pop (hs : RootsAre count s) : RootsAre count s.pop := by
  cases s with
  | root siblings => exact hs
  | inside f parent siblings =>
    cases count with
    | zero =>
      obtain ⟨before, hroot⟩ := hs
      cases hroot
    | succ n =>
      rcases hs with ⟨before, after, e, children, hroot⟩ | ⟨before, e, hroots, hlast⟩
      · cases hroot
      · cases hframes : parent.frames with
        | nil =>
          rw [Spine.frames, hframes, List.getLast?_singleton, Option.some.injEq] at hlast
          subst hlast
          rw [Spine.roots] at hroots
          refine .inl ⟨before, [], e, siblings, ?_⟩
          rw [Spine.pop, Spine.eq_root hframes, hroots, Spine.add]
          rfl
        | cons g rest =>
          rw [Spine.frames, hframes, List.getLast?_cons_cons] at hlast
          refine .inr ⟨before, e, ?_, ?_⟩
          · rw [Spine.pop, Spine.roots_add_inside hframes, ← hroots, Spine.roots]
          · rw [Spine.pop, Spine.frames_add, hframes, hlast]

end RootsAre

namespace Parser

/-- The namespace stacks are those of the open elements. -/
structure NamespacesMatch (es : List OpenElement) (p : Parser) : Prop where
  contexts : p.core.namespaceContexts = es.map OpenElement.scope ++ [baseNamespaceScope]
  declarations : p.core.namespaceDeclarations = es.map fun e ↦ e.declared.map Prod.fst

/-- The open nodes of the spine `s` are what is open in the state `p`, with a handler `h` that never
stops the parse of a document. -/
structure Agrees (h : Handler) (s : Spine Bracket Notice) (p : Parser) : Prop where
  handler : p.handler = h
  isSuspended : p.core.isSuspended = false
  parsingExternalEntity : p.core.parsingExternalEntity = false
  isAligned : p.elements.IsAligned
  names : p.elements.names = (Bracket.elements s.frames).map OpenElement.name
  floor : p.elements.floor = Bracket.floor s.frames
  namespaces : p.config.namespaceMode = true → NamespacesMatch (Bracket.elements s.frames) p
  valid : ∀ e ∈ Bracket.elements s.frames, e.IsValid p.config

/-- The spine `s` is what a parser has written when it is in the state `p`. -/
structure Matches (h : Handler) (s : Spine Bracket Notice) (p : Parser) : Prop extends
    Agrees h s p where
  roots : RootsAre p.core.documentElementCount s

/-- The contract of well-nested programs. -/
def nestingContract (h : Handler) : Contract Parser Mark where
  Rel p l q :=
    (p.core.hasError = true → q.core.hasError = true) ∧
      ∀ s, q.core.hasError = false → Matches h s p →
        ∃ s', Matches h s' q ∧ s'.flatten (spelling h) = s.flatten (spelling h) ++ l ∧
          Bracket.base s'.frames = Bracket.base s.frames
  refl p := ⟨id, fun s _ hs ↦ ⟨s, hs, (List.append_nil _).symm, rfl⟩⟩
  trans := by
    intro p q r l l' hpq hqr
    refine ⟨fun he ↦ hqr.1 (hpq.1 he), fun s hr hs ↦ ?_⟩
    have hq : q.core.hasError = false := by
      cases he : q.core.hasError with
      | false => rfl
      | true => exact absurd (hqr.1 he) (by rw [hr]; exact Bool.false_ne_true)
    obtain ⟨s', hs', hflat', hbase'⟩ := hpq.2 s hq hs
    obtain ⟨s'', hs'', hflat'', hbase''⟩ := hqr.2 s' hr hs'
    exact ⟨s'', hs'', by rw [hflat'', hflat', List.append_assoc], hbase''.trans hbase'⟩

section

variable {h : Handler} {s : Spine Bracket Notice} {p q : Parser}

theorem Agrees.of_frame (hs : Agrees h s p) (hframe : q.frame = p.frame)
    (hsuspended : q.core.isSuspended = false) : Agrees h s q := by
  have hconfig : q.config = p.config := congrArg (fun f : Frame ↦ f.config) hframe
  have helements : q.elements = p.elements := congrArg Frame.elements hframe
  exact
    { handler := (congrArg (fun f : Frame ↦ f.handler) hframe).trans hs.handler
      isSuspended := hsuspended
      parsingExternalEntity :=
        (congrArg (fun f : Frame ↦ f.parsingExternalEntity) hframe).trans hs.parsingExternalEntity
      isAligned := helements ▸ hs.isAligned
      names := helements ▸ hs.names
      floor := helements ▸ hs.floor
      namespaces := fun hmode ↦
        ⟨(congrArg Frame.namespaceContexts hframe).trans (hs.namespaces (hconfig ▸ hmode)).contexts,
          (congrArg Frame.namespaceDeclarations hframe).trans
            (hs.namespaces (hconfig ▸ hmode)).declarations⟩
      valid := fun e he ↦ hconfig ▸ hs.valid e he }

theorem Agrees.add (hs : Agrees h s p) (notices : List Notice) :
    Agrees h (s.add (leaves notices)) p := by
  have hframes := Spine.frames_add (leaves notices) s
  exact
    { hs with
      names := hframes ▸ hs.names
      floor := hframes ▸ hs.floor
      namespaces := hframes ▸ hs.namespaces
      valid := hframes ▸ hs.valid }

theorem Matches.add (hs : Matches h s p) (notices : List Notice) :
    Matches h (s.add (leaves notices)) p :=
  ⟨hs.toAgrees.add notices, rootsAre_add hs.roots notices⟩

/-! ## Opening and closing -/

/-- `q` has one open element more than `p`. -/
structure Opens (e : OpenElement) (p q : Parser) : Prop where
  settings : q.settings = p.settings
  isSuspended : q.core.isSuspended = p.core.isSuspended
  isAligned : q.elements.IsAligned
  names : q.elements.names = e.name :: p.elements.names
  floor : q.elements.floor = p.elements.floor
  contexts : p.config.namespaceMode = true →
    q.core.namespaceContexts = e.scope :: p.core.namespaceContexts
  declarations : p.config.namespaceMode = true →
    q.core.namespaceDeclarations = e.declared.map Prod.fst :: p.core.namespaceDeclarations

theorem Agrees.push {e : OpenElement} (hs : Agrees h s p) (he : e.IsValid p.config)
    (hq : Opens e p q) : Agrees h (s.push (.element e)) q := by
  have hconfig : q.config = p.config := congrArg Settings.config hq.settings
  exact
    { handler := (congrArg Settings.handler hq.settings).trans hs.handler
      isSuspended := hq.isSuspended.trans hs.isSuspended
      parsingExternalEntity :=
        (congrArg Settings.parsingExternalEntity hq.settings).trans hs.parsingExternalEntity
      isAligned := hq.isAligned
      names := by
        rw [hq.names, hs.names, Spine.frames_push, Bracket.elements_element, List.map_cons]
      floor := by
        rw [hq.floor, hs.floor, Spine.frames_push, Bracket.floor_element]
      namespaces := by
        intro hmode
        rw [hconfig] at hmode
        rw [Spine.frames_push, Bracket.elements_element]
        refine ⟨?_, ?_⟩
        · rw [hq.contexts hmode, (hs.namespaces hmode).contexts, List.map_cons, List.cons_append]
        · rw [hq.declarations hmode, (hs.namespaces hmode).declarations, List.map_cons]
      valid := by
        intro e' he'
        rw [Spine.frames_push, Bracket.elements_element] at he'
        rw [hconfig]
        rcases List.mem_cons.1 he' with rfl | hold
        · exact he
        · exact hs.valid e' hold }

/-- `q` has one open element less than `p`. -/
structure Closes (p q : Parser) : Prop where
  settings : q.settings = p.settings
  isSuspended : q.core.isSuspended = p.core.isSuspended
  elements : q.elements = p.elements.pop
  contexts : p.config.namespaceMode = true →
    q.core.namespaceContexts = p.core.namespaceContexts.tail
  declarations : p.config.namespaceMode = true →
    q.core.namespaceDeclarations = p.core.namespaceDeclarations.tail

theorem Agrees.pop {e : OpenElement} {rest : List Bracket} (hs : Agrees h s p)
    (hframes : s.frames = .element e :: rest) (hq : Closes p q) : Agrees h s.pop q := by
  have hconfig : q.config = p.config := congrArg Settings.config hq.settings
  have hrest : s.pop.frames = rest := by rw [Spine.frames_pop, hframes, List.tail_cons]
  have helements : Bracket.elements s.frames = e :: Bracket.elements rest := by
    rw [hframes, Bracket.elements_element]
  exact
    { handler := (congrArg Settings.handler hq.settings).trans hs.handler
      isSuspended := hq.isSuspended.trans hs.isSuspended
      parsingExternalEntity :=
        (congrArg Settings.parsingExternalEntity hq.settings).trans hs.parsingExternalEntity
      isAligned := by
        rw [hq.elements]
        exact Elements.isAligned_pop hs.isAligned
      names := by
        rw [hq.elements, Elements.names_pop hs.isAligned, hs.names, hrest, helements, List.map_cons,
          List.tail_cons]
      floor := by
        rw [hq.elements, hrest, ← Bracket.floor_element e rest, ← hframes, ← hs.floor]
        rfl
      namespaces := by
        intro hmode
        rw [hconfig] at hmode
        have hmatch := hs.namespaces hmode
        rw [helements] at hmatch
        rw [hrest]
        refine ⟨?_, ?_⟩
        · rw [hq.contexts hmode, hmatch.contexts, List.map_cons, List.cons_append, List.tail_cons]
        · rw [hq.declarations hmode, hmatch.declarations, List.map_cons, List.tail_cons]
      valid := by
        intro e' he'
        rw [hrest] at he'
        rw [hconfig]
        refine hs.valid e' ?_
        rw [helements]
        exact List.mem_cons_of_mem e he' }

/-- The replacement text of an entity begins: what is open now is outside it. -/
theorem Agrees.raiseFloor (hs : Agrees h s p) : Agrees h (s.push .entity) (p.step .raiseFloor) := by
  have hlength := Elements.length_names hs.isAligned
  rw [hs.names, List.length_map] at hlength
  exact
    { hs with
      floor := hlength.symm
      namespaces := fun hmode ↦ ⟨(hs.namespaces hmode).contexts, (hs.namespaces hmode).declarations⟩ }

/-- The replacement text of an entity ends. -/
theorem Agrees.restoreFloor {rest : List Bracket} (hs : Agrees h s p)
    (hframes : s.frames = .entity :: rest) :
    Agrees h s.pop (p.step (.restoreFloor (Bracket.floor rest))) := by
  have hrest : s.pop.frames = rest := by rw [Spine.frames_pop, hframes, List.tail_cons]
  have helements : Bracket.elements s.frames = Bracket.elements s.pop.frames := by
    rw [hrest, hframes, Bracket.elements_entity]
  exact
    { handler := hs.handler
      isSuspended := hs.isSuspended
      parsingExternalEntity := hs.parsingExternalEntity
      isAligned := hs.isAligned
      names := helements ▸ hs.names
      floor := hrest ▸ rfl
      namespaces := fun hmode ↦ ⟨helements ▸ (hs.namespaces hmode).contexts,
        helements ▸ (hs.namespaces hmode).declarations⟩
      valid := helements ▸ hs.valid }

/-- An open element is an open node. -/
theorem Agrees.frames_ne_nil (hs : Agrees h s p) (hstack : p.elements.stack ≠ []) :
    s.frames ≠ [] := by
  intro hframes
  apply hstack
  rw [Elements.stack_eq_nil_iff hs.isAligned, hs.names, hframes]
  rfl

/-! ## Quiet programs -/

/-- What a quiet program adds to a log are complete trees. -/
theorem Quiet.nests {l : List Mark} (hstops : h.NeverStops) (hquiet : Quiet p l q) :
    (nestingContract h).Rel p l q := by
  refine ⟨hquiet.hasError, fun s _ hs ↦ ?_⟩
  obtain ⟨notices, rfl⟩ := hquiet.notices
  have hsuspended : q.core.isSuspended = false :=
    (hquiet.isSuspended (hs.handler ▸ hstops)).trans hs.isSuspended
  have hcount : q.core.documentElementCount = p.core.documentElementCount :=
    congrArg Frame.documentElementCount hquiet.frame
  have hagrees := hs.toAgrees.of_frame hquiet.frame hsuspended
  refine ⟨s.add (leaves notices), Matches.add ⟨hagrees, hcount ▸ hs.roots⟩ notices, ?_, ?_⟩
  · rw [Spine.flatten_add, flattenForest_leaves]
  · rw [Spine.frames_add]

end

/-- A program keeps the log well nested. -/
def Nests {α : Type} (h : Handler) (m : Content α) (p : Parser) : Prop :=
  Meets machine marks (nestingContract h) m p

theorem nests_routine {α : Type} {h : Handler} (hstops : h.NeverStops) (m : Routine α) (p : Parser) :
    Nests h (Content.ofRoutine m) p :=
  (quiet_ofRoutine m p).mono fun _ _ _ hquiet ↦ hquiet.nests hstops

/-- Positions and entity bookkeeping of the view are no part of the element structure. -/
theorem nests_view {h : Handler} (hstops : h.NeverStops) {a : Act} {p : Parser} (v : View)
    (hstep : p.step a = { p with view := v }) (hmarks : marks a p = []) :
    Nests h (Content.act a) p := by
  refine Meets.command (Quiet.nests hstops ?_)
  rw [hmarks]
  show Quiet p [] (p.step a)
  rw [hstep]
  exact ⟨rfl, id, fun _ ↦ rfl, [], rfl⟩

end Parser

end Xpact
