import Xpact.Parser.ElementSteps

/-!
# Well-nested events

The log of an accepted document is one tree: an element by its opening, its content and its closing
with the same name, the replacement text of an entity reference by a subtree of its own.
-/

namespace Xpact

open Library Program

namespace Parser

section

variable {α β : Type} {h : Handler} {s : Spine Bracket Notice} {p q : Parser}

/-! ## The replacement text of an entity -/

/-- The text of an entity is a subtree: when its parse is balanced, what it has opened is closed. -/
theorem ensures_parseBalancedContent {parseEntityContent : String8 → Content Unit}
    (hcontent : ∀ text q, Nests h (parseEntityContent text) q) {entering leaving : Content Unit}
    (hentering : ∀ q, Nests h entering q) (hleaving : ∀ q, Nests h leaving q) (text : String8)
    (hs : Matches h s p) (hstack : p.elements.stack ≠ []) :
    Ensures machine marks (parseBalancedContent parseEntityContent text entering leaving) p
      fun l b q ↦ b = true → q.core.hasError = false →
        ∃ s', Matches h s' q ∧ s'.flatten (spelling h) = s.flatten (spelling h) ++ l ∧
          Bracket.base s'.frames = Bracket.base s.frames := by
  have hraised : Matches h (s.push .entity) (p.step .raiseFloor) :=
    ⟨hs.toAgrees.raiseFloor, rootsAre_push_inside hs.roots (hs.frames_ne_nil hstack) .entity⟩
  refine Ensures.read_bind rfl rfl (Ensures.read_bind rfl rfl ?_)
  refine Ensures.command_bind (l := [.enters]) rfl ?_
  refine Ensures.bind fun _ p₂ h₂ ↦ Ensures.bind fun _ p₃ h₃ ↦ Ensures.bind fun _ p₄ h₄ ↦ ?_
  have hinside := (nestingContract h).trans (hentering _ h₂)
    ((nestingContract h).trans (hcontent text p₂ h₃) (hleaving p₃ h₄))
  refine Ensures.command_bind (l := [.leaves]) rfl ?_
  refine Ensures.read_bind rfl rfl (Ensures.done fun hbalanced hq ↦ ?_)
  have hdepth : p₄.elements.stack.length = p.elements.stack.length := by
    rcases Bool.or_eq_true_iff.1 hbalanced with herror | hdepth
    · exact absurd (hq.symm.trans herror) Bool.false_ne_true
    · exact eq_of_beq hdepth
  obtain ⟨s', hs', hflatten, hbase⟩ := hinside.2 _ hq hraised
  rw [Spine.frames_push, Bracket.base_entity] at hbase
  -- As many elements are open as before the text, so it has left no element open.
  have hframes : s'.frames = .entity :: s.frames := by
    rw [← hbase]
    apply Bracket.eq_base_of_length
    have hlength := Elements.length_names hs'.isAligned
    have hlength₀ := Elements.length_names hs.isAligned
    rw [hs'.names, List.length_map] at hlength
    rw [hs.names, List.length_map] at hlength₀
    rw [hlength, hdepth, ← hlength₀, Bracket.floor, hbase, Bracket.elements_entity]
  have hpop : Agrees h s'.pop (p₄.step (.restoreFloor p.elements.floor)) :=
    hs.floor ▸ hs'.toAgrees.restoreFloor hframes
  refine ⟨s'.pop, ⟨hpop, rootsAre_pop hs'.roots⟩, ?_, ?_⟩
  · rw [Spine.flatten_pop _ hframes, hflatten, Spine.flatten_push]
    show _ ++ [Mark.enters] ++ _ ++ [Mark.leaves] = _
    simp only [List.append_assoc, List.append_nil]
  · rw [Spine.frames_pop, hframes, List.tail_cons]

/-- What comes after a balanced text begins well nested; after another one there is an error. -/
theorem nests_parseBalancedContent {parseEntityContent : String8 → Content Unit}
    (hcontent : ∀ text q, Nests h (parseEntityContent text) q) {entering leaving : Content Unit}
    (hentering : ∀ q, Nests h entering q) (hleaving : ∀ q, Nests h leaving q) (text : String8)
    (hstack : p.elements.stack ≠ []) {rest : Bool → Content α} (htrue : ∀ q, Nests h (rest true) q)
    (hfalse : ∀ q, Ensures machine marks (rest false) q fun _ _ r ↦ r.core.hasError = true) :
    Nests h (parseBalancedContent parseEntityContent text entering leaving >>= rest) p := by
  refine nests_of fun s hs ↦ Ensures.bind ?_
  refine (ensures_parseBalancedContent hcontent hentering hleaving text hs hstack).mono ?_
  intro l b q hbalanced a r hrun hr
  cases b with
  | true =>
    obtain ⟨s', hs', hflatten, hbase⟩ := hbalanced rfl (no_error_of_run hrun hr)
    obtain ⟨s'', hs'', hflatten', hbase'⟩ := (htrue q hrun).2 s' hr hs'
    exact ⟨s'', hs'', by rw [hflatten', hflatten, List.append_assoc], hbase'.trans hbase⟩
  | false => exact absurd (hr.symm.trans (hfalse q hrun)) Bool.false_ne_true

/-- Only the parse of a document has a tree to build. -/
theorem nests_of_external {m : Content α} (hp : p.core.parsingExternalEntity = true) :
    Nests h m p :=
  nests_of fun _ hs ↦ absurd (hs.parsingExternalEntity.symm.trans hp) Bool.false_ne_true

/-- Well-nestedness, routine by routine. -/
def nestingLogic (hstops : h.NeverStops) : Logic where
  Holds := Nests h
  done a _ := Meets.done a
  stuck {_ _} := Meets.stuck
  look hk := fun _ _ hrun ↦ hk hrun
  bind := Meets.bind
  routine := nests_routine hstops
  view := nests_view hstops
  openElement := nests_openElement hstops
  closeElement := nests_closeElement hstops
  openElementRange := nests_openElementRange
  closeElementRange := nests_closeElementRange
  balanced hcontent _ _ hentering hleaving text hinside _ hrest herror := by
    rcases hinside with hstack | hexternal
    · exact nests_parseBalancedContent hcontent hentering hleaving text hstack (hrest true) herror
    · exact nests_of_external hexternal

/-! ## Accepted documents -/

/-- A check at the end is quiet, and passes only when its condition does not hold. -/
theorem ensures_checkAtEnd (text : String8) (condition : Scene → Bool) (message : String)
    (p : Parser) :
    Ensures machine marks (checkAtEnd text condition message) p fun l _ q ↦ Quiet p l q ∧
      (q.core.hasError = false → p.core.isSuspended = false → condition p.scene = false) := by
  refine Ensures.read_bind rfl rfl ?_
  show Ensures _ _ (if ((!p.core.hasError && !p.core.isSuspended) && condition p.scene) = true
    then _ else _) p _
  split
  · intro a q hrun
    refine ⟨quiet_ofRoutine (do
      Routine.notePosition (text.length + 1)
      Routine.setError message) p hrun, fun hq ↦ ?_⟩
    obtain ⟨-, rfl⟩ := Prod.mk.inj (Option.some.inj hrun)
    exact absurd (hq.symm.trans (setError_hasError _ message)) Bool.false_ne_true
  · rename_i hpass
    refine Ensures.done ⟨quietContract.refl p, fun hq hp ↦ ?_⟩
    rw [hq, hp] at hpass
    exact Bool.eq_false_iff.2 hpass

/-- A handler that never stops the parse never suspends it. -/
theorem not_suspended_of_run {m : Content α} {a : α} (hrun : m.run machine p = some (a, q))
    (hstops : p.handler.NeverStops) (hp : p.core.isSuspended = false) :
    q.core.isSuspended = false := by
  refine (run_invariant (I := fun r : Parser ↦ r.handler = p.handler ∧ r.core.isSuspended = false)
    ?_ ⟨rfl, hp⟩ hrun).2
  rintro a r ⟨hhandler, hr⟩
  have hstep := congrArg Settings.handler (step_settings a r)
  exact ⟨hstep.trans hhandler, (step_isSuspended (hhandler ▸ hstops) a).trans hr⟩

/-- An accepted document has had its document element, and has no element open. -/
theorem ensures_document (bound : Nat) (input : String8) (hstops : p.handler.NeverStops)
    (hp : p.core.isSuspended = false) :
    Ensures machine marks (document bound input) p fun _ b q ↦ b = true →
      q.core.hasError = false ∧ q.elements.stack = [] ∧ q.core.documentElementCount ≠ 0 := by
  refine Ensures.read_bind rfl rfl ?_
  refine Ensures.bind fun text p₁ h₁ ↦ Ensures.bind fun _ p₂ h₂ ↦ ?_
  have hhandler₁ : p₁.handler = p.handler := congrArg Settings.handler (settings_of_run h₁)
  have hstops₁ : p₁.handler.NeverStops := hhandler₁ ▸ hstops
  have hsuspended₂ := not_suspended_of_run h₂ hstops₁ (not_suspended_of_run h₁ hstops hp)
  refine Ensures.bind ((ensures_checkAtEnd text _ _ p₂).mono ?_)
  rintro _ _ p₃ ⟨hquiet₃, hclosed⟩
  refine Ensures.bind ((ensures_checkAtEnd text _ _ p₃).mono ?_)
  rintro _ _ p₄ ⟨hquiet₄, hbegun⟩
  refine Ensures.bind fun _ p₅ h₅ ↦ ?_
  have hframe₅ : p₅.frame = p₄.frame := (quiet_ofRoutine _ p₄ h₅).frame
  refine Ensures.bind (Ensures.command ?_)
  refine fun b q hrun hb ↦ ?_
  obtain ⟨hgoing, rfl⟩ := Prod.mk.inj (Option.some.inj hrun)
  rw [← hgoing] at hb
  have hq : p₅.core.hasError = false := by
    have hnot := (Bool.and_eq_true_iff.1 hb).1
    exact Bool.not_eq_true' _ ▸ hnot
  have hq₄ : p₄.core.hasError = false := no_error_of_run h₅ hq
  have hq₃ : p₃.core.hasError = false := by
    cases hp₃ : p₃.core.hasError with
    | false => rfl
    | true => exact absurd (hq₄.symm.trans (hquiet₄.hasError hp₃)) Bool.false_ne_true
  have hhandler₂ : p₂.handler = p₁.handler := congrArg Settings.handler (settings_of_run h₂)
  have hstops₂ : p₂.handler.NeverStops := hhandler₂ ▸ hstops₁
  have hempty := hclosed hq₃ hsuspended₂
  have hcount := hbegun hq₄ ((hquiet₃.isSuspended hstops₂).trans hsuspended₂)
  have helements : p₅.elements = p₂.elements :=
    congrArg Frame.elements (hframe₅.trans (hquiet₄.frame.trans hquiet₃.frame))
  have hcount₅ : p₅.core.documentElementCount = p₃.core.documentElementCount :=
    congrArg Frame.documentElementCount (hframe₅.trans hquiet₄.frame)
  refine ⟨hq, ?_, ?_⟩
  · show p₅.elements.stack = []
    rw [helements]
    exact List.isEmpty_iff.1 (by rw [← Bool.not_eq_false']; exact hempty)
  · show p₅.core.documentElementCount ≠ 0
    rw [hcount₅]
    exact ne_of_beq_false hcount

/-! ## The events of a log -/

/-- The delivered events are those of the log. -/
def eventContract : Contract Parser Mark where
  Rel p l q := q.view.events = p.view.events ++ l.filterMap Mark.event?
  refl p := (List.append_nil _).symm
  trans := by
    intro p q r l l' hpq hqr
    rw [hqr, hpq, List.append_assoc, List.filterMap_append]

theorem filterMap_event (es : List Event) : (es.map Mark.event).filterMap Mark.event? = es := by
  rw [List.filterMap_map]
  exact List.filterMap_some

theorem step_events (a : Act) (p : Parser) :
    (p.step a).view.events = p.view.events ++ (marks a p).filterMap Mark.event? := by
  have hdrop (es : List Event) (hes : (p.step a).view.events = p.view.events ++ es)
      (hmarks : marks a p = ((p.step a).view.events.drop p.view.events.length).map .event) :
      (p.step a).view.events = p.view.events ++ (marks a p).filterMap Mark.event? := by
    rw [hmarks, filterMap_event, hes, List.drop_left]
  have hsame (hes : (p.step a).view.events = p.view.events)
      (hmarks : marks a p = ((p.step a).view.events.drop p.view.events.length).map .event) :
      (p.step a).view.events = p.view.events ++ (marks a p).filterMap Mark.event? :=
    hdrop [] (hes.trans (List.append_nil _).symm) hmarks
  cases a with
  | routine c =>
    obtain ⟨notices, hnotices⟩ := stepRoutine_events c p
    exact hdrop _ hnotices rfl
  | emitStructural e => exact hdrop [e] rfl rfl
  | forceCurrentPosition => exact hsame (View.forceCurrentPosition_events _) rfl
  | pushElement name => exact (List.append_nil _).symm
  | pushElementSlice name => exact (List.append_nil _).symm
  | popElement => exact (List.append_nil _).symm
  | raiseFloor => exact (List.append_nil _).symm
  | restoreFloor depth => exact (List.append_nil _).symm
  | _ => exact hsame rfl rfl

theorem events_of_run {m : Content α} {a : α} (hrun : m.run machine p = some (a, q)) :
    q.view.events = p.view.events ++ (log m p).filterMap Mark.event? :=
  Meets.of_commands (C := eventContract) step_events m hrun

/-! ## Documents are well nested -/

theorem matches_start (hp : p.core.parsingExternalEntity = false) :
    Matches p.handler (.root []) (p.start .document) where
  handler := rfl
  isSuspended := rfl
  parsingExternalEntity := hp
  isAligned := Nat.le_refl 0
  names := rfl
  floor := rfl
  namespaces := fun _ ↦ ⟨rfl, rfl⟩
  valid := fun _ he ↦ (List.not_mem_nil he).elim
  roots := ⟨[], rfl⟩

/-- A spine at the end of an accepted document is its one tree. -/
theorem Matches.root_of_closed (hs : Matches h s p) (hbase : Bracket.base s.frames = [])
    (hstack : p.elements.stack = []) (hcount : p.core.documentElementCount ≠ 0) :
    ∃ (before after : List Notice) (e : OpenElement) (children : List (Tree Bracket Notice)),
      s = .root (leaves before ++ .node (.element e) children :: leaves after) := by
  have hlength : (Bracket.elements s.frames).length = 0 := by
    have hnames := Elements.length_names hs.isAligned
    rwa [hs.names, List.length_map, hstack, List.length_nil] at hnames
  have hframes : s.frames = [] := by
    rw [← hbase]
    apply Bracket.eq_base_of_length
    rw [hlength, Bracket.floor, hbase]
    rfl
  obtain ⟨n, hn⟩ := Nat.exists_eq_succ_of_ne_zero hcount
  have hroots := hs.roots
  rw [hn] at hroots
  rcases hroots with htree | ⟨before, e, -, hlast⟩
  · exact htree
  · rw [hframes] at hlast
    cases hlast

end

end Parser

/-- The log of an accepted document is one tree of elements, with notices before and after it: every
element is closed with the name of its start and one end for each of its namespaces, and what the
replacement text of an entity contributes is a forest between the marks of that text. -/
theorem document_wellNested {bound : Nat} {input : String8} {p q : Parser}
    (hstops : p.handler.NeverStops) (hexternal : p.core.parsingExternalEntity = false)
    (hparse : p.parse bound input = some (true, q)) :
    ∃ (before after : List Notice) (e : OpenElement) (children : List (Tree Bracket Notice)),
      Parser.log (document bound input) (p.start .document) =
        flattenForest (spelling p.handler)
          (leaves before ++ .node (.element e) children :: leaves after) ∧
      q.view.events =
        (Parser.log (document bound input) (p.start .document)).filterMap Mark.event? := by
  obtain ⟨⟨ok, r⟩, hrun, hq⟩ := Option.map_eq_some_iff.1 hparse
  obtain ⟨rfl, rfl⟩ := Prod.mk.inj hq
  obtain ⟨hr, hstack, hcount⟩ := Parser.ensures_document (p := p.start .document) bound input hstops
    rfl hrun rfl
  have hnests : Parser.Nests p.handler (document bound input) (p.start .document) :=
    (Parser.nestingLogic hstops).holds_document bound input (p.start .document)
  obtain ⟨s, hs, hflatten, hbase⟩ := (hnests hrun).2 _ hr (Parser.matches_start hexternal)
  obtain ⟨before, after, e, children, rfl⟩ := hs.root_of_closed hbase hstack hcount
  exact ⟨before, after, e, children, hflatten.symm, Parser.events_of_run hrun⟩

/-- A document whose entity contributes an element with a namespace. -/
def entityDocument : String8 :=
  str "<!DOCTYPE a [<!ENTITY e \"<p:b xmlns:p='u'/>\">]><a>&e;</a>"

theorem document_wellNested_entity :
    ∃ q, (Parser.make { namespaceMode := true } .observing).parse 9 entityDocument =
      some (true, q) ∧
    ∃ (before after : List Notice) (e : OpenElement) (children : List (Tree Bracket Notice)),
      Parser.log (document 9 entityDocument)
          ((Parser.make { namespaceMode := true } .observing).start .document) =
        flattenForest (spelling .observing)
          (leaves before ++ .node (.element e) children :: leaves after) ∧
      q.view.events = (Parser.log (document 9 entityDocument)
        ((Parser.make { namespaceMode := true } .observing).start .document)).filterMap
          Mark.event? := by
  have haccepted : ((Parser.make { namespaceMode := true } .observing).parse 9 entityDocument).map
      Prod.fst = some true := by decide +kernel
  obtain ⟨⟨ok, q⟩, hparse, hok⟩ := Option.map_eq_some_iff.1 haccepted
  subst hok
  exact ⟨q, hparse, document_wellNested (fun _ ↦ rfl) rfl hparse⟩

end Xpact
