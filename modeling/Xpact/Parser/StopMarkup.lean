import Xpact.Parser.StopRoutines

/-!
# Subsets, tags and text that honour a stop

The loops over the declarations of a subset, over the tokens of a document and over the characters of
a text test both flags before each round, so what runs in a round may rely on it.
-/

namespace Xpact

open Library Program Routine

-- A routine is one goal of instance search for each of its steps.
set_option synthInstance.maxSize 100000
set_option synthInstance.maxHeartbeats 200000

namespace Parser

section

variable {α β : Type} (input subset text name : String8) (start stop close i depth bound : Nat)

/-! ## Subsets -/

instance unstopped_dtdParameterText : HonoursUnstopped (dtdParameterText name) := by
  unfold dtdParameterText
  apply ObeysFrom.bind inferInstance inferInstance
  intro s
  apply ObeysFrom.ite inferInstance
  apply ObeysFrom.ite inferInstance
  split <;> infer_instance

instance unstopped_parameterCopyStep (expandedDtdParameterValue : String8 → Routine (Option String8))
    [∀ name, HonoursUnstopped (expandedDtdParameterValue name)] (k : ParameterCopy) :
    HonoursUnstopped (parameterCopyStep expandedDtdParameterValue input k) := by
  unfold parameterCopyStep
  dsimp only
  split
  · infer_instance
  apply ObeysFrom.ite inferInstance
  apply ObeysFrom.ite _ inferInstance
  apply ObeysFrom.ite inferInstance
  apply ObeysFrom.bind inferInstance inferInstance
  intro cfg
  apply ObeysFrom.ite inferInstance
  apply ObeysFrom.bind_obeys inferInstance
  intro nested
  infer_instance

/-- The test of a loop that looks at both flags. -/
instance guards_finished (b : Bool) :
    Guards watchedRoutineMachine IsUnstopped (return b || !(← isOngoing)) false := by
  constructor
  intro w v hrun
  obtain ⟨hgoing, rfl⟩ := Prod.mk.inj (Option.some.inj hrun)
  apply isUnstopped_of_isOngoing
  rw [Bool.or_eq_false_iff, Bool.not_eq_false'] at hgoing
  exact hgoing.2

instance unstopped_expandedDtdParameterValue :
    HonoursUnstopped (expandedDtdParameterValue depth name) := by
  induction depth generalizing name with
  | zero => exact Obeys.obeysFrom (obeys_stuck _)
  | succ depth ih =>
    unfold expandedDtdParameterValue
    apply ObeysFrom.bind_obeys inferInstance
    intro text
    split <;> infer_instance

instance unstopped_dtdSubsetWithParameterReference (reference : Nat) :
    HonoursUnstopped (dtdSubsetWithParameterReference depth subset reference) := by
  unfold dtdSubsetWithParameterReference
  apply ObeysFrom.bind inferInstance inferInstance
  intro s
  apply ObeysFrom.ite inferInstance
  apply ObeysFrom.ite inferInstance
  apply ObeysFrom.ite inferInstance
  apply ObeysFrom.bind_obeys inferInstance
  intro value
  split <;> infer_instance

instance unstopped_restoringBase (m : Routine Unit) [HonoursUnstopped m] :
    HonoursUnstopped (restoringBase m) := by
  unfold restoringBase; infer_instance

section Subset

variable (processInternalSubset : String8 → Routine Unit)
  [hprocess : ∀ subset, Honours (processInternalSubset subset)]

include hprocess

instance honours_processExternalText (answer : Answer) :
    Honours (processExternalText processInternalSubset text answer) := by
  unfold processExternalText; infer_instance

instance unstopped_includeResolvedParameterEntity (e : ExternalEntity) :
    HonoursUnstopped (includeResolvedParameterEntity processInternalSubset e) := by
  unfold includeResolvedParameterEntity
  refine @unstopped_unlessError _ ?_
  apply ObeysFrom.bind_obeys inferInstance
  intro r
  split <;> infer_instance

theorem delivers_includeResolvedParameterEntity {p : Parser} (h : p.IsHalted)
    (e : ExternalEntity) :
    Delivers (Content.ofRoutine (includeResolvedParameterEntity processInternalSubset e)) p ↔
      p.core.hasError = false ∧
        Delivers (Content.ofRoutine (resolvedEntityReplacement e false)) p := by
  refine (delivers_unlessError _ p).trans (and_congr_right fun _ ↦ ?_)
  refine @delivers_bind_of_honours _ _ _ h _ _ fun r ↦ ?_
  split <;> infer_instance

instance unstopped_includeExternalParameterEntityInSubset (e : ExternalEntity) :
    HonoursUnstopped (includeExternalParameterEntityInSubset processInternalSubset e) := by
  have hlisted := isListed_notStandalone (.parameterEntity processInternalSubset e)
    fun h ↦ (delivers_includeResolvedParameterEntity _ h e).1
  have hplace := unstopped_place_last hlisted inferInstance inferInstance
  unfold includeExternalParameterEntityInSubset
  refine @unstopped_restoringBase _ ?_
  apply ObeysFrom.bind inferInstance inferInstance
  intro allowed
  apply ObeysFrom.ite inferInstance
  apply ObeysFrom.bind inferInstance inferInstance
  intro present
  exact ObeysFrom.ite inferInstance hplace

instance unstopped_includeInternalParameterEntity (value : String8) :
    HonoursUnstopped (includeInternalParameterEntity processInternalSubset name value start) := by
  unfold includeInternalParameterEntity; infer_instance

instance unstopped_includeParameterEntityInSubset :
    HonoursUnstopped (includeParameterEntityInSubset processInternalSubset subset start) := by
  unfold includeParameterEntityInSubset
  repeat' first
    | infer_instance
    | apply ObeysFrom.ite
    | refine ObeysFrom.bind ?_ inferInstance fun _ ↦ ?_
    | split

omit hprocess in
instance unstopped_conditionalStatusStep (t : Nat × String8) :
    HonoursUnstopped (conditionalStatusStep depth subset t) := by
  unfold conditionalStatusStep; infer_instance

instance unstopped_endConditionalSection (status : Nat × String8) :
    HonoursUnstopped
      (endConditionalSection processInternalSubset subset start close status) := by
  unfold endConditionalSection; infer_instance

/-- Of an ignored section the default text is delivered. -/
theorem delivers_endConditionalSection {p : Parser} (h : p.IsHalted) (status : Nat × String8) :
    Delivers (Content.ofRoutine
      (endConditionalSection processInternalSubset subset start close status)) p ↔
      p.core.hasError = false ∧ IsIgnored subset close status ∧
        p.deliversDefault (subset.substring start (close + 2)) = true := by
  obtain ⟨i, status⟩ := status
  have hkeyword (keyword inner : String8) (contentStart : Nat) :
      Delivers (Content.ofRoutine (
        if status.indexOf '[' 1 = 0 ∧ (close - 1 < i ∨ subset.item i ≠ '[') then
          failAt "invalid conditional section" (subset.length + 1)
        else if adjusted keyword = str "IGNORE" then do
          Routine.emitDefault (subset.substring start (close + 2))
          return close + 3
        else if adjusted keyword = str "INCLUDE" then do
          let inner := inner ++ subset.substring contentStart (close - 1)
          if !inner.isEmpty then
            processInternalSubset inner
          return if ← hasError then subset.length + 1 else close + 3
        else
          failAt "invalid conditional section" (subset.length + 1))) p ↔
        (status.indexOf '[' 1 = 0 → i ≤ close - 1 ∧ subset.item i = '[') ∧
          adjusted keyword = str "IGNORE" ∧
          p.deliversDefault (subset.substring start (close + 2)) = true := by
    rw [delivers_ite_left (not_delivers_silent _ p), not_and, not_or, not_lt, not_not,
      delivers_ite_right (not_delivers_routine h _), delivers_bind_pure, delivers_emitDefault]
  unfold endConditionalSection IsIgnored
  dsimp only
  rw [and_assoc]
  by_cases hbracket : status.indexOf '[' 1 = 0
  · rw [if_pos hbracket, if_pos hbracket]
    exact (delivers_hasError_ite _ _ p).trans (and_congr_right fun _ ↦ hkeyword _ _ _)
  · rw [if_neg hbracket, if_neg hbracket]
    exact (delivers_hasError_ite _ _ p).trans (and_congr_right fun _ ↦ hkeyword _ _ _)

instance unstopped_parseConditionalSection :
    HonoursUnstopped (parseConditionalSection depth processInternalSubset subset start) := by
  unfold parseConditionalSection
  dsimp only
  apply ObeysFrom.ite inferInstance
  have hlisted (close bound : Nat) (t : Nat × String8) :=
    isListed_nested (.ignoredSection depth processInternalSubset subset start close bound t)
      fun h ↦ (delivers_endConditionalSection _ _ _ _ h _).1
  have hloop (close bound : Nat) (t : Nat × String8) :
      HonoursUnstopped (Program.loop (conditionalStatusFinished subset close)
        (conditionalStatusStep depth subset) bound t) :=
    unstopped_loop inferInstance inferInstance
      (fun n t ↦ isListed_nested (.sectionKeyword depth subset close n t) fun _ h ↦ h) bound t
  have hplace := unstopped_place_last (hlisted (findConditionalSectionEnd subset start)
    (subset.length + 2) (start + 3, [])) (hloop _ _ _) inferInstance
  exact hplace

omit hprocess in
instance unstopped_processSubsetComment : HonoursUnstopped (processSubsetComment subset i) := by
  unfold processSubsetComment; infer_instance

omit hprocess in
instance unstopped_processSubsetInstruction :
    HonoursUnstopped (processSubsetInstruction subset i) := by
  unfold processSubsetInstruction; infer_instance

omit hprocess in
instance unstopped_processSubsetCharacter : HonoursUnstopped (processSubsetCharacter subset i) := by
  unfold processSubsetCharacter; infer_instance

instance unstopped_processSubsetToken (allowTextDeclaration : Bool) :
    HonoursUnstopped
      (processSubsetToken depth processInternalSubset allowTextDeclaration subset i) := by
  unfold processSubsetToken; infer_instance

instance unstopped_processSubsetStep (allowTextDeclaration : Bool) (s : SubsetScan) :
    HonoursUnstopped (processSubsetStep depth processInternalSubset allowTextDeclaration s) := by
  unfold processSubsetStep
  repeat' first
    | apply ObeysFrom.ite
    | refine ObeysFrom.bind_obeys
        (unstopped_dtdSubsetWithParameterReference s.subset depth _) fun _ ↦ ?_
    | refine ObeysFrom.bind (by infer_instance) (by infer_instance) fun _ ↦ ?_
    | refine @honours_isOngoing_bind _ _ ?_ inferInstance
  -- Both flags are clear: the subset is expanded, or a token is processed.
  all_goals
    first
      | infer_instance
      | split <;> infer_instance

omit hprocess in
instance guards_subsetFinished (s : SubsetScan) :
    Guards watchedRoutineMachine IsUnstopped (subsetFinished s) false :=
  guards_finished (s.subset.length < s.index)

end Subset

instance honours_processDtdSubset (allowTextDeclaration : Bool) :
    Honours (processDtdSubset bound subset allowTextDeclaration) := by
  induction bound generalizing subset allowTextDeclaration with
  | zero => exact obeys_stuck _
  | succ bound ih =>
    unfold processDtdSubset
    infer_instance

instance honours_processInternalSubset : Honours (processInternalSubset bound subset) := by
  unfold processInternalSubset; infer_instance

instance honours_processInternalSubsetPrefix (allowTextDeclaration : Bool) :
    Honours (processInternalSubsetPrefix bound subset allowTextDeclaration) := by
  unfold processInternalSubsetPrefix; infer_instance

instance unstopped_includeExternalSubset (publicId systemId : String8) :
    HonoursUnstopped (includeExternalSubset bound publicId systemId) := by
  unfold includeExternalSubset
  refine @unstopped_restoringBase _ ?_
  apply ObeysFrom.bind inferInstance inferInstance
  intro allowed
  apply ObeysFrom.ite _ inferInstance
  apply ObeysFrom.bind inferInstance inferInstance
  intro present
  apply ObeysFrom.ite inferInstance
  apply ObeysFrom.bind inferInstance inferInstance
  intro f
  apply ObeysFrom.bind_obeys inferInstance
  intro r
  split <;> infer_instance

instance unstopped_includeResolvedForeignDtd (base : Option String8) (hasResolver : Bool) :
    HonoursUnstopped (includeResolvedForeignDtd bound name base hasResolver) := by
  unfold includeResolvedForeignDtd
  apply ObeysFrom.bind inferInstance inferInstance
  intro failed
  apply ObeysFrom.bind inferInstance inferInstance
  intro allowed
  apply ObeysFrom.ite _ inferInstance
  apply ObeysFrom.bind_obeys inferInstance
  intro r
  split <;> infer_instance

theorem delivers_includeResolvedForeignDtd {p : Parser} (h : p.IsHalted) (base : Option String8)
    (hasResolver : Bool) :
    Delivers (Content.ofRoutine (includeResolvedForeignDtd bound name base hasResolver)) p ↔
      (!p.core.hasError && p.readsParameterEntities && hasResolver) = true ∧
        Delivers (Content.ofRoutine
          (resolvedExternalReplacement name [] (str "foreign.dtd") true base false)) p := by
  refine (delivers_ite_right (not_delivers_silent (pure ()) p)).trans (and_congr_right fun _ ↦ ?_)
  refine @delivers_bind_of_honours _ _ _ h _ _ fun r ↦ ?_
  split <;> infer_instance

instance unstopped_includeForeignDtdIfNeeded :
    HonoursUnstopped (includeForeignDtdIfNeeded bound name) := by
  unfold includeForeignDtdIfNeeded
  refine @unstopped_restoringBase _ ?_
  apply ObeysFrom.bind inferInstance inferInstance
  intro s
  apply ObeysFrom.ite _ inferInstance
  apply ObeysFrom.bind inferInstance inferInstance
  intro _
  have hlisted (base : Option String8) (hasResolver : Bool) :=
    isListed_notStandalone (.foreignDtd bound name base hasResolver)
      fun h ↦ (delivers_includeResolvedForeignDtd _ _ h _ _).1
  have hplace := unstopped_place_last
    (hlisted s.core.flags.currentExternalEntityBase s.hasResolver) inferInstance inferInstance
  exact hplace

/-! ## Document type declarations -/

instance unstopped_emitDoctypeDefault :
    HonoursUnstopped (emitDoctypeDefault input start stop) := by
  unfold emitDoctypeDefault; infer_instance

instance honours_emitDoctypeDefaultTail : Honours (emitDoctypeDefaultTail input start stop) := by
  unfold emitDoctypeDefaultTail; infer_instance

instance unstopped_emitDoctypeDefaultOpen (nameStart nameEnd subsetStart : Nat) :
    HonoursUnstopped
      (emitDoctypeDefaultOpen input start nameStart nameEnd subsetStart close) := by
  unfold emitDoctypeDefaultOpen; infer_instance

instance unstopped_emitDoctypeDefaultClose (hasInternalSubset : Bool) :
    HonoursUnstopped (emitDoctypeDefaultClose hasInternalSubset) := by
  unfold emitDoctypeDefaultClose; infer_instance

instance honours_atSubsetOffset (offset : Nat) (m : Routine Unit) [Honours m] :
    Honours (atSubsetOffset offset m) := by
  unfold atSubsetOffset; infer_instance

instance unstopped_processIncompleteDoctypePrefix :
    HonoursUnstopped (processIncompleteDoctypePrefix bound input start) := by
  unfold processIncompleteDoctypePrefix; infer_instance

instance honours_parseDoctypeSubset (subsetStart : Nat) :
    Honours (parseDoctypeSubset bound input subsetStart close) := by
  unfold parseDoctypeSubset; infer_instance

instance unstopped_emitStartDoctype (externalId : Option (String8 × String8))
    (hasInternalSubset : Bool) :
    HonoursUnstopped (emitStartDoctype externalId hasInternalSubset) := by
  unfold emitStartDoctype; infer_instance

theorem delivers_emitStartDoctype (externalId : Option (String8 × String8))
    (hasInternalSubset : Bool) (p : Parser) :
    Delivers (Content.ofRoutine (emitStartDoctype externalId hasInternalSubset)) p ↔
      p.core.hasError = false :=
  (delivers_unlessError _ p).trans (and_iff_left (delivers_emit p _ rfl))

theorem unstopped_startDoctype (externalId : Option (String8 × String8)) (hasInternalSubset : Bool) :
    HonoursUnstopped (if externalId.isSome then
      checkNotStandalone >>= fun _ ↦ emitStartDoctype externalId hasInternalSubset
      else emitStartDoctype externalId hasInternalSubset) := by
  have hlisted := isListed_notStandalone (.startDoctype externalId hasInternalSubset)
    fun _ ↦ (delivers_emitStartDoctype _ _ _).1
  exact ObeysFrom.ite (unstopped_place_last hlisted inferInstance inferInstance) inferInstance

instance unstopped_parseDoctypeBody (nameStart : Nat) :
    HonoursUnstopped (parseDoctypeBody bound input start nameStart i close) := by
  unfold parseDoctypeBody
  -- What comes before the first event keeps both flags clear.
  repeat' first
    | refine ObeysFrom.bind inferInstance inferInstance fun _ ↦ ?_
    | apply ObeysFrom.ite
  all_goals
    refine ObeysFrom.bind_obeys inferInstance fun _ ↦ ?_
    refine Obeys.bind (@honours_whileOngoing _ ?_) fun _ ↦ ?_
    · apply ObeysFrom.bind inferInstance inferInstance
      intro _
      exact unstopped_startDoctype _ _
    · -- The rest stands behind tests.
      repeat' first
        | refine Obeys.bind inferInstance fun _ ↦ ?_
        | apply Obeys.ite
        | split
      all_goals infer_instance

instance unstopped_parseDoctype : HonoursUnstopped (parseDoctype bound input start) := by
  unfold parseDoctype; infer_instance

/-! ## Tags -/

/-- The content honours a stop that was recorded before it, or during it. -/
abbrev HonoursContent (m : Content α) : Prop := Obeys stopLaw m

/-- The content honours a stop that is recorded during it. -/
abbrev HonoursFresh (m : Content α) : Prop := ObeysFrom stopLaw IsUnstopped m

/-- The content delivers nothing, and does not look for a stop request. -/
abbrev IsSilentContent (m : Content α) : Prop := Uses Act.isSilent m

instance silent_liftM (m : Routine α) [hm : IsSilent m] : IsSilentContent (liftM m) :=
  ⟨IssuesOnly.lift hm.issuesOnly⟩

instance silent_act (a : Act) [ha : Passes a.isSilent] : IsSilentContent (Content.act a) := by
  unfold Content.act; infer_instance

instance silent_scene : IsSilentContent Content.scene := by unfold Content.scene; infer_instance

instance (priority := low) honoursContent_of_silent (m : Content α) [hm : IsSilentContent m] :
    HonoursContent m :=
  ⟨fun w ↦ Law.of_issuesOnly stopLaw (fun _ w hc ↦ holds_silent hc w) hm.issuesOnly w⟩

instance keepsContent_of_silent (m : Content α) [hm : IsSilentContent m] :
    Program.Keeps stopMonitor.machine IsUnstopped m :=
  ⟨Preserves.of_issuesOnly (fun _ _ hc hw ↦ isUnstopped_step hc hw) hm.issuesOnly⟩

instance honours_liftM (m : Routine α) [hm : Honours m] : HonoursContent (liftM m) := ⟨hm.holds⟩

instance fresh_liftM (m : Routine α) [hm : HonoursUnstopped m] : HonoursFresh (liftM m) :=
  ⟨hm.holds⟩

instance fresh_ofRoutine (m : Routine α) [hm : HonoursUnstopped m] :
    HonoursFresh (Content.ofRoutine m) := ⟨hm.holds⟩

instance guards_liftM (m : Routine Bool) (b : Bool)
    [hm : Guards watchedRoutineMachine IsUnstopped m b] :
    Guards stopMonitor.machine IsUnstopped (liftM m) b := guards_lift _ _ m b hm

instance honoursContent_isOngoing_bind (f : Bool → Content α) [hf : HonoursFresh (f true)]
    [hnot : HonoursContent (f false)] : HonoursContent (liftM isOngoing >>= f) :=
  Obeys.guard inferInstance inferInstance hf hnot

instance honoursContent_loop {γ : Type} (finished : γ → Content Bool) (body : γ → Content γ)
    [hfinished : ∀ c, HonoursContent (finished c)]
    [hguards : ∀ c, Guards stopMonitor.machine IsUnstopped (finished c) false]
    [hbody : ∀ c, HonoursFresh (body c)] (n : Nat) (c : γ) :
    HonoursContent (Program.loop finished body n c) :=
  Obeys.loop_guard hfinished hguards hbody n c

instance honours_checkHandlerStopContent : HonoursContent (liftM Routine.checkHandlerStop) :=
  inferInstance

instance fresh_act (a : Act) : HonoursFresh (Content.act a) := ⟨fun _ hw ↦ holds_unstopped hw⟩

instance fresh_emitStructural (e : Event) : HonoursFresh (Content.emitStructural e) := by
  unfold Content.emitStructural; infer_instance

/-- A listed place, in front of content that honours every stop. -/
theorem fresh_place {γ : Type} {first : Content α} {second : α → Content β} {k : α → β → Content γ}
    (hplace : ∀ p, IsLate first second p → LatePlace p first second)
    (hfirst : HonoursFresh first) (hsecond : ∀ a, HonoursFresh (second a))
    (hk : ∀ a b, HonoursContent (k a b)) :
    HonoursFresh (first >>= fun a ↦ second a >>= k a) := by
  constructor
  intro w hw
  apply Monitor.law_pair (hplace _) hw (hfirst.holds w hw)
  · exact fun a v hv ↦ (hsecond a).holds v hv
  · exact fun a b v ↦ (hk a b).holds v

theorem fresh_listed {γ : Type} {first : Routine α} {second : α → Routine β}
    {k : α → β → Content γ} (hlisted : IsListed first second) (hfirst : HonoursUnstopped first)
    (hsecond : ∀ a, HonoursUnstopped (second a)) (hk : ∀ a b, HonoursContent (k a b)) :
    HonoursFresh (Content.ofRoutine first >>= fun a ↦ Content.ofRoutine (second a) >>= k a) :=
  fresh_place (fun p hlate ↦ .routine (hlisted p hlate)) inferInstance inferInstance hk

/-! ### Elements -/

variable (attributes : Attributes) (nameStart nameEnd : Nat)

instance honours_emitStartNamespaceDeclarations (declared : List String8) (scope : NamespaceScope) :
    HonoursContent (emitStartNamespaceDeclarations declared scope) := by
  apply Obeys.forM
  intro nsPrefix
  refine @honoursContent_isOngoing_bind _ _ ?_ inferInstance
  apply ObeysFrom.ite _ inferInstance
  split <;> infer_instance

instance honours_emitEndNamespaceDeclarations (declared : List String8) :
    HonoursContent (emitEndNamespaceDeclarations declared) := by
  unfold emitEndNamespaceDeclarations; infer_instance

instance silent_checkElementStart : IsSilentContent checkElementStart := by
  unfold checkElementStart; infer_instance

instance honours_openElement : HonoursContent (openElement name attributes) := by
  unfold openElement; infer_instance

instance silent_openElementRange : IsSilentContent (openElementRange input nameStart nameEnd) := by
  unfold openElementRange; infer_instance

instance silent_checkElementEnd : IsSilentContent (checkElementEnd name) := by
  unfold checkElementEnd; infer_instance

instance honours_closeNamespaces : HonoursContent closeNamespaces := by
  unfold closeNamespaces
  apply Obeys.bind inferInstance
  intro p
  split <;> infer_instance

/-- Behind the check of an end tag. -/
theorem delivers_checkElementEnd (m : Content Unit) (p : Parser) :
    Delivers (do if ← checkElementEnd name then m) p ↔
      (p.elements.floor < p.elements.stack.length ∧ p.elements.openElementMatches name = true) ∧
        Delivers m p := by
  have hfails (message : String) (q : Parser) : ¬Delivers (do
      let ok ← (liftM (failAt message false) : Content Bool)
      if ok then m) q := fun h ↦
    Monitor.not_changes_done () ((delivers_silent (a := .routine (.setError message)) rfl q _).1 h)
  show Delivers (do
    let ok ← (if p.elements.stack.length = 0 then liftM (failAt "unexpected end tag" false)
      else if p.elements.stack.length ≤ p.elements.floor then do
        Program.command (.routine .noteCurrentEntityReferencePosition)
        liftM (failAt "asynchronous entity" false)
      else if !p.elements.openElementMatches name then liftM (failAt "mismatched end tag" false)
      else pure true : Content Bool)
    if ok then m) p ↔ _
  by_cases hopen : p.elements.floor < p.elements.stack.length
  · rw [if_neg (Nat.ne_of_gt (Nat.zero_lt_of_lt hopen)), if_neg (Nat.not_le_of_lt hopen)]
    cases p.elements.openElementMatches name with
    | false => exact iff_of_false (hfails _ p) fun h ↦ Bool.false_ne_true h.1.2
    | true => exact (and_iff_right ⟨hopen, rfl⟩).symm
  · refine iff_of_false ?_ fun h ↦ hopen h.1.1
    by_cases hempty : p.elements.stack.length = 0
    · rw [if_pos hempty]
      exact hfails _ p
    · rw [if_neg hempty, if_pos (Nat.le_of_not_lt hopen)]
      intro h
      exact hfails _ _
        ((delivers_silent (a := .routine .noteCurrentEntityReferencePosition) rfl p _).1 h)

theorem delivers_closeNamedElement {p : Parser} (h : p.IsHalted)
    (wantsEndEvents namespaceMode : Bool) :
    Delivers (closeNamedElement wantsEndEvents namespaceMode name) p ↔
      p.core.hasError = false ∧ wantsEndEvents = true := by
  have hpopped : (p.step .popElement).IsHalted := isHalted_step _ h
  refine (delivers_silent (a := .popElement) rfl p _).trans ?_
  show Delivers (if p.core.hasError then _ else if wantsEndEvents then _ else _)
    (p.step .popElement) ↔ _
  cases p.core.hasError with
  | true =>
    exact iff_of_false (not_delivers_of_honours hpopped _) fun h ↦ Bool.false_ne_true h.1.symm
  | false =>
    cases wantsEndEvents with
    | false =>
      exact iff_of_false (not_delivers_of_honours hpopped _) fun h ↦ Bool.false_ne_true h.2
    | true =>
      refine iff_of_true (Monitor.changes_exec.2 (.inl ?_)) ⟨rfl, rfl⟩
      exact emit_events_ne _ (.endElement name)

theorem delivers_closeElement {p : Parser} (h : p.IsHalted) :
    Delivers (closeElement name) p ↔ p.DeliversEnd name := by
  have hexpanded : Delivers (do
      let s ← Content.scene
      let eventName ←
        if s.handler.wantsEndElementEvents && s.config.namespaceMode then
          liftM (expandedElementName name (s.core.namespaceContexts.headD ∅))
        else
          pure name
      closeNamedElement s.handler.wantsEndElementEvents s.config.namespaceMode eventName) p ↔
      p.core.hasError = false ∧ p.handler.wantsEndElementEvents = true ∧
        (p.config.namespaceMode = true →
          (expandElementName p.config name (p.core.namespaceContexts.headD ∅)).isOk = true) := by
    show Delivers (if (p.handler.wantsEndElementEvents && p.config.namespaceMode) = true then _
      else _) p ↔ _
    by_cases hname : (p.handler.wantsEndElementEvents && p.config.namespaceMode) = true
    · rw [if_pos hname]
      show Delivers (Content.ofRoutine (reportExpanded name
        (expandElementName p.config name (p.core.namespaceContexts.headD ∅))) >>= _) p ↔ _
      cases expandElementName p.config name (p.core.namespaceContexts.headD ∅) with
      | ok expanded =>
        refine (delivers_closeNamedElement expanded h _ _).trans (and_congr_right fun _ ↦ ?_)
        exact (and_iff_left fun _ ↦ rfl).symm
      | error message =>
        refine iff_of_false (fun hdelivers ↦ ?_) fun hno ↦
          Bool.false_ne_true (hno.2.2 (Bool.and_eq_true_iff.1 hname).2)
        have hset := (delivers_silent (a := .routine (.setError message)) rfl p _).1 hdelivers
        have hno := ((delivers_closeNamedElement name (isHalted_step _ h) _ _).1 hset).1
        exact Bool.false_ne_true (hno.symm.trans (setError_hasError p message))
    · rw [if_neg hname]
      refine (delivers_closeNamedElement name h _ _).trans
        (and_congr_right fun _ ↦ (and_iff_left_of_imp ?_).symm)
      intro hwanted hmode
      exact absurd (Bool.and_eq_true_iff.2 ⟨hwanted, hmode⟩) hname
  refine ((delivers_checkElementEnd name _ p).trans (and_congr_right fun _ ↦ hexpanded)).trans ?_
  constructor
  · rintro ⟨⟨hopen, hinnermost⟩, herror, hwanted, hexpands⟩
    exact ⟨herror, hopen, hinnermost, hwanted, hexpands⟩
  · intro hend
    exact ⟨⟨hend.isOpen, hend.isInnermost⟩, hend.noError, hend.isWanted, hend.expands⟩

instance fresh_closeElement : HonoursFresh (closeElement name) := by
  unfold closeElement; infer_instance

instance silent_closeElementRange : IsSilentContent (closeElementRange input nameStart nameEnd) := by
  unfold closeElementRange; infer_instance

theorem latePlace_endElement {p : Parser}
    (hlate : IsLate (Content.ofRoutine (Routine.emitDefaultWhen .endElement text))
      (fun _ ↦ closeElement name) p) :
    LatePlace p (Content.ofRoutine (Routine.emitDefaultWhen .endElement text)) fun _ ↦
      closeElement name := by
  obtain ⟨hasks, hdelivers⟩ := Monitor.isLate_exec.1 hlate
  exact .endElement _ _ hasks
    ((delivers_closeElement name (stopMonitor.halted_of_raises hasks)).1 hdelivers)

/-! ### Tags -/

instance unstopped_checkStartTagName : HonoursUnstopped (checkStartTagName bound name) := by
  unfold checkStartTagName; infer_instance

instance honours_finishStartTag (opening closing : Content Unit) [HonoursContent opening]
    [HonoursFresh closing] : HonoursContent (finishStartTag input start i opening closing) := by
  unfold finishStartTag; infer_instance

instance honours_parseStartTagStrings :
    HonoursContent (parseStartTagStrings bound input start i name) := by
  unfold parseStartTagStrings; infer_instance

instance fresh_parseStartTag : HonoursFresh (parseStartTag bound input start) := by
  unfold parseStartTag; infer_instance

instance fresh_parseEndTag : HonoursFresh (parseEndTag input start) := by
  have hend (text name : String8) (k : Nat) :
      HonoursFresh (do
        emitDefaultWhen .endElement text
        closeElement name
        return k : Content Nat) :=
    fresh_place (fun _ hlate ↦ latePlace_endElement _ _ hlate) inferInstance inferInstance
      inferInstance
  unfold parseEndTag
  repeat' first
    | infer_instance
    | exact hend _ _ _
    | apply ObeysFrom.bind_ite
    | apply ObeysFrom.ite
    | refine ObeysFrom.bind (by infer_instance) (by infer_instance) fun _ ↦ ?_

/-! ## CDATA sections -/

/-- Once a stop is an error, or there is none, a test of the error is enough. -/
instance passable_unlessError (m : Routine Unit) [hm : HonoursUnstopped m] :
    ObeysFrom routineStopLaw IsPassable (unlessError m) := by
  constructor
  intro w hw
  apply routineStopLaw.read_bind (a := w.state.core.hasError) (s := w) rfl rfl
  by_cases herror : w.state.core.hasError = true
  · rw [if_pos herror]
    exact routineStopLaw.done () w
  · rw [if_neg herror]
    apply hm.holds w
    exact Bool.eq_false_iff.2 fun hraised ↦ herror (hw hraised)

instance keepsPassable_of_silent (m : Routine α) [hm : IsSilent m] :
    Program.Keeps watchedRoutineMachine IsPassable m := by
  have hcommand (c : Command) (w : stopMonitor.Watched) (hc : c.isSilent = true)
      (hw : IsPassable w) : IsPassable (stopMonitor.machine.step (.routine c) w) := by
    intro hraised
    apply step_hasError
    apply hw
    have hsilent := recordsStop_of_isSilent (a := .routine c) hc w.state
    show w.raised = true
    rw [← Bool.or_false w.raised, ← hsilent]
    exact hraised
  exact ⟨Preserves.of_issuesOnly hcommand hm.issuesOnly⟩

/-- The text of a CDATA section stands behind a test of the suspension, and of the error. -/
theorem honours_notSuspended (c : Bool) {m n : Routine α}
    (hm : ObeysFrom routineStopLaw IsPassable m) (hn : Honours n) :
    Honours (Routine.core >>= fun core ↦ if (!core.isSuspended && c) = true then m else n) := by
  constructor
  intro w
  apply routineStopLaw.read_bind (a := w.state.core) (s := w) rfl rfl
  by_cases htest : (!w.state.core.isSuspended && c) = true
  · rw [if_pos htest]
    apply hm.holds w
    intro hraised
    rw [Bool.and_eq_true, Bool.not_eq_true'] at htest
    exact (w.halted hraised).resolve_right (Bool.eq_false_iff.1 htest.1)
  · rw [if_neg htest]
    exact hn.holds w

instance honours_endCdata : Honours (whileOngoing do
    Routine.emitDefaultWhen .endCdata text
    Routine.notePosition i
    Routine.emit .endCdataSection) :=
  @honours_whileOngoing _ (unstopped_place_last (isListed_endCdata _ _) inferInstance inferInstance)

instance unstopped_parseCdata : HonoursUnstopped (parseCdata input start) := by
  unfold parseCdata
  apply ObeysFrom.bind inferInstance inferInstance
  intro s
  apply ObeysFrom.ite inferInstance
  apply ObeysFrom.ite inferInstance
  apply ObeysFrom.ite inferInstance
  refine unstopped_place_after (isListed_startCdata _ _) inferInstance inferInstance inferInstance ?_
  intro _
  exact honours_notSuspended _ inferInstance inferInstance

/-! ## References in content -/

section Content

variable (parseEntityContent : String8 → Content Unit)
  [hcontent : ∀ text, HonoursContent (parseEntityContent text)]

include hcontent

instance honours_parseBalancedContent (entering leaving : Content Unit) [HonoursContent entering]
    [HonoursContent leaving] :
    HonoursContent (parseBalancedContent parseEntityContent text entering leaving) := by
  unfold parseBalancedContent; infer_instance

omit hcontent in
theorem delivers_includeExternalEntityInContent (e : ExternalEntity) (p : Parser) :
    Delivers (includeExternalEntityInContent parseEntityContent e) p ↔ e.isUnparsed = false ∧
      if p.config.externalEntityPolicy.allowsGeneralEntities then
        p.externalEntityResolver.isSome = true ∧
          Delivers (includeReadExternalEntity parseEntityContent e
            p.core.flags.currentExternalEntityBase) p
      else
        p.config.skipUnreadExternalEntities = true := by
  have hfails (message : String) (base : Option String8) : ¬Delivers (do
      Routine.setError message
      assign fun f ↦ { f with currentExternalEntityBase := base } : Content Unit) p := fun h ↦
    not_delivers_silent (do
      Routine.setError message
      assign fun f ↦ { f with currentExternalEntityBase := base }) p h
  unfold includeExternalEntityInContent
  show Delivers (if e.isUnparsed then _ else
    if !p.config.externalEntityPolicy.allowsGeneralEntities then
      if p.config.skipUnreadExternalEntities then _ else _
    else if !p.externalEntityResolver.isSome then _ else _) p ↔ _
  cases e.isUnparsed with
  | true => exact iff_of_false (hfails _ _) fun h ↦ Bool.false_ne_true h.1.symm
  | false =>
    refine Iff.trans ?_ (and_iff_right rfl).symm
    cases p.config.externalEntityPolicy.allowsGeneralEntities with
    | false =>
      cases p.config.skipUnreadExternalEntities with
      | false => exact iff_of_false (hfails _ _) Bool.false_ne_true
      | true =>
        exact iff_of_true (Monitor.changes_exec.2 (.inl (emit_events_ne p _))) rfl
    | true =>
      cases p.externalEntityResolver.isSome with
      | false => exact iff_of_false (hfails _ _) fun h ↦ Bool.false_ne_true h.1
      | true => exact (and_iff_right rfl).symm

/-- Of what is read only the text declaration is delivered. -/
theorem deliversExternalEntity_of_delivers {e : ExternalEntity} {p : Parser} (h : p.IsHalted)
    (hdelivers : Delivers (includeExternalEntityInContent parseEntityContent e) p) :
    p.DeliversExternalEntity e := by
  obtain ⟨hparsed, hread⟩ :=
    (delivers_includeExternalEntityInContent parseEntityContent e p).1 hdelivers
  refine ⟨hparsed, ?_⟩
  by_cases hallows : p.config.externalEntityPolicy.allowsGeneralEntities = true
  · rw [if_pos hallows] at hread ⊢
    refine ⟨hread.1, ?_⟩
    have hpushed := (delivers_silent (a := .routine (.pushEntity e.name)) rfl p _).1 hread.2
    refine ((Monitor.changes_bind
      (m := Content.ofRoutine (resolvedEntityReplacement e false))).1 hpushed).resolve_right ?_
    rintro ⟨r, q, hrun, hrest⟩
    have hhalted := isHalted_of_run (isHalted_step (.routine (.pushEntity e.name)) h) hrun
    refine @not_delivers_of_honours _ _ hhalted _ ?_ hrest
    split <;> infer_instance
  · rw [if_neg hallows] at hread ⊢
    exact hread

theorem deliversEntity_of_delivers {written : String8} {p : Parser} (h : p.IsHalted)
    (hdelivers : Delivers (includeGeneralEntityInContent parseEntityContent written) p) :
    ∃ name q, (Content.ofRoutine (resolvedGeneralEntityName written)).run machine p =
      some (name, q) ∧ q.DeliversEntity name := by
  obtain ⟨name, q, hrun, hrest⟩ :=
    (Monitor.changes_bind.1 hdelivers).resolve_left
      (not_delivers_silent (resolvedGeneralEntityName written) p)
  refine ⟨name, q, hrun, ?_⟩
  have hhalted := isHalted_of_run h hrun
  have hsilent (m : Content Unit) [HonoursContent m] : ¬Delivers m q :=
    not_delivers_of_honours hhalted m
  have hcases : Delivers (if q.core.hasError then _ else if q.core.isEntityActive name then _ else
    if maxEntityDepth ≤ q.core.entityStack.length then _ else _) q := hrest
  cases herror : q.core.hasError with
  | true =>
    rw [herror, if_pos rfl] at hcases
    exact absurd hcases (hsilent _)
  | false =>
  rw [herror, if_neg Bool.false_ne_true] at hcases
  cases hactive : q.core.isEntityActive name with
  | true =>
    rw [hactive, if_pos rfl] at hcases
    exact absurd hcases (hsilent _)
  | false =>
  rw [hactive, if_neg Bool.false_ne_true] at hcases
  by_cases hdepth : maxEntityDepth ≤ q.core.entityStack.length
  · rw [if_pos hdepth] at hcases
    exact absurd hcases (hsilent _)
  rw [if_neg hdepth, show (machine.see q).core = q.core from rfl] at hcases
  cases hvalue : q.core.context.entityValue name with
  | some value =>
    rw [hvalue] at hcases
    exact absurd hcases (hsilent _)
  | none =>
    refine ⟨herror, hactive, Nat.lt_of_not_le hdepth, hvalue, ?_⟩
    rw [hvalue] at hcases
    cases hlookup : q.core.context.lookupExternalEntity name with
    | some e =>
      rw [hlookup] at hcases
      exact deliversExternalEntity_of_delivers parseEntityContent hhalted hcases
    | none =>
      rw [hlookup] at hcases
      have hskipped : Delivers (if mayBeDeclaredUnread q.core then
        if q.handler.reportsSkippedInternalGeneralEntities then _ else _ else _) q := hcases
      by_cases hunread : mayBeDeclaredUnread q.core = true
      · rw [if_pos hunread] at hskipped
        refine ⟨hunread, ?_⟩
        by_cases hreports : q.handler.reportsSkippedInternalGeneralEntities = true
        · exact hreports
        · rw [if_neg hreports] at hskipped
          exact absurd hskipped (hsilent _)
      · rw [if_neg hunread] at hskipped
        exact absurd hskipped (hsilent _)

instance fresh_includeExternalEntityInContent (e : ExternalEntity) :
    HonoursFresh (includeExternalEntityInContent parseEntityContent e) := by
  unfold includeExternalEntityInContent
  repeat' first
    | infer_instance
    | apply ObeysFrom.ite
    | refine ObeysFrom.bind (by infer_instance) (by infer_instance) fun _ ↦ ?_
    | refine ObeysFrom.bind_obeys (fresh_liftM (resolvedEntityReplacement e false)) fun _ ↦ ?_
  -- The text of the entity tests both flags.
  split <;> infer_instance

instance fresh_includeGeneralEntityInContent (written : String8) :
    HonoursFresh (includeGeneralEntityInContent parseEntityContent written) := by
  unfold includeGeneralEntityInContent
  repeat' first
    | infer_instance
    | apply ObeysFrom.ite
    | refine ObeysFrom.bind ?_ inferInstance fun _ ↦ ?_
    | split

theorem latePlace_entity {p : Parser} {byteCount : Nat}
    (hlate : IsLate (Content.ofRoutine (Routine.emitText text)) (fun _ ↦ do
      Content.act (.pushEntityReferencePosition start byteCount)
      includeGeneralEntityInContent parseEntityContent name) p) :
    LatePlace p (Content.ofRoutine (Routine.emitText text)) fun _ ↦ (do
      Content.act (.pushEntityReferencePosition start byteCount)
      includeGeneralEntityInContent parseEntityContent name) := by
  obtain ⟨hasks, hdelivers⟩ := Monitor.isLate_exec.1 hlate
  have hhalted : (p.step (.routine (.emitText text))).IsHalted := stopMonitor.halted_of_raises hasks
  have hrest :=
    (delivers_silent (a := .pushEntityReferencePosition start byteCount) rfl _ _).1 hdelivers
  obtain ⟨resolved, q, hrun, hentity⟩ :=
    deliversEntity_of_delivers parseEntityContent (isHalted_step _ hhalted) hrest
  exact .entity _ _ _ _ _ hasks hrun hentity

instance fresh_appendReferenceInContent :
    HonoursFresh (appendReferenceInContent parseEntityContent input start text) := by
  have hentity (name : String8) (byteCount : Nat) {k : Unit → Content (Nat × String8)}
      (hk : ∀ u, HonoursContent (k u)) :
      HonoursFresh (do
        (do Routine.emitText text : Content Unit)
        Content.act (.pushEntityReferencePosition start byteCount)
        includeGeneralEntityInContent parseEntityContent name >>= k) := by
    have hplace := fresh_place (fun _ hlate ↦
      latePlace_entity text name start parseEntityContent hlate) inferInstance
      (fun _ ↦ (inferInstance : HonoursFresh (do
        Content.act (.pushEntityReferencePosition start byteCount)
        includeGeneralEntityInContent parseEntityContent name))) fun _ u ↦ hk u
    simp only [bind_assoc] at hplace
    exact hplace
  have hskipped (name : String8) (r : Nat × String8) : HonoursFresh (do
      Routine.emitText text
      Routine.emit (.skippedEntity name false)
      return r : Content (Nat × String8)) := by
    have hplace := fresh_listed (isListed_skippedReference text name) inferInstance inferInstance
      fun _ _ ↦ obeys_pure stopLaw r
    exact hplace
  have hdefault (reference : String8) (r : Nat × String8) : HonoursFresh (do
      Routine.emitText text
      Routine.emitDefault reference
      return r : Content (Nat × String8)) := by
    have hplace := fresh_listed (isListed_defaultReference text reference) inferInstance
      inferInstance fun _ _ ↦ obeys_pure stopLaw r
    exact hplace
  unfold appendReferenceInContent
  apply ObeysFrom.bind inferInstance inferInstance
  intro p
  repeat' first
    | infer_instance
    | exact hentity _ _ inferInstance
    | exact hskipped _ _
    | exact hdefault _ _
    | apply ObeysFrom.bind_ite
    | apply ObeysFrom.ite

/-! ## Text -/

instance fresh_textReference (literalDefault : Bool) (t : TextScan) :
    HonoursFresh (textReference parseEntityContent input literalDefault t) := by
  unfold textReference; infer_instance

instance fresh_textStep (isFinal literalDefault : Bool) (t : TextScan) :
    HonoursFresh (textStep parseEntityContent isFinal literalDefault input t) := by
  unfold textStep
  repeat' first
    | infer_instance
    | apply ObeysFrom.ite
    | refine ObeysFrom.bind ?_ inferInstance fun _ ↦ ?_
  -- What is left is the step over one character, with and without collected text.
  all_goals
    dsimp only
    split <;> infer_instance

omit hcontent in
instance fresh_deliverText (literalDefault : Bool) (t : TextScan) :
    HonoursFresh (deliverText literalDefault input start t) := by
  have htext (defaultText text : String8) (i byteCount next : Nat) :
      HonoursFresh (do
        Routine.emitDefaultWhen .automaticCharacterData defaultText
        Routine.noteTokenPosition i byteCount
        Routine.emitText text
        return next : Content Nat) := by
    have hplace := fresh_listed (isListed_text defaultText text i byteCount) inferInstance
      inferInstance fun _ _ ↦ obeys_pure stopLaw next
    exact hplace
  unfold deliverText
  apply ObeysFrom.bind inferInstance inferInstance
  intro p
  apply ObeysFrom.ite inferInstance
  split
  · cases p.view.entityReferencePositions <;> exact htext _ _ _ _ _
  · infer_instance

omit hcontent in
instance guards_textFinished (t : TextScan) :
    Guards watchedRoutineMachine IsUnstopped (textFinished input t) false := by
  constructor
  intro w v hrun
  obtain ⟨hgoing, rfl⟩ := Prod.mk.inj (Option.some.inj hrun)
  apply isUnstopped_of_isOngoing
  simp only [Bool.or_eq_false_iff, Bool.not_eq_false'] at hgoing
  exact hgoing.1.2

instance honours_collectCharacterData (isFinal : Bool) :
    HonoursContent (collectCharacterData parseEntityContent isFinal input start) := by
  unfold collectCharacterData; infer_instance

instance honours_parseCharacterData :
    HonoursContent (parseCharacterData parseEntityContent input start) := by
  unfold parseCharacterData; infer_instance

instance honours_parseCharacterDataPrefix :
    HonoursContent (parseCharacterDataPrefix parseEntityContent input start) := by
  unfold parseCharacterDataPrefix; infer_instance

omit hcontent in
instance fresh_parseMarkup : HonoursFresh (parseMarkup bound input start) := by
  unfold parseMarkup; dsimp only; infer_instance

instance fresh_entityContentStep :
    HonoursFresh (entityContentStep bound parseEntityContent input i) := by
  unfold entityContentStep; infer_instance

end Content

instance guards_contentFinished :
    Guards stopMonitor.machine IsUnstopped
      (do return input.length < i || !(← (liftM isOngoing : Content Bool))) false := by
  constructor
  intro w v hrun
  obtain ⟨hgoing, rfl⟩ := Prod.mk.inj (Option.some.inj hrun)
  apply isUnstopped_of_isOngoing
  rw [Bool.or_eq_false_iff, Bool.not_eq_false'] at hgoing
  exact hgoing.2

instance honours_parseEntityContent : HonoursContent (parseEntityContent bound input) := by
  induction bound generalizing input with
  | zero => exact obeys_stuck _
  | succ bound ih =>
    unfold parseEntityContent
    infer_instance

end

end Parser

end Xpact
