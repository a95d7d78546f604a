import Xpact.Parser.EntityRoutines
import Xpact.Parser.ElementStacks

/-!
# The stack of active entities

The entity stack through element content, and through a whole call of a parser: it stays within its
limit unless the literal of a new parameter entity is read on a full stack, every name that is popped
was pushed, and the call ends with the empty stack it began with.
-/

namespace Xpact

open Library Program Routine

-- A routine is one goal of instance search for each of its steps.
set_option synthInstance.maxSize 100000
set_option synthInstance.maxHeartbeats 200000

namespace Parser

/-! ## Tags -/

/-- The law of the entity stack. -/
abbrev contentEntityLaw : Law machine := entityLaw entityLiteralSite

/-- The content restores the entity stack, from whatever state. -/
abbrev RestoresContent (m : Content α) : Prop := Obeys contentEntityLaw m

section

variable {α β : Type} {p : Parser}

instance content_act (a : Act) [ha : Passes a.keepsEntityStack] : RestoresContent (Content.act a) :=
  ⟨fun _ ↦ restores_act ha.eq_true⟩

instance content_command (a : Act) [ha : Passes a.keepsEntityStack] :
    RestoresContent (Program.command a) := ⟨fun _ ↦ restores_act ha.eq_true⟩

instance content_scene : RestoresContent Content.scene := by unfold Content.scene; infer_instance

instance content_liftM (m : Routine α) [hm : RestoresStack m] : RestoresContent (liftM m) :=
  ⟨hm.holds⟩

variable (input name : String8) (start stop i nameStart nameEnd bound : Nat) (attributes : Attributes)

instance content_emitStructural (e : Event) : RestoresContent (Content.emitStructural e) := by
  unfold Content.emitStructural; infer_instance

instance content_emitStartNamespaceDeclarations (declared : List String8) (scope : NamespaceScope) :
    RestoresContent (emitStartNamespaceDeclarations declared scope) := by
  apply Obeys.forM
  intro nsPrefix
  apply Obeys.bind inferInstance
  intro ongoing
  apply Obeys.ite _ inferInstance
  split <;> infer_instance

instance content_emitEndNamespaceDeclarations (declared : List String8) :
    RestoresContent (emitEndNamespaceDeclarations declared) := by
  unfold emitEndNamespaceDeclarations; infer_instance

instance content_checkElementStart : RestoresContent checkElementStart := by
  unfold checkElementStart; infer_instance

instance content_openElement : RestoresContent (openElement name attributes) := by
  unfold openElement; infer_instance

instance content_openElementRange : RestoresContent (openElementRange input nameStart nameEnd) := by
  unfold openElementRange; infer_instance

instance content_checkElementEnd : RestoresContent (checkElementEnd name) := by
  unfold checkElementEnd; infer_instance

instance content_closeNamespaces : RestoresContent closeNamespaces := by
  unfold closeNamespaces
  apply Obeys.bind inferInstance
  intro p
  split <;> infer_instance

instance content_closeElement : RestoresContent (closeElement name) := by
  unfold closeElement; infer_instance

instance content_closeElementRange : RestoresContent (closeElementRange input nameStart nameEnd) := by
  unfold closeElementRange; infer_instance

instance restores_parseAttribute : RestoresStack (parseAttribute bound input start attributes) := by
  unfold parseAttribute; infer_instance

instance restores_attributeStep (t : Nat × Attributes) :
    RestoresStack (attributeStep bound input t) := by
  unfold attributeStep; infer_instance

instance restores_parseAttributes : RestoresStack (parseAttributes bound input start) := by
  unfold parseAttributes; infer_instance

instance restores_checkStartTagName : RestoresStack (checkStartTagName bound name) := by
  unfold checkStartTagName; infer_instance

instance content_finishStartTag (opening closing : Content Unit) [RestoresContent opening]
    [RestoresContent closing] : RestoresContent (finishStartTag input start i opening closing) := by
  unfold finishStartTag; infer_instance

instance content_parseStartTagStrings :
    RestoresContent (parseStartTagStrings bound input start i name) := by
  unfold parseStartTagStrings; infer_instance

instance content_parseStartTag : RestoresContent (parseStartTag bound input start) := by
  unfold parseStartTag; infer_instance

instance content_parseEndTag : RestoresContent (parseEndTag input start) := by
  unfold parseEndTag; infer_instance

/-! ## References in content -/

theorem content_entityStack {m : Content α} (hm : RestoresContent m) {a : α} {q : Parser}
    (hrun : m.run machine p = some (a, q)) : q.core.entityStack = p.core.entityStack :=
  RestoresEntities.entityStack (hm.holds p) hrun

theorem leaves_content {m : Content α} {f : α → Content β} {s t : List String8}
    (hm : RestoresContent m) (hp : p.core.entityStack = t)
    (hf : ∀ a q, q.core.entityStack = t → LeavesStack entityLiteralSite s (f a) q) :
    LeavesStack entityLiteralSite s (m >>= f) p := by
  apply leaves_bind (hm.holds p)
  intro a q hrun
  apply hf a q
  rw [content_entityStack hm hrun]
  exact hp

theorem leaves_popped {m : Content α} {s : List String8} (hm : RestoresContent m)
    (hp : p.core.entityStack = name :: s) :
    LeavesStack entityLiteralSite s (do popEntity; m) p := by
  apply leaves_pop hp
  have hpopped : (p.step (.routine .popEntity)).core.entityStack = s := by
    show p.core.entityStack.tail = s
    rw [hp, List.tail_cons]
  rw [← hpopped]
  exact hm.holds _

section Content

variable (parseEntityContent : String8 → Content Unit)
  [hcontent : ∀ text, RestoresContent (parseEntityContent text)]

include hcontent

instance content_parseBalancedContent (text : String8) (entering leaving : Content Unit)
    [RestoresContent entering] [RestoresContent leaving] :
    RestoresContent (parseBalancedContent parseEntityContent text entering leaving) := by
  unfold parseBalancedContent; infer_instance

/-- The replacement text of an internal entity, with its name on the stack. -/
theorem restores_internalEntity (text : String8) (hp : p.HasRoom) :
    contentEntityLaw.Holds (parseBalancedContent parseEntityContent text
      (do pushEntity name; Content.act .enterInternalEntity)
      (do Content.act .leaveInternalEntity; popEntity)) p := by
  have hshape : parseBalancedContent parseEntityContent text
      (do pushEntity name; Content.act .enterInternalEntity)
      (do Content.act .leaveInternalEntity; popEntity) = (do
        let before ← Content.scene
        let floor := (← Content.scene).elements.floor
        Content.act .raiseFloor
        pushEntity name
        (do
          Content.act .enterInternalEntity
          parseEntityContent text
          Content.act .leaveInternalEntity)
        popEntity
        Content.act (.restoreFloor floor)
        let p ← Content.scene
        return p.core.hasError || p.elements.stack.length == before.elements.stack.length) := by
    unfold parseBalancedContent
    simp only [bind_assoc]
  rw [hshape]
  apply contentEntityLaw.read_bind rfl rfl
  apply contentEntityLaw.read_bind rfl rfl
  apply contentEntityLaw.bind (Obeys.holds p)
  intro _ q hrun
  obtain ⟨-, rfl⟩ := Prod.mk.inj (Option.some.inj hrun)
  apply restores_pushed
  · intro _ _
    exact hp
  · intro r
    exact Obeys.holds (L := contentEntityLaw) r
  · intro _ r _
    exact Obeys.holds (L := contentEntityLaw) r

/-- The end of an external entity: its text is parsed, and its name is popped. -/
theorem leaves_balanced (text : String8) {m : Content Unit} {s : List String8}
    (hm : RestoresContent m) (hp : p.core.entityStack = name :: s) :
    LeavesStack entityLiteralSite s (do
      let balanced ← parseBalancedContent parseEntityContent text (pure ()) (pure ())
      unless balanced do
        Routine.setError "asynchronous entity"
      popEntity
      m) p := by
  apply leaves_content inferInstance hp
  intro balanced q hq
  dsimp only
  split
  · exact leaves_popped _ hm hq
  · apply leaves_content inferInstance hq
    intro _ r hr
    exact leaves_popped _ hm hr

/-- An external entity, with its name on the stack while its text is resolved and parsed. -/
theorem restores_includeExternalEntityInContent (e : ExternalEntity) (hp : p.HasRoom) :
    contentEntityLaw.Holds (includeExternalEntityInContent parseEntityContent e) p := by
  unfold includeExternalEntityInContent
  apply contentEntityLaw.read_bind rfl rfl
  dsimp only
  split
  · exact Obeys.holds p
  split
  · exact Obeys.holds p
  split
  · exact Obeys.holds p
  · apply leaves_push
    · intro _ _
      exact hp
    apply leaves_content inferInstance rfl
    intro r p₁ h₁
    split
    · apply leaves_content inferInstance h₁
      intro _ p₂ h₂
      apply leaves_content inferInstance h₂
      intro failed p₃ h₃
      split
      · exact leaves_popped _ inferInstance h₃
      split
      · apply leaves_content inferInstance h₃
        intro _ p₄ h₄
        exact leaves_balanced _ _ _ inferInstance h₄
      · exact leaves_balanced _ _ _ inferInstance h₃
    · apply leaves_content inferInstance h₁
      intro _ p₂ h₂
      exact leaves_popped _ inferInstance h₂

instance content_includeGeneralEntityInContent (written : String8) :
    RestoresContent (includeGeneralEntityInContent parseEntityContent written) := by
  unfold includeGeneralEntityInContent
  apply Obeys.bind inferInstance
  intro name
  constructor
  intro p
  apply contentEntityLaw.read_bind rfl rfl
  dsimp only
  split
  · exact Obeys.holds p
  split
  · exact Obeys.holds p
  split
  · exact Obeys.holds p
  · rename_i _ _ hdepth
    have hroom : p.HasRoom := Nat.not_le.1 hdepth
    split
    · apply contentEntityLaw.bind (Obeys.holds p)
      intro _ q hrun
      have hq : q.HasRoom := by
        show q.core.entityStack.length < maxEntityDepth
        rw [content_entityStack inferInstance hrun]
        exact hroom
      apply contentEntityLaw.read_bind rfl rfl
      split
      · exact Obeys.holds q
      · apply contentEntityLaw.bind (restores_internalEntity _ _ _ hq)
        intro balanced r _
        exact Obeys.holds r
    · exact restores_includeExternalEntityInContent _ _ hroom
    · exact Obeys.holds p

instance content_appendReferenceInContent (text : String8) :
    RestoresContent (appendReferenceInContent parseEntityContent input start text) := by
  unfold appendReferenceInContent; infer_instance

/-! ## Text -/

instance content_textReference (literalDefault : Bool) (t : TextScan) :
    RestoresContent (textReference parseEntityContent input literalDefault t) := by
  unfold textReference; infer_instance

instance content_textStep (isFinal literalDefault : Bool) (t : TextScan) :
    RestoresContent (textStep parseEntityContent isFinal literalDefault input t) := by
  unfold textStep
  repeat' first | infer_instance | apply Obeys.ite | refine Obeys.bind ?_ fun _ ↦ ?_
  -- What is left is the step over one character, with and without collected text.
  all_goals
    dsimp only
    split <;> infer_instance

omit hcontent in
instance content_deliverText (literalDefault : Bool) (t : TextScan) :
    RestoresContent (deliverText literalDefault input start t) := by
  unfold deliverText
  repeat' first | infer_instance | apply Obeys.ite | refine Obeys.bind ?_ fun _ ↦ ?_ | split

instance content_collectCharacterData (isFinal : Bool) :
    RestoresContent (collectCharacterData parseEntityContent isFinal input start) := by
  unfold collectCharacterData; infer_instance

instance content_parseCharacterData :
    RestoresContent (parseCharacterData parseEntityContent input start) := by
  unfold parseCharacterData; infer_instance

instance content_parseCharacterDataPrefix :
    RestoresContent (parseCharacterDataPrefix parseEntityContent input start) := by
  unfold parseCharacterDataPrefix; infer_instance

omit hcontent in
instance content_parseMarkup : RestoresContent (parseMarkup bound input start) := by
  unfold parseMarkup; infer_instance

instance content_entityContentStep :
    RestoresContent (entityContentStep bound parseEntityContent input i) := by
  unfold entityContentStep; infer_instance

end Content

instance content_parseEntityContent : RestoresContent (parseEntityContent bound input) := by
  induction bound generalizing input with
  | zero => exact obeys_stuck _
  | succ bound ih =>
    unfold parseEntityContent
    infer_instance

/-! ## Entry points -/

instance content_documentStep : RestoresContent (documentStep bound input i) := by
  unfold documentStep unlessError; infer_instance

instance content_documentPrefixStep : RestoresContent (documentPrefixStep bound input i) := by
  unfold documentPrefixStep unlessError; infer_instance

instance content_bodyStep (isFinal : Bool) : RestoresContent (bodyStep bound isFinal input i) := by
  unfold bodyStep unlessError; infer_instance

instance content_tokens (step : String8 → Nat → Content Nat) [∀ input i, RestoresContent (step input i)] :
    RestoresContent (tokens step input start) := by
  unfold tokens; infer_instance

instance content_readInput (canDeferPositions : Bool) :
    RestoresContent (readInput input canDeferPositions) := by
  unfold readInput; infer_instance

instance content_checkAtEnd (condition : Scene → Bool) (message : String) :
    RestoresContent (checkAtEnd input condition message) := by
  unfold checkAtEnd; infer_instance

instance content_document : RestoresContent (document bound input) := by
  unfold document; infer_instance

instance content_documentPrefix : RestoresContent (documentPrefix bound input) := by
  unfold documentPrefix; infer_instance

instance content_externalEntity : RestoresContent (externalEntity bound input) := by
  unfold externalEntity; infer_instance

instance content_externalSubsetPrefix : RestoresContent (externalSubsetPrefix bound input) := by
  unfold externalSubsetPrefix; infer_instance

instance content_checkParameterLiteral : RestoresContent (checkParameterLiteral bound input) := by
  unfold checkParameterLiteral; infer_instance

instance content_documentBody (isFinal : Bool) (textBefore : String8) :
    RestoresContent (documentBody bound isFinal textBefore input) := by
  unfold documentBody; infer_instance

/-- The context entity of an external subset is pushed on a stack with room. -/
theorem restores_externalSubset (entityContext : Option String8) (hp : p.HasRoom) :
    contentEntityLaw.Holds (externalSubset bound input entityContext) p := by
  unfold externalSubset unlessError
  apply leaves_content inferInstance rfl
  intro text p₁ h₁
  apply leaves_content inferInstance h₁
  intro cfg p₂ h₂
  generalize entityContext.filter (fun name ↦ !name.isEmpty && cfg.isValidName name) = active
  have hend {m : Content Bool} (hm : RestoresContent m) (q : Parser)
      (hq : q.core.entityStack = p.core.entityStack) :
      LeavesStack entityLiteralSite p.core.entityStack m q := by
    rw [← hq]
    exact hm.holds q
  cases active with
  | none =>
    refine hend ?_ p₂ h₂
    apply Obeys.bind inferInstance
    intro _
    show RestoresContent (do whileOngoing (notePosition (text.length + 1)); Routine.isOngoing)
    infer_instance
  | some name =>
    apply leaves_push
    · intro _ _
      show p₂.core.entityStack.length < maxEntityDepth
      rw [h₂]
      exact hp
    have h₃ : (p₂.step (.routine (.pushEntity name))).core.entityStack =
        name :: p.core.entityStack := congrArg (name :: ·) h₂
    apply leaves_content inferInstance h₃
    intro _ q hq
    exact leaves_popped name inferInstance hq

end

/-! ## Calls -/

theorem enterContext_length (name : Option String8) (p : Parser) :
    (p.enterContext name).core.entityStack.length ≤ p.core.entityStack.length + 1 := by
  cases name with
  | some name => exact Nat.le_refl _
  | none => exact Nat.le_succ _

theorem leaveContext_entityStack {name : Option String8} {p q : Parser}
    (h : q.core.entityStack = (p.enterContext name).core.entityStack) :
    (q.leaveContext name).core.entityStack = p.core.entityStack := by
  cases name with
  | some name => exact congrArg List.tail h
  | none => exact h

/-- A session begins with no entity, or with the one that its text is read for. -/
theorem Session.length_entityStack {α : Type} {m : Content α} {p : Parser} (hm : Session m p) :
    p.core.entityStack.length ≤ 1 := by
  have hcontext {p q : Parser} {input text : String8} (name : Option String8)
      (hinput : (readInput input false).run machine (p.start .externalEntity) = some (text, q)) :
      (q.enterContext name).core.entityStack.length ≤ 1 := by
    have hlength := enterContext_length name q
    rw [content_entityStack inferInstance hinput] at hlength
    exact hlength
  cases hm with
  | literal hinput bound entityContext => exact hcontext _ hinput
  | @literalCheck p q r input text hinput bound start entityContext hliteral =>
    show r.core.entityStack.length ≤ 1
    rw [content_entityStack (content_liftM (externalParameterLiteral bound text)) hliteral]
    exact hcontext _ hinput
  | _ => exact Nat.zero_le 1

theorem Session.restoresEntities {α : Type} {m : Content α} {p : Parser} (hm : Session m p) :
    RestoresEntities entityLiteralSite m p := by
  have hroom : p.HasRoom := Nat.lt_of_le_of_lt hm.length_entityStack (by decide)
  cases hm with
  | call entry bound input p =>
    cases entry with
    | document => exact (content_document input bound).holds _
    | documentPrefix => exact (content_documentPrefix input bound).holds _
    | externalEntity => exact (content_externalEntity input bound).holds _
    | externalEntityPrefix => exact (content_documentPrefix input bound).holds _
    | externalSubset entityContext => exact restores_externalSubset input bound entityContext hroom
    | externalSubsetPrefix => exact (content_externalSubsetPrefix input bound).holds _
  | document bound input p => exact (content_document input bound).holds _
  | documentPrefix bound input p => exact (content_documentPrefix input bound).holds _
  | documentBody bound isFinal c body p =>
    exact (content_documentBody body bound isFinal c.textBefore).holds _
  | literalInput input p => exact (content_readInput input false).holds _
  | literal hinput bound entityContext =>
    exact (content_liftM (externalParameterLiteral bound _)).holds _
  | literalCheck hinput hliteral => exact (content_checkParameterLiteral _ _).holds _

theorem Session.entityStack {α : Type} {m : Content α} {p q : Parser} {a : α} (hm : Session m p)
    (hrun : m.run machine p = some (a, q)) : q.core.entityStack = p.core.entityStack :=
  hm.restoresEntities.entityStack hrun

section

variable {bound : Nat} {input text : String8} {p q : Parser} {ok : Bool}

theorem entityStack_of_call {entry : Entry} (h : p.call entry bound input = some (ok, q)) :
    q.core.entityStack = [] := by
  obtain ⟨⟨ok', r⟩, hrun, hr⟩ := Option.map_eq_some_iff.1 h
  obtain ⟨-, rfl⟩ := Prod.mk.inj hr
  have hstack : r.core.entityStack = [] := (Session.call entry bound input p).entityStack hrun
  exact hstack

/-- The declaration that is prepared for a later call leaves the stack empty. -/
theorem entityStack_of_prepareCachedDoctype {isFinal : Bool}
    (h : p.prepareCachedDoctype bound input isFinal = some (true, q)) : q.core.entityStack = [] := by
  unfold prepareCachedDoctype at h
  dsimp only at h
  split at h
  · obtain ⟨⟨ok', r⟩, hrun, hr⟩ := Option.map_eq_some_iff.1 h
    obtain rfl := (Prod.mk.inj hr).2
    have hstack : r.core.entityStack = [] := (Session.documentPrefix bound _ p).entityStack hrun
    split
    · exact hstack
    · exact hstack
  · cases h

theorem entityStack_of_cachedDocument {isFinal : Bool}
    (h : p.cachedDocument bound input isFinal = some (ok, q)) : q.core.entityStack = [] := by
  unfold cachedDocument at h
  obtain ⟨⟨prepared, r⟩, hprepare, hrest⟩ := Option.bind_eq_some_iff.1 h
  dsimp only at hrest
  split at hrest
  · rename_i c _
    obtain ⟨⟨result, t⟩, hrun, ht⟩ := Option.bind_eq_some_iff.1 hrest
    obtain rfl := (Prod.mk.inj (Option.some.inj ht)).2
    have hstack : t.core.entityStack = [] :=
      (Session.documentBody bound isFinal c _ r).entityStack hrun
    split
    · exact hstack
    · exact hstack
  · split at hrest
    · rename_i hprepared
      obtain rfl := (Prod.mk.inj (Option.some.inj hrest)).2
      rw [Bool.and_eq_true] at hprepared
      obtain ⟨rfl, -⟩ := hprepared
      exact entityStack_of_prepareCachedDoctype hprepare
    · cases isFinal with
      | true => exact (Session.document bound input r).entityStack hrest
      | false => exact (Session.documentPrefix bound input r).entityStack hrest

theorem entityStack_of_parseWithCachedDoctype {isFinal : Bool}
    (h : p.parseWithCachedDoctype bound input isFinal = some (ok, q)) : q.core.entityStack = [] := by
  unfold parseWithCachedDoctype at h
  split at h
  · obtain rfl := (Prod.mk.inj (Option.some.inj h)).2
    exact setError_entityStack _ _
  · exact entityStack_of_cachedDocument h

theorem replacementText_entityStack {literal : ParameterLiteral} {replacement : String8}
    (h : p.replacementText bound text literal = some (replacement, q)) :
    q.core.entityStack = p.core.entityStack := by
  cases literal with
  | replacement text =>
    obtain rfl := (Prod.mk.inj (Option.some.inj h)).2
    rfl
  | checked start =>
    obtain ⟨⟨_, r⟩, hrun, hr⟩ := Option.map_eq_some_iff.1 h
    obtain rfl := (Prod.mk.inj hr).2
    have hstack := content_entityStack inferInstance hrun
    exact hstack

theorem endParameterLiteral_entityStack (input : String8) (p : Parser) :
    (p.endParameterLiteral input).core.entityStack = p.core.entityStack := by
  unfold endParameterLiteral
  dsimp only
  split
  · split
    · exact step_entityStack rfl p
    · exact (setError_entityStack _ _).trans (step_entityStack rfl p)
  · rfl

/-- The entity that a literal is read for is pushed and popped again. -/
theorem entityStack_of_parameterLiteral {entityContext : Option String8}
    (h : p.parseExternalParameterLiteralWithContext bound input entityContext =
      some (ok, text, q)) : q.core.entityStack = [] := by
  unfold parseExternalParameterLiteralWithContext at h
  obtain ⟨⟨read, p₁⟩, hinput, h⟩ := Option.bind_eq_some_iff.1 h
  obtain ⟨⟨literal, p₂⟩, hliteral, h⟩ := Option.bind_eq_some_iff.1 h
  obtain ⟨⟨replacement, p₃⟩, hreplacement, h⟩ := Option.bind_eq_some_iff.1 h
  obtain ⟨-, hq⟩ := Prod.mk.inj (Option.some.inj h)
  obtain rfl := (Prod.mk.inj hq).2
  have hstart : p₁.core.entityStack = [] := content_entityStack inferInstance hinput
  have hend : p₃.core.entityStack =
      (p₁.enterContext (contextEntity p₁.config entityContext)).core.entityStack :=
    (replacementText_entityStack hreplacement).trans (entityStack_of_run hliteral)
  show ((p₃.leaveContext _).endParameterLiteral read).core.entityStack = []
  rw [endParameterLiteral_entityStack, leaveContext_entityStack hend, hstart]

end

/-- The stack is empty again when a call returns. -/
theorem CallReturns.entityStack {p q : Parser} (h : CallReturns p q) : q.core.entityStack = [] := by
  cases h with
  | call h => exact entityStack_of_call h
  | cachedDoctype h => exact entityStack_of_parseWithCachedDoctype h
  | parameterLiteral h => exact entityStack_of_parameterLiteral h

/-- At the site the next two commands lead beyond the limit. -/
theorem not_isWithin_of_site {α : Type} {m : Content α} {p : Parser} (hsite : entityLiteralSite.At m p) :
    ¬(machine.execute ((m.trace machine p).take 2) p).IsWithinEntityLimit := by
  obtain ⟨hfull, depth, subset, i, close, name, k, hnew, rfl⟩ := hsite
  obtain ⟨f, pushing, reading, hshape⟩ : ∃ f, ∃ pushing reading : EntityContext → _,
      parseInternalEntityValue depth subset i close name true true = (do
        assign f
        let c ← context
        if !c.isParameterEntityDeclared name then (do pushEntity name; pushing c) else reading c) :=
    ⟨_, _, _, rfl⟩
  have htrace : (Content.ofRoutine
      (parseInternalEntityValue depth subset i close name true true) >>= k).trace machine p =
        .routine (.assign f) :: .routine (.pushEntity name) ::
          (Content.ofRoutine (pushing p.core.context) >>= k).trace machine
            ((p.step (.routine (.assign f))).step (.routine (.pushEntity name))) := by
    rw [hshape]
    calc
      _ = .routine (.assign f) ::
          (Content.ofRoutine
            (if !p.core.context.isParameterEntityDeclared name then
              (do pushEntity name; pushing p.core.context)
            else reading p.core.context) >>= k).trace machine (p.step (.routine (.assign f))) := rfl
      _ = _ := by
        rw [hnew]
        rfl
  rw [htrace]
  show ¬(name :: p.core.entityStack).length ≤ maxEntityDepth
  rw [List.length_cons, hfull]
  omega

end Parser

/-- The names that are open after one more command. -/
def noteOpenEntity (names : List String8) : Act → List String8
  | .routine (.pushEntity name) => name :: names
  | .routine .popEntity => names.tail
  | _ => names

/-- The names that are open after some commands, innermost first, when `names` were open before. -/
def openEntities (names : List String8) (cs : List Act) : List String8 := cs.foldl noteOpenEntity names

theorem Parser.step_openEntity (c : Act) (p : Parser) :
    (p.step c).core.entityStack = noteOpenEntity p.core.entityStack c := by
  cases c with
  | routine c =>
    cases c with
    | pushEntity name => rfl
    | popEntity => rfl
    | _ => exact Parser.step_entityStack rfl p
  | _ => rfl

/-- The entity stack holds the names that are pushed and not popped; every pop takes a name that was
pushed, the names at the end are those at the start, and none is left when a call returns.  The stack
is within its limit in every state exactly when no literal of a new parameter entity is read while it
is full. -/
theorem entityStack_within_limit {α : Type} {m : Content α} {p : Parser} (hm : Parser.Session m p) :
    ((∀ n, (Parser.machine.execute ((m.trace Parser.machine p).take n) p).IsWithinEntityLimit) ↔
      Avoids Parser.machine Parser.entityLiteralSite m p) ∧
    (∀ n, (Parser.machine.execute ((m.trace Parser.machine p).take n) p).core.entityStack =
      openEntities p.core.entityStack ((m.trace Parser.machine p).take n)) ∧
    (∀ n, (m.trace Parser.machine p)[n]? = some (.routine .popEntity) →
      openEntities p.core.entityStack ((m.trace Parser.machine p).take n) ≠ []) ∧
    (∀ a q, m.run Parser.machine p = some (a, q) → q.core.entityStack = p.core.entityStack) ∧
    ∀ q r, Parser.CallReturns q r → r.core.entityStack = [] := by
  have hrestores := hm.restoresEntities
  have hopen (n : Nat) :
      (Parser.machine.execute ((m.trace Parser.machine p).take n) p).core.entityStack =
        openEntities p.core.entityStack ((m.trace Parser.machine p).take n) := by
    apply hrestores.matched.always.invariant
      (J := fun cs q ↦ q.core.entityStack = openEntities p.core.entityStack cs) rfl
    intro cs c q _ hq
    show (q.step c).core.entityStack = _
    rw [q.step_openEntity c, hq, openEntities, openEntities, List.foldl_append]
    rfl
  refine ⟨⟨fun hwithin m' q hreach hsite ↦ ?_, fun havoids n ↦ ?_⟩, hopen, fun n hpop ↦ ?_,
    fun a q hrun ↦ hm.entityStack hrun, fun q r hreturns ↦ hreturns.entityStack⟩
  · -- Two commands after the site the stack is beyond the limit.
    obtain ⟨i, rfl, hrest⟩ := hreach.exists_take
    have hbeyond := Parser.not_isWithin_of_site hsite
    rw [← hrest, ← Machine.execute_append, ← List.take_add] at hbeyond
    exact hbeyond (hwithin (i + 2))
  · have hbase : p.IsWithinEntityLimit := Nat.le_trans hm.length_entityStack (by decide)
    apply (hrestores.bounded havoids hbase).always.invariant
      (J := fun _ q ↦ q.IsWithinEntityLimit) hbase
    intro _ _ _ hstep _
    exact hstep
  · rw [← hopen]
    exact (hrestores.matched.always.at hpop) rfl

/-- In the replacement text of `e` its name is on the stack. -/
theorem entityStack_within_limit_mixed :
    let p := (Parser.make {} .null).start .document
    (Parser.machine.execute
      (((document 9 mixedDocument).trace Parser.machine p).take 53) p).core.entityStack =
        [str "e"] := by
  have hopen := (entityStack_within_limit
    (.call .document 9 mixedDocument (Parser.make {} .null))).2.1 53
  have hnames : openEntities [] (((document 9 mixedDocument).trace Parser.machine
      ((Parser.make {} .null).start .document)).take 53) = [str "e"] := by decide +kernel
  exact hnames ▸ hopen

/-! ## A full stack -/

/-- The names of as many parameter entities as may be active at once. -/
def nestedNames : String8 := str "ABCDEFGHIJKLMNOPQRSTUVWXYZabcdef"

/-- What the parent has declared: the first entity holds a declaration, and each of the others refers
to the one before it. -/
def nestedDeclarations : List Act :=
  .routine (.putParameterEntity (nestedNames.take 1) (str "<!ENTITY % _ ''>") 16) ::
    (nestedNames.zip nestedNames.tail).map fun (inner, outer) ↦
      .routine (.putParameterEntity [outer] (str "%" ++ [inner] ++ str "; ") 4)

/-- A child of that parent. -/
def nestedChild : Parser :=
  (Parser.make {} .null).importEntityContext
    (Parser.machine.execute nestedDeclarations (Parser.make {} .null))

set_option maxRecDepth 100000 in
/-- A reference to the outermost entity leads to a declaration below all the others. -/
theorem entityStack_exceeds_limit :
    let m := externalSubset 34 (str "%f;") none
    let p := nestedChild.start (.externalSubset none)
    Parser.Session m p ∧
      ¬(Parser.machine.execute ((m.trace Parser.machine p).take 166) p).IsWithinEntityLimit := by
  refine ⟨.call (.externalSubset none) 34 (str "%f;") nestedChild, ?_⟩
  unfold Parser.IsWithinEntityLimit
  decide +kernel

end Xpact
