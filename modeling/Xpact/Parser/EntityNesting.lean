import Xpact.Parser.ReportingRoutines

/-!
# Nesting of entities

Every routine leaves the entity stack as it finds it: what it pushes it pops, also after an error.  A
push is guarded by the limit on the depth, with one exception: the declaration of a new parameter
entity pushes its own name while its literal is read, and does not look at the limit.
-/

namespace Xpact

open Library Program Routine

-- A routine is one goal of instance search for each of its steps.
set_option synthInstance.maxSize 4000

namespace Parser

/-- At most `max_entity_depth` entities are active. -/
def IsWithinEntityLimit (p : Parser) : Prop := p.core.entityStack.length ≤ maxEntityDepth

/-- The literal of a parameter entity that is not declared yet is read while the stack is full. -/
def entityLiteralSite : Site Act Scene Parser where
  At {α} m p := p.core.entityStack.length = maxEntityDepth ∧
    ∃ depth subset i close name, ∃ k : Nat × String8 × Int → Content α,
      p.core.context.isParameterEntityDeclared name = false ∧
      m = Content.ofRoutine (parseInternalEntityValue depth subset i close name true true) >>= k
  bind h f := by
    obtain ⟨hfull, depth, subset, i, close, name, k, hnew, hm⟩ := h
    refine ⟨hfull, depth, subset, i, close, name, fun a ↦ k a >>= f, hnew, ?_⟩
    rw [hm, bind_assoc']

/-- A name is taken from the stack only when one was pushed. -/
def PopsPushed (a : Act) (p : Parser) : Prop :=
  a = .routine .popEntity → p.core.entityStack ≠ []

/-- The run pops what it pushes, down to the stack `s`; and it keeps the limit unless it comes to a
site. -/
structure LeavesStack (S : Site Act Scene Parser) (s : List String8) {α : Type} (m : Content α)
    (p : Parser) : Prop where
  matched : Assures machine PopsPushed m p fun _ q ↦ q.core.entityStack = s
  bounded : Avoids machine S m p → p.IsWithinEntityLimit →
    Assures machine (fun a q ↦ (q.step a).IsWithinEntityLimit) m p fun _ _ ↦ True

/-- The run leaves the stack as it was. -/
abbrev RestoresEntities (S : Site Act Scene Parser) (m : Content α) (p : Parser) : Prop :=
  LeavesStack S p.core.entityStack m p

section

variable {S : Site Act Scene Parser} {s : List String8} {α β : Type} {m : Content α}
  {f : α → Content β} {p q : Parser}

theorem RestoresEntities.entityStack {a : α} (h : RestoresEntities S m p)
    (hrun : m.run machine p = some (a, q)) : q.core.entityStack = p.core.entityStack :=
  h.matched.ends hrun

theorem isWithin_of_eq (hq : q.core.entityStack = p.core.entityStack) (hp : p.IsWithinEntityLimit) :
    q.IsWithinEntityLimit := by
  show q.core.entityStack.length ≤ maxEntityDepth
  rw [hq]
  exact hp

theorem leaves_bind (hm : RestoresEntities S m p)
    (hf : ∀ a q, m.run machine p = some (a, q) → LeavesStack S s (f a) q) :
    LeavesStack S s (m >>= f) p := by
  constructor
  · apply Assures.bind
    exact ⟨hm.matched.always, fun {a q} hrun ↦ (hf a q hrun).matched⟩
  · intro havoids hlimit
    apply Assures.bind
    refine ⟨(hm.bounded havoids.bind_left hlimit).always, fun {a q} hrun ↦ ?_⟩
    apply (hf a q hrun).bounded (havoids.bind_right hrun)
    exact isWithin_of_eq (hm.entityStack hrun) hlimit

theorem restores_bind (hm : RestoresEntities S m p)
    (hf : ∀ a q, m.run machine p = some (a, q) → RestoresEntities S (f a) q) :
    RestoresEntities S (m >>= f) p := by
  apply leaves_bind hm
  intro a q hrun
  rw [← hm.entityStack hrun]
  exact hf a q hrun

end

/-- The law of the entity stack. -/
def entityLaw (S : Site Act Scene Parser) : Law machine where
  Holds := RestoresEntities S
  done _ _ := ⟨Assures.done rfl, fun _ _ ↦ Assures.done trivial⟩
  stuck _ := ⟨Assures.stuck, fun _ _ ↦ Assures.stuck⟩
  look h := ⟨Assures.look h.matched, fun havoids hlimit ↦ Assures.look (h.bounded havoids.look hlimit)⟩
  bind := restores_bind

/-! ## Commands -/

end Parser

/-- The command neither pushes nor pops an entity. -/
@[reducible] def Command.keepsEntityStack : Command → Bool
  | .pushEntity _ | .popEntity => false
  | _ => true

@[reducible] def Act.keepsEntityStack : Act → Bool
  | .routine c => c.keepsEntityStack
  | _ => true

namespace Parser

theorem setError_entityStack (p : Parser) (message : String) :
    (p.setError message).core.entityStack = p.core.entityStack := by
  unfold setError
  split <;> rfl

theorem checkHandlerStop_entityStack (p : Parser) :
    p.checkHandlerStop.core.entityStack = p.core.entityStack := by
  unfold checkHandlerStop
  split
  · split
    · rfl
    · exact setError_entityStack p _
  · rfl

theorem emitDefault_entityStack (p : Parser) (text : String8) :
    (p.emitDefault text).core.entityStack = p.core.entityStack := by
  unfold emitDefault
  split
  · exact checkHandlerStop_entityStack _
  · rfl

theorem stepRoutine_entityStack {c : Command} (hc : c.keepsEntityStack = true) (p : Parser) :
    (p.stepRoutine c).core.entityStack = p.core.entityStack := by
  cases c with
  | setError message => exact setError_entityStack p message
  | checkHandlerStop => exact checkHandlerStop_entityStack p
  | emitText text =>
    show (p.emitText text).core.entityStack = _
    unfold emitText
    split
    · exact checkHandlerStop_entityStack _
    · rfl
  | emitDefault text => exact emitDefault_entityStack p text
  | emitDefaultWhen kind text =>
    show (if p.handler.wantsDefault kind then p.emitDefault text else p).core.entityStack = _
    split
    · exact emitDefault_entityStack p text
    · rfl
  | noteEntityExpansion count =>
    show (p.noteEntityExpansion count).core.entityStack = _
    unfold noteEntityExpansion
    dsimp only
    split
    · exact setError_entityStack _ _
    · rfl
  | resolve request =>
    show (p.resolve request).core.entityStack = _
    unfold resolve
    split <;> rfl
  | pushEntity name => cases hc
  | popEntity => cases hc
  | _ => rfl

theorem step_entityStack {a : Act} (ha : a.keepsEntityStack = true) (p : Parser) :
    (p.step a).core.entityStack = p.core.entityStack := by
  cases a with
  | routine c => exact stepRoutine_entityStack ha p
  | _ => rfl

section

variable {S : Site Act Scene Parser} {s : List String8} {α β : Type} {name : String8} {p : Parser}

theorem restores_act {a : Act} (ha : a.keepsEntityStack = true) :
    RestoresEntities S (Program.command a) p := by
  constructor
  · apply Assures.command
    · intro hpop
      rw [hpop] at ha
      cases ha
    · exact step_entityStack ha p
  · intro _ hlimit
    refine Assures.command ?_ trivial
    exact isWithin_of_eq (step_entityStack ha p) hlimit

/-- A push needs room, unless it belongs to a site. -/
theorem leaves_push {f : Unit → Content α}
    (hroom : Avoids machine S (Content.act (.routine (.pushEntity name)) >>= f) p →
      p.IsWithinEntityLimit → p.core.entityStack.length < maxEntityDepth)
    (hf : LeavesStack S s (f ()) (p.step (.routine (.pushEntity name)))) :
    LeavesStack S s (Content.act (.routine (.pushEntity name)) >>= f) p := by
  constructor
  · apply Assures.bind
    apply Assures.command
    · intro hpop
      cases hpop
    · exact hf.matched
  · intro havoids hlimit
    have hlength := hroom havoids hlimit
    have hpushed : (p.step (.routine (.pushEntity name))).IsWithinEntityLimit := by
      show (name :: p.core.entityStack).length ≤ maxEntityDepth
      rw [List.length_cons]
      omega
    apply Assures.bind
    refine Assures.command hpushed ?_
    exact hf.bounded (havoids.bind_right rfl) hpushed

/-- What was pushed is popped. -/
theorem leaves_pop {f : Unit → Content α} {rest : List String8}
    (hstack : p.core.entityStack = name :: rest)
    (hf : LeavesStack S s (f ()) (p.step (.routine .popEntity))) :
    LeavesStack S s (Content.act (.routine .popEntity) >>= f) p := by
  constructor
  · apply Assures.bind
    apply Assures.command
    · intro _ hempty
      rw [hstack] at hempty
      cases hempty
    · exact hf.matched
  · intro havoids hlimit
    have hpopped : (p.step (.routine .popEntity)).IsWithinEntityLimit := by
      show p.core.entityStack.tail.length ≤ maxEntityDepth
      have hlength : p.core.entityStack.length ≤ maxEntityDepth := hlimit
      rw [List.length_tail]
      omega
    apply Assures.bind
    refine Assures.command hpopped ?_
    exact hf.bounded (havoids.bind_right rfl) hpopped

/-- A routine between a push and the pop that belongs to it. -/
theorem restores_pushed {m : Content α} {f : α → Content β}
    (hroom : Avoids machine S (do
        Content.act (.routine (.pushEntity name))
        let a ← m
        Content.act (.routine .popEntity)
        f a) p →
      p.IsWithinEntityLimit → p.core.entityStack.length < maxEntityDepth)
    (hm : ∀ q, RestoresEntities S m q)
    (hf : ∀ a q, q.core.entityStack = p.core.entityStack → RestoresEntities S (f a) q) :
    RestoresEntities S (do
      Content.act (.routine (.pushEntity name))
      let a ← m
      Content.act (.routine .popEntity)
      f a) p := by
  apply leaves_push hroom
  apply leaves_bind (hm _)
  intro a q hrun
  have hpushed : q.core.entityStack = name :: p.core.entityStack := (hm _).entityStack hrun
  have hpopped : (q.step (.routine .popEntity)).core.entityStack = p.core.entityStack := by
    show q.core.entityStack.tail = p.core.entityStack
    rw [hpushed, List.tail_cons]
  apply leaves_pop hpushed
  rw [← hpopped]
  exact hf a _ hpopped

end

end Parser

end Xpact
