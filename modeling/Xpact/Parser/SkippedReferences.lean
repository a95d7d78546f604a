import Xpact.Native.CallbackHandler
import Xpact.Parser.DisabledDeclarations
import Xpact.Parser.FirstDeclaration
import Xpact.Parser.NameErrors
import Xpact.Parser.Replay

/-!
# Skipped references

Where a reference to a parameter entity is skipped, what that does to the flag, and what it means for
the rest of the parse and for the parsers that inherit from it.
-/

namespace Xpact

open Library Program Routine

/-- What is asked for the text of a declared entity. -/
def ExternalEntity.request (e : ExternalEntity) (isParameterLiteral : Bool) : Request :=
  ⟨e.name, e.publicId, e.systemId, e.isParameter, e.declarationBase, isParameterLiteral⟩

namespace Parser

/-- The flag that a skipped reference leaves. -/
def flag (p : Parser) : Bool := p.core.declarations.dtdDeclarationsDisabled

/-- The name is that of no parameter entity. -/
def IsUndeclared (p : Parser) (name : String8) : Prop :=
  p.config.isValidName name = true ∧ p.core.context.isParameterEntityDeclared name = false

/-- The routine comes to a reference to a parameter entity that is not declared, or not read. -/
inductive SkipsReference : {α : Type} → Routine α → Parser → Prop where
  /-- Between declarations. -/
  | subset (process : String8 → Routine Unit) (subset : String8) (start : Nat) (p : Parser) :
      p.IsUndeclared (subset.substring (start + 1) (findCharacter subset ';' (start + 1) - 1)) →
      SkipsReference (includeParameterEntityInSubset process subset start) p
  /-- An external entity that is not read. -/
  | unread (process : String8 → Routine Unit) (e : ExternalEntity) (p : Parser) :
      p.readsParameterEntities = false →
      SkipsReference (includeExternalParameterEntityInSubset process e) p
  /-- In an attribute-list declaration. -/
  | attlist (subset : String8) (stop : Nat) (k : SkipScan) (p : Parser) :
      k.quote = none → (subset.item k.index).toNat = 37 →
      k.index + 1 < findCharacter subset ';' (k.index + 1) →
      findCharacter subset ';' (k.index + 1) ≤ stop →
      p.IsUndeclared
        (subset.substring (k.index + 1) (findCharacter subset ';' (k.index + 1) - 1)) →
      SkipsReference (skipScanStep subset stop k) p
  /-- In the literal of an entity. -/
  | literal (append : String8 → Routine String8) (input : String8) (start : Nat) (p : Parser) :
      p.IsUndeclared (input.substring (start + 1) (findCharacter input ';' (start + 1) - 1)) →
      SkipsReference (appendParameterReferenceInEntityValue append input start) p

/-- A parameter entity is asked for, and the resolver answers although it stays unread. -/
structure AnswersUnread (e : ExternalEntity) (isLiteral : Bool) (r : Resolution) (p : Parser) :
    Prop where
  isParameter : e.isParameter = true
  resolution : p.resolution (e.request isLiteral) = some r
  hasSkipped : r.hasSkipped = true
  answers : r.answer.text.isSome = true

/-- An entity that stays unread is answered for: the document is not standalone, the flag is not set,
and the declarations that are merged do not bring it. -/
def unreadSite : Site Act Scene Parser where
  At {α} m p := p.flag = false ∧ p.core.declarations.dtdIsStandalone = false ∧
    ∃ e isLiteral r, p.AnswersUnread e isLiteral r ∧
      (∀ d, r.child = some d → d.dtdDeclarationsDisabled = false) ∧
      ∃ k : Option (String8 × Answer) → Content α,
        m = Content.ofRoutine (resolvedEntityReplacement e isLiteral) >>= k
  bind h f := by
    obtain ⟨hflag, hstandalone, e, isLiteral, r, hanswers, hchild, k, hm⟩ := h
    refine ⟨hflag, hstandalone, e, isLiteral, r, hanswers, hchild, fun a ↦ k a >>= f, ?_⟩
    rw [hm, bind_assoc']

section

variable {p q : Parser}

theorem lookup_of_undeclared {name : String8} (h : p.IsUndeclared name) :
    p.core.context.parameterEntityValue name = none ∧
      p.core.context.lookupExternalParameterEntity name = none := by
  have hdeclared := h.2
  rw [EntityContext.isParameterEntityDeclared, Bool.or_eq_false_iff] at hdeclared
  obtain ⟨hinternal, hexternal⟩ := hdeclared
  exact ⟨AList.lookup_eq_none.2 (of_decide_eq_false hinternal),
    AList.lookup_eq_none.2 (of_decide_eq_false hexternal)⟩

theorem checkHandlerStop_flag (p : Parser) : p.checkHandlerStop.flag = p.flag :=
  congrArg Declarations.dtdDeclarationsDisabled (stepRoutine_declarations .checkHandlerStop p)

theorem setError_hasError_true (p : Parser) (message : String) :
    (p.setError message).core.hasError = true := by
  unfold setError
  split
  · assumption
  · rfl

/-- A walk that is done ends where it is. -/
theorem run_walk_done {step : AliasWalk → Routine AliasWalk} {n : Nat} {w : AliasWalk}
    (h : (w.isDone || p.core.hasError) = true) :
    (Program.loop walkFinished step (n + 1) w).run routineMachine p = some (w, p) := by
  show (if (w.isDone || p.core.hasError) = true then (pure w : Routine AliasWalk)
    else step w >>= Program.loop walkFinished step n).run routineMachine p = some (w, p)
  rw [if_pos h]
  rfl

/-- A name without an internal entity is not an alias. -/
theorem run_resolvedParameterEntityName {name : String8}
    (h : p.core.context.parameterEntityValue name = none) :
    ∃ q, (resolvedParameterEntityName name).run routineMachine p = some (name, q) ∧
      (q = p ∨ q.core.hasError = true) := by
  have hwalk : ∃ w q, (Program.loop walkFinished resolvedParameterEntityNameStep
      (aliasBound p.core.context.parameterEntity) { name }).run routineMachine p = some (w, q) ∧
        w.name = name ∧ (q = p ∨ q.core.hasError = true) := by
    unfold aliasBound
    cases herror : p.core.hasError with
    | true => exact ⟨{ name }, p, run_walk_done (by rw [herror, Bool.or_true]), rfl, .inl rfl⟩
    | false =>
      have hstart {n : Nat} : (Program.loop walkFinished resolvedParameterEntityNameStep (n + 1)
          { name }).run routineMachine p = (resolvedParameterEntityNameStep { name } >>=
            Program.loop walkFinished resolvedParameterEntityNameStep n).run routineMachine p := by
        show (if (false || p.core.hasError) = true then (pure { name } : Routine AliasWalk)
          else _).run routineMachine p = _
        rw [herror, if_neg (by decide)]
      have halias : nextParameterAlias p.config p.core.context name = none := by
        unfold nextParameterAlias
        rw [h]
      rw [hstart, run_bind]
      by_cases hactive : p.core.isEntityActive name = true
      · -- The name is on the stack already.
        have hstep : (resolvedParameterEntityNameStep { name }).run routineMachine p =
            some ({ name }, p.setError "recursive entity reference") := by
          unfold resolvedParameterEntityNameStep Routine.sight
          rw [run_sight_bind]
          dsimp only
          split
          · rfl
          · rename_i hseen
            exact absurd (Bool.or_eq_true_iff.2 (.inr hactive)) hseen
        rw [hstep]
        refine ⟨{ name }, _, run_walk_done ?_, rfl, .inr (setError_hasError_true p _)⟩
        rw [setError_hasError_true, Bool.or_true]
      · have hstep : (resolvedParameterEntityNameStep { name }).run routineMachine p =
            some ({ name, isDone := true }, p) := by
          rw [Bool.not_eq_true] at hactive
          unfold resolvedParameterEntityNameStep Routine.sight
          rw [run_sight_bind]
          dsimp only
          split
          · rename_i hseen
            exact absurd hseen (by simp [sight, scene, Scene.sight, routineMachine, hactive])
          split
          · rename_i next hnext
            cases halias.symm.trans hnext
          · rfl
        rw [hstep]
        exact ⟨{ name, isDone := true }, p, run_walk_done rfl, rfl, .inl rfl⟩
  obtain ⟨w, q, hrun, hname, hq⟩ := hwalk
  refine ⟨q, ?_, hq⟩
  show ((Program.loop walkFinished resolvedParameterEntityNameStep
    (aliasBound p.core.context.parameterEntity) { name }) >>= fun w ↦ pure w.name).run
      routineMachine p = _
  rw [run_bind, hrun, ← hname]
  rfl

theorem hasError_of_failAt {α : Type} {message : String} {a b : α}
    (hrun : (failAt message a).run routineMachine p = some (b, q)) : q.core.hasError = true := by
  obtain ⟨-, rfl⟩ := Prod.mk.inj (Option.some.inj hrun)
  exact setError_hasError_true p message

/-- The end of a reference that is skipped between declarations. -/
theorem flag_of_disable {e : Event} {h : e.isStructural = false} {i j : Nat}
    (hrun : (do
      Program.command .disableDeclarations
      Routine.emit e h
      return i : Routine Nat).run routineMachine p = some (j, q)) :
    q.flag = !p.core.declarations.dtdIsStandalone := by
  obtain ⟨-, rfl⟩ := Prod.mk.inj (Option.some.inj hrun)
  exact checkHandlerStop_flag _

theorem flag_of_skipped_subset {process : String8 → Routine Unit} {subset : String8} {start i : Nat}
    (hname : p.IsUndeclared
      (subset.substring (start + 1) (findCharacter subset ';' (start + 1) - 1)))
    (hrun : (includeParameterEntityInSubset process subset start).run routineMachine p =
      some (i, q)) :
    q.core.hasError = true ∨ q.flag = !p.core.declarations.dtdIsStandalone := by
  obtain ⟨hvalue, hexternal⟩ := lookup_of_undeclared hname
  unfold includeParameterEntityInSubset at hrun
  rw [run_command_bind] at hrun
  dsimp only at hrun
  split at hrun
  · exact .inl (hasError_of_failAt hrun)
  rw [run_bind_eq_some] at hrun
  obtain ⟨⟨cfg, r⟩, hconfig, hrun⟩ := hrun
  obtain ⟨rfl, rfl⟩ := Prod.mk.inj (Option.some.inj hconfig)
  split at hrun
  · rw [run_bind_eq_some] at hrun
    obtain ⟨⟨name, r⟩, hresolved, hrun⟩ := hrun
    obtain ⟨r', hname', hr'⟩ := run_resolvedParameterEntityName
      (p := p.stepRoutine .noteParameterEntityReference) hvalue
    obtain ⟨rfl, rfl⟩ := Prod.mk.inj (Option.some.inj (hname'.symm.trans hresolved))
    rcases hr' with rfl | herror
    · unfold Routine.sight at hrun
      rw [run_sight_bind] at hrun
      dsimp only at hrun
      split at hrun
      · exact .inl (hasError_of_failAt hrun)
      split at hrun
      · rename_i herror
        obtain ⟨-, rfl⟩ := Prod.mk.inj (Option.some.inj hrun)
        exact .inl herror
      split at hrun
      · exact .inl (hasError_of_failAt hrun)
      split at hrun
      · exact .inl (hasError_of_failAt hrun)
      split at hrun
      · rename_i hfound
        cases hvalue.symm.trans hfound
      · rename_i hfound
        cases hexternal.symm.trans hfound
      · split at hrun
        · exact .inl (hasError_of_failAt hrun)
        · have hflag := flag_of_disable hrun
          exact .inr hflag
    · exact .inl (preserves_error _ herror hrun)
  · rename_i hinvalid
    exact absurd hname.1 hinvalid

theorem flag_of_skipped_unread {process : String8 → Routine Unit} {e : ExternalEntity} {u : Unit}
    (hunread : p.readsParameterEntities = false)
    (hrun : (includeExternalParameterEntityInSubset process e).run routineMachine p = some (u, q)) :
    q.core.hasError = true ∨ q.flag = !p.core.declarations.dtdIsStandalone := by
  unfold includeExternalParameterEntityInSubset restoringBase at hrun
  rw [run_bind_eq_some] at hrun
  obtain ⟨⟨f, r⟩, hflags, hrun⟩ := hrun
  obtain ⟨rfl, rfl⟩ := Prod.mk.inj (Option.some.inj hflags)
  dsimp only at hrun
  rw [run_bind_eq_some] at hrun
  obtain ⟨⟨_, r⟩, hskip, hrestore⟩ := hrun
  obtain ⟨-, rfl⟩ := Prod.mk.inj (Option.some.inj hrestore)
  suffices hr : r.core.hasError = true ∨ r.flag = !p.core.declarations.dtdIsStandalone from hr
  rw [run_bind_eq_some] at hskip
  obtain ⟨⟨allowed, r'⟩, hallowed, hskip⟩ := hskip
  obtain ⟨rfl, rfl⟩ := Prod.mk.inj (Option.some.inj hallowed)
  split at hskip
  · rw [run_bind_eq_some] at hskip
    obtain ⟨⟨cfg, r'⟩, hconfig, hskip⟩ := hskip
    obtain ⟨rfl, rfl⟩ := Prod.mk.inj (Option.some.inj hconfig)
    split at hskip
    · obtain ⟨-, rfl⟩ := Prod.mk.inj (Option.some.inj hskip)
      exact .inr (checkHandlerStop_flag _)
    · obtain ⟨-, rfl⟩ := Prod.mk.inj (Option.some.inj hskip)
      exact .inl (setError_hasError_true _ _)
  · rename_i hloads
    refine absurd ?_ hloads
    show (!p.readsParameterEntities) = true
    rw [hunread]
    rfl

theorem flag_of_skipped_attlist {subset : String8} {stop : Nat} {k k' : SkipScan}
    (hquote : k.quote = none) (hitem : (subset.item k.index).toNat = 37)
    (hlt : k.index + 1 < findCharacter subset ';' (k.index + 1))
    (hle : findCharacter subset ';' (k.index + 1) ≤ stop)
    (hname : p.IsUndeclared
      (subset.substring (k.index + 1) (findCharacter subset ';' (k.index + 1) - 1)))
    (hrun : (skipScanStep subset stop k).run routineMachine p = some (k', q)) :
    q.core.hasError = true ∨ q.flag = !p.core.declarations.dtdIsStandalone := by
  have hpercent : isQuote (subset.item k.index) = false := by
    rw [show subset.item k.index = 37 from UInt8.toNat_inj.1 hitem]
    decide
  unfold skipScanStep at hrun
  dsimp only at hrun
  split at hrun
  · rename_i hsome
    cases hquote.symm.trans hsome
  · rw [hpercent, if_neg Bool.false_ne_true, if_pos hitem] at hrun
    unfold Routine.sight at hrun
    rw [run_sight_bind] at hrun
    split at hrun
    · exact .inl (hasError_of_failAt hrun)
    split at hrun
    · obtain ⟨-, rfl⟩ := Prod.mk.inj (Option.some.inj hrun)
      exact .inr rfl
    · rename_i hcond
      refine absurd ⟨hlt, hle, hname.1, ?_⟩ hcond
      show (!p.core.context.isParameterEntityDeclared _) = true
      rw [hname.2]
      rfl

/-- A skipped reference is an error, or the flag is set unless the document is standalone. -/
theorem flag_of_skipped {α : Type} {m : Routine α} {a : α} (hm : SkipsReference m p)
    (hrun : m.run routineMachine p = some (a, q)) :
    q.core.hasError = true ∨ q.flag = !p.core.declarations.dtdIsStandalone := by
  cases hm with
  | subset process subset start _ hname => exact flag_of_skipped_subset hname hrun
  | unread process e _ hunread => exact flag_of_skipped_unread hunread hrun
  | attlist subset stop k _ hquote hitem hlt hle hname =>
    exact flag_of_skipped_attlist hquote hitem hlt hle hname hrun
  | literal append input start p hname =>
    obtain ⟨hvalue, hexternal⟩ := lookup_of_undeclared hname
    unfold appendParameterReferenceInEntityValue Routine.sight at hrun
    rw [run_sight_bind] at hrun
    dsimp only at hrun
    split at hrun
    · exact .inl (hasError_of_failAt hrun)
    split at hrun
    · exact .inl (hasError_of_failAt hrun)
    split at hrun
    · exact .inl (hasError_of_failAt hrun)
    split at hrun
    · exact .inl (hasError_of_failAt hrun)
    split at hrun
    · rename_i hfound
      cases hvalue.symm.trans hfound
    · rename_i hfound
      cases hexternal.symm.trans hfound
    · obtain ⟨-, rfl⟩ := Prod.mk.inj (Option.some.inj hrun)
      exact .inr rfl

end

/-! ## The rest of the parse -/

/-- `IsParsedChild reference d`: the declarations `d` are those of a parser that was created for the
reference and has parsed since, with a resolver that hands back such declarations as well, or they
are a snapshot of them.  No XML declaration in it says that the document is standalone. -/
inductive IsParsedChild : Reference → Declarations → Prop where
  | parse {reference : Reference} {parent child q : Parser} {entry : Entry} {bound : Nat}
      {input : String8} {ok : Bool}
      (hparent : parent.core.declarations = reference.declarations) (hchild : parent.IsChild child)
      (hcall : child.call entry bound input = some (ok, q))
      (hdeclaration : Act.routine (.setXmlStandalone 1) ∉
        (entry.program bound input).trace machine (child.start entry))
      (hresolver : ∀ r, child.externalEntityResolver = some r → ∀ requests request d,
        (r requests request).child = some d → IsParsedChild request d) :
      IsParsedChild reference q.core.declarations
  | snapshot {reference : Reference} {d : Declarations} (h : IsParsedChild reference d) :
      IsParsedChild reference d.entityContextSnapshot

/-- A declaration begins while the flag is not set. -/
def unflaggedDeclaration : Part Act Scene Parser Nat := fun d p ↦
  (∃ e, IsDeclaration e ∧ d = Content.ofRoutine e) ∧ p.flag = false

section

variable {α : Type} {m n : Content α} {p t : Parser}

/-- The document is not standalone: it was not where the parse begins, and no XML declaration says
so. -/
structure IsNotStandalone (m : Content α) (p : Parser) : Prop where
  inherited : p.core.declarations.dtdIsStandalone = false
  declaration : Act.routine (.setXmlStandalone 1) ∉ m.trace machine p

theorem IsNotStandalone.avoids (h : IsNotStandalone m p) : Avoids machine standaloneSite m p := by
  intro n t hreach hsite
  obtain ⟨k, rfl⟩ := hsite
  exact h.declaration hreach.mem_trace

theorem IsNotStandalone.act_ne (h : IsNotStandalone m p) {a : Act} {k : Content α}
    (hreach : Reaches machine m p (.exec a k) t) : a ≠ .routine (.setXmlStandalone 1) := by
  rintro rfl
  exact h.declaration hreach.mem_trace

theorem IsNotStandalone.notStandalone (h : IsNotStandalone m p) (hreach : Reaches machine m p n t) :
    t.core.declarations.dtdIsStandalone = false := by
  apply hreach.invariant (J := fun t ↦ t.core.declarations.dtdIsStandalone = false) _ h.inherited
  intro a k u hu hJ
  exact step_notStandalone (h.act_ne hu) hJ

/-- Once the flag is set it stays set. -/
theorem IsNotStandalone.flag_of_reaches (h : IsNotStandalone m p) {l : Content α} {u : Parser}
    (hreach : Reaches machine m p n t) (hflag : t.flag = true) (hlater : Reaches machine n t l u) :
    u.flag = true := by
  have hdisabled : t.IsDisabled := ⟨hflag, h.notStandalone hreach⟩
  have hinvariant : u.IsDisabled := by
    apply hlater.invariant (J := IsDisabled) _ hdisabled
    intro a k v hv hJ
    exact step_isDisabled (h.act_ne (hreach.trans hv)) hJ
  exact hinvariant.disabled

/-- The declarations that are merged bring the flag. -/
theorem resolve_flag {request : Request} {r : Resolution} {d : Declarations}
    (hr : p.resolution request = some r) (hchild : r.child = some d) :
    (p.resolve request).flag = (p.flag || d.dtdDeclarationsDisabled) := by
  obtain ⟨answer, child, hasSkipped⟩ := r
  obtain rfl : child = some d := hchild
  unfold resolve
  rw [hr]
  rfl

/-- The request, and what follows it. -/
theorem resolvedEntityReplacement_reaches {e : ExternalEntity} {isLiteral : Bool} {r : Resolution}
    (hr : p.resolution (e.request isLiteral) = some r) :
    ∃ rest : Routine (Option (String8 × Answer)),
      (∀ {β : Type} (k : Option (String8 × Answer) → Content β),
        Reaches machine (Content.ofRoutine (resolvedEntityReplacement e isLiteral) >>= k) p
          (Content.ofRoutine rest >>= k) (p.resolve (e.request isLiteral))) ∧
      (resolvedEntityReplacement e isLiteral).run routineMachine p =
        rest.run routineMachine (p.resolve (e.request isLiteral)) := by
  have hresolver : p.externalEntityResolver.isSome = true := by
    obtain ⟨resolver, hresolver, -⟩ := Option.map_eq_some_iff.1 hr
    rw [hresolver]
    rfl
  obtain ⟨rest, hrest⟩ : ∃ rest : Routine (Option (String8 × Answer)),
      resolvedEntityReplacement e isLiteral = (do
        if !(← hasResolver) then
          return none
        else do
          Program.command (Command.resolve (e.request isLiteral))
          rest) := ⟨_, rfl⟩
  refine ⟨rest, fun k ↦ ?_, ?_⟩
  · rw [hrest]
    apply Reaches.look
    show Reaches machine (Content.ofRoutine (if !p.externalEntityResolver.isSome then return none
      else do Program.command (Command.resolve (e.request isLiteral)); rest) >>= k) p _ _
    rw [hresolver]
    exact .exec (.refl _ _)
  · rw [hrest]
    show (if !p.externalEntityResolver.isSome then (return none)
      else do Program.command (Command.resolve (e.request isLiteral)); rest).run routineMachine p = _
    rw [hresolver]
    rfl

/-- The flag is set behind an entity that stays unread, but at the site. -/
theorem IsNotStandalone.flag_of_answers (h : IsNotStandalone m p) {e : ExternalEntity}
    {isLiteral : Bool} {r : Resolution} {k : Option (String8 × Answer) → Content α}
    {a : Option (String8 × Answer)} {u : Parser} (hanswers : t.AnswersUnread e isLiteral r)
    (hreach : Reaches machine m p
      (Content.ofRoutine (resolvedEntityReplacement e isLiteral) >>= k) t)
    (hsite : ¬unreadSite.At (Content.ofRoutine (resolvedEntityReplacement e isLiteral) >>= k) t)
    (hrun : (resolvedEntityReplacement e isLiteral).run routineMachine t = some (a, u)) :
    u.flag = true := by
  obtain ⟨rest, hrequest, hrest⟩ := resolvedEntityReplacement_reaches hanswers.resolution
  have hlater : Reaches machine (Content.ofRoutine rest >>= k) (t.resolve (e.request isLiteral))
      (k a) u := by
    rw [hrest, ← Content.run_ofRoutine] at hrun
    exact (Reaches.of_run_done hrun).bind k
  apply h.flag_of_reaches (hreach.trans (hrequest k)) _ hlater
  by_cases hflag : t.flag = true
  · exact h.flag_of_reaches hreach hflag (hrequest k)
  · obtain ⟨d, hd, hdisabled⟩ : ∃ d, r.child = some d ∧ d.dtdDeclarationsDisabled = true := by
      by_contra hnone
      rw [Bool.not_eq_true] at hflag
      refine hsite ⟨hflag, h.notStandalone hreach, e, isLiteral, r, hanswers, fun d hd ↦ ?_, k, rfl⟩
      rw [← Bool.not_eq_true]
      exact fun hdisabled ↦ hnone ⟨d, hd, hdisabled⟩
    rw [resolve_flag hanswers.resolution hd, hdisabled, Bool.or_true]

/-- A resolver that leaves nothing unread. -/
theorem avoids_unreadSite (h : ∀ r, p.externalEntityResolver = some r → ∀ requests reference,
    (r requests reference).hasSkipped = false) : Avoids machine unreadSite m p := by
  intro n t hreach hsite
  obtain ⟨-, -, e, isLiteral, r, hanswers, -, -⟩ := hsite
  have hkept : t.externalEntityResolver = p.externalEntityResolver :=
    hreach.invariant (J := fun t ↦ t.externalEntityResolver = p.externalEntityResolver)
      (fun a _ u _ hu ↦ (step_resolver a u).trans hu) rfl
  obtain ⟨resolver, hresolver, hr⟩ := Option.map_eq_some_iff.1 hanswers.resolution
  have hread := h resolver (hkept.symm.trans hresolver) t.requests (t.reference (e.request isLiteral))
  rw [hr, hanswers.hasSkipped] at hread
  cases hread

/-- What declares belongs to a declaration that began while the flag was not set. -/
theorem IsNotStandalone.isInside (h : IsNotStandalone m p) (hm : Session m p) {a : Act}
    (hreach : Reaches machine m p (.exec a n) t) (ha : a.declares = true) :
    Program.IsInside machine unflaggedDeclaration m p (.exec a n) t := by
  obtain ⟨d, k, r, l, ⟨hd, hprocessed⟩, hpart, hl, hn⟩ :=
    (hm.obeys (L := declaringLaw)).holds p h.avoids a n t hreach ha
  refine ⟨d, k, r, l, ⟨hd, ?_⟩, hpart, hl, hn⟩
  rw [← Bool.not_eq_true]
  intro hflag
  exact hprocessed ⟨hflag, h.notStandalone hpart⟩

/-- Where the flag is set from the beginning nothing is declared. -/
theorem IsNotStandalone.declares_nothing (h : IsNotStandalone m p) (hm : Session m p)
    (hflag : p.flag = true) {a : Act} (hreach : Reaches machine m p (.exec a n) t) :
    a.declares = false := by
  rw [← Bool.not_eq_true]
  intro ha
  obtain ⟨d, k, r, l, ⟨-, hunflagged⟩, hpart, -, -⟩ := h.isInside hm hreach ha
  have hset := h.flag_of_reaches (.refl m p) hflag hpart
  rw [hset] at hunflagged
  cases hunflagged

end

/-! ## The tables -/

section

variable {p : Parser}

theorem declares_of_declaration {a : Act} {δ : Declaration} (h : p.declaration a = some δ)
    (hmerge : ∀ child, δ ≠ .merge child) : a.declares = true := by
  cases a with
  | routine c =>
    cases c with
    | resolve request =>
      obtain ⟨r, -, hr⟩ := Option.bind_eq_some_iff.1 h
      obtain ⟨child, -, rfl⟩ := Option.map_eq_some_iff.1 hr
      exact absurd rfl (hmerge child)
    | putGeneralEntity | putParameterEntity | putExternalEntity | recordAttributeDecl => rfl
    | _ => cases h
  | _ => cases h

/-- What does not declare changes no table, when what the resolver hands back adds nothing. -/
theorem step_context_of_not_declares {a : Act} (ha : a.declares = false)
    (hresolver : ∀ r, p.externalEntityResolver = some r → ∀ requests request d,
      request.declarations = p.core.declarations → (r requests request).child = some d →
        d.context.copyInto p.core.context = p.core.context) :
    (p.step a).core.context = p.core.context := by
  rw [step_context]
  split
  · rename_i δ hδ
    by_cases hmerge : ∃ child, δ = .merge child
    · obtain ⟨child, rfl⟩ := hmerge
      obtain ⟨r, request, hr, hchild⟩ := declaration_merge hδ
      exact hresolver r hr _ _ _ rfl hchild
    · have hdeclares := declares_of_declaration hδ fun child hchild ↦ hmerge ⟨child, hchild⟩
      rw [ha] at hdeclares
      cases hdeclares
  · rfl

/-- A parser that inherits the flag adds nothing to what it inherited. -/
theorem IsParsedChild.adds_nothing {reference : Reference} {d : Declarations}
    (h : IsParsedChild reference d)
    (hflag : reference.declarations.dtdDeclarationsDisabled = true)
    (hstandalone : reference.declarations.dtdIsStandalone = false)
    (hpredefined : EntityContext.predefined.Extends reference.declarations.context) :
    d.context.copyInto reference.declarations.context = reference.declarations.context := by
  induction h with
  | @parse reference parent child q entry bound input ok hparent hchild hcall hdeclaration hresolver
      ih =>
    obtain ⟨fresh, hlater⟩ := hchild
    have hinheritance : child.core.declarations.inheritance =
        ⟨some (reference.declarations.context.copyInto .empty), true, false,
          parent.core.activeEntityNames⟩ := by
      rw [hlater.inheritance, ← hflag, ← hstandalone, ← hparent]
      rfl
    rw [EntityContext.copyInto_empty] at hinheritance
    simp only [Declarations.inheritance, Inheritance.mk.injEq] at hinheritance
    obtain ⟨hcontext, hdisabled, hinherited, -⟩ := hinheritance
    have hstart : (child.start entry).core.context =
        reference.declarations.context.copyInto .predefined := by
      show (child.core.declarations.inherited.getD .empty).copyInto .predefined = _
      rw [hcontext]
      rfl
    have hstartFlag : (child.start entry).flag = true := by
      show (false || child.core.declarations.inheritedDtdDeclarationsDisabled) = true
      rw [hdisabled, Bool.false_or]
    have hnot : IsNotStandalone (entry.program bound input) (child.start entry) := by
      refine ⟨?_, hdeclaration⟩
      show ((-1 : Int) == 1 || child.core.declarations.inheritedDtdIsStandalone) = false
      rw [hinherited]
      decide
    have hsession := Session.call entry bound input child
    obtain ⟨⟨ok', q'⟩, hrun, hq⟩ := Option.map_eq_some_iff.1 hcall
    obtain ⟨-, rfl⟩ := Prod.mk.inj hq
    have hunchanged : q'.core.context = (child.start entry).core.context ∧
        q'.externalEntityResolver = child.externalEntityResolver := by
      apply (Reaches.of_run_done hrun).invariant (J := fun t ↦
        t.core.context = (child.start entry).core.context ∧
          t.externalEntityResolver = child.externalEntityResolver)
      · intro a k t hreach ht
        show (t.step a).core.context = _ ∧ (t.step a).externalEntityResolver = _
        rw [step_resolver]
        refine ⟨?_, ht.2⟩
        rw [step_context_of_not_declares (hnot.declares_nothing hsession hstartFlag hreach), ht.1]
        intro r hr requests request d hrequest hd
        rw [ht.2] at hr
        have hadds := ih r hr requests request d hd
        rw [hrequest] at hadds
        apply hadds
        · exact hnot.flag_of_reaches (.refl _ _) hstartFlag hreach
        · exact hnot.notStandalone hreach
        · show EntityContext.predefined.Extends t.core.context
          rw [ht.1, hstart]
          exact EntityContext.extends_copyInto _ _
      · exact ⟨rfl, rfl⟩
    show q'.core.context.copyInto reference.declarations.context = reference.declarations.context
    rw [hunchanged.1, hstart]
    exact EntityContext.copyInto_predefined_eq_self hpredefined
  | @snapshot reference d h ih =>
    rw [Declarations.context_entityContextSnapshot]
    exact EntityContext.delta_copyInto_eq_self (ih hflag hstandalone hpredefined)

end

/-- A parser that is created where the flag is set begins with it. -/
theorem flag_of_import {p : Parser} (hflag : p.flag = true)
    (hstandalone : p.core.declarations.dtdIsStandalone = false) (fresh : Parser) (entry : Entry) :
    ((fresh.importEntityContext p).start entry).flag = true ∧
      ((fresh.importEntityContext p).start entry).core.declarations.dtdIsStandalone = false := by
  constructor
  · show (false || p.flag) = true
    rw [hflag, Bool.false_or]
  · show ((-1 : Int) == 1 || p.core.declarations.dtdIsStandalone) = false
    rw [hstandalone]
    decide

end Parser

open Xpact.Parser

/-- In a parse whose resolver hands back the declarations of child parsers only, and answers for no
entity that stays unread, wherever a reference to a parameter entity is skipped, the parse has an
error or the flag is set just when the document is not standalone.  From there on, in a document that
is not standalone, the flag stays set, what does not declare changes no table, what declares belongs to
a declaration that began while the flag was not set, and a declaration that begins later declares
nothing.  A child parser and the body after the document type declaration begin with the flag, and the
flag of a child, or of a snapshot of it, reaches the parser that merges its declarations. -/
theorem declarations_stay_disabled {α : Type} {m : Content α} {p : Parser} (hm : Session m p)
    (hpredefined : EntityContext.predefined.Extends p.core.context)
    (hresolver : ∀ r, p.externalEntityResolver = some r → ∀ requests request d,
      (r requests request).child = some d → IsParsedChild request d)
    (hread : Avoids machine unreadSite m p) :
    (∀ (β : Type) (skipping : Routine β) (a : β) (q q' : Parser), SkipsReference skipping q →
      skipping.run routineMachine q = some (a, q') →
        q'.core.hasError = true ∨ q'.flag = !q.core.declarations.dtdIsStandalone) ∧
    (IsNotStandalone m p →
      (∀ e isLiteral r k q a q', Reaches machine m p
          (Content.ofRoutine (resolvedEntityReplacement e isLiteral) >>= k) q →
        q.AnswersUnread e isLiteral r →
        (resolvedEntityReplacement e isLiteral).run routineMachine q = some (a, q') →
          q'.flag = true) ∧
      (∀ n t l u, Reaches machine m p n t → t.flag = true → Reaches machine n t l u →
        u.flag = true) ∧
      (∀ a n t, Reaches machine m p (.exec a n) t → t.flag = true → a.declares = false →
        (t.step a).core.context = t.core.context) ∧
      (∀ a n t, Reaches machine m p (.exec a n) t → a.declares = true →
        Program.IsInside machine unflaggedDeclaration m p (.exec a n) t) ∧
      (∀ e f t, IsDeclaration e → Reaches machine m p (Content.ofRoutine e >>= f) t →
        t.flag = true → (Content.ofRoutine e).Always machine (fun a _ ↦ a.declares = false) t) ∧
      ∀ n t, Reaches machine m p n t → t.flag = true → ∀ (fresh : Parser) entry,
        ((fresh.importEntityContext t).start entry).flag = true ∧
          ((fresh.importEntityContext t).start entry).core.declarations.dtdIsStandalone = false) ∧
    (∀ (q q' : Parser) (text : String8),
      (q'.resetCachedDoctypeBody (q.completedDoctype text)).flag = q.flag) ∧
    ∀ (q : Parser) request r d, q.resolution request = some r →
      r.child = some d ∨ r.child = some d.entityContextSnapshot →
        (q.resolve request).flag = (q.flag || d.dtdDeclarationsDisabled) := by
  refine ⟨fun _ _ _ _ _ hskips hrun ↦ flag_of_skipped hskips hrun, ?_, fun _ _ _ ↦ rfl, ?_⟩
  rotate_left
  · intro q request r d hr hchild
    cases hchild with
    | inl hchild => exact resolve_flag hr hchild
    | inr hchild => rw [resolve_flag hr hchild, Declarations.dtdDeclarationsDisabled_entityContextSnapshot]
  intro hnot
  refine ⟨?_, ?_, ?_, ?_, ?_, ?_⟩
  · intro e isLiteral r k q a q' hreach hanswers hrun
    exact hnot.flag_of_answers hanswers hreach (hread _ _ hreach) hrun
  · intro n t l u hreach hflag hlater
    exact hnot.flag_of_reaches hreach hflag hlater
  · intro a n t hreach hflag ha
    apply step_context_of_not_declares ha
    have hkept : t.externalEntityResolver = p.externalEntityResolver ∧
        EntityContext.predefined.Extends t.core.context := by
      apply hreach.invariant (J := fun t ↦ t.externalEntityResolver = p.externalEntityResolver ∧
        EntityContext.predefined.Extends t.core.context) _ ⟨rfl, hpredefined⟩
      intro b k u _ hu
      exact ⟨(step_resolver b u).trans hu.1, hu.2.trans (step_context_extends b u)⟩
    intro r hr requests request d hrequest hd
    rw [hkept.1] at hr
    have hadds := (hresolver r hr requests request d hd).adds_nothing
    rw [hrequest] at hadds
    exact hadds hflag (hnot.notStandalone hreach) hkept.2
  · intro a n t hreach ha
    exact hnot.isInside hm hreach ha
  · intro e f t he hreach hflag
    apply declares_nothing he ⟨hflag, hnot.notStandalone hreach⟩
    exact (hnot.avoids.of_reaches hreach).bind_left
  · intro n t hreach hflag fresh entry
    exact flag_of_import hflag (hnot.notStandalone hreach) fresh entry

/-- A reference to an undeclared parameter entity, and then a declaration. -/
theorem declarations_stay_disabled_document :
    ∃ q, (Entry.document.program 10 (str "<!DOCTYPE a [%u;<!ENTITY e '1'>]><a/>")).run machine
        ((make {} .observing).start .document) = some (true, q) ∧
      q.flag = true ∧ q.core.context.entityValue (str "e") = none ∧
      ∀ a n t, Reaches machine
          (Entry.document.program 10 (str "<!DOCTYPE a [%u;<!ENTITY e '1'>]><a/>"))
          ((make {} .observing).start .document) (.exec a n) t → a.declares = true →
        Program.IsInside machine unflaggedDeclaration
          (Entry.document.program 10 (str "<!DOCTYPE a [%u;<!ENTITY e '1'>]><a/>"))
          ((make {} .observing).start .document) (.exec a n) t := by
  have hrun : ((Entry.document.program 10 (str "<!DOCTYPE a [%u;<!ENTITY e '1'>]><a/>")).run machine
      ((make {} .observing).start .document)).map
        (fun r ↦ (r.1, r.2.flag, r.2.core.context.entityValue (str "e"))) =
          some (true, true, none) := by decide +kernel
  have htrace : ((Entry.document.program 10 (str "<!DOCTYPE a [%u;<!ENTITY e '1'>]><a/>")).trace
      machine ((make {} .observing).start .document)).any Act.saysStandalone = false := by
    decide +kernel
  obtain ⟨⟨ok, q⟩, hq, hresult⟩ := Option.map_eq_some_iff.1 hrun
  obtain ⟨rfl, hrest⟩ := Prod.mk.inj hresult
  obtain ⟨hflag, hentity⟩ := Prod.mk.inj hrest
  have hnot : IsNotStandalone
      (Entry.document.program 10 (str "<!DOCTYPE a [%u;<!ENTITY e '1'>]><a/>"))
      ((make {} .observing).start .document) := by
    refine ⟨by decide, fun hmem ↦ ?_⟩
    have hone := List.any_eq_false.1 htrace _ hmem
    exact hone rfl
  have hdisabled := declarations_stay_disabled
    (Session.call .document 10 (str "<!DOCTYPE a [%u;<!ENTITY e '1'>]><a/>") (make {} .observing))
    (EntityContext.extends_copyInto _ _) (fun r hr ↦ by cases hr)
    (avoids_unreadSite fun r hr ↦ by cases hr)
  exact ⟨q, hq, hflag, hentity, (hdisabled.2.1 hnot).2.2.2.1⟩

/-- A native handler that is told of skipped entities, and resolves none. -/
def skipListener : Native.Dispatch where
  handler := { isRegistered := fun kind ↦ kind = .skippedEntity }
  shim := {}

/-- An application that lets the parser go on. -/
def passiveApplication : Native.Application where
  stops _ := none
  acceptsNotStandalone _ := true
  parsesChild _ := ⟨1, false, 0, 0, none, none, false⟩
  malloc _ := none

/-- The parser behind that handler, which always reads parameter entities. -/
def unreadParser : Parser :=
  { make { externalEntityPolicy := .allExternalEntities, skipUnreadExternalEntities := true }
      (skipListener.handler.handler true (fun _ ↦ false) fun _ ↦ false) with
    externalEntityResolver := some fun _ reference ↦
      (skipListener.resolveExternalEntity passiveApplication reference.toRequest).1 }

/-- What that handler is asked for it reports as skipped. -/
theorem skipListener_received (request : Request) :
    (skipListener.resolveExternalEntity passiveApplication request).2.received =
      [.event (.skippedEntity request.name request.isParameter)] := rfl

/-- The entity `p` is reported as skipped, and the declaration behind it is processed all the same. -/
theorem declarations_resume_after_unread_entity :
    let m := document 10 (str "<!DOCTYPE a [<!ENTITY % p SYSTEM 'x'>%p;<!ENTITY e 'v'>]><a>&e;</a>")
    let p := unreadParser.start .document
    IsNotStandalone m p ∧
      ∃ q, m.run machine p = some (true, q) ∧
        (∃ r, q.requests = [r] ∧
          (skipListener.resolveExternalEntity passiveApplication r.toRequest).2.received =
            [.event (.skippedEntity (str "p") true)]) ∧
        q.flag = false ∧ q.core.context.entityValue (str "e") = some (str "v") := by
  intro m p
  have hrun : (m.run machine p).map (fun r ↦ (r.1, r.2.requests.map (fun r ↦ (r.name, r.isParameter)),
      r.2.flag, r.2.core.context.entityValue (str "e"))) =
        some (true, [(str "p", true)], false, some (str "v")) := by decide +kernel
  have htrace : (m.trace machine p).any Act.saysStandalone = false := by decide +kernel
  obtain ⟨⟨ok, q⟩, hq, hresult⟩ := Option.map_eq_some_iff.1 hrun
  obtain ⟨rfl, hresult⟩ := Prod.mk.inj hresult
  obtain ⟨hrequests, hresult⟩ := Prod.mk.inj hresult
  obtain ⟨hflag, hentity⟩ := Prod.mk.inj hresult
  refine ⟨⟨by decide, fun hmem ↦ ?_⟩, q, hq, ?_, hflag, hentity⟩
  · have hone := List.any_eq_false.1 htrace _ hmem
    exact hone rfl
  · obtain ⟨r, hr, hasked⟩ := List.map_eq_singleton_iff.1 hrequests
    obtain ⟨hname, hparameter⟩ := Prod.mk.inj hasked
    refine ⟨r, hr, ?_⟩
    rw [skipListener_received, hname, hparameter]

end Xpact
