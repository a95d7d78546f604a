import Xpact.Parser.EntityNesting

/-!
# Routines that expand entities

Routine by routine, up to the document type declaration: the stack of entities is restored, and its
limit is kept.  Most routines push nothing, and instance search finds the rest from the routines they
call.  What is written out are the places that push: each looks at the depth first, but for one.
-/

namespace Xpact

open Library Program Routine

-- A routine is one goal of instance search for each of its steps.
set_option synthInstance.maxSize 100000
set_option synthInstance.maxHeartbeats 200000

/-! ## Routines that expand no entity -/

/-- The routine neither pushes nor pops an entity. -/
abbrev LeavesEntities (m : Routine α) : Prop := Uses Command.keepsEntityStack m

instance (priority := low) leaves_of_reporting {α : Type} (m : Routine α) [hm : IsReporting m] :
    LeavesEntities m := by
  apply hm.mono
  intro c hc
  cases c <;> first | rfl | cases hc

instance leaves_emit (e : Event) (h : e.isStructural = false) : LeavesEntities (emit e h) := by
  unfold emit; infer_instance

instance leaves_whileOngoing (m : Routine Unit) [LeavesEntities m] :
    LeavesEntities (whileOngoing m) := by
  unfold whileOngoing; infer_instance

instance leaves_parseExternalEntityDeclaration (subset : String8) (start close : Nat)
    (name : String8) (isParameter : Bool) :
    LeavesEntities (parseExternalEntityDeclaration subset start close name isParameter) := by
  unfold parseExternalEntityDeclaration; infer_instance

/-! ## Routines that expand entities -/

namespace Parser

/-- There is room for one more entity on the stack. -/
def HasRoom (p : Parser) : Prop := p.core.entityStack.length < maxEntityDepth

/-- The law of the entity stack, for routines. -/
abbrev routineEntityLaw (S : Site Act Scene Parser) : Law (machine.restrict Act.routine Scene.sight) :=
  (entityLaw S).restrict Act.routine Scene.sight

/-- The routine restores the entity stack, from whatever state, and keeps its limit unless it comes to
a site. -/
abbrev RestoresStack (m : Routine α) : Prop := Obeys (routineEntityLaw entityLiteralSite) m

/-- The pushes and the pops of the routine match. -/
abbrev MatchesEntities (m : Routine α) : Prop := Obeys (routineEntityLaw Site.everywhere) m

section

variable {α β : Type} {S : Site Act Scene Parser} {p : Parser}

instance (priority := low) restoresStack_of_leaves (m : Routine α) [hm : LeavesEntities m] :
    Obeys (routineEntityLaw S) m :=
  ⟨fun p ↦ Law.of_issuesOnly (routineEntityLaw S) (fun _ _ hc ↦ restores_act hc) hm.issuesOnly p⟩

instance (priority := low) matches_of_restores (m : Routine α) [hm : RestoresStack m] :
    MatchesEntities m :=
  ⟨fun p ↦ ⟨(hm.holds p).matched, fun havoids ↦ absurd havoids Avoids.not_everywhere⟩⟩

theorem entityStack_of_run {m : Routine α} [hm : RestoresStack m] {a : α} {q : Parser}
    (hrun : m.run routineMachine p = some (a, q)) : q.core.entityStack = p.core.entityStack := by
  apply RestoresEntities.entityStack (hm.holds p)
  rw [run_lift]
  exact hrun

theorem stack_bind {m : Routine α} {f : α → Routine β} (hm : RestoresStack m)
    (hf : ∀ a q, q.core.entityStack = p.core.entityStack →
      (routineEntityLaw entityLiteralSite).Holds (f a) q) :
    (routineEntityLaw entityLiteralSite).Holds (m >>= f) p := by
  apply (routineEntityLaw entityLiteralSite).bind (hm.holds p)
  intro a q hrun
  exact hf a q (entityStack_of_run hrun)

/-- Room stays room while a routine runs. -/
theorem room_bind {m : Routine α} {f : α → Routine β} (hm : RestoresStack m) (hp : p.HasRoom)
    (hf : ∀ a q, q.HasRoom → (routineEntityLaw entityLiteralSite).Holds (f a) q) :
    (routineEntityLaw entityLiteralSite).Holds (m >>= f) p := by
  apply stack_bind hm
  intro a q hstack
  apply hf a q
  show q.core.entityStack.length < maxEntityDepth
  rw [hstack]
  exact hp

/-- A routine between a push and the pop. -/
theorem restores_entity {m : Routine α} {f : α → Routine β} {name : String8}
    (hroom : Avoids machine S (do
        Content.act (.routine (.pushEntity name))
        let a ← Content.ofRoutine m
        Content.act (.routine .popEntity)
        Content.ofRoutine (f a)) p →
      p.IsWithinEntityLimit → p.HasRoom)
    (hm : Obeys (routineEntityLaw S) m) (hf : ∀ a, Obeys (routineEntityLaw S) (f a)) :
    (routineEntityLaw S).Holds (do pushEntity name; let a ← m; popEntity; f a) p := by
  show RestoresEntities S ((do pushEntity name; let a ← m; popEntity; f a : Routine β).lift _ _) p
  rw [lift_bind, lift_bind]
  apply restores_pushed hroom hm.holds
  intro a q _
  exact (hf a).holds q

instance matches_entity (name : String8) (m : Routine α) (f : α → Routine β)
    [hm : MatchesEntities m] [hf : ∀ a, MatchesEntities (f a)] :
    MatchesEntities (do pushEntity name; let a ← m; popEntity; f a) :=
  ⟨fun _ ↦ restores_entity (fun havoids ↦ absurd havoids Avoids.not_everywhere) hm hf⟩

/-! ### General entities in literals -/

variable (input subset content name : String8) (start stop i : Nat)

section Literal

variable (expandLiteralText : String8 → Routine String8)
  [hexpand : ∀ text, RestoresStack (expandLiteralText text)]

include hexpand

instance restores_includeGeneralEntityInLiteral :
    RestoresStack (includeGeneralEntityInLiteral expandLiteralText name) := by
  apply Obeys.bind inferInstance
  intro name
  constructor
  intro p
  apply (routineEntityLaw entityLiteralSite).sight_bind
  dsimp only
  split
  · exact Obeys.holds p
  split
  · exact Obeys.holds p
  split
  · exact Obeys.holds p
  · rename_i _ _ hdepth
    have hp : p.HasRoom := Nat.not_le.1 hdepth
    split
    · apply room_bind inferInstance hp
      intro _ q hq
      apply room_bind inferInstance hq
      intro failed r hr
      split
      · exact Obeys.holds r
      · exact restores_entity (fun _ _ ↦ hr) inferInstance inferInstance
    · exact Obeys.holds p
    · exact Obeys.holds p

instance restores_appendReferenceInLiteral :
    RestoresStack (appendReferenceInLiteral expandLiteralText input start) := by
  unfold appendReferenceInLiteral; infer_instance

instance restores_expandLiteralTextStep (t : Nat × String8) :
    RestoresStack (expandLiteralTextStep expandLiteralText content t) := by
  unfold expandLiteralTextStep; infer_instance

end Literal

instance restores_expandLiteralText (depth : Nat) : RestoresStack (expandLiteralText depth content) := by
  induction depth generalizing content with
  | zero => exact obeys_stuck _
  | succ depth ih =>
    unfold expandLiteralText
    infer_instance

instance restores_parseAttributeValueStep (depth : Nat) (t : Nat × String8) :
    RestoresStack (parseAttributeValueStep depth input t) := by
  unfold parseAttributeValueStep; infer_instance

instance restores_parseAttributeValue (depth : Nat) (quote : Character8) :
    RestoresStack (parseAttributeValue depth input start quote) := by
  unfold parseAttributeValue; infer_instance

/-! ### Parameter entities in literals -/

section EntityValue

variable (appendParameterEntityLiteral : String8 → Routine String8)
  [happend : ∀ name, RestoresStack (appendParameterEntityLiteral name)]

include happend

instance restores_appendParameterReferenceInEntityValue :
    RestoresStack (appendParameterReferenceInEntityValue appendParameterEntityLiteral input start) := by
  unfold appendParameterReferenceInEntityValue
  apply Obeys.bind inferInstance
  intro s
  apply Obeys.ite inferInstance
  apply Obeys.ite inferInstance
  apply Obeys.ite inferInstance
  apply Obeys.ite inferInstance
  split <;> infer_instance

instance restores_appendParameterTextStep (t : Nat × String8) :
    RestoresStack (appendParameterTextStep appendParameterEntityLiteral input t) := by
  unfold appendParameterTextStep; infer_instance

instance restores_appendParameterEntityLiteralStep (t : AliasWalk × String8) :
    RestoresStack (appendParameterEntityLiteralStep appendParameterEntityLiteral t) := by
  constructor
  intro p
  apply (routineEntityLaw entityLiteralSite).sight_bind
  dsimp only
  split
  · exact Obeys.holds p
  split
  · exact Obeys.holds p
  · apply stack_bind inferInstance
    intro _ q hq
    apply stack_bind inferInstance
    intro failed r hr
    split
    · exact Obeys.holds r
    split
    · exact Obeys.holds r
    -- Only the last link of a chain of aliases is pushed.
    split
    · exact Obeys.holds r
    · rename_i _ hdepth
      have hroom : r.HasRoom := by
        show r.core.entityStack.length < maxEntityDepth
        rw [hr, hq]
        exact Nat.not_le.1 hdepth
      exact restores_entity (fun _ _ ↦ hroom) inferInstance inferInstance

end EntityValue

instance restores_appendParameterEntityLiteral (depth : Nat) :
    RestoresStack (appendParameterEntityLiteral depth name) := by
  induction depth generalizing name with
  | zero => exact obeys_stuck _
  | succ depth ih =>
    unfold appendParameterEntityLiteral
    infer_instance

instance restores_parseEntityLiteralStep (depth : Nat) (t : Nat × String8) :
    RestoresStack (parseEntityLiteralStep depth input t) := by
  unfold parseEntityLiteralStep; infer_instance

instance restores_parseEntityLiteral (depth : Nat) (quote : Character8) :
    RestoresStack (parseEntityLiteral depth input start quote) := by
  unfold parseEntityLiteral
  apply Obeys.bind inferInstance
  intro _
  apply Obeys.bind inferInstance
  intro r
  apply Obeys.bind inferInstance
  intro failed
  apply Obeys.ite inferInstance
  apply Obeys.bind inferInstance
  intro f
  apply Obeys.ite _ inferInstance
  split <;> infer_instance

instance restores_externalParameterLiteralContentStart :
    RestoresStack (externalParameterLiteralContentStart input) := by
  unfold externalParameterLiteralContentStart; infer_instance

instance restores_externalParameterLiteralTextStart :
    RestoresStack (externalParameterLiteralTextStart input) := by
  unfold externalParameterLiteralTextStart; infer_instance

instance restores_externalParameterLiteral (depth : Nat) :
    RestoresStack (externalParameterLiteral depth input) := by
  unfold externalParameterLiteral; infer_instance

/-! ### Declarations -/

variable (depth close : Nat) (isParameter isProcessed : Bool)

instance restores_attlistDefaultValueStep (t : Nat × String8) :
    RestoresStack (attlistDefaultValueStep depth subset stop t) := by
  unfold attlistDefaultValueStep; infer_instance

instance restores_parseAttlistDefaultValue :
    RestoresStack (parseAttlistDefaultValue depth subset start stop) := by
  unfold parseAttlistDefaultValue; infer_instance

instance restores_parseAttlistDefault : RestoresStack (parseAttlistDefault depth subset i close) := by
  unfold parseAttlistDefault; infer_instance

instance restores_parseAttlistDefinition :
    RestoresStack (parseAttlistDefinition depth subset name close i) := by
  unfold parseAttlistDefinition; infer_instance

instance restores_parseAttlistDeclaration :
    RestoresStack (parseAttlistDeclaration depth subset start) := by
  unfold parseAttlistDeclaration; infer_instance

/-- The literal of a new parameter entity is read between the push of its name and the pop; there
is room unless this is where the limit is not looked at. -/
instance restores_parseInternalEntityValue :
    RestoresStack (parseInternalEntityValue depth subset i close name isParameter isProcessed) := by
  have hmatches : MatchesEntities
      (parseInternalEntityValue depth subset i close name isParameter isProcessed) := by
    unfold parseInternalEntityValue; infer_instance
  constructor
  intro p
  by_cases hsite : entityLiteralSite.At (Content.ofRoutine
      (parseInternalEntityValue depth subset i close name isParameter isProcessed)) p
  · -- The site is reached, so nothing is said about the limit.
    refine ⟨(hmatches.holds p).matched, fun havoids _ ↦ ?_⟩
    exact absurd hsite (havoids _ _ (.refl _ _))
  · have hroom (hprocessed : isProcessed = true) (hparameter : isParameter = true)
        (hnew : p.core.context.isParameterEntityDeclared name = false)
        (hlimit : p.IsWithinEntityLimit) : p.HasRoom := by
      subst hprocessed hparameter
      apply Nat.lt_of_le_of_ne hlimit
      intro hfull
      apply hsite
      exact ⟨hfull, depth, subset, i, close, name, .done, hnew, (bind_done _).symm⟩
    apply (routineEntityLaw entityLiteralSite).bind (Obeys.holds p)
    intro _ q hrun
    obtain ⟨-, rfl⟩ := Prod.mk.inj (Option.some.inj hrun)
    apply (routineEntityLaw entityLiteralSite).read_bind rfl rfl
    dsimp only
    split
    · exact Obeys.holds _
    split
    · rename_i hprocessed hnewParameter
      rw [Bool.and_eq_true, Bool.not_eq_true'] at hnewParameter
      apply restores_entity
      · intro _
        apply hroom
        · cases isProcessed
          · exact absurd rfl hprocessed
          · rfl
        · exact hnewParameter.1
        · exact hnewParameter.2
      · infer_instance
      · infer_instance
    · exact Obeys.holds _

instance restores_parseInternalEntityDeclaration (nameStart nameEnd literalStart : Nat) :
    RestoresStack (parseInternalEntityDeclaration depth subset start nameStart nameEnd literalStart
      close name isParameter isProcessed) := by
  unfold parseInternalEntityDeclaration; infer_instance

instance restores_parseEntityDeclaration :
    RestoresStack (parseEntityDeclaration depth subset start) := by
  unfold parseEntityDeclaration; infer_instance

/-! ### Subsets -/

section ParameterValue

variable (expandedDtdParameterValue : String8 → Routine (Option String8))
  [hexpanded : ∀ name, RestoresStack (expandedDtdParameterValue name)]

include hexpanded

instance restores_parameterCopyStep (k : ParameterCopy) :
    RestoresStack (parameterCopyStep expandedDtdParameterValue input k) := by
  unfold parameterCopyStep
  dsimp only
  split
  · infer_instance
  apply Obeys.ite inferInstance
  apply Obeys.ite _ inferInstance
  apply Obeys.ite inferInstance
  apply Obeys.bind inferInstance
  intro cfg
  apply Obeys.ite inferInstance
  apply Obeys.bind inferInstance
  intro nested
  infer_instance

end ParameterValue

/-- A text is expanded only when there is room for the name of its entity. -/
theorem hasRoom_of_dtdParameterText {text : String8} {q : Parser}
    (hrun : (dtdParameterText name).run routineMachine p = some (some text, q)) : q.HasRoom := by
  have hstack := entityStack_of_run hrun
  show q.core.entityStack.length < maxEntityDepth
  rw [hstack]
  unfold dtdParameterText Routine.sight at hrun
  rw [run_sight_bind] at hrun
  dsimp only at hrun
  split at hrun
  · cases hrun
  split at hrun
  · cases hrun
  · rename_i _ hdepth
    exact Nat.not_le.1 hdepth

instance restores_expandedDtdParameterValue :
    RestoresStack (expandedDtdParameterValue depth name) := by
  induction depth generalizing name with
  | zero => exact obeys_stuck _
  | succ depth ih =>
    constructor
    intro p
    apply (routineEntityLaw entityLiteralSite).bind (Obeys.holds p)
    intro text q hrun
    cases text with
    | none => exact Obeys.holds q
    | some text =>
      have hroom := hasRoom_of_dtdParameterText name hrun
      apply (routineEntityLaw entityLiteralSite).read_bind rfl rfl
      split
      · exact restores_entity (fun _ _ ↦ hroom) inferInstance inferInstance
      · exact Obeys.holds q

instance restores_dtdSubsetWithParameterReference (reference : Nat) :
    RestoresStack (dtdSubsetWithParameterReference depth subset reference) := by
  unfold dtdSubsetWithParameterReference
  apply Obeys.bind inferInstance
  intro s
  apply Obeys.ite inferInstance
  apply Obeys.ite inferInstance
  apply Obeys.ite inferInstance
  apply Obeys.bind inferInstance
  intro value
  split <;> infer_instance

instance restores_restoringBase (m : Routine Unit) [RestoresStack m] :
    RestoresStack (restoringBase m) := by
  unfold restoringBase; infer_instance

section Subset

variable (processInternalSubset : String8 → Routine Unit)
  [hprocess : ∀ subset, RestoresStack (processInternalSubset subset)]

include hprocess

instance restores_processExternalText (answer : Answer) :
    RestoresStack (processExternalText processInternalSubset content answer) := by
  unfold processExternalText unlessError; infer_instance

instance restores_includeExternalParameterEntityInSubset (e : ExternalEntity) :
    RestoresStack (includeExternalParameterEntityInSubset processInternalSubset e) := by
  unfold includeExternalParameterEntityInSubset unlessError
  refine @restores_restoringBase _ ?_
  apply Obeys.bind inferInstance
  intro allowed
  apply Obeys.ite inferInstance
  apply Obeys.bind inferInstance
  intro present
  apply Obeys.ite inferInstance
  apply Obeys.bind inferInstance
  intro _
  apply Obeys.bind inferInstance
  intro failed
  apply Obeys.ite inferInstance
  apply Obeys.bind inferInstance
  intro r
  split <;> infer_instance

theorem restores_includeInternalParameterEntity (value : String8) (hp : p.HasRoom) :
    (routineEntityLaw entityLiteralSite).Holds
      (includeInternalParameterEntity processInternalSubset name value start) p := by
  have hshape : includeInternalParameterEntity processInternalSubset name value start =
      (do
        pushEntity name
        (do
          let f ← flags
          let position := f.dtdEntityReferencePosition
          assign fun f ↦ { f with
            dtdEntityReferencePosition :=
              if position = 0 then f.dtdSubsetPositionOffset + start else position
            parameterSubsetExpansionDepth := f.parameterSubsetExpansionDepth + 1 }
          processInternalSubset value
          assign fun f ↦ { f with
            dtdEntityReferencePosition := position
            parameterSubsetExpansionDepth := f.parameterSubsetExpansionDepth - 1 })
        popEntity
        pure ()) := by
    unfold includeInternalParameterEntity
    simp only [bind_assoc]
    rfl
  rw [hshape]
  exact restores_entity (fun _ _ ↦ hp) inferInstance inferInstance

instance restores_includeParameterEntityInSubset :
    RestoresStack (includeParameterEntityInSubset processInternalSubset subset start) := by
  unfold includeParameterEntityInSubset
  apply Obeys.bind inferInstance
  intro _
  apply Obeys.ite inferInstance
  apply Obeys.bind inferInstance
  intro cfg
  -- The name is resolved when it is valid, and left as written otherwise.
  apply Obeys.ite
  all_goals
    apply Obeys.bind inferInstance
    intro name
    constructor
    intro p
    apply (routineEntityLaw entityLiteralSite).sight_bind
    dsimp only
    split
    · exact Obeys.holds p
    split
    · exact Obeys.holds p
    split
    · exact Obeys.holds p
    split
    · exact Obeys.holds p
    · rename_i _ _ _ hdepth
      have hroom : p.HasRoom := Nat.not_le.1 hdepth
      split
      · apply room_bind inferInstance hroom
        intro _ q hq
        apply (routineEntityLaw entityLiteralSite).bind
        · apply (routineEntityLaw entityLiteralSite).read_bind rfl rfl
          split
          · exact Obeys.holds q
          · exact restores_includeInternalParameterEntity _ _ _ _ hq
        · intro _ r _
          exact Obeys.holds r
      · exact restores_entity (fun _ _ ↦ hroom) inferInstance inferInstance
      · exact Obeys.holds p

instance restores_conditionalStatusStep (t : Nat × String8) :
    RestoresStack (conditionalStatusStep depth subset t) := by
  unfold conditionalStatusStep; infer_instance

instance restores_parseConditionalSection :
    RestoresStack (parseConditionalSection depth processInternalSubset subset start) := by
  unfold parseConditionalSection; infer_instance

instance restores_processSubsetToken (allowTextDeclaration : Bool) :
    RestoresStack (processSubsetToken depth processInternalSubset allowTextDeclaration subset i) := by
  unfold processSubsetToken; infer_instance

instance restores_processSubsetStep (allowTextDeclaration : Bool) (s : SubsetScan) :
    RestoresStack (processSubsetStep depth processInternalSubset allowTextDeclaration s) := by
  unfold processSubsetStep
  -- The text of the reference, which may be absent, is looked at last.
  repeat' first | infer_instance | apply Obeys.ite | refine Obeys.bind ?_ fun _ ↦ ?_ | split

end Subset

instance restores_processDtdSubset (bound : Nat) (allowTextDeclaration : Bool) :
    RestoresStack (processDtdSubset bound subset allowTextDeclaration) := by
  induction bound generalizing subset allowTextDeclaration with
  | zero => exact obeys_stuck _
  | succ bound ih =>
    unfold processDtdSubset
    infer_instance

instance restores_processInternalSubset (bound : Nat) :
    RestoresStack (processInternalSubset bound subset) := by
  unfold processInternalSubset; infer_instance

instance restores_processInternalSubsetPrefix (bound : Nat) (allowTextDeclaration : Bool) :
    RestoresStack (processInternalSubsetPrefix bound subset allowTextDeclaration) := by
  unfold processInternalSubsetPrefix; infer_instance

instance restores_includeExternalSubset (bound : Nat) (publicId systemId : String8) :
    RestoresStack (includeExternalSubset bound publicId systemId) := by
  unfold includeExternalSubset
  refine @restores_restoringBase _ ?_
  repeat' first | infer_instance | apply Obeys.ite | refine Obeys.bind ?_ fun _ ↦ ?_ | split

instance restores_includeForeignDtdIfNeeded (bound : Nat) :
    RestoresStack (includeForeignDtdIfNeeded bound name) := by
  unfold includeForeignDtdIfNeeded unlessError
  refine @restores_restoringBase _ ?_
  repeat' first | infer_instance | apply Obeys.ite | refine Obeys.bind ?_ fun _ ↦ ?_ | split

/-! ### Document type declarations -/

instance restores_unlessError (m : Routine Unit) [RestoresStack m] : RestoresStack (unlessError m) := by
  unfold unlessError; infer_instance

instance restores_whileOngoing (m : Routine Unit) [RestoresStack m] :
    RestoresStack (whileOngoing m) := by
  unfold whileOngoing; infer_instance

instance restores_atSubsetOffset (offset : Nat) (m : Routine Unit) [RestoresStack m] :
    RestoresStack (atSubsetOffset offset m) := by
  unfold atSubsetOffset; infer_instance

variable (bound : Nat)

instance restores_processIncompleteDoctypePrefix :
    RestoresStack (processIncompleteDoctypePrefix bound input start) := by
  unfold processIncompleteDoctypePrefix; infer_instance

instance restores_parseDoctypeSubset (subsetStart : Nat) :
    RestoresStack (parseDoctypeSubset bound input subsetStart close) := by
  unfold parseDoctypeSubset; infer_instance

instance restores_parseDoctypeBody (nameStart : Nat) :
    RestoresStack (parseDoctypeBody bound input start nameStart i close) := by
  unfold parseDoctypeBody
  repeat' first | infer_instance | apply Obeys.ite | refine Obeys.bind ?_ fun _ ↦ ?_ | split

instance restores_parseDoctype : RestoresStack (parseDoctype bound input start) := by
  unfold parseDoctype; infer_instance

end

end Parser

end Xpact
