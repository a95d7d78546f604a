import Xpact.Parser.Frames

/-!
# Replaying a parse with snapshots

A parent that met an external reference may be reset and made to read its input again, with the
snapshots of its children in place of the children.  No routine sees the resolver or what it was
asked, so the second run issues the commands of the first; and since every merge gives the same
declarations, the two parents agree after every command (`replay_stateAt`).
-/

namespace Xpact

open Library EntityContext Declarations

namespace Parser

/-! ## Children -/

/-- The states that a parser can reach without importing declarations again: by the commands of any
parse, by a reset, and by whatever leaves its declarations as they are. -/
inductive Later (p : Parser) : Parser → Prop where
  | refl : Later p p
  | step (a : Act) {q : Parser} (h : Later p q) : Later p (q.step a)
  | reset {q : Parser} (h : Later p q) : Later p q.reset
  | resume (c : CachedDoctype) {q : Parser} (h : Later p q) : Later p (q.resetCachedDoctypeBody c)
  | merge (child : Declarations) {q : Parser} (h : Later p q) :
      Later p (q.mergeEntityContextFrom child)
  | configure {q q' : Parser} (h : Later p q)
      (hsame : q'.core.declarations = q.core.declarations) : Later p q'

/-- A later state has inherited what the earlier one has. -/
theorem Later.inheritance {p q : Parser} (h : p.Later q) :
    q.core.declarations.inheritance = p.core.declarations.inheritance := by
  induction h with
  | refl => rfl
  | @step a q _ ih => exact (congrArg Settings.inheritance (step_settings a q)).trans ih
  | reset _ ih => exact ih
  | resume c _ ih => exact ih
  | merge child _ ih => exact ih
  | configure _ hsame ih => rw [hsame, ih]

/-- `child` is a parser that was created for an external reference which `parent` met, and that has
parsed since. -/
def IsChild (parent child : Parser) : Prop :=
  ∃ fresh : Parser, (fresh.importEntityContext parent).Later child

theorem IsChild.inheritedContext {parent child : Parser} (h : parent.IsChild child) :
    child.core.declarations.inheritedContext = parent.core.context := by
  obtain ⟨fresh, hlater⟩ := h
  have hinherited := congrArg Inheritance.context hlater.inheritance
  calc child.core.declarations.inheritedContext
    _ = (fresh.importEntityContext parent).core.declarations.inheritedContext :=
      congrArg (fun c : Option EntityContext ↦ c.getD .empty) hinherited
    _ = parent.core.context := inheritedContext_importEntityContext ..

/-! ## The predefined entities -/

theorem hasPredefined_start (entry : Entry) (p : Parser) :
    (p.start entry).core.context.HasPredefined :=
  hasPredefined_reset p.core.declarations

theorem hasPredefined_step (a : Act) (p : Parser) (h : p.core.context.HasPredefined) :
    (p.step a).core.context.HasPredefined :=
  h.mono (step_context_extends a p)

theorem hasPredefined_stateAt (entry : Entry) (bound : Nat) (input : String8) (n : Nat)
    (p : Parser) : (stateAt entry bound input n p).core.context.HasPredefined :=
  machine.execute_invariant hasPredefined_step _ (hasPredefined_start entry p)

/-- A parser that still has the declarations of the reference takes over from a snapshot of the
child what it takes over from the child. -/
theorem merge_child_snapshot {p parent child : Parser} (hp : p.core.context.HasPredefined)
    (hchild : parent.IsChild child)
    (hsame : p.core.declarations = parent.core.declarations) :
    p.core.declarations.mergeEntityContextFrom child.entityContextSnapshot =
      p.core.declarations.mergeEntityContextFrom child.core.declarations := by
  refine merge_snapshot hp ?_
  rw [hchild.inheritedContext, Core.context, hsame]
  exact .refl _

end Parser

/-! ## Resolvers -/

/-- The answer with a snapshot in place of the child. -/
def Resolution.snapshot (r : Resolution) : Resolution :=
  { r with child := r.child.map Declarations.entityContextSnapshot }

namespace Resolver

/-- What the resolver merges is a child that was created for the reference. -/
def Honest (r : Resolver) : Prop :=
  ∀ requests reference declarations, (r requests reference).child = some declarations →
    ∃ parent child : Parser, parent.core.declarations = reference.declarations ∧
      parent.IsChild child ∧ child.core.declarations = declarations

/-- After the requests `second`, `r'` answers as `r` does after `first`, with snapshots. -/
def Replays (r' r : Resolver) (second first : List Reference) : Prop :=
  ∀ requests reference,
    r' (second ++ requests) reference = (r (first ++ requests) reference).snapshot

end Resolver

/-! ## The second run -/

namespace Parser

/-- The parser with another resolver, which has been asked something else. -/
def withResolver (p : Parser) (r : Resolver) (requests : List Reference) : Parser :=
  { p with externalEntityResolver := some r, requests := requests }

section
variable (p : Parser) (r : Resolver) (requests : List Reference)

theorem setError_withResolver (message : String) :
    (p.withResolver r requests).setError message =
      (p.setError message).withResolver r requests := by
  by_cases h : p.core.hasError <;> simp [setError, withResolver, h]

theorem checkHandlerStop_withResolver :
    (p.withResolver r requests).checkHandlerStop =
      p.checkHandlerStop.withResolver r requests := by
  unfold checkHandlerStop
  rw [setError_withResolver, apply_ite (withResolver · r requests),
    apply_ite (withResolver · r requests)]
  rfl

theorem emitText_withResolver (text : String8) :
    (p.withResolver r requests).emitText text = (p.emitText text).withResolver r requests := by
  unfold emitText
  rw [apply_ite (withResolver · r requests), ← checkHandlerStop_withResolver]
  rfl

theorem emitDefault_withResolver (text : String8) :
    (p.withResolver r requests).emitDefault text =
      (p.emitDefault text).withResolver r requests := by
  unfold emitDefault
  rw [apply_ite (withResolver · r requests), ← checkHandlerStop_withResolver]
  rfl

theorem step_requests (a : Act) (h : ∀ request, a ≠ .routine (.resolve request)) :
    (p.step a).requests = p.requests := by
  cases a with
  | routine c =>
    refine stepRoutine_unchanged c p Parser.requests (fun _ ↦ rfl) ?_
    cases c with
    | resolve request => exact absurd rfl (h request)
    | _ => rfl
  | _ => rfl

/-- No command but a request looks at the resolver. -/
theorem step_withResolver (a : Act) (h : ∀ request, a ≠ .routine (.resolve request)) :
    (p.withResolver r requests).step a = (p.step a).withResolver r requests := by
  cases a with
  | routine c =>
    cases c with
    | setError message => exact setError_withResolver p r requests message
    | checkHandlerStop => exact checkHandlerStop_withResolver p r requests
    | emitText text => exact emitText_withResolver p r requests text
    | emitDefault text => exact emitDefault_withResolver p r requests text
    | emitDefaultWhen kind text =>
      simp only [step, stepRoutine]
      rw [apply_ite (withResolver · r requests), ← emitDefault_withResolver]
      rfl
    | noteEntityExpansion count =>
      simp only [step, stepRoutine, noteEntityExpansion]
      rw [apply_ite (withResolver · r requests), ← setError_withResolver]
      rfl
    | resolve request => exact absurd rfl (h request)
    | _ => rfl
  | _ => rfl

end

/-- `q` is at the point of its parse where `p` was, with the resolver `r'` in place of `r`. -/
structure Replaying (r r' : Resolver) (first second : List Reference) (p q : Parser) : Prop where
  resolver : p.externalEntityResolver = some r
  hasPredefined : p.core.context.HasPredefined
  same : ∃ asked, p.requests = first ++ asked ∧ q = p.withResolver r' (second ++ asked)

section

variable {r r' : Resolver} {first second : List Reference} {p q : Parser}

theorem Replaying.scene (h : Replaying r r' first second p q) : p.scene = q.scene := by
  obtain ⟨asked, -, rfl⟩ := h.same
  simp only [Parser.scene, withResolver, h.resolver, Option.isSome_some]

/-- A request gives both parsers the same answer and the same declarations. -/
theorem Replaying.resolve (hhonest : r.Honest) (hreplays : r'.Replays r second first)
    (h : Replaying r r' first second p q) (request : Request) :
    Replaying r r' first second (p.resolve request) (q.resolve request) := by
  obtain ⟨asked, hasked, rfl⟩ := h.same
  have hp : p.resolution request = some (r (first ++ asked) (p.reference request)) := by
    rw [resolution, h.resolver, hasked, Option.map_some]
  have hq : (p.withResolver r' (second ++ asked)).resolution request =
      some (r (first ++ asked) (p.reference request)).snapshot := by
    rw [← hreplays]
    rfl
  have hmore : p.requests ++ [p.reference request] =
      first ++ (asked ++ [p.reference request]) := by
    rw [hasked, List.append_assoc]
  unfold Parser.resolve
  rw [hp, hq]
  have hchild := hhonest (first ++ asked) (p.reference request)
  generalize r (first ++ asked) (p.reference request) = resolution at hchild
  obtain ⟨answer, _ | declarations⟩ := resolution
  · exact ⟨h.resolver, h.hasPredefined, _, hmore, by rw [← List.append_assoc]; rfl⟩
  · obtain ⟨parent, child, hparent, hischild, rfl⟩ := hchild declarations rfl
    have hmerge := merge_child_snapshot h.hasPredefined hischild hparent.symm
    refine ⟨h.resolver, ?_, _, hmore, ?_⟩
    · exact h.hasPredefined.mono (extends_merge p.core.declarations child.core.declarations)
    · rw [← List.append_assoc]
      simp only [Resolution.snapshot, Option.map_some, mergeEntityContextFrom, updateDeclarations,
        noteAnswer, withResolver]
      rw [← hmerge]
      rfl

theorem Replaying.step (hhonest : r.Honest) (hreplays : r'.Replays r second first)
    (h : Replaying r r' first second p q) (a : Act) :
    Replaying r r' first second (p.step a) (q.step a) := by
  by_cases hrequest : ∃ request, a = .routine (.resolve request)
  · obtain ⟨request, rfl⟩ := hrequest
    exact h.resolve hhonest hreplays request
  · have hother : ∀ request, a ≠ .routine (.resolve request) :=
      fun request ha ↦ hrequest ⟨request, ha⟩
    obtain ⟨asked, hasked, rfl⟩ := h.same
    exact ⟨(step_resolver a p).trans h.resolver, hasPredefined_step a p h.hasPredefined, asked,
      (step_requests p a hother).trans hasked, step_withResolver p r' _ a hother⟩

end

section

variable {r r' : Resolver} {p q : Parser} (hr : p.externalEntityResolver = some r)
  (hr' : q.externalEntityResolver = some r') (hsettings : q.settings = p.settings)
include hr hr' hsettings

/-- A reset brings a parser with the same settings to the same start. -/
theorem replaying_start (entry : Entry) :
    Replaying r r' p.requests q.requests (p.start entry) (q.start entry) := by
  refine ⟨hr, hasPredefined_start entry p, [], (List.append_nil _).symm, ?_⟩
  simp only [settings, Settings.mk.injEq, Declarations.inheritance, Inheritance.mk.injEq]
    at hsettings
  obtain ⟨hconfig, hhandler, ⟨hcontext, hdisabled, hstandalone, hactive⟩, hexternal, hutf8⟩ :=
    hsettings
  rw [List.append_nil]
  simp only [start, listen, reset, clearCachedDoctype, withResolver, Declarations.reset,
    installInheritedEntityContext, inheritedContext, hconfig, hhandler, hcontext, hdisabled,
    hstandalone, hactive, hexternal, hutf8, hr']

/-- The second run is at every point where the first one was. -/
theorem replay_stateAt (hhonest : r.Honest) (hreplays : r'.Replays r q.requests p.requests)
    (entry : Entry) (bound : Nat) (input : String8) (n : Nat) :
    Replaying r r' p.requests q.requests (stateAt entry bound input n p)
      (stateAt entry bound input n q) :=
  (Program.trace_related (fun _ _ h ↦ h.scene)
    (fun a _ _ h ↦ h.step hhonest hreplays a) (entry.program bound input)
    (replaying_start hr hr' hsettings entry) n).2

/-- At an external reference that `p` meets in a parse, let `child` be a parser created for it.
Merging the snapshot of the child is merging the child, in `p` itself and in `q`, which is `p` after
a reset and a replay of its input up to the same reference; no lookup that succeeded changes; and
the same snapshot merged again changes nothing. -/
theorem snapshot_replay_eq_child_merge (hhonest : r.Honest)
    (hreplays : r'.Replays r q.requests p.requests) (entry : Entry) (bound : Nat)
    (input : String8) (n : Nat) {child : Parser}
    (hchild : (stateAt entry bound input n p).IsChild child) :
    let atReference := stateAt entry bound input n p
    let merged := atReference.mergeEntityContextFrom child.core.declarations
    let replayed := stateAt entry bound input n q
    let snapshot := child.entityContextSnapshot
    atReference.mergeEntityContextFrom snapshot = merged ∧
      (replayed.mergeEntityContextFrom snapshot).core.declarations = merged.core.declarations ∧
      atReference.core.context.Extends merged.core.context ∧
      (atReference.mergeEntityContextFrom snapshot).mergeEntityContextFrom snapshot =
        atReference.mergeEntityContextFrom snapshot := by
  intro atReference merged replayed snapshot
  have hpredefined := hasPredefined_stateAt entry bound input n p
  have hmerge : atReference.core.declarations.mergeEntityContextFrom snapshot =
      atReference.core.declarations.mergeEntityContextFrom child.core.declarations :=
    merge_child_snapshot hpredefined hchild rfl
  have hreplay : replayed.core.declarations = atReference.core.declarations := by
    obtain ⟨asked, -, hq⟩ :=
      (replay_stateAt hr hr' hsettings hhonest hreplays entry bound input n).same
    have hdeclarations := congrArg (fun p : Parser ↦ p.core.declarations) hq
    exact hdeclarations
  refine ⟨?_, ?_, ?_, ?_⟩
  · simp only [merged, mergeEntityContextFrom, updateDeclarations, hmerge]
  · simp only [merged, mergeEntityContextFrom, updateDeclarations, hreplay, hmerge]
  · exact extends_merge atReference.core.declarations child.core.declarations
  · simp only [mergeEntityContextFrom, updateDeclarations, merge_merge]

end

/-- A resolver that creates a child for every reference and has it parse nothing. -/
def idleChildren : Resolver := fun _ reference ↦
  let parent : Parser := { make {} .observing with
    core := { (make {} .observing).core with declarations := reference.declarations } }
  ⟨⟨some [], true, none, 0⟩,
    some ((make {} .observing).importEntityContext parent).core.declarations, false⟩

theorem idleChildren_honest : idleChildren.Honest := by
  intro requests reference declarations h
  exact ⟨_, _, rfl, ⟨make {} .observing, .refl⟩, Option.some.inj h⟩

theorem idleChildren_replays (second first : List Reference) :
    Resolver.Replays (fun requests reference ↦ (idleChildren requests reference).snapshot)
      idleChildren second first := fun _ _ ↦ rfl

def idleParent : Parser :=
  (make { externalEntityPolicy := .allExternalEntities } .observing).setExternalEntityResolver
    (some idleChildren)

def idleReplay : Parser :=
  (make { externalEntityPolicy := .allExternalEntities } .observing).setExternalEntityResolver
    (some fun requests reference ↦ (idleChildren requests reference).snapshot)

/-- The parent at the request for the external subset of a document. -/
def idleReference (p : Parser) : Parser :=
  stateAt .document 10 (str "<!DOCTYPE a SYSTEM 'x'><a/>") 18 p

def idleChild : Parser :=
  ((make {} .observing).importEntityContext (idleReference idleParent)).step
    (.routine (.putGeneralEntity (str "e") (str "v")))

theorem idleChild_isChild : (idleReference idleParent).IsChild idleChild :=
  ⟨make {} .observing, .step _ .refl⟩

/-- The entity of the child is declared in both parents after the merge, and in neither before. -/
theorem snapshot_replay_eq_child_merge_idle :
    let merged := (idleReference idleParent).mergeEntityContextFrom idleChild.core.declarations
    let replayed :=
      (idleReference idleReplay).mergeEntityContextFrom idleChild.entityContextSnapshot
    replayed.core.declarations = merged.core.declarations ∧
      merged.core.context.entityValue (str "e") = some (str "v") ∧
      replayed.core.context.entityValue (str "e") = some (str "v") ∧
      (idleReference idleParent).core.context.entityValue (str "e") = none := by
  intro merged replayed
  have hparent : idleParent.externalEntityResolver = some idleChildren := rfl
  have hreplay : idleReplay.externalEntityResolver =
      some fun requests reference ↦ (idleChildren requests reference).snapshot := rfl
  have hsettings : idleReplay.settings = idleParent.settings := rfl
  obtain ⟨-, hsame, -⟩ := snapshot_replay_eq_child_merge hparent hreplay hsettings
    idleChildren_honest (idleChildren_replays _ _) .document 10 (str "<!DOCTYPE a SYSTEM 'x'><a/>")
    18 idleChild_isChild
  have hmerged : merged.core.context.entityValue (str "e") = some (str "v") := by
    decide +kernel
  have hreplayed : replayed.core.context.entityValue (str "e") =
      merged.core.context.entityValue (str "e") :=
    congrArg (fun d : Declarations ↦ d.context.entityValue (str "e")) hsame
  exact ⟨hsame, hmerged, hreplayed.trans hmerged, by decide +kernel⟩

end Parser

end Xpact
