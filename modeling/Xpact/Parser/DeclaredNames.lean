import Xpact.Parser.ElementSteps
import Xpact.Parser.Names
import Xpact.Parser.ReportingRoutines

/-!
# Names that are declared and expanded

A routine passes names to the declaration tables and to the entity stack.  A name that is referred to
is tested before; a name that is declared is only scanned, so its characters are those of a name but
nothing bounds its length.
-/

namespace Xpact

open Library Program Routine

-- A routine is one goal of instance search for each of its steps.
set_option synthInstance.maxSize 100000
set_option synthInstance.maxHeartbeats 200000

/-- The names that a command passes to a table or to the entity stack. -/
def Command.names : Command → List String8
  | .pushEntity name => [name]
  | .putGeneralEntity name _ => [name]
  | .putParameterEntity name _ _ => [name]
  | .putExternalEntity e => [e.name]
  | .recordAttributeDecl elementName d => [elementName, d.name]
  | _ => []

/-- The command records a declaration. -/
def Command.isDeclaration : Command → Bool
  | .putGeneralEntity .. | .putParameterEntity .. | .putExternalEntity _ => true
  | .recordAttributeDecl .. => true
  | _ => false

theorem Command.names_of_isReporting {c : Command} (hc : c.isReporting = true) : c.names = [] := by
  cases c <;> first | rfl | cases hc

namespace Parser

/-- A declaration is recorded whose entity, element or attribute name is too long, or the literal of
a new parameter entity with such a name is read, with the name on the stack. -/
def longNameSite : Site Command Sight Parser where
  At {α} m p :=
    (∃ c : Command, ∃ k : Unit → Routine α, m = Program.command c >>= k ∧
      c.isDeclaration = true ∧ ∃ name ∈ c.names, p.config.maxNameLength < name.length) ∨
    ∃ depth subset i close name, ∃ k : Nat × String8 × Int → Routine α,
      m = parseInternalEntityValue depth subset i close name true true >>= k ∧
        p.core.context.isParameterEntityDeclared name = false ∧
        p.config.maxNameLength < name.length
  bind h f := by
    rcases h with ⟨c, k, rfl, hc, hlong⟩ | ⟨depth, subset, i, close, name, k, rfl, hnew, hlong⟩
    · exact .inl ⟨c, fun a ↦ k a >>= f, bind_assoc' _ _ _, hc, hlong⟩
    · exact .inr ⟨depth, subset, i, close, name, fun a ↦ k a >>= f, bind_assoc' _ _ _, hnew, hlong⟩

section

variable (cfg : Config)

/-- The names that the command passes are names for `is_valid_name`. -/
def HasValidNames (c : Command) (_p : Parser) : Prop :=
  ∀ name ∈ c.names, cfg.isValidName name = true

/-- The law of the names that are passed on. -/
abbrev namesLaw : Law routineMachine :=
  Law.safety routineMachine longNameSite (HasValidNames cfg) fun p ↦ p.config = cfg

/-- Unless it records a long name, the routine passes valid names on. -/
abbrev PassesNames (m : Routine α) : Prop := Obeys (namesLaw cfg) m

/-- A value of the routine satisfies `P`, where the configuration is `cfg`. -/
abbrev Returns (P : α → Prop) (m : Routine α) : Prop :=
  m.YieldsFrom routineMachine (fun p : Parser ↦ p.config = cfg) P

end

section

variable {α β : Type} {cfg : Config} {P : α → Prop} {Q : β → Prop}

theorem stepRoutine_config (c : Command) (p : Parser) : (p.stepRoutine c).config = p.config :=
  congrArg Settings.config (stepRoutine_settings c p)

theorem preserves_config (m : Routine α) :
    Preserves routineMachine (fun p : Parser ↦ p.config = cfg) m :=
  Preserves.of_step (fun c p hp ↦ (stepRoutine_config c p).trans hp) m

instance (priority := low) names_of_reporting (m : Routine α) [IsReporting m] : PassesNames cfg m := by
  have hnames : ∀ (c : Command), c.isReporting = true →
      ∀ name ∈ c.names, cfg.isValidName name = true := by
    intro c hc name hname
    rw [Command.names_of_isReporting hc] at hname
    cases hname
  exact Obeys.safety_of_uses
    (fun c p hc hp ↦ ⟨hnames c hc, (stepRoutine_config c p).trans hp⟩) m

instance names_emit (e : Event) (h : e.isStructural = false) : PassesNames cfg (Routine.emit e h) := by
  apply Obeys.bind
  · constructor
    intro p _ hp
    apply Assures.command
    · intro name hname
      cases hname
    · exact hp
  · intro _
    infer_instance

instance names_whileOngoing (m : Routine Unit) [PassesNames cfg m] :
    PassesNames cfg (whileOngoing m) := by
  unfold whileOngoing; infer_instance

instance names_unlessError (m : Routine Unit) [PassesNames cfg m] :
    PassesNames cfg (unlessError m) := by
  unfold unlessError; infer_instance

/-- A valid name may be pushed. -/
theorem names_pushEntity {name : String8} (hname : cfg.isValidName name = true) :
    PassesNames cfg (pushEntity name) := by
  constructor
  intro p _ hp
  apply Assures.command
  · intro other hother
    rw [List.mem_singleton.1 hother]
    exact hname
  · exact (stepRoutine_config _ p).trans hp

instance names_popEntity : PassesNames cfg popEntity := by
  constructor
  intro p _ hp
  apply Assures.command
  · intro name hname
    cases hname
  · exact (stepRoutine_config _ p).trans hp

/-- A declaration passes names on that are valid, or too long. -/
theorem names_declare {c : Command} (hc : c.isDeclaration = true)
    (hnames : ∀ name ∈ c.names, cfg.isNameText name = true) :
    PassesNames cfg (Program.command c) := by
  constructor
  intro p havoids hp
  apply Assures.command
  · intro name hname
    apply Config.isValidName_iff.2
    refine ⟨hnames name hname, Nat.le_of_not_lt fun hlong ↦ ?_⟩
    apply havoids _ _ (.refl _ p)
    refine .inl ⟨c, .done, rfl, hc, name, hname, ?_⟩
    rw [hp]
    exact hlong
  · exact (stepRoutine_config c p).trans hp

/-! ## What routines return -/

theorem returns_sight : Returns cfg (fun s : Sight ↦ s.config = cfg) Routine.sight :=
  YieldsFrom.sight fun _ hp ↦ hp

theorem returns_config : Returns cfg (fun c : Config ↦ c = cfg) Routine.config :=
  YieldsFrom.bind (preserves_config _) returns_sight fun _ hs ↦ Yields.yieldsFrom (Yields.pure hs)

theorem returns_failAt {message : String} {a : α} (ha : P a) : Returns cfg P (failAt message a) :=
  Yields.yieldsFrom (Yields.of_bind fun _ ↦ Yields.pure ha)

theorem returns_bind {m : Routine α} {f : α → Routine β} (hm : Returns cfg P m)
    (hf : ∀ a, P a → Returns cfg Q (f a)) : Returns cfg Q (m >>= f) :=
  YieldsFrom.bind (preserves_config m) hm hf

theorem returns_of_bind {m : Routine α} {f : α → Routine β} (hf : ∀ a, Returns cfg Q (f a)) :
    Returns cfg Q (m >>= f) := YieldsFrom.of_bind (preserves_config m) hf

theorem returns_pure {a : α} (ha : P a) : Returns cfg P (pure a) :=
  Yields.yieldsFrom (Yields.pure ha)

/-- The rest may use that a routine sees the configuration. -/
theorem names_sight_bind {f : Sight → Routine α}
    (hf : ∀ s, s.config = cfg → PassesNames cfg (f s)) : PassesNames cfg (Routine.sight >>= f) :=
  Obeys.bind_yieldsFrom inferInstance returns_sight hf

theorem names_config_bind {f : Config → Routine α} (hf : PassesNames cfg (f cfg)) :
    PassesNames cfg (Routine.config >>= f) := by
  apply Obeys.bind_yieldsFrom inferInstance returns_config
  rintro c rfl
  exact hf

end

/-! ## References -/

section

variable {α : Type} {cfg : Config} (input subset text name : String8) (start stop close i : Nat)

theorem isValidName_of_single {value next : String8} {marker : Character8}
    (h : singleEntityReferenceName cfg value marker = some next) : cfg.isValidName next = true := by
  unfold singleEntityReferenceName at h
  dsimp only at h
  split at h
  · rename_i hcond
    obtain rfl := Option.some.inj h
    exact hcond.2.2.2
  · cases h

theorem isValidName_of_nextGeneralAlias {c : EntityContext} {value next : String8}
    (h : nextGeneralAlias cfg c name = some (value, next)) : cfg.isValidName next = true := by
  unfold nextGeneralAlias at h
  split at h
  · split at h
    · rename_i hsingle
      split at h
      · obtain ⟨rfl, rfl⟩ := Prod.mk.inj (Option.some.inj h)
        exact isValidName_of_single hsingle
      · cases h
    · cases h
  · cases h

theorem isValidName_of_nextParameterAlias {c : EntityContext} {next : String8}
    (h : nextParameterAlias cfg c name = some next) : cfg.isValidName next = true := by
  unfold nextParameterAlias at h
  split at h
  · split at h
    · rename_i hsingle
      split at h
      · obtain rfl := Option.some.inj h
        exact isValidName_of_single hsingle
      · cases h
    · cases h
  · cases h

/-- A walk along aliases stays at valid names. -/
theorem returns_resolvedGeneralEntityName (hname : cfg.isValidName name = true) :
    Returns cfg (fun result : String8 ↦ cfg.isValidName result = true)
      (resolvedGeneralEntityName name) := by
  unfold resolvedGeneralEntityName
  apply returns_of_bind
  intro c
  refine returns_bind (P := fun w : AliasWalk ↦ cfg.isValidName w.name = true) ?_
    fun w hw ↦ returns_pure hw
  apply YieldsFrom.loop (fun _ ↦ preserves_config _) (fun _ ↦ preserves_config _)
  · intro w hw
    unfold resolvedGeneralEntityNameStep
    apply returns_bind returns_sight
    intro s hs
    dsimp only
    split
    · exact returns_failAt hw
    split
    · exact returns_failAt hw
    split
    · rename_i value next hnext
      apply returns_of_bind
      intro _
      rw [hs] at hnext
      exact returns_pure (isValidName_of_nextGeneralAlias _ hnext)
    · exact returns_pure hw
  · exact hname

section Literal

variable (expandLiteralText : String8 → Routine String8)
  [hexpand : ∀ text, PassesNames cfg (expandLiteralText text)]

include hexpand

theorem names_includeGeneralEntityInLiteral (hname : cfg.isValidName name = true) :
    PassesNames cfg (includeGeneralEntityInLiteral expandLiteralText name) := by
  unfold includeGeneralEntityInLiteral
  apply Obeys.bind_yieldsFrom inferInstance (returns_resolvedGeneralEntityName name hname)
  intro name hname
  have hpush : PassesNames cfg (pushEntity name) := names_pushEntity hname
  apply Obeys.bind inferInstance
  intro s
  apply Obeys.ite inferInstance
  apply Obeys.ite inferInstance
  apply Obeys.ite inferInstance
  split <;> infer_instance

instance names_appendReferenceInLiteral :
    PassesNames cfg (appendReferenceInLiteral expandLiteralText input start) := by
  unfold appendReferenceInLiteral
  apply Obeys.ite inferInstance
  apply Obeys.ite inferInstance
  apply Obeys.ite inferInstance
  apply names_config_bind
  split
  · infer_instance
  · rename_i hvalid
    rw [Bool.not_eq_true', Bool.not_eq_false] at hvalid
    have hinclude := names_includeGeneralEntityInLiteral _ expandLiteralText hvalid
    infer_instance

instance names_expandLiteralTextStep (t : Nat × String8) :
    PassesNames cfg (expandLiteralTextStep expandLiteralText text t) := by
  unfold expandLiteralTextStep; infer_instance

end Literal

instance names_expandLiteralText (depth : Nat) : PassesNames cfg (expandLiteralText depth text) := by
  induction depth generalizing text with
  | zero => exact obeys_stuck _
  | succ depth ih =>
    unfold expandLiteralText
    infer_instance

/-! ## Entity values -/

section EntityValue

variable (appendParameterEntityLiteral : String8 → Routine String8)
  (happend : ∀ name, cfg.isValidName name = true → PassesNames cfg (appendParameterEntityLiteral name))

include happend

theorem names_appendParameterReferenceInEntityValue :
    PassesNames cfg
      (appendParameterReferenceInEntityValue appendParameterEntityLiteral input start) := by
  unfold appendParameterReferenceInEntityValue
  apply names_sight_bind
  rintro s hs
  rw [hs]
  apply Obeys.ite inferInstance
  split
  · infer_instance
  · rename_i hvalid
    rw [Bool.not_eq_true', Bool.not_eq_false] at hvalid
    have hliteral := happend _ hvalid
    apply Obeys.ite inferInstance
    apply Obeys.ite inferInstance
    split <;> infer_instance

theorem names_appendParameterTextStep (t : Nat × String8) :
    PassesNames cfg (appendParameterTextStep appendParameterEntityLiteral text t) := by
  have hreference (i : Nat) :=
    names_appendParameterReferenceInEntityValue text i appendParameterEntityLiteral happend
  unfold appendParameterTextStep
  infer_instance

theorem names_appendParameterEntityLiteralStep (t : AliasWalk × String8)
    (ht : cfg.isValidName t.1.name = true) :
    PassesNames cfg (appendParameterEntityLiteralStep appendParameterEntityLiteral t) := by
  obtain ⟨w, out⟩ := t
  have hpush : PassesNames cfg (pushEntity w.name) := names_pushEntity ht
  have hstep (text : String8) (t : Nat × String8) :=
    names_appendParameterTextStep text appendParameterEntityLiteral happend t
  unfold appendParameterEntityLiteralStep
  apply Obeys.bind inferInstance
  intro s
  apply Obeys.ite inferInstance
  split
  · infer_instance
  · apply Obeys.bind inferInstance
    intro _
    apply Obeys.bind inferInstance
    intro failed
    apply Obeys.ite inferInstance
    split <;> infer_instance

omit happend in
/-- The walk to the last link of a chain stays at valid names. -/
theorem returns_appendParameterEntityLiteralStep (t : AliasWalk × String8)
    (ht : cfg.isValidName t.1.name = true) :
    Returns cfg (fun t : AliasWalk × String8 ↦ cfg.isValidName t.1.name = true)
      (appendParameterEntityLiteralStep appendParameterEntityLiteral t) := by
  obtain ⟨w, out⟩ := t
  unfold appendParameterEntityLiteralStep
  apply returns_bind returns_sight
  intro s hs
  dsimp only
  split
  · exact returns_failAt ht
  split
  · exact returns_failAt ht
  · apply returns_of_bind
    intro _
    apply returns_of_bind
    intro failed
    split
    · exact returns_pure ht
    split
    · rename_i next hnext
      rw [hs] at hnext
      exact returns_pure (isValidName_of_nextParameterAlias _ hnext)
    split
    · exact returns_failAt ht
    · apply returns_of_bind
      intro _
      apply returns_of_bind
      intro r
      apply returns_of_bind
      intro _
      exact returns_pure ht

end EntityValue

theorem names_appendParameterEntityLiteral (depth : Nat) (hname : cfg.isValidName name = true) :
    PassesNames cfg (appendParameterEntityLiteral depth name) := by
  induction depth generalizing name with
  | zero => exact obeys_stuck _
  | succ depth ih =>
    unfold appendParameterEntityLiteral
    apply Obeys.bind inferInstance
    intro before
    apply Obeys.bind
    · apply Obeys.loop_yieldsFrom (K := fun t : AliasWalk × String8 ↦ cfg.isValidName t.1.name = true)
      · intro t _
        infer_instance
      · exact names_appendParameterEntityLiteralStep _ ih
      · exact returns_appendParameterEntityLiteralStep _
      · exact hname
    · intro r
      infer_instance

instance names_literalReference (depth : Nat) :
    PassesNames cfg
      (appendParameterReferenceInEntityValue (appendParameterEntityLiteral depth) input start) :=
  names_appendParameterReferenceInEntityValue _ _ _ fun name hname ↦
    names_appendParameterEntityLiteral name depth hname

instance names_parseEntityLiteralStep (depth : Nat) (t : Nat × String8) :
    PassesNames cfg (parseEntityLiteralStep depth input t) := by
  unfold parseEntityLiteralStep; infer_instance

instance names_parseEntityLiteral (depth : Nat) (quote : Character8) :
    PassesNames cfg (parseEntityLiteral depth input start quote) := by
  unfold parseEntityLiteral
  apply Obeys.bind inferInstance
  intro _
  apply Obeys.bind inferInstance
  intro r
  apply Obeys.bind inferInstance
  intro failed
  apply Obeys.ite inferInstance
  apply Obeys.bind inferInstance
  intro f
  apply Obeys.ite _ inferInstance
  split <;> infer_instance

/-! ## Declarations -/

section

variable (depth : Nat) (isParameter isProcessed : Bool)

instance names_attlistDefaultValueStep (t : Nat × String8) :
    PassesNames cfg (attlistDefaultValueStep depth subset stop t) := by
  unfold attlistDefaultValueStep; infer_instance

instance names_parseAttlistDefaultValue :
    PassesNames cfg (parseAttlistDefaultValue depth subset start stop) := by
  unfold parseAttlistDefaultValue; infer_instance

instance names_parseAttlistDefault : PassesNames cfg (parseAttlistDefault depth subset i close) := by
  unfold parseAttlistDefault; infer_instance

/-- The literal of a new parameter entity is read while its name is on the stack; the name is valid,
or too long. -/
theorem names_parseInternalEntityValue (hname : cfg.isNameText name = true) :
    PassesNames cfg
      (parseInternalEntityValue depth subset i close name isParameter isProcessed) := by
  constructor
  intro p
  by_cases hsite : longNameSite.At
      (parseInternalEntityValue depth subset i close name isParameter isProcessed) p
  · intro havoids
    exact absurd hsite (havoids _ _ (.refl _ p))
  · apply Law.safety_of_holds
    intro hp
    apply (namesLaw cfg).bind (Obeys.holds p)
    intro _ q hrun
    obtain ⟨-, rfl⟩ := Prod.mk.inj (Option.some.inj hrun)
    apply (namesLaw cfg).read_bind rfl rfl
    dsimp only
    split
    · exact Obeys.holds _
    split
    · rename_i hprocessed hnew
      rw [Bool.and_eq_true, Bool.not_eq_true'] at hnew
      rw [Bool.not_eq_true', Bool.not_eq_false] at hprocessed
      obtain ⟨rfl, hnew⟩ := hnew
      have hshort : name.length ≤ cfg.maxNameLength := by
        apply Nat.le_of_not_lt
        intro hlong
        rw [← hp] at hlong
        rw [hprocessed] at hsite
        exact hsite (.inr ⟨depth, subset, i, close, name, .done, (bind_done _).symm, hnew, hlong⟩)
      have hpush : PassesNames cfg (pushEntity name) :=
        names_pushEntity (Config.isValidName_iff.2 ⟨hname, hshort⟩)
      exact Obeys.holds _
    · exact Obeys.holds _

theorem names_parseInternalEntityDeclaration (nameStart nameEnd literalStart : Nat)
    (hname : cfg.isNameText name = true) :
    PassesNames cfg (parseInternalEntityDeclaration depth subset start nameStart nameEnd
      literalStart close name isParameter isProcessed) := by
  have hvalue (i : Nat) := names_parseInternalEntityValue subset name close i depth isParameter
    isProcessed hname
  have hparameter (value : String8) (count : Int) :
      PassesNames cfg (Program.command (.putParameterEntity name value count)) :=
    names_declare rfl fun other hother ↦ by rw [List.mem_singleton.1 hother]; exact hname
  have hgeneral (value : String8) :
      PassesNames cfg (Program.command (.putGeneralEntity name value)) :=
    names_declare rfl fun other hother ↦ by rw [List.mem_singleton.1 hother]; exact hname
  unfold parseInternalEntityDeclaration
  infer_instance

theorem names_parseExternalEntityDeclaration (hname : cfg.isNameText name = true) :
    PassesNames cfg (parseExternalEntityDeclaration subset start close name isParameter) := by
  have hexternal (publicId systemId notationName : String8) (isUnparsed : Bool) :
      PassesNames cfg (Program.command (.putExternalEntity
        ⟨name, publicId, systemId, notationName, isParameter, isUnparsed, none⟩)) :=
    names_declare rfl fun other hother ↦ by rw [List.mem_singleton.1 hother]; exact hname
  unfold parseExternalEntityDeclaration
  infer_instance

end

end

/-! ## Declared names -/

section

variable {α : Type} {cfg : Config} {T : Prop}

/-- What holds unless there is an error goes on to hold unless there is one. -/
instance keeps_unlessError (m : Routine α) :
    Keeps routineMachine (fun p : Parser ↦ p.core.hasError = true ∨ T) m := by
  constructor
  intro p a q hp hrun
  rcases hp with hp | hT
  · apply Or.inl
    cases hq : q.core.hasError with
    | true => rfl
    | false => exact absurd (hp.symm.trans (no_error_of_routine hrun hq)) (by decide)
  · exact .inr hT

/-- Where there is no error, it holds. -/
theorem names_unless_error {m n : Routine α} (hm : PassesNames cfg m) (hn : T → PassesNames cfg n) :
    ObeysFrom (namesLaw cfg) (fun p : Parser ↦ p.core.hasError = true ∨ T)
      (Routine.hasError >>= fun failed ↦ if failed then m else n) := by
  constructor
  intro p hp
  apply (namesLaw cfg).read_bind rfl rfl
  show (namesLaw cfg).Holds (if p.core.hasError then m else n) p
  split
  · exact hm.holds p
  · rename_i herror
    exact (hn (hp.resolve_left herror)).holds p

/-- After a scan there is an error, or a name was scanned. -/
theorem names_scanName_bind {input : String8} {start : Nat} {f : Nat → Routine α}
    (hf : ∀ stop, ObeysFrom (namesLaw cfg) (fun p : Parser ↦ p.core.hasError = true ∨
      scanNameFrom cfg input start (input.length + 1) start = (stop, false)) (f stop)) :
    PassesNames cfg (scanName input start >>= f) := by
  constructor
  intro p
  apply Law.safety_of_holds
  intro hp
  apply (namesLaw cfg).bind (Obeys.holds p)
  intro stop q hrun
  apply (hf stop).holds q
  rw [run_scanName, hp] at hrun
  obtain ⟨rfl, rfl⟩ := Prod.mk.inj (Option.some.inj hrun)
  split
  · exact .inl (setError_hasError p _)
  · rename_i hscan
    exact .inr (Prod.ext rfl (Bool.eq_false_iff.2 hscan))

theorem yields_skipRequiredSpaces (input : String8) {start : Nat} (message : String)
    (hstart : 1 ≤ start) : (skipRequiredSpaces input start message).Yields fun i ↦ 1 ≤ i := by
  unfold skipRequiredSpaces
  split
  · exact Yields.pure (Nat.le_trans hstart (Nat.le_add_right start _))
  · exact Yields.of_bind fun _ ↦ Yields.pure hstart

variable (subset : String8) (depth start close i : Nat)

/-- The name of an entity declaration is followed by a test for errors. -/
instance names_parseEntityDeclaration : PassesNames cfg (parseEntityDeclaration depth subset start) := by
  unfold parseEntityDeclaration
  apply Obeys.bind inferInstance
  intro s
  apply Obeys.ite_of (fun _ ↦ inferInstance)
  intro hclose
  obtain ⟨hin, hat⟩ := findMarkupDeclarationEnd_spec rfl hclose
  generalize findMarkupDeclarationEnd subset start = close at hin hat ⊢
  apply Obeys.bind_yieldsFrom inferInstance (yields_skipRequiredSpaces _ _ (by omega)).yieldsFrom
  intro i hi
  apply Obeys.bind inferInstance
  intro failed
  apply Obeys.ite
  all_goals
    refine Obeys.bind_yieldsFrom (P := fun i : Nat ↦ 1 ≤ i) inferInstance ?_ fun i hi ↦ ?_
    · first
        | exact (yields_skipRequiredSpaces _ _ (by omega)).yieldsFrom
        | exact returns_pure (by omega)
    apply Obeys.bind inferInstance
    intro failed
    apply Obeys.ite_of (fun _ ↦ inferInstance)
    intro hstart
    rw [Bool.or_eq_true, Bool.or_eq_true, not_or, not_or, decide_eq_true_eq, Bool.not_eq_true',
      Bool.not_eq_false] at hstart
    obtain ⟨⟨-, hbefore⟩, hfirst⟩ := hstart
    apply names_scanName_bind
    intro stop
    have hnamed (hscan : scanNameFrom cfg subset i (subset.length + 1) i = (stop, false)) :
        cfg.isNameText (subset.substring i (stop - 1)) = true :=
      (isNameText_of_scan_before hi hfirst hscan (Nat.lt_of_not_le hbefore) hin
        (endsName_of_code hin hat) (by omega)).2.2.2
    -- The last test for errors stands before the declaration is read on.
    repeat' first
      | refine names_unless_error inferInstance fun hscan ↦ ?_
      | apply ObeysFrom.ite
      | refine ObeysFrom.bind inferInstance inferInstance fun _ ↦ ?_
    all_goals
      have hinternal (nameStart nameEnd literalStart : Nat) (isParameter isProcessed : Bool) :=
        names_parseInternalEntityDeclaration subset _ start close depth isParameter isProcessed
          nameStart nameEnd literalStart (hnamed hscan)
      have hexternal (next : Nat) (isParameter : Bool) :=
        names_parseExternalEntityDeclaration subset _ next close isParameter (hnamed hscan)
      infer_instance

/-- A definition is recorded under a name that was scanned without an error. -/
theorem names_parseAttlistDefinition (elementName : String8)
    (helement : cfg.isNameText elementName = true) (hi : 1 ≤ i) (hin : close ≤ subset.length)
    (hat : subset.code close = 62) :
    PassesNames cfg (parseAttlistDefinition depth subset elementName close i) := by
  unfold parseAttlistDefinition
  apply Obeys.ite_of (fun _ ↦ inferInstance)
  intro hclose
  apply Obeys.ite inferInstance
  apply Obeys.ite_of (fun _ ↦ inferInstance)
  intro hfirst
  rw [Bool.not_eq_true', Bool.not_eq_false] at hfirst
  have hstart : 1 ≤ min (skipSpaces subset i) close := by
    have hskip : i ≤ skipSpaces subset i := Nat.le_add_right i _
    omega
  generalize min (skipSpaces subset i) close = nameStart at hclose hfirst hstart ⊢
  apply names_scanName_bind
  intro stop
  apply names_unless_error inferInstance
  intro hscan
  obtain ⟨-, hle, -, hname⟩ := isNameText_of_scan_before hstart hfirst hscan (Nat.lt_of_not_le hclose)
    hin (endsName_of_code hin hat) (by omega)
  rw [Nat.min_eq_left hle]
  have hrecord (attributeType : String8) (defaultValue : Option String8) (isRequired : Bool) :
      PassesNames cfg (Program.command (.recordAttributeDecl elementName
        ⟨subset.substring nameStart (stop - 1), attributeType, defaultValue, isRequired⟩)) := by
    apply names_declare rfl
    intro name hmem
    rcases List.mem_cons.1 hmem with rfl | hmem
    · exact helement
    · rw [List.mem_singleton.1 hmem]
      exact hname
  infer_instance

theorem yields_parseAttlistDefinition (elementName : String8) (hi : 1 ≤ i) (hclose : 1 ≤ close) :
    (parseAttlistDefinition depth subset elementName close i).Yields fun i ↦ 1 ≤ i := by
  have hresult (j : Nat) : 1 ≤ if i < j ∧ j ≤ close then j else i := by
    split <;> omega
  unfold parseAttlistDefinition
  repeat' first
    | exact Yields.pure hclose
    | exact Yields.pure (hresult _)
    | apply Yields.ite <;> intro _
    | refine Yields.of_bind fun _ ↦ ?_

/-- A loop that an error ends. -/
theorem names_loop_unless_error {β : Type} {finished : β → Routine Bool} {body : β → Routine β}
    {n : Nat} {c : β} [∀ c, PassesNames cfg (finished c)]
    (hfinished : ∀ p : Parser, p.core.hasError = true →
      (finished c).run routineMachine p = some (true, p))
    (hloop : T → PassesNames cfg (Program.loop finished body n c)) :
    ObeysFrom (namesLaw cfg) (fun p : Parser ↦ p.core.hasError = true ∨ T)
      (Program.loop finished body n c) := by
  constructor
  intro p hp
  rcases hp with hp | hT
  · cases n with
    | zero => exact (namesLaw cfg).stuck p
    | succ n =>
      apply (namesLaw cfg).bind (Obeys.holds p)
      intro b q hrun
      rw [hfinished p hp] at hrun
      obtain ⟨rfl, rfl⟩ := Prod.mk.inj (Option.some.inj hrun)
      exact (namesLaw cfg).done c p
  · exact (hloop hT).holds p

instance names_parseAttlistDeclaration :
    PassesNames cfg (parseAttlistDeclaration depth subset start) := by
  unfold parseAttlistDeclaration
  apply Obeys.ite_of (fun _ ↦ inferInstance)
  intro hclose
  obtain ⟨hin, hat⟩ := findMarkupDeclarationEnd_spec rfl hclose
  generalize findMarkupDeclarationEnd subset start = close at hclose hin hat ⊢
  apply Obeys.bind inferInstance
  intro skipped
  apply Obeys.ite inferInstance
  apply Obeys.bind_yieldsFrom inferInstance (yields_skipRequiredSpaces _ _ (by omega)).yieldsFrom
  intro i hi
  apply Obeys.bind inferInstance
  intro failed
  apply Obeys.ite_of (fun _ ↦ inferInstance)
  intro hstart
  rw [Bool.or_eq_true, Bool.or_eq_true, not_or, not_or, decide_eq_true_eq, Bool.not_eq_true',
    Bool.not_eq_false] at hstart
  obtain ⟨⟨-, hbefore⟩, hfirst⟩ := hstart
  apply names_scanName_bind
  intro stop
  refine ObeysFrom.bind ?_ inferInstance fun _ ↦ inferInstance
  apply names_loop_unless_error
  · intro p hp
    show some (!(!p.core.hasError && !p.core.isSuspended) || _, p) = some (true, p)
    rw [hp]
    rfl
  · intro hscan
    obtain ⟨hstop, hle, -, hname⟩ := isNameText_of_scan_before hi hfirst hscan
      (Nat.lt_of_not_le hbefore) hin (endsName_of_code hin hat) (by omega)
    rw [Nat.min_eq_left hle]
    apply Obeys.loop_yieldsFrom (K := fun i : Nat ↦ 1 ≤ i) (fun _ _ ↦ inferInstance)
    · intro i hi
      exact names_parseAttlistDefinition subset depth close i _ hname hi hin hat
    · intro i hi
      exact (yields_parseAttlistDefinition subset depth close i _ hi (by omega)).yieldsFrom
    · exact Nat.le_trans hi (Nat.le_of_lt hstop)

/-! ## Subsets -/

/-- A parameter entity is replaced inside a declaration under a name that was tested. -/
theorem names_expandedDtdParameterValue (name : String8) (hname : cfg.isValidName name = true) :
    PassesNames cfg (expandedDtdParameterValue depth name) := by
  induction depth generalizing name with
  | zero => exact obeys_stuck _
  | succ depth ih =>
    have hpush : PassesNames cfg (pushEntity name) := names_pushEntity hname
    have hcopy (text : String8) (k : ParameterCopy) :
        PassesNames cfg (parameterCopyStep (expandedDtdParameterValue depth) text k) := by
      unfold parameterCopyStep
      dsimp only
      split
      · infer_instance
      apply Obeys.ite inferInstance
      apply Obeys.ite _ inferInstance
      apply Obeys.ite inferInstance
      apply names_config_bind
      apply Obeys.ite_of (fun _ ↦ inferInstance)
      intro hvalid
      rw [Bool.not_eq_true', Bool.not_eq_false] at hvalid
      have hnested := ih _ hvalid
      infer_instance
    unfold expandedDtdParameterValue
    apply Obeys.bind inferInstance
    intro text
    split <;> infer_instance

instance names_dtdSubsetWithParameterReference (reference : Nat) :
    PassesNames cfg (dtdSubsetWithParameterReference depth subset reference) := by
  unfold dtdSubsetWithParameterReference
  apply names_sight_bind
  intro s hs
  rw [hs]
  apply Obeys.ite inferInstance
  apply Obeys.ite inferInstance
  apply Obeys.ite_of (fun _ ↦ inferInstance)
  intro hvalid
  rw [Bool.not_eq_true', Bool.not_eq_false] at hvalid
  apply Obeys.bind (names_expandedDtdParameterValue depth _ hvalid)
  intro value
  split <;> infer_instance

section Subset

variable (processInternalSubset : String8 → Routine Unit)
  [hprocess : ∀ subset, PassesNames cfg (processInternalSubset subset)]

instance names_restoringBase (m : Routine Unit) [PassesNames cfg m] :
    PassesNames cfg (restoringBase m) := by
  unfold restoringBase; infer_instance

include hprocess

instance names_processExternalText (text : String8) (answer : Answer) :
    PassesNames cfg (processExternalText processInternalSubset text answer) := by
  unfold processExternalText; infer_instance

instance names_includeExternalParameterEntityInSubset (e : ExternalEntity) :
    PassesNames cfg (includeExternalParameterEntityInSubset processInternalSubset e) := by
  unfold includeExternalParameterEntityInSubset unlessError
  refine @names_restoringBase _ _ ?_
  repeat' first | infer_instance | apply Obeys.ite | refine Obeys.bind ?_ fun _ ↦ ?_ | split

instance names_includeParameterEntityInSubset :
    PassesNames cfg (includeParameterEntityInSubset processInternalSubset subset start) := by
  unfold includeParameterEntityInSubset
  apply Obeys.bind inferInstance
  intro _
  apply Obeys.ite inferInstance
  apply Obeys.bind inferInstance
  intro c
  -- The name is resolved when it is valid, and left as written otherwise.
  apply Obeys.ite
  all_goals
    apply Obeys.bind inferInstance
    intro name
    apply names_sight_bind
    intro s hs
    rw [hs]
    apply Obeys.ite_of (fun _ ↦ inferInstance)
    intro hvalid
    rw [Bool.not_eq_true', Bool.not_eq_false] at hvalid
    have hpush : PassesNames cfg (pushEntity name) := names_pushEntity hvalid
    have hinclude (value : String8) : PassesNames cfg
        (includeInternalParameterEntity processInternalSubset name value start) := by
      unfold includeInternalParameterEntity
      infer_instance
    apply Obeys.ite inferInstance
    apply Obeys.ite inferInstance
    apply Obeys.ite inferInstance
    split <;> infer_instance

instance names_conditionalStatusStep (t : Nat × String8) :
    PassesNames cfg (conditionalStatusStep depth subset t) := by
  unfold conditionalStatusStep; infer_instance

instance names_parseConditionalSection :
    PassesNames cfg (parseConditionalSection depth processInternalSubset subset start) := by
  unfold parseConditionalSection; infer_instance

instance names_processSubsetToken (allowTextDeclaration : Bool) :
    PassesNames cfg
      (processSubsetToken depth processInternalSubset allowTextDeclaration subset i) := by
  unfold processSubsetToken; infer_instance

instance names_processSubsetStep (allowTextDeclaration : Bool) (s : SubsetScan) :
    PassesNames cfg (processSubsetStep depth processInternalSubset allowTextDeclaration s) := by
  unfold processSubsetStep
  repeat' first | infer_instance | apply Obeys.ite | refine Obeys.bind ?_ fun _ ↦ ?_ | split

end Subset

instance names_processDtdSubset (bound : Nat) (allowTextDeclaration : Bool) :
    PassesNames cfg (processDtdSubset bound subset allowTextDeclaration) := by
  induction bound generalizing subset allowTextDeclaration with
  | zero => exact obeys_stuck _
  | succ bound ih =>
    unfold processDtdSubset
    infer_instance

end

end Parser

end Xpact
