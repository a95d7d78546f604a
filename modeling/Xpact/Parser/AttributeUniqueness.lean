import Mathlib.Data.List.TakeWhile
import Xpact.Parser.Entry

/-!
# Uniqueness of expanded attribute names

`expandedAttributes` compares the names that it reports: the namespace URI, the separator, the local
name and, when triplets are returned, the prefix.  Two attributes with one URI and one local name are
reported under different names when triplets are returned, and two others may be reported under one
name when the separator is no separator for them (`expandedAttributes_reports_duplicate`).
-/

namespace Xpact

open Library Program

/-! ## Qualified names -/

theorem String8.substring_one {s : String8} {j : Nat} (hj : j ≤ s.length) :
    s.substring 1 j = s.take j := by
  unfold String8.substring
  by_cases hpos : 1 ≤ j
  · rw [if_pos ⟨Nat.le_refl 1, hpos, hj⟩]
    rfl
  · rw [if_neg fun h ↦ hpos h.2.1, show j = 0 by omega]
    rfl

theorem String8.substring_length (s : String8) {i : Nat} (hi : 1 ≤ i) :
    s.substring i s.length = s.drop (i - 1) := by
  unfold String8.substring
  by_cases hle : i ≤ s.length
  · rw [if_pos ⟨hi, hle, Nat.le_refl _⟩, List.take_of_length_le]
    rw [List.length_drop]
    omega
  · rw [if_neg fun h ↦ hle h.2.1, List.drop_of_length_le (by omega)]

/-- The part of a name before its first colon. -/
def namePrefix (name : String8) : String8 := name.substring 1 (name.indexOf ':' 1 - 1)

/-- The part of a name behind its first colon. -/
def localPart (name : String8) : String8 := name.substring (name.indexOf ':' 1 + 1) name.length

/-- A name with a colon is divided by the first one. -/
theorem name_of_colon {name : String8} (h : name.indexOf ':' 1 ≠ 0) :
    name = namePrefix name ++ (':' : Character8) :: localPart name ∧
      (':' : Character8) ∉ namePrefix name := by
  unfold namePrefix localPart
  unfold String8.indexOf at h ⊢
  rw [Nat.sub_self, List.drop_zero] at h ⊢
  cases hfind : name.findIdx? (· == (':' : Character8)) with
  | none =>
    rw [hfind] at h
    exact absurd rfl h
  | some k =>
    obtain ⟨hk, hcolon, hbefore⟩ := List.findIdx?_eq_some_iff_getElem.1 hfind
    dsimp only
    rw [String8.substring_one (by omega), String8.substring_length name (by omega)]
    rw [show 1 + k - 1 = k by omega, show 1 + k + 1 - 1 = k + 1 by omega]
    rw [beq_iff_eq] at hcolon
    constructor
    · rw [← hcolon, List.getElem_cons_drop, List.take_append_drop]
    · intro hmem
      obtain ⟨i, hi, hmem⟩ := List.getElem_of_mem hmem
      rw [List.getElem_take] at hmem
      rw [List.length_take] at hi
      exact hbefore i (by omega) (by rw [hmem]; rfl)

/-! ## What a name stands for -/

/-- A namespace URI, or none, and a local name. -/
structure ExpandedName where
  uri : Option String8
  localName : String8
  deriving DecidableEq

/-- What the name of an attribute stands for: nothing when its prefix is not bound, and no namespace
when it has none. -/
def attributeIdentity (scope : NamespaceScope) (name : String8) : Option ExpandedName :=
  if name.indexOf ':' 1 = 0 then some ⟨none, name⟩
  else (boundUri scope (namePrefix name)).map fun uri ↦ ⟨some uri, localPart name⟩

section

variable {cfg : Config} {scope : NamespaceScope} {name : String8} {uri localName : String8}

theorem expandAttributeName_of_unbound (h : attributeIdentity scope name = none) :
    expandAttributeName cfg name scope = .error "unbound namespace prefix" := by
  unfold attributeIdentity at h
  unfold expandAttributeName
  split at h
  · exact nomatch h
  · rename_i hcolon
    rw [Option.map_eq_none_iff, namePrefix] at h
    dsimp only
    rw [if_neg hcolon, h]

theorem expandAttributeName_of_plain (cfg : Config)
    (h : attributeIdentity scope name = some ⟨none, localName⟩) :
    expandAttributeName cfg name scope = .ok name ∧ name.indexOf ':' 1 = 0 ∧ localName = name := by
  unfold attributeIdentity at h
  split at h
  · rename_i hcolon
    unfold expandAttributeName
    dsimp only
    rw [if_pos hcolon]
    cases h
    exact ⟨rfl, hcolon, rfl⟩
  · rw [Option.map_eq_some_iff] at h
    obtain ⟨uri, -, h⟩ := h
    exact nomatch h

theorem expandAttributeName_of_prefixed (cfg : Config)
    (h : attributeIdentity scope name = some ⟨some uri, localName⟩) :
    expandAttributeName cfg name scope =
        .ok (expandedNamespaceName cfg uri localName (namePrefix name)) ∧
      name.indexOf ':' 1 ≠ 0 ∧ localName = localPart name := by
  unfold attributeIdentity at h
  split at h
  · exact nomatch h
  · rename_i hcolon
    rw [Option.map_eq_some_iff] at h
    obtain ⟨uri', huri, h⟩ := h
    cases h
    unfold namePrefix at huri
    unfold expandAttributeName
    dsimp only
    rw [if_neg hcolon, huri]
    exact ⟨rfl, hcolon, rfl⟩

theorem expandAttributeName_of_bound (cfg : Config)
    (h : (attributeIdentity scope name).isSome = true) :
    ∃ expanded, expandAttributeName cfg name scope = .ok expanded := by
  obtain ⟨⟨uri, localName⟩, hname⟩ := Option.isSome_iff_exists.1 h
  cases uri with
  | none => exact ⟨_, (expandAttributeName_of_plain cfg hname).1⟩
  | some uri => exact ⟨_, (expandAttributeName_of_prefixed cfg hname).1⟩

end

/-! ## Rendered names -/

/-- Only a triplet shows the prefix. -/
theorem expandedNamespaceName_eq_iff (cfg : Config) (uri localName : String8) {nsPrefix other : String8}
    (hne : nsPrefix ≠ other) :
    expandedNamespaceName cfg uri localName nsPrefix =
      expandedNamespaceName cfg uri localName other ↔ cfg.returnNsTriplet = false := by
  unfold expandedNamespaceName
  rw [List.append_cancel_left_eq]
  cases cfg.returnNsTriplet with
  | false => exact ⟨fun _ ↦ rfl, fun _ ↦ rfl⟩
  | true =>
    constructor
    · intro h
      exfalso
      apply hne
      cases nsPrefix with
      | nil =>
        cases other with
        | nil => rfl
        | cons c rest => exact nomatch (List.append_eq_nil_iff.1 h.symm).2
      | cons c rest =>
        cases other with
        | nil => exact nomatch (List.append_eq_nil_iff.1 h).2
        | cons d rest' => exact List.append_cancel_left h
    · intro h
      exact nomatch h

/-- Two attributes of one name are reported under the same name unless triplets are returned. -/
theorem expandAttributeName_eq_iff {cfg : Config} {scope : NamespaceScope} {name other : String8}
    (hne : name ≠ other) (hsame : attributeIdentity scope name = attributeIdentity scope other)
    (hbound : (attributeIdentity scope name).isSome = true) :
    expandAttributeName cfg name scope = expandAttributeName cfg other scope ↔
      cfg.returnNsTriplet = false := by
  obtain ⟨⟨uri, localName⟩, hname⟩ := Option.isSome_iff_exists.1 hbound
  have hother := hsame.symm.trans hname
  cases uri with
  | none =>
    have hplain := (expandAttributeName_of_plain cfg hname).2.2
    exact absurd (hplain.symm.trans (expandAttributeName_of_plain cfg hother).2.2) hne
  | some uri =>
    obtain ⟨hexpand, hcolon, hlocal⟩ := expandAttributeName_of_prefixed cfg hname
    obtain ⟨hexpand', hcolon', hlocal'⟩ := expandAttributeName_of_prefixed cfg hother
    have hbefore : namePrefix name ≠ namePrefix other := by
      intro hbefore
      apply hne
      rw [(name_of_colon hcolon).1, (name_of_colon hcolon').1, hbefore, ← hlocal, ← hlocal']
    rw [hexpand, hexpand', Except.ok.injEq]
    exact expandedNamespaceName_eq_iff cfg uri localName hbefore

/-! ## The attributes of a tag -/

/-- The names of the attributes that are no namespace declarations, in order. -/
def attributeNames (a : Attributes) : List String8 :=
  (a.pairs.map Prod.fst).filter fun name ↦ !isNamespaceDeclarationName name

/-- The names up to the first one whose prefix is not bound, which ends the expansion. -/
def expandableNames (scope : NamespaceScope) (names : List String8) : List String8 :=
  names.takeWhile fun name ↦ (attributeIdentity scope name).isSome

theorem expandableNames_of_unbound {scope : NamespaceScope} {name : String8}
    (h : attributeIdentity scope name = none) (names : List String8) :
    expandableNames scope (name :: names) = [] := by
  unfold expandableNames
  rw [List.takeWhile_cons, h]
  rfl

theorem expandableNames_of_bound {scope : NamespaceScope} {name : String8}
    (h : (attributeIdentity scope name).isSome = true) (names : List String8) :
    expandableNames scope (name :: names) = name :: expandableNames scope names := by
  unfold expandableNames
  rw [List.takeWhile_cons, h]
  rfl

/-- Two of the attributes have the same namespace and the same local name. -/
def SharesName (scope : NamespaceScope) (names : List String8) : Prop :=
  ∃ name ∈ names, ∃ other ∈ names, name ≠ other ∧
    attributeIdentity scope name = attributeIdentity scope other ∧
    (attributeIdentity scope name).isSome = true

/-- Two of the attributes have different namespaces or local names, and are reported under the same
name. -/
def Collides (cfg : Config) (scope : NamespaceScope) (names : List String8) : Prop :=
  ∃ name ∈ names, ∃ other ∈ names, attributeIdentity scope name ≠ attributeIdentity scope other ∧
    expandAttributeName cfg name scope = expandAttributeName cfg other scope

/-- `expanded_attributes` ends with the error of a duplicate attribute. -/
def ReportsDuplicate (p : Parser) (a : Attributes) (scope : NamespaceScope) : Prop :=
  ∃ r q, (expandedAttributes a scope).run Parser.routineMachine p = some (r, q) ∧
    q.core.hasError = true ∧ q.view.lastError = "duplicate attribute"

/-- Two of the attributes are reported under the same name. -/
def RendersTwice (cfg : Config) (scope : NamespaceScope) (names : List String8) : Prop :=
  ∃ name ∈ names, ∃ other ∈ names, name ≠ other ∧
    expandAttributeName cfg name scope = expandAttributeName cfg other scope

/-- Two attributes are reported under one name when they have one and no triplets are returned, or
when they have different ones that collide. -/
theorem rendersTwice_iff (cfg : Config) (scope : NamespaceScope) (names : List String8) :
    RendersTwice cfg scope (expandableNames scope names) ↔
      Collides cfg scope (expandableNames scope names) ∨
        (cfg.returnNsTriplet = false ∧ SharesName scope (expandableNames scope names)) := by
  have hbound {name : String8} (h : name ∈ expandableNames scope names) :
      (attributeIdentity scope name).isSome = true :=
    List.mem_takeWhile_imp (p := fun name ↦ (attributeIdentity scope name).isSome) h
  constructor
  · rintro ⟨name, hname, other, hother, hne, halike⟩
    by_cases hsame : attributeIdentity scope name = attributeIdentity scope other
    · right
      have htriplet := (expandAttributeName_eq_iff hne hsame (hbound hname)).1 halike
      exact ⟨htriplet, name, hname, other, hother, hne, hsame, hbound hname⟩
    · exact .inl ⟨name, hname, other, hother, hsame, halike⟩
  · rintro (⟨name, hname, other, hother, hdiffers, halike⟩ |
      ⟨htriplet, name, hname, other, hother, hne, hsame, hsome⟩)
    · exact ⟨name, hname, other, hother, fun h ↦ hdiffers (by rw [h]), halike⟩
    · exact ⟨name, hname, other, hother, hne,
        (expandAttributeName_eq_iff hne hsame hsome).2 htriplet⟩

/-! ## Runs -/

theorem run_hasError_bind {α : Type} (f : Bool → Routine α) (p : Parser) :
    (Routine.hasError >>= f).run Parser.routineMachine p =
      (f p.core.hasError).run Parser.routineMachine p := rfl

theorem View.countLinesTo_lastError (v : View) (index : Nat) :
    (v.countLinesTo index).lastError = v.lastError := by
  unfold View.countLinesTo View.retreatPositionTo
  dsimp only
  repeat' split
  all_goals rfl

theorem View.recordError_lastError (v : View) (message : String) :
    (v.recordError message).lastError = message := by
  have hnote (v : View) (i : Nat) : (v.notePosition i).lastError = v.lastError := by
    unfold View.notePosition
    split
    · rfl
    · exact v.countLinesTo_lastError _
  unfold View.recordError View.forceCurrentPosition
  dsimp only
  repeat' split
  all_goals first | rfl | exact hnote _ _

theorem setError_of_ongoing {p : Parser} (hp : p.core.hasError = false) (message : String) :
    (p.setError message).core.hasError = true ∧ (p.setError message).view.lastError = message := by
  unfold Parser.setError
  rw [if_neg (by rw [hp]; exact Bool.false_ne_true)]
  exact ⟨rfl, View.recordError_lastError _ _⟩

section

variable {a : Attributes} {scope : NamespaceScope} {p : Parser} {result : Attributes} {i : Nat}
  {name value : String8}

theorem run_expandAttribute_of_declaration (hname : isNamespaceDeclarationName name = true) :
    (expandAttribute a scope result i name value).run Parser.routineMachine p =
      some (result, p) := by
  unfold expandAttribute
  rw [run_hasError_bind, hname, Bool.or_true]
  rfl

theorem run_expandAttribute_of_error (hp : p.core.hasError = true) :
    (expandAttribute a scope result i name value).run Parser.routineMachine p =
      some (result, p) := by
  unfold expandAttribute
  rw [run_hasError_bind, hp, Bool.true_or]
  rfl

theorem run_expandAttribute_of_unbound (hp : p.core.hasError = false)
    (hname : isNamespaceDeclarationName name = false) {message : String}
    (h : expandAttributeName p.config name scope = .error message) :
    (expandAttribute a scope result i name value).run Parser.routineMachine p =
      some (result, p.setError message) := by
  have hexpand : (expandedAttributeName name scope).run Parser.routineMachine p =
      some (name, p.setError message) := by
    show (reportExpanded name (expandAttributeName p.config name scope)).run _ _ = _
    rw [h]
    rfl
  unfold expandAttribute
  rw [run_hasError_bind, hp, hname, Bool.or_false, if_neg Bool.false_ne_true, run_bind, hexpand,
    Option.bind_some, run_hasError_bind, (setError_of_ongoing hp message).1]
  rfl

theorem run_expandAttribute_of_duplicate (hp : p.core.hasError = false)
    (hname : isNamespaceDeclarationName name = false) {expanded : String8}
    (h : expandAttributeName p.config name scope = .ok expanded) (hhas : expanded ∈ result.table) :
    (expandAttribute a scope result i name value).run Parser.routineMachine p =
      some (result, p.setError "duplicate attribute") := by
  have hexpand : (expandedAttributeName name scope).run Parser.routineMachine p =
      some (expanded, p) := by
    show (reportExpanded name (expandAttributeName p.config name scope)).run _ _ = _
    rw [h]
    rfl
  unfold expandAttribute
  rw [run_hasError_bind, hp, hname, Bool.or_false, if_neg Bool.false_ne_true, run_bind, hexpand,
    Option.bind_some, run_hasError_bind, hp, if_neg Bool.false_ne_true, Attributes.has,
    decide_eq_true hhas]
  rfl

theorem run_expandAttribute_of_new (a : Attributes) (i : Nat) (value : String8)
    (hp : p.core.hasError = false)
    (hname : isNamespaceDeclarationName name = false) {expanded : String8}
    (h : expandAttributeName p.config name scope = .ok expanded) (hhas : expanded ∉ result.table) :
    ∃ result', (expandAttribute a scope result i name value).run Parser.routineMachine p =
        some (result', p) ∧
      ∀ other, other ∈ result'.table ↔ other ∈ result.table ∨ other = expanded := by
  have hexpand : (expandedAttributeName name scope).run Parser.routineMachine p =
      some (expanded, p) := by
    show (reportExpanded name (expandAttributeName p.config name scope)).run _ _ = _
    rw [h]
    rfl
  have hmark (a : Attributes) : (a.markIdAttribute expanded).table = a.table := by
    unfold Attributes.markIdAttribute
    split <;> rfl
  unfold expandAttribute
  rw [run_hasError_bind, hp, hname, Bool.or_false, if_neg Bool.false_ne_true, run_bind, hexpand,
    Option.bind_some, run_hasError_bind, hp, if_neg Bool.false_ne_true, Attributes.has,
    decide_eq_false hhas, if_neg Bool.false_ne_true]
  refine ⟨_, rfl, fun other ↦ ?_⟩
  have hput : (if i < a.specifiedAttributeCount then result.put expanded value
      else result.putDefault expanded value).table = result.table.put expanded value := by
    split <;> rfl
  rw [← Table.mem_put (v := value), ← hput]
  split
  · rw [hmark]
  · rfl

/-- After an error the rest of the attributes is not looked at. -/
theorem run_expandAttributes_of_error (l : List ((String8 × String8) × Nat))
    (hp : p.core.hasError = true) :
    (l.foldlM (fun result e ↦ expandAttribute a scope result e.2 e.1.1 e.1.2) result).run
      Parser.routineMachine p = some (result, p) := by
  induction l with
  | nil => rfl
  | cons e l ih =>
    rw [List.foldlM_cons, run_bind, run_expandAttribute_of_error hp, Option.bind_some]
    exact ih

/-- An attribute whose name is new counts among those that are there, for the ones behind it. -/
theorem duplicate_cons {cfg : Config} {names : List String8} {expanded : String8} {t t' : Table String8 String8}
    (hexpand : expandAttributeName cfg name scope = .ok expanded) (hnew : expanded ∉ t)
    (hmem : ∀ other, other ∈ t' ↔ other ∈ t ∨ other = expanded) :
    ((∃ name ∈ names, ∃ expanded ∈ t', expandAttributeName cfg name scope = .ok expanded) ∨
        ¬(names.map fun name ↦ expandAttributeName cfg name scope).Nodup) ↔
      ((∃ other ∈ name :: names, ∃ expanded ∈ t,
          expandAttributeName cfg other scope = .ok expanded) ∨
        ¬((name :: names).map fun name ↦ expandAttributeName cfg name scope).Nodup) := by
  rw [List.map_cons, List.nodup_cons, hexpand]
  constructor
  · rintro (⟨other, hother, expanded', hexpanded', hother'⟩ | h)
    · rcases (hmem _).1 hexpanded' with hthere | rfl
      · exact .inl ⟨other, List.mem_cons_of_mem _ hother, expanded', hthere, hother'⟩
      · exact .inr fun h ↦ h.1 (List.mem_map.2 ⟨other, hother, hother'⟩)
    · exact .inr fun hnodup ↦ h hnodup.2
  · rintro (⟨other, hother, expanded', hexpanded', hother'⟩ | h)
    · rcases List.mem_cons.1 hother with rfl | hother
      · obtain rfl := Except.ok.inj (hexpand.symm.trans hother')
        exact absurd hexpanded' hnew
      · exact .inl ⟨other, hother, expanded', (hmem _).2 (.inl hexpanded'), hother'⟩
    · by_cases hnodup : (names.map fun name ↦ expandAttributeName cfg name scope).Nodup
      · left
        have hthere : .ok expanded ∈ names.map fun name ↦ expandAttributeName cfg name scope := by
          by_contra hnone
          exact h ⟨hnone, hnodup⟩
        obtain ⟨other, hother, hother'⟩ := List.mem_map.1 hthere
        exact ⟨other, hother, expanded, (hmem _).2 (.inr rfl), hother'⟩
      · exact .inr hnodup

/-- The attributes that are still to come end with the error of a duplicate when one of them has a name
that is there, or two of them have one name. -/
theorem run_expandAttributes (a : Attributes) (scope : NamespaceScope) (result : Attributes)
    (l : List ((String8 × String8) × Nat)) (hp : p.core.hasError = false) :
    let names := expandableNames scope
      ((l.map fun e ↦ e.1.1).filter fun name ↦ !isNamespaceDeclarationName name)
    ∃ r q, (l.foldlM (fun result e ↦ expandAttribute a scope result e.2 e.1.1 e.1.2) result).run
        Parser.routineMachine p = some (r, q) ∧
      ((q.core.hasError = true ∧ q.view.lastError = "duplicate attribute") ↔
        (∃ name ∈ names, ∃ expanded ∈ result.table,
            expandAttributeName p.config name scope = .ok expanded) ∨
          ¬(names.map fun name ↦ expandAttributeName p.config name scope).Nodup) := by
  induction l generalizing result with
  | nil =>
    refine ⟨result, p, rfl, ?_⟩
    constructor
    · intro h
      exact absurd (hp.symm.trans h.1) Bool.false_ne_true
    · rintro (⟨name, hname, -⟩ | h)
      · exact absurd hname List.not_mem_nil
      · exact absurd List.nodup_nil h
  | cons e l ih =>
    obtain ⟨⟨name, value⟩, i⟩ := e
    rw [List.foldlM_cons]
    cases hdeclaration : isNamespaceDeclarationName name with
    | true =>
      rw [run_bind, run_expandAttribute_of_declaration hdeclaration, Option.bind_some,
        List.map_cons, List.filter_cons_of_neg (by rw [hdeclaration]; exact Bool.false_ne_true)]
      exact ih result
    | false =>
      rw [List.map_cons, List.filter_cons_of_pos (by rw [hdeclaration]; rfl)]
      cases hbound : attributeIdentity scope name with
      | none =>
        have hexpand : expandAttributeName p.config name scope = .error "unbound namespace prefix" :=
          expandAttributeName_of_unbound hbound
        have herror := setError_of_ongoing hp "unbound namespace prefix"
        rw [expandableNames_of_unbound hbound, run_bind,
          run_expandAttribute_of_unbound hp hdeclaration hexpand, Option.bind_some,
          run_expandAttributes_of_error l herror.1]
        refine ⟨result, _, rfl, ?_⟩
        constructor
        · intro h
          exact absurd (herror.2.symm.trans h.2) (by decide)
        · rintro (⟨name, hname, -⟩ | h)
          · exact absurd hname List.not_mem_nil
          · exact absurd List.nodup_nil h
      | some identity =>
        have hsome : (attributeIdentity scope name).isSome = true := by rw [hbound]; rfl
        obtain ⟨expanded, hexpand⟩ := expandAttributeName_of_bound p.config hsome
        rw [expandableNames_of_bound hsome]
        by_cases hhas : expanded ∈ result.table
        · have herror := setError_of_ongoing hp "duplicate attribute"
          rw [run_bind, run_expandAttribute_of_duplicate hp hdeclaration hexpand hhas,
            Option.bind_some, run_expandAttributes_of_error l herror.1]
          refine ⟨result, _, rfl, fun _ ↦ ?_, fun _ ↦ herror⟩
          exact .inl ⟨name, List.mem_cons_self, expanded, hhas, hexpand⟩
        · obtain ⟨result', hrun, hmem⟩ := run_expandAttribute_of_new a i value hp
            hdeclaration hexpand hhas
          obtain ⟨r, q, hrest, hreports⟩ := ih result'
          rw [run_bind, hrun, Option.bind_some]
          refine ⟨r, q, hrest, hreports.trans ?_⟩
          exact duplicate_cons hexpand hhas hmem

end

/-- What is reported twice is the first error, ahead of every prefix that is not bound. -/
theorem reportsDuplicate_iff {p : Parser} (hp : p.core.hasError = false) (a : Attributes)
    (scope : NamespaceScope) :
    ReportsDuplicate p a scope ↔
      RendersTwice p.config scope (expandableNames scope (attributeNames a)) := by
  obtain ⟨r, q, hrun, hreports⟩ :=
    run_expandAttributes a scope .make a.pairs.zipIdx hp
  have hnames : (a.pairs.zipIdx.map fun e ↦ e.1.1) = a.pairs.map Prod.fst := by
    rw [show (fun e : (String8 × String8) × Nat ↦ e.1.1) = Prod.fst ∘ Prod.fst from rfl,
      ← List.map_map, List.zipIdx_map_fst]
  have hnodup : (expandableNames scope (attributeNames a)).Nodup := by
    have hkeys : a.pairs.map Prod.fst = a.table.keys := by
      unfold Attributes.pairs
      rw [List.map_map]
      rfl
    unfold expandableNames attributeNames
    rw [hkeys]
    exact (a.table.keys_nodup.filter _).sublist (List.takeWhile_sublist _)
  rw [hnames, ← attributeNames, List.nodup_map_iff_inj_on hnodup] at hreports
  have hrun' : ReportsDuplicate p a scope ↔
      q.core.hasError = true ∧ q.view.lastError = "duplicate attribute" := by
    constructor
    · rintro ⟨r', q', hother, h⟩
      obtain ⟨rfl, rfl⟩ := Prod.mk.inj (Option.some.inj (hrun.symm.trans hother))
      exact h
    · intro h
      exact ⟨r, q, hrun, h⟩
  rw [hrun', hreports]
  unfold RendersTwice
  constructor
  · rintro (⟨_, _, expanded, hexpanded, -⟩ | h)
    · exact absurd hexpanded (AList.notMem_empty expanded)
    · push Not at h
      obtain ⟨name, hname, other, hother, hsame, hne⟩ := h
      exact ⟨name, hname, other, hother, hne, hsame⟩
  · rintro ⟨name, hname, other, hother, hne, hsame⟩
    exact .inr fun h ↦ hne (h name hname other hother hsame)

/-- A duplicate attribute is reported exactly when two of the attributes have one namespace and one
local name: if and only if two such attributes occur only where no triplets are returned and two of
them stand ahead of every unbound prefix, or where two others collide there; and two attributes
collide only where two have one namespace and one local name. -/
theorem expandedAttributes_reports_duplicate (p : Parser) (hp : p.core.hasError = false)
    (a : Attributes) (scope : NamespaceScope) :
    (ReportsDuplicate p a scope ↔ SharesName scope (attributeNames a)) ↔
      (SharesName scope (attributeNames a) →
        Collides p.config scope (expandableNames scope (attributeNames a)) ∨
          (p.config.returnNsTriplet = false ∧
            SharesName scope (expandableNames scope (attributeNames a)))) ∧
      (Collides p.config scope (expandableNames scope (attributeNames a)) →
        SharesName scope (attributeNames a)) := by
  have hsub : SharesName scope (expandableNames scope (attributeNames a)) →
      SharesName scope (attributeNames a) := by
    rintro ⟨name, hname, other, hother, hsame⟩
    exact ⟨name, List.takeWhile_subset _ hname, other, List.takeWhile_subset _ hother, hsame⟩
  rw [reportsDuplicate_iff hp, rendersTwice_iff]
  constructor
  · intro h
    exact ⟨h.2, fun hcollides ↦ h.1 (.inl hcollides)⟩
  · rintro ⟨hshares, hcollides⟩
    refine ⟨fun h ↦ ?_, hshares⟩
    rcases h with h | ⟨-, h⟩
    · exact hcollides h
    · exact hsub h

theorem expandedAttributes_reports_duplicate_triplet :
    let p := Parser.make
      { namespaceMode := true, namespaceSeparator := '|', returnNsTriplet := true } .observing
    let a := (Attributes.make.put (str "p:a") (str "1")).put (str "q:a") (str "2")
    let scope : NamespaceScope := (AList.singleton (str "p") (str "u")).insert (str "q") (str "u")
    (ReportsDuplicate p a scope ↔ SharesName scope (attributeNames a)) ↔
      (SharesName scope (attributeNames a) →
        Collides p.config scope (expandableNames scope (attributeNames a)) ∨
          (p.config.returnNsTriplet = false ∧
            SharesName scope (expandableNames scope (attributeNames a)))) ∧
      (Collides p.config scope (expandableNames scope (attributeNames a)) →
        SharesName scope (attributeNames a)) := by
  intro p a scope
  exact expandedAttributes_reports_duplicate p rfl a scope

/-- Two attributes of one name are not reported when their prefixes are part of the triplets. -/
theorem expandedAttributes_misses_duplicate :
    ¬∀ p : Parser, p.config.namespaceMode = true → p.core.hasError = false →
      ∀ (a : Attributes) (scope : NamespaceScope),
        ReportsDuplicate p a scope ↔ SharesName scope (attributeNames a) := by
  intro h
  let p := Parser.make
    { namespaceMode := true, namespaceSeparator := '|', returnNsTriplet := true } .observing
  let a := (Attributes.make.put (str "p:a") (str "1")).put (str "q:a") (str "2")
  let scope : NamespaceScope := (AList.singleton (str "p") (str "u")).insert (str "q") (str "u")
  have hshares : SharesName scope (attributeNames a) := by
    refine ⟨str "p:a", ?_, str "q:a", ?_, ?_, ?_, ?_⟩ <;> decide
  have hreports := (h p rfl rfl a scope).2 hshares
  rw [reportsDuplicate_iff rfl] at hreports
  obtain ⟨name, hname, other, hother, hne, hsame⟩ := hreports
  have hnames : expandableNames scope (attributeNames a) = [str "p:a", str "q:a"] := by decide
  rw [hnames] at hname hother
  simp only [List.mem_cons, List.not_mem_nil, or_false] at hname hother
  rcases hname with rfl | rfl <;> rcases hother with rfl | rfl
  · exact hne rfl
  · revert hsame
    decide
  · revert hsame
    decide
  · exact hne rfl

/-! ## Separators that separate -/

/-- What stands behind the last separator is determined. -/
theorem append_separator_inj {c : Character8} {s t s' t' : String8} (ht : c ∉ t) (ht' : c ∉ t')
    (h : s ++ c :: t = s' ++ c :: t') : s = s' ∧ t = t' := by
  have hlonger {u v more : String8} (hu : c ∉ u) (h : c :: u = more ++ c :: v) : more = [] := by
    cases more with
    | nil => rfl
    | cons d more =>
      rw [(List.cons.inj h).2] at hu
      exact absurd (List.mem_append_right more List.mem_cons_self) hu
  rcases List.append_eq_append_iff.1 h with ⟨more, rfl, hmore⟩ | ⟨more, rfl, hmore⟩
  · obtain rfl := hlonger ht hmore
    exact ⟨(List.append_nil s).symm, (List.cons.inj hmore).2⟩
  · obtain rfl := hlonger ht' hmore
    exact ⟨List.append_nil s', (List.cons.inj hmore).2.symm⟩

section

variable {cfg : Config} (hseparator : cfg.namespaceSeparator.toNat ≠ 0)
include hseparator

theorem expandedNamespaceName_of_separator (uri localName : String8) {nsPrefix : String8}
    (hbefore : nsPrefix ≠ []) :
    expandedNamespaceName cfg uri localName nsPrefix =
      if cfg.returnNsTriplet then
        (uri ++ cfg.namespaceSeparator :: localName) ++ cfg.namespaceSeparator :: nsPrefix
      else
        uri ++ cfg.namespaceSeparator :: localName := by
  unfold expandedNamespaceName
  rw [if_neg hseparator, List.isEmpty_eq_false_iff.2 hbefore]
  cases cfg.returnNsTriplet with
  | true =>
    simp only [Bool.not_false, Bool.and_true, if_true, List.append_assoc, List.cons_append,
      List.nil_append]
  | false =>
    simp only [Bool.false_and, Bool.false_eq_true, if_false, List.append_nil, List.append_assoc,
      List.singleton_append]

theorem mem_expandedNamespaceName (uri localName nsPrefix : String8) :
    cfg.namespaceSeparator ∈ expandedNamespaceName cfg uri localName nsPrefix := by
  unfold expandedNamespaceName
  rw [if_neg hseparator]
  simp only [List.mem_append, List.mem_singleton, true_or, or_true]

theorem expandedNamespaceName_inj {uri localName nsPrefix uri' localName' nsPrefix' : String8}
    (hlocal : cfg.namespaceSeparator ∉ localName) (hlocal' : cfg.namespaceSeparator ∉ localName')
    (hbefore : cfg.namespaceSeparator ∉ nsPrefix) (hbefore' : cfg.namespaceSeparator ∉ nsPrefix')
    (hne : nsPrefix ≠ []) (hne' : nsPrefix' ≠ [])
    (h : expandedNamespaceName cfg uri localName nsPrefix =
      expandedNamespaceName cfg uri' localName' nsPrefix') : uri = uri' ∧ localName = localName' := by
  rw [expandedNamespaceName_of_separator hseparator _ _ hne,
    expandedNamespaceName_of_separator hseparator _ _ hne'] at h
  cases htriplet : cfg.returnNsTriplet with
  | true =>
    rw [htriplet, if_pos rfl, if_pos rfl] at h
    exact append_separator_inj hlocal hlocal' (append_separator_inj hbefore hbefore' h).1
  | false =>
    rw [htriplet, if_neg Bool.false_ne_true, if_neg Bool.false_ne_true] at h
    exact append_separator_inj hlocal hlocal' h

end

/-- Names do not collide when the separator occurs in none of them, and no prefix is empty. -/
theorem not_collides_of_separator {cfg : Config} {scope : NamespaceScope} {names : List String8}
    (hseparator : cfg.namespaceSeparator.toNat ≠ 0)
    (hnames : ∀ name ∈ names, cfg.namespaceSeparator ∉ name)
    (hprefixes : ∀ name ∈ names, name.indexOf ':' 1 ≠ 0 → namePrefix name ≠ [])
    (hbound : ∀ name ∈ names, (attributeIdentity scope name).isSome = true) :
    ¬Collides cfg scope names := by
  rintro ⟨name, hname, other, hother, hdiffers, halike⟩
  obtain ⟨⟨uri, localName⟩, hidentity⟩ := Option.isSome_iff_exists.1 (hbound name hname)
  obtain ⟨⟨uri', localName'⟩, hidentity'⟩ := Option.isSome_iff_exists.1 (hbound other hother)
  have hparts {name : String8} (hname : name ∈ names) (hcolon : name.indexOf ':' 1 ≠ 0) :
      cfg.namespaceSeparator ∉ localPart name ∧ cfg.namespaceSeparator ∉ namePrefix name := by
    have hmem := hnames name hname
    rw [(name_of_colon hcolon).1] at hmem
    constructor
    · exact fun h ↦ hmem (List.mem_append_right _ (List.mem_cons_of_mem _ h))
    · exact fun h ↦ hmem (List.mem_append_left _ h)
  apply hdiffers
  rw [hidentity, hidentity']
  cases uri with
  | none =>
    obtain ⟨hexpand, -, rfl⟩ := expandAttributeName_of_plain cfg hidentity
    cases uri' with
    | none =>
      obtain ⟨hexpand', -, rfl⟩ := expandAttributeName_of_plain cfg hidentity'
      rw [hexpand, hexpand', Except.ok.injEq] at halike
      rw [halike]
    | some uri' =>
      obtain ⟨hexpand', -, -⟩ := expandAttributeName_of_prefixed cfg hidentity'
      rw [hexpand, hexpand', Except.ok.injEq] at halike
      exact absurd (halike ▸ mem_expandedNamespaceName hseparator _ _ _) (hnames _ hname)
  | some uri =>
    obtain ⟨hexpand, hcolon, rfl⟩ := expandAttributeName_of_prefixed cfg hidentity
    cases uri' with
    | none =>
      obtain ⟨hexpand', -, rfl⟩ := expandAttributeName_of_plain cfg hidentity'
      rw [hexpand, hexpand', Except.ok.injEq] at halike
      exact absurd (halike ▸ mem_expandedNamespaceName hseparator _ _ _) (hnames _ hother)
    | some uri' =>
      obtain ⟨hexpand', hcolon', rfl⟩ := expandAttributeName_of_prefixed cfg hidentity'
      rw [hexpand, hexpand', Except.ok.injEq] at halike
      obtain ⟨hlocal, hbefore⟩ := hparts hname hcolon
      obtain ⟨hlocal', hbefore'⟩ := hparts hother hcolon'
      obtain ⟨rfl, hsame⟩ := expandedNamespaceName_inj hseparator hlocal hlocal' hbefore hbefore'
        (hprefixes name hname hcolon) (hprefixes other hother hcolon') halike
      rw [hsame]

/-- With such a separator and no unbound prefix, a duplicate is reported unless triplets are. -/
theorem reportsDuplicate_of_separator {p : Parser} (hp : p.core.hasError = false) {a : Attributes}
    {scope : NamespaceScope} (hseparator : p.config.namespaceSeparator.toNat ≠ 0)
    (hnames : ∀ name ∈ attributeNames a, p.config.namespaceSeparator ∉ name)
    (hprefixes : ∀ name ∈ attributeNames a, name.indexOf ':' 1 ≠ 0 → namePrefix name ≠ [])
    (hbound : ∀ name ∈ attributeNames a, (attributeIdentity scope name).isSome = true) :
    ReportsDuplicate p a scope ↔
      p.config.returnNsTriplet = false ∧ SharesName scope (attributeNames a) := by
  have hall : expandableNames scope (attributeNames a) = attributeNames a :=
    List.takeWhile_eq_self_iff.2 hbound
  have hnone := not_collides_of_separator hseparator hnames hprefixes hbound
  rw [reportsDuplicate_iff hp, rendersTwice_iff, hall]
  exact or_iff_right hnone

end Xpact
