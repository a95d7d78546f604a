import Xpact.Grammar.GroupedSpecs

/-!
# Element declarations

What `parse_element_declaration` accepts, stated against the grammar, and the tree that it reports.
-/

namespace Xpact

open Grammar Library Program Routine

/-! ## The parts of a declaration -/

section

variable (cfg : Config) (subset : String8) (start close : Nat)

/-- The head of the declaration at `start` with its name, up to the content specification at `i`. -/
structure HeadEnds (name : String8) (i : Nat) : Prop where
  close_eq : findMarkupDeclarationEnd subset start = close
  closed : close ≠ 0
  firstSpace : start + 9 ≤ subset.length ∧ isXmlSpace (subset.item (start + 9)) = true
  before : skipSpaces subset (start + 9) < close
  first : isNameStartCharacter (subset.item (skipSpaces subset (start + 9))) = true
  scanned : (scannedName cfg subset (skipSpaces subset (start + 9))).2 = none
  named : name = subset.substring (skipSpaces subset (start + 9))
    ((scannedName cfg subset (skipSpaces subset (start + 9))).1 - 1)
  secondSpace : (scannedName cfg subset (skipSpaces subset (start + 9))).1 ≤ subset.length ∧
    isXmlSpace (subset.item (scannedName cfg subset (skipSpaces subset (start + 9))).1) = true
  index : i = skipSpaces subset (scannedName cfg subset (skipSpaces subset (start + 9))).1

/-- What the content specification at `i` comes to. -/
inductive SpecEnds (i : Nat) : ContentOutcome → Prop where
  | empty : hasKeywordAt subset i (str "EMPTY") = true →
      SpecEnds i ((i + 5, some (.node .empty .none none [])), none)
  | any : hasKeywordAt subset i (str "EMPTY") = false → hasKeywordAt subset i (str "ANY") = true →
      SpecEnds i ((i + 3, some (.node .any .none none [])), none)
  | grouped {r : ContentOutcome} : hasKeywordAt subset i (str "EMPTY") = false →
      hasKeywordAt subset i (str "ANY") = false → i ≤ close - 1 ∧ subset.item i = '(' →
      ParticleEnds cfg subset i (close - 1) r → SpecEnds i r
  | invalid : hasKeywordAt subset i (str "EMPTY") = false →
      hasKeywordAt subset i (str "ANY") = false → ¬ (i ≤ close - 1 ∧ subset.item i = '(') →
      SpecEnds i ((i, none), some "invalid element content model")

/-- What follows a declaration that has been read. -/
def reportElementDeclaration (name : String8) (model : ContentModel) : Routine Nat := do
  emitDefaultWhen .elementDecl (subset.substring start close)
  whileOngoing (emit (.elementDecl name model))
  return close + 1

/-- What follows the content specification. -/
def finishElementDeclaration (name : String8) (read : Nat × Option ContentModel) : Routine Nat := do
  if ← hasError then
    return subset.length + 1
  else if skipSpaces subset read.1 ≠ close then
    failAt "unexpected element declaration content" (subset.length + 1)
  else
    match read.2 with
    | none => failAt "invalid element content model" (subset.length + 1)
    | some model => reportElementDeclaration subset start close name model

end

/-! ## The run of a declaration -/

section

variable {cfg : Config} {subset : String8} {start close i : Nat} {name : String8} {p : Parser}

theorem run_skipRequiredSpaces (input : String8) (start : Nat) (message : String) (p : Parser) :
    (skipRequiredSpaces input start message).run Parser.routineMachine p =
      if start ≤ input.length ∧ isXmlSpace (input.item start) = true then
        some (skipSpaces input start, p)
      else
        some (start, p.setError message) := by
  unfold skipRequiredSpaces
  by_cases hspace : start ≤ input.length ∧ isXmlSpace (input.item start) = true
  · rw [if_pos hspace, if_pos (by simpa using hspace)]
    rfl
  · rw [if_neg hspace, if_neg (by simpa using hspace)]
    rfl

theorem run_of_headEnds (hp : p.core.hasError = false)
    (h : HeadEnds p.config subset start close name i) {r : ContentOutcome}
    (hspec : SpecEnds p.config subset close i r) :
    (parseElementDeclaration subset start).run Parser.routineMachine p =
      (finishElementDeclaration subset start close name r.1).run Parser.routineMachine
        (p.raise r.2) := by
  have hread : hasError.run Parser.routineMachine p = some (false, p) := by rw [run_hasError, hp]
  have hclose : close ≤ subset.length := (findMarkupDeclarationEnd_spec h.close_eq h.closed).1
  have hclosed := h.closed
  unfold parseElementDeclaration
  dsimp only
  rw [h.close_eq, if_neg h.closed, run_bind, run_skipRequiredSpaces, if_pos h.firstSpace,
    Option.bind_some]
  dsimp only
  rw [run_bind_of_read hread, if_neg (by simp [h.before, h.first]), run_bind, run_scannedName,
    h.scanned, Parser.raise_none, Option.bind_some]
  dsimp only
  rw [run_bind_of_read hread, if_neg Bool.false_ne_true, run_bind, run_skipRequiredSpaces,
    if_pos h.secondSpace, ← h.index, ← h.named, Option.bind_some]
  dsimp only
  rw [run_bind_of_read hread, if_neg Bool.false_ne_true]
  cases hspec with
  | empty hempty =>
    rw [if_pos hempty]
    rfl
  | any hempty hany =>
    rw [if_neg (by rw [hempty]; exact Bool.false_ne_true), if_pos hany]
    rfl
  | grouped hempty hany hopen hends =>
    rw [if_neg (by rw [hempty]; exact Bool.false_ne_true),
      if_neg (by rw [hany]; exact Bool.false_ne_true), if_pos hopen, run_bind,
      run_parseContentParticle hp hopen.1 (by omega) hends]
    rfl
  | invalid hempty hany hopen =>
    rw [if_neg (by rw [hempty]; exact Bool.false_ne_true),
      if_neg (by rw [hany]; exact Bool.false_ne_true), if_neg hopen]
    rfl

/-- An error that has been set ends the declaration. -/
theorem run_finish_of_error {read : Nat × Option ContentModel} (hp : p.core.hasError = true) :
    (finishElementDeclaration subset start close name read).run Parser.routineMachine p =
      some (subset.length + 1, p) := by
  unfold finishElementDeclaration
  rw [run_bind, run_hasError, hp]
  rfl

/-- A declaration without a head is an error. -/
theorem run_without_head (hp : p.core.hasError = false)
    (h : ∀ close name i, ¬ HeadEnds p.config subset start close name i) :
    ∃ message, (parseElementDeclaration subset start).run Parser.routineMachine p =
      some (subset.length + 1, p.setError message) := by
  have hread : hasError.run Parser.routineMachine p = some (false, p) := by rw [run_hasError, hp]
  have hfailed (message : String) : hasError.run Parser.routineMachine (p.setError message) =
      some (true, p.setError message) := by
    rw [run_hasError, Parser.setError_hasError]
  have hstays (message message' : String) :
      (p.setError message).setError message' = p.setError message :=
    Parser.setError_of_hasError (Parser.setError_hasError p message) message'
  unfold parseElementDeclaration
  dsimp only
  by_cases hclosed : findMarkupDeclarationEnd subset start = 0
  · rw [if_pos hclosed]
    exact ⟨_, rfl⟩
  rw [if_neg hclosed, run_bind, run_skipRequiredSpaces]
  by_cases hspace : start + 9 ≤ subset.length ∧ isXmlSpace (subset.item (start + 9)) = true
  · rw [if_pos hspace, Option.bind_some]
    dsimp only
    rw [run_bind_of_read hread]
    by_cases hname : skipSpaces subset (start + 9) < findMarkupDeclarationEnd subset start ∧
        isNameStartCharacter (subset.item (skipSpaces subset (start + 9))) = true
    · rw [if_neg (by simp [hname.1, hname.2]), run_bind, run_scannedName, Option.bind_some]
      dsimp only
      cases hscan : (scannedName p.config subset (skipSpaces subset (start + 9))).2 with
      | some message =>
        refine ⟨message, ?_⟩
        rw [run_bind, Parser.raise, hfailed, Option.bind_some]
        dsimp only
        rw [if_pos rfl, run_bind, run_pure, Option.bind_some]
        dsimp only
        rw [run_bind, hfailed, Option.bind_some]
        dsimp only
        rw [if_pos rfl, run_bind, run_pure, Option.bind_some]
        dsimp only
        rw [run_bind, hfailed]
        rfl
      | none =>
        rw [Parser.raise_none, run_bind_of_read hread, if_neg Bool.false_ne_true, run_bind,
          run_skipRequiredSpaces]
        refine ⟨"missing space before content model", ?_⟩
        rw [if_neg fun hsecond ↦ h _ _ _ ⟨rfl, hclosed, hspace, hname.1, hname.2, hscan, rfl,
          hsecond, rfl⟩, Option.bind_some]
        dsimp only
        rw [run_bind, hfailed, Option.bind_some]
        dsimp only
        rw [if_pos rfl, run_bind, run_pure, Option.bind_some]
        dsimp only
        rw [run_bind, hfailed]
        rfl
    · refine ⟨"invalid element declaration name", ?_⟩
      rw [if_pos]
      · rfl
      · by_cases hbefore : skipSpaces subset (start + 9) < findMarkupDeclarationEnd subset start
        · have hfirst := Bool.eq_false_iff.2 fun hfirst ↦ hname ⟨hbefore, hfirst⟩
          simp [hfirst]
        · simp [Nat.le_of_not_lt hbefore]
  · refine ⟨"missing space in element declaration", ?_⟩
    rw [if_neg hspace, Option.bind_some]
    dsimp only
    rw [run_bind, hfailed, Option.bind_some]
    dsimp only
    rw [if_pos (by rfl), run_failAt, hstays]

end

/-! ## The head against the grammar -/

/-- The text up to a `>`. -/
theorem InContent.of_close {subset rest : String8} {i close : Nat} (hat : RestAt subset i rest)
    (hi : i ≤ close) (hclose : close ≤ subset.length) (hcode : subset.code close = 62) :
    ∃ w tail, rest = w ++ ('>' : Character8) :: tail ∧ InContent subset (close - 1) i w := by
  have hpos := hat.pos
  obtain ⟨hsplit, hlength⟩ := hat.of_substring hi (by omega)
  have hend : RestAt subset close (subset.drop (close - 1)) := .of_index (by omega) (by omega)
  obtain ⟨tail, htail⟩ := hend.exists_cons hclose
  have hitem : subset.item close = ('>' : Character8) := UInt8.toNat_inj.1 hcode
  rw [hitem] at htail
  rw [htail] at hsplit
  refine ⟨_, tail, hsplit, ⟨tail, ?_⟩, by omega⟩
  rw [← hsplit]
  exact hat

theorem findMarkupEndIn_ordinary {u v : String8} {i : Nat}
    (hu : ∀ c ∈ u, isOrdinary c = true) :
    findMarkupEndIn none (u ++ ('>' : Character8) :: v) i = i + u.length := by
  induction u generalizing i with
  | nil =>
    unfold findMarkupEndIn
    rfl
  | cons c u ih =>
    have hc := hu c List.mem_cons_self
    rw [List.cons_append]
    unfold findMarkupEndIn
    rw [if_neg (by rw [isQuote_of_isOrdinary hc]; exact Bool.false_ne_true),
      if_neg (ne_of_isOrdinary hc (by decide)), ih fun d hd ↦ hu d (List.mem_cons_of_mem c hd),
      List.length_cons]
    omega

section

variable {cfg : Config} {subset rest : String8} {start close i : Nat} {n : String8}

theorem length_keyword : (str "<!ELEMENT").length = 9 := by decide

theorem exists_space_of_first {w v : String8} {stop : Nat} (hat : InContent subset stop i (w ++ v))
    (hw : ∀ c ∈ w, isXmlSpace c = true) (hv : ∀ c ∈ v.head?, isXmlSpace c = false)
    (hfirst : isXmlSpace (subset.item i) = true) : w ∈ space := by
  refine mem_space.2 ⟨?_, hw⟩
  rintro rfl
  cases v with
  | nil =>
    obtain ⟨tail, hrest⟩ := hat.restAt
    rw [hrest.item] at hfirst
    exact absurd hfirst (by decide)
  | cons c v =>
    rw [hat.item, hv c rfl] at hfirst
    cases hfirst

/-- What a head that has been read consists of. -/
theorem text_of_headEnds (hat : RestAt subset start rest)
    (hkeyword : hasAt subset start (str "<!ELEMENT") = true)
    (h : HeadEnds cfg subset start close n i) :
    ∃ s t w v, rest = str "<!ELEMENT" ++ (s ++ (n ++ (t ++ (w ++ ('>' : Character8) :: v)))) ∧
      s ∈ space ∧ n ∈ name cfg.usesLegacyNameCharacterRanges ∧ t ∈ space ∧
      InContent subset (close - 1) i w := by
  obtain ⟨hclose, hcode⟩ := findMarkupDeclarationEnd_spec h.close_eq h.closed
  have hclosed := h.closed
  have hbefore := h.before
  have hge := le_skipSpaces subset (start + 9)
  obtain ⟨rest, rfl⟩ := (hat.hasAt_iff _).1 hkeyword
  have hhead := hat.append
  rw [length_keyword] at hhead
  obtain ⟨w, tail, rfl, hin⟩ := InContent.of_close hhead (by omega) hclose hcode
  obtain ⟨s, w, rfl, hs, hends⟩ := exists_spaces w
  have hskip := hin.skipSpaces hs hends
  have hname := hin.append
  rw [← hskip] at hname
  obtain ⟨n', w, rfl, hn, hscan⟩ := hname.exists_name (by omega) h.first h.scanned
  have hnamed := h.named
  rw [hscan, hname.substring] at hnamed
  subst hnamed
  have hsecond := hname.append
  have hspace := h.secondSpace.2
  rw [hscan] at hspace
  obtain ⟨t, w, rfl, ht, hends'⟩ := exists_spaces w
  have hindex := h.index
  rw [hscan, hsecond.skipSpaces ht hends'] at hindex
  refine ⟨s, t, w, tail, ?_, exists_space_of_first hin hs hends h.firstSpace.2, hn,
    exists_space_of_first hsecond ht hends' hspace, ?_⟩
  · simp only [List.append_assoc]
  · rw [hindex]
    exact hsecond.append

/-- A head of the grammar before a text without quotes and brackets. -/
theorem headEnds_of_text {s t w v : String8} (hat : RestAt subset start
      (str "<!ELEMENT" ++ (s ++ (n ++ (t ++ (w ++ ('>' : Character8) :: v))))))
    (hs : s ∈ space) (hn : n ∈ name cfg.usesLegacyNameCharacterRanges) (ht : t ∈ space)
    (hw : ∀ c ∈ w, isOrdinary c = true) (hends : ∀ c ∈ w.head?, isXmlSpace c = false)
    (hi : i = start + 9 + s.length + n.length + t.length) :
    HeadEnds cfg subset start (i + w.length) n i ∧ InContent subset (i + w.length - 1) i w := by
  have hpos := hat.pos
  have hclose : findMarkupDeclarationEnd subset start = i + w.length := by
    have hmark : RestAt subset (start + 2)
        ((str "ELEMENT" ++ s ++ n ++ t ++ w) ++ ('>' : Character8) :: v) := by
      simp only [List.append_assoc]
      exact hat.cons.cons
    have hordinary : ∀ c ∈ str "ELEMENT" ++ s ++ n ++ t ++ w, isOrdinary c = true :=
      ordinary_append (ordinary_append (ordinary_append (ordinary_append (by decide)
        (ordinary_space s hs)) (ordinary_name _ n hn)) (ordinary_space t ht)) hw
    have hindex := hmark.index
    have hseven : (str "ELEMENT").length = 7 := by decide
    unfold findMarkupDeclarationEnd
    dsimp only
    simp only [List.length_append, List.length_cons] at hindex
    rw [Nat.min_eq_left (by omega), hmark.drop, findMarkupEndIn_ordinary hordinary]
    simp only [List.length_append]
    omega
  obtain ⟨hsne, hsspaces⟩ := mem_space.1 hs
  obtain ⟨htne, htspaces⟩ := mem_space.1 ht
  have hhead : InContent subset (i + w.length - 1) (start + 9) (s ++ (n ++ (t ++ w))) := by
    refine ⟨⟨v, ?_⟩, ?_⟩
    · have hrest := hat.append
      rw [length_keyword] at hrest
      simp only [List.append_assoc]
      exact hrest
    · simp only [List.length_append]
      omega
  obtain ⟨c, n, rfl⟩ := List.exists_cons_of_ne_nil (ne_nil_of_mem_name hn)
  have hname := hhead.append
  have hfirst : isNameStartCharacter (subset.item (start + 9 + s.length)) = true := by
    obtain ⟨tail, hrest⟩ := hname.restAt
    rw [List.append_assoc] at hrest
    exact isNameStartCharacter_name hn hrest
  have hskip : skipSpaces subset (start + 9) = start + 9 + s.length := by
    apply hhead.skipSpaces hsspaces
    rintro d ⟨⟩
    rw [hname.item] at hfirst
    exact isXmlSpace_of_nameStart hfirst
  obtain ⟨d, t, rfl⟩ := List.exists_cons_of_ne_nil htne
  have hscan : scannedName cfg subset (start + 9 + s.length) =
      (start + 9 + s.length + (c :: n).length, none) := by
    apply hname.scannedName hn
    rintro e ⟨⟩
    exact not_nameCode_of_isDelimiter
      (isDelimiter_of_isXmlSpace (htspaces d List.mem_cons_self))
  have hsecond := hname.append
  have hin := hsecond.stop_lt
  obtain ⟨e, s, rfl⟩ := List.exists_cons_of_ne_nil hsne
  refine ⟨⟨hclose, by omega, ⟨?_, ?_⟩, ?_, ?_, ?_, ?_, ⟨?_, ?_⟩, ?_⟩, ?_⟩
  · have hle := hhead.le_stop
    omega
  · rw [hhead.item]
    exact hsspaces e List.mem_cons_self
  · have hle := hname.le_stop
    omega
  · rw [hskip]
    exact hfirst
  · rw [hskip, hscan]
  · rw [hskip, hscan]
    exact hname.substring.symm
  · rw [hskip, hscan]
    have hle := hsecond.le_stop
    dsimp only
    omega
  · rw [hskip, hscan, hsecond.item]
    exact htspaces d List.mem_cons_self
  · rw [hskip, hscan, hsecond.skipSpaces htspaces hends]
    exact hi
  · have hspec := hsecond.append
    rwa [← hi] at hspec

/-! ## The content specification against the grammar -/

section

variable {u v w : String8} {stop : Nat} {m : ContentModel}

theorem hasKeywordAt_iff (hat : InContent subset stop i w) (keyword : String8)
    (hkeyword : ('>' : Character8) ∉ keyword) :
    hasKeywordAt subset i keyword = true ↔
      ∃ v, w = keyword ++ v ∧ ∀ c ∈ v.head?, isNameCharacter c = false := by
  have hmarker := hat.hasAt_iff keyword hkeyword
  -- Behind the keyword there is a character, the `>` at the latest.
  have hnext {v : String8} (hv : InContent subset stop i (keyword ++ v)) :
      ((subset.length < i + keyword.length) || !isNameCharacter (subset.item (i + keyword.length)))
        = true ↔ ∀ c ∈ v.head?, isNameCharacter c = false := by
    obtain ⟨tail, hrest⟩ := hv.append.restAt
    cases v with
    | nil =>
      rw [List.nil_append] at hrest
      rw [hrest.item, decide_eq_false (Nat.not_lt.2 hrest.le)]
      exact ⟨fun _ c hc ↦ (nomatch hc), fun _ ↦ by decide⟩
    | cons c v =>
      rw [List.cons_append] at hrest
      rw [hrest.item, decide_eq_false (Nat.not_lt.2 hrest.le), Bool.false_or, Bool.not_eq_true']
      exact ⟨fun h d hd ↦ (Option.some.inj hd) ▸ h, fun h ↦ h c rfl⟩
  unfold hasKeywordAt
  dsimp only
  rw [Bool.and_eq_true, hmarker]
  constructor
  · rintro ⟨⟨v, rfl⟩, hends⟩
    exact ⟨v, rfl, (hnext hat).1 hends⟩
  · rintro ⟨v, rfl, hends⟩
    exact ⟨List.prefix_append _ _, (hnext hat).2 hends⟩

theorem not_hasKeywordAt {c d : Character8} {keyword : String8}
    (hat : InContent subset stop i (c :: v)) (hkeyword : ('>' : Character8) ∉ d :: keyword)
    (hc : c ≠ d) : hasKeywordAt subset i (d :: keyword) = false := by
  rw [← Bool.not_eq_true, hasKeywordAt_iff hat _ hkeyword]
  rintro ⟨u, hu, -⟩
  exact hc (List.cons.inj hu).1

theorem not_nameCharacter_of_isXmlSpace {c : Character8} (h : isXmlSpace c = true) :
    isNameCharacter c = false := by
  revert c
  apply forall_byte
  decide +kernel

/-- What the grammar generates is read as its tree. -/
theorem specEnds_of_contentSpec (h : ContentSpec cfg.usesLegacyNameCharacterRanges u m)
    (hat : InContent subset (close - 1) i (u ++ v)) (hv : ∀ c ∈ v, isXmlSpace c = true) :
    SpecEnds cfg subset close i ((i + u.length, some m), none) := by
  have hdelimits : Delimits v := by
    cases v with
    | nil => exact fun c hc ↦ nomatch hc
    | cons c v =>
      rintro d ⟨⟩
      exact isDelimiter_of_isXmlSpace (hv c List.mem_cons_self)
  have hspaces : ∀ c ∈ v.head?, isNameCharacter c = false := by
    cases v with
    | nil => exact fun c hc ↦ nomatch hc
    | cons c v =>
      rintro d ⟨⟩
      exact not_nameCharacter_of_isXmlSpace (hv c List.mem_cons_self)
  have hgrouped {w : String8} (hopen : u = ('(' : Character8) :: w) :
      SpecEnds cfg subset close i ((i + u.length, some m), none) := by
    subst hopen
    exact .grouped (not_hasKeywordAt hat (by decide) (by decide))
      (not_hasKeywordAt hat (by decide) (by decide)) ⟨hat.le_stop, hat.item⟩
      (particleEnds_of_contentSpec h hat hat.item hdelimits)
  cases h with
  | empty => exact .empty ((hasKeywordAt_iff hat _ (by decide)).2 ⟨v, rfl, hspaces⟩)
  | any =>
    exact .any (not_hasKeywordAt hat (by decide) (by decide))
      ((hasKeywordAt_iff hat _ (by decide)).2 ⟨v, rfl, hspaces⟩)
  | text _ _ => exact hgrouped rfl
  | mixed _ _ _ => exact hgrouped rfl
  | children q hgroup =>
    obtain ⟨a, u, rest, m, rfl, -, -⟩ := group_head hgroup
    exact hgrouped rfl

/-- What is read without an error is generated by the grammar. -/
theorem contentSpec_of_specEnds {k : Nat} {model : Option ContentModel}
    (h : SpecEnds cfg subset close i ((k, model), none))
    (hat : InContent subset (close - 1) i w) : ∃ m u v, model = some m ∧ w = u ++ v ∧
      ContentSpec cfg.usesLegacyNameCharacterRanges u m ∧ k = i + u.length := by
  generalize hr : (((k, model), none) : ContentOutcome) = r at h
  cases h with
  | empty hempty =>
    cases hr
    obtain ⟨v, rfl, -⟩ := (hasKeywordAt_iff hat _ (by decide)).1 hempty
    exact ⟨_, str "EMPTY", v, rfl, rfl, .empty, rfl⟩
  | any _ hany =>
    cases hr
    obtain ⟨v, rfl, -⟩ := (hasKeywordAt_iff hat _ (by decide)).1 hany
    exact ⟨_, str "ANY", v, rfl, rfl, .any, rfl⟩
  | grouped _ _ hopen hends =>
    subst hr
    exact contentSpec_of_particleEnds hat hopen.2 hends
  | invalid _ _ _ => cases hr

theorem exists_specEnds (hclosed : close ≠ 0) (hclose : close ≤ subset.length) :
    ∃ r, SpecEnds cfg subset close i r := by
  cases hempty : hasKeywordAt subset i (str "EMPTY") with
  | true => exact ⟨_, .empty hempty⟩
  | false =>
    cases hany : hasKeywordAt subset i (str "ANY") with
    | true => exact ⟨_, .any hempty hany⟩
    | false =>
      by_cases hopen : i ≤ close - 1 ∧ subset.item i = '('
      · have hlt : close - 1 < subset.length := by omega
        obtain ⟨r, hr⟩ := exists_particleEnds cfg hopen.1 hlt
        exact ⟨r, .grouped hempty hany hopen hr⟩
      · exact ⟨_, .invalid hempty hany hopen⟩

end

end

/-! ## Element declarations of the grammar -/

/-- `elementdecl`, with the name and the tree it stands for. -/
inductive ElementDecl (legacy : Bool) : String8 → String8 → ContentModel → Prop where
  | mk {s n t w u : String8} {m : ContentModel} (hs : s ∈ space) (hn : n ∈ name legacy)
      (ht : t ∈ space) (hspec : ContentSpec legacy w m) (hu : u ∈ optionalSpace) :
      ElementDecl legacy (str "<!ELEMENT" ++ s ++ n ++ t ++ w ++ u ++ str ">") n m

theorem contentSpec_head {legacy : Bool} {w : String8} {m : ContentModel}
    (h : ContentSpec legacy w m) : ∃ c u, w = c :: u ∧ isXmlSpace c = false := by
  cases h with
  | empty => exact ⟨_, _, rfl, by decide⟩
  | any => exact ⟨_, _, rfl, by decide⟩
  | text _ _ => exact ⟨_, _, rfl, by decide⟩
  | mixed _ _ _ => exact ⟨_, _, rfl, by decide⟩
  | children q hgroup =>
    obtain ⟨a, u, rest, m, rfl, -, -⟩ := group_head hgroup
    exact ⟨_, _, rfl, by decide⟩

section

variable {subset rest : String8} {start : Nat} {p : Parser}

/-- A declaration of the grammar is read as its name and its tree. -/
theorem run_of_elementDecl (hp : p.core.hasError = false) {d n v : String8} {m : ContentModel}
    (hat : RestAt subset start (d ++ v))
    (h : ElementDecl p.config.usesLegacyNameCharacterRanges d n m) :
    (parseElementDeclaration subset start).run Parser.routineMachine p =
      (reportElementDeclaration subset start (start + d.length - 1) n m).run
        Parser.routineMachine p := by
  obtain @⟨s, _, t, w, u, _, hs, hn, ht, hspec, hu⟩ := h
  have hordinary : ∀ c ∈ w ++ u, isOrdinary c = true :=
    ordinary_append (ordinary_contentSpec _ w ⟨m, hspec⟩) (ordinary_optionalSpace u hu)
  have hfirst : ∀ c ∈ (w ++ u).head?, isXmlSpace c = false := by
    obtain ⟨c, w, rfl, hc⟩ := contentSpec_head hspec
    rintro d ⟨⟩
    exact hc
  have htext : RestAt subset start (str "<!ELEMENT" ++
      (s ++ (n ++ (t ++ ((w ++ u) ++ ('>' : Character8) :: v))))) := by
    simp only [List.append_assoc] at hat ⊢
    exact hat
  obtain ⟨hhead, hin⟩ := headEnds_of_text htext hs hn ht hordinary hfirst rfl
  have hspaces := spaces_of_optionalSpace hu
  have hends := specEnds_of_contentSpec hspec hin hspaces
  have hskip : skipSpaces subset (start + 9 + s.length + n.length + t.length + w.length) =
      start + 9 + s.length + n.length + t.length + (w ++ u).length := by
    have hbehind : InContent subset (start + 9 + s.length + n.length + t.length +
        (w ++ u).length - 1) (start + 9 + s.length + n.length + t.length + w.length) (u ++ []) := by
      rw [List.append_nil]
      exact hin.append
    rw [hbehind.skipSpaces hspaces fun c hc ↦ nomatch hc]
    simp only [List.length_append]
    omega
  have hlength : start + (str "<!ELEMENT" ++ s ++ n ++ t ++ w ++ u ++ str ">").length - 1 =
      start + 9 + s.length + n.length + t.length + (w ++ u).length := by
    have hnine := length_keyword
    have hone : (str ">").length = 1 := by decide
    simp only [List.length_append]
    omega
  rw [run_of_headEnds hp hhead hends, hlength, Parser.raise_none]
  unfold finishElementDeclaration
  rw [run_bind, run_hasError, hp, Option.bind_some]
  dsimp only
  rw [if_neg Bool.false_ne_true, if_neg (fun hne ↦ hne hskip)]

/-- What is no declaration of the grammar is an error. -/
theorem run_of_no_elementDecl (hp : p.core.hasError = false) (hat : RestAt subset start rest)
    (hkeyword : hasAt subset start (str "<!ELEMENT") = true)
    (hnone : ¬ ∃ d n m v, rest = d ++ v ∧
      ElementDecl p.config.usesLegacyNameCharacterRanges d n m) :
    ∃ message, (parseElementDeclaration subset start).run Parser.routineMachine p =
      some (subset.length + 1, p.setError message) := by
  by_cases hhead : ∃ close n i, HeadEnds p.config subset start close n i
  · obtain ⟨close, n, i, hhead⟩ := hhead
    have hclose := (findMarkupDeclarationEnd_spec hhead.close_eq hhead.closed).1
    obtain ⟨⟨⟨k, model⟩, e⟩, hends⟩ := exists_specEnds hhead.closed hclose
    rw [run_of_headEnds hp hhead hends]
    cases e with
    | some message =>
      exact ⟨message, run_finish_of_error (Parser.setError_hasError p message)⟩
    | none =>
      obtain ⟨s, t, w, v, rfl, hs, hn, ht, hin⟩ := text_of_headEnds hat hkeyword hhead
      obtain ⟨m, w, u, rfl, rfl, hspec, rfl⟩ := contentSpec_of_specEnds hends hin
      obtain ⟨a, b, rfl, ha, hb⟩ := exists_spaces u
      refine ⟨"unexpected element declaration content", ?_⟩
      unfold finishElementDeclaration
      rw [Parser.raise_none, run_bind, run_hasError, hp, Option.bind_some]
      dsimp only
      rw [if_neg Bool.false_ne_true, if_pos, run_failAt]
      -- Otherwise there is nothing but white space up to the end.
      intro hskip
      rw [hin.append.skipSpaces ha hb] at hskip
      have hstop := hin.stop_eq
      have hclosed := hhead.closed
      have hlength : b.length = 0 := by
        simp only [List.length_append] at hstop
        omega
      have hb := List.length_eq_zero_iff.1 hlength
      subst hb
      apply hnone
      refine ⟨_, n, m, v, ?_, .mk hs hn ht hspec (mem_optionalSpace.2 ha)⟩
      simp only [List.append_assoc, List.append_nil]
      rfl
  · exact run_without_head hp fun close n i h ↦ hhead ⟨close, n, i, h⟩

/-- `parse_element_declaration` accepts the element declarations of the grammar and no other text,
and it reports the tree of the content specification. -/
theorem parseElementDeclaration_elementDecl (hp : p.core.hasError = false)
    (hat : RestAt subset start rest) (hkeyword : hasAt subset start (str "<!ELEMENT") = true) :
    (∀ d n m v, rest = d ++ v → ElementDecl p.config.usesLegacyNameCharacterRanges d n m →
      (parseElementDeclaration subset start).run Parser.routineMachine p =
        (reportElementDeclaration subset start (start + d.length - 1) n m).run
          Parser.routineMachine p) ∧
    ((¬ ∃ d n m v, rest = d ++ v ∧ ElementDecl p.config.usesLegacyNameCharacterRanges d n m) →
      ∃ message, (parseElementDeclaration subset start).run Parser.routineMachine p =
        some (subset.length + 1, p.setError message)) := by
  constructor
  · intro d n m v hrest hdecl
    subst hrest
    exact run_of_elementDecl hp hat hdecl
  · exact run_of_no_elementDecl hp hat hkeyword

end

theorem parseElementDeclaration_elementDecl_choice :
    (parseElementDeclaration (str "<!ELEMENT a (b |c)*>") 1).run Parser.routineMachine
        (Parser.make {} .null) =
      (reportElementDeclaration (str "<!ELEMENT a (b |c)*>") 1 20 (str "a")
        (.node .choice .repetition none [.node .name .none (some (str "b")) [],
          .node .name .none (some (str "c")) []])).run Parser.routineMachine
            (Parser.make {} .null) := by
  have hat : RestAt (str "<!ELEMENT a (b |c)*>") 1 (str "<!ELEMENT a (b |c)*>") :=
    ⟨by decide, by decide, rfl⟩
  have hname {c : Character8} (hc : c ∈ [('a' : Character8), 'b', 'c']) : [c] ∈ name false := by
    have hascii : c.toNat < 128 ∧ isNameStartCode false c.toNat = true ∧
        isXmlCharacterCode c.toNat = true := by
      revert c
      decide
    exact mem_name_of_ascii hascii.1 hascii.2.1 hascii.2.2
  have ha : [('a' : Character8)] ∈ name false := hname (by decide)
  have hb : [('b' : Character8)] ∈ name false := hname (by decide)
  have hc : [('c' : Character8)] ∈ name false := hname (by decide)
  have hspace : str " " ∈ space := mem_space.2 (by decide)
  have hnone : ([] : String8) ∈ optionalSpace := mem_optionalSpace.2 (by decide)
  have hmembers : Members false '|' _ _ := .next (.inr hspace) hnone (.name .none hc) (.close hnone)
  have hgroup := Group.choice hnone (.name .none hb) hmembers
  have hdecl : ElementDecl false (str "<!ELEMENT a (b |c)*>") (str "a") _ :=
    .mk hspace ha hspace (.children .repetition hgroup) hnone
  have hlength : 1 + (str "<!ELEMENT a (b |c)*>").length - 1 = 20 := by decide
  have hread := (parseElementDeclaration_elementDecl (p := Parser.make {} .null) rfl hat
    (by decide)).1 _ _ _ [] (List.append_nil _).symm hdecl
  rw [hlength] at hread
  exact hread

end Xpact
