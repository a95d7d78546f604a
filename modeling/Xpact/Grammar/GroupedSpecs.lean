import Xpact.Grammar.MixedContents

/-!
# Content specifications in parentheses

What `parse_content_particle` returns for a content specification that begins with a parenthesis is
the tree of the grammar, and it sets no error on what the grammar generates only.
-/

namespace Xpact

open Grammar Library

variable {cfg : Config} {subset w : String8} {start stop : Nat}

/-! ## The test for mixed content -/

theorem startsMixed_iff (hat : InContent subset stop start w) :
    startsMixed subset start ↔ ∃ a u, w = ('(' : Character8) :: (a ++ (str "#PCDATA" ++ u)) ∧
      ∀ c ∈ a, isXmlSpace c = true := by
  cases w with
  | nil =>
    constructor
    · rintro ⟨hopen, -⟩
      obtain ⟨tail, hrest⟩ := hat.restAt
      rw [List.nil_append] at hrest
      rw [hrest.item] at hopen
      exact absurd hopen (by decide)
    · rintro ⟨a, u, hnil, -⟩
      cases hnil
  | cons c v =>
    obtain ⟨b, u, rfl, hb, hends⟩ := exists_spaces v
    have hskip := hat.cons.skipSpaces hb hends
    have hbehind := hat.cons.append
    have hmarker := hbehind.hasAt_iff (str "#PCDATA") (by decide)
    unfold startsMixed
    rw [hat.item, hskip, hmarker]
    constructor
    · rintro ⟨rfl, u', rfl⟩
      exact ⟨b, u', rfl, hb⟩
    · rintro ⟨a, u', hsplit, ha⟩
      obtain ⟨rfl, hrest⟩ := List.cons.inj hsplit
      refine ⟨rfl, ?_⟩
      have hskip' := hrest ▸ hat.cons
      have hsame := hskip'.skipSpaces ha (by rintro c ⟨⟩; decide)
      have hlength : a.length = b.length := by omega
      obtain ⟨-, rfl⟩ := List.append_inj hrest hlength.symm
      exact List.prefix_append _ _

/-- Where the loop of mixed content begins. -/
theorem mixedStart_eq {a u : String8}
    (hat : InContent subset stop start (('(' : Character8) :: (a ++ (str "#PCDATA" ++ u))))
    (ha : ∀ c ∈ a, isXmlSpace c = true) :
    InContent subset stop (start + 1 + a.length + 7) u ∧ mixedStart subset start stop =
      { index := min (skipSpaces subset (start + 1 + a.length + 7)) (stop + 1) } := by
  have hmin := hat.cons.min_skipSpaces ha (by rintro c ⟨⟩; decide)
  refine ⟨hat.cons.append.append, ?_⟩
  unfold mixedStart
  rw [hmin]

/-! ## Mixed content -/

section

variable {a u v : String8} {names : List String8}

/-- A list of names with its parenthesis leads the mixed loop to its end. -/
theorem reads_mixed {rest b : String8} (hat : InContent subset stop start
      (('(' : Character8) :: (a ++ (str "#PCDATA" ++ (rest ++ (b ++ (')' : Character8) :: v))))))
    (ha : ∀ c ∈ a, isXmlSpace c = true)
    (hnames : MixedNames cfg.usesLegacyNameCharacterRanges rest names)
    (hb : ∀ c ∈ b, isXmlSpace c = true) :
    ReadsMixed cfg subset stop (mixedStart subset start stop)
      { index := start + 1 + a.length + 7 + rest.length + b.length + 1
        names := names
        isDone := true } := by
  obtain ⟨hinside, hstart⟩ := mixedStart_eq hat ha
  have hends : EndsNames ((')' : Character8) :: v) := by
    constructor
    · rintro c ⟨⟩
      decide
    · rintro c ⟨⟩
      decide
  rw [hstart]
  apply Leads.trans (reads_mixedNames hnames rfl hb hends hinside rfl)
  exact .next rfl (mixedRound_close cfg hinside.append.append) (.here _)

theorem particleEnds_text (hat : InContent subset stop start
      ((str "(" ++ a ++ str "#PCDATA" ++ u ++ str ")") ++ v))
    (ha : a ∈ optionalSpace) (hu : u ∈ optionalSpace) (hv : Delimits v) :
    ParticleEnds cfg subset start stop
      ((start + (str "(" ++ a ++ str "#PCDATA" ++ u ++ str ")").length,
        some (.node .mixed .none none [])), none) := by
  have hspaces := spaces_of_optionalSpace ha
  have hinside : InContent subset stop start
      (('(' : Character8) :: (a ++ (str "#PCDATA" ++ ([] ++ (u ++ (')' : Character8) :: v))))) := by
    simp only [List.append_assoc] at hat
    exact hat
  have hreads : ReadsMixed cfg subset stop _ _ :=
    reads_mixed hinside hspaces .nil (spaces_of_optionalSpace hu)
  have hmixed : startsMixed subset start := (startsMixed_iff hinside).2 ⟨a, _, rfl, hspaces⟩
  have hbehind := hat.append
  have hlength : start + (str "(" ++ a ++ str "#PCDATA" ++ u ++ str ")").length =
      start + 1 + a.length + 7 + ([] : String8).length + u.length + 1 := by
    have hone : (str "(").length = 1 := rfl
    have hseven : (str "#PCDATA").length = 7 := rfl
    have hclose : (str ")").length = 1 := rfl
    simp only [List.length_append, List.length_nil]
    omega
  rw [hlength] at hbehind ⊢
  have hends : mixedOutcome subset stop
      { index := start + 1 + a.length + 7 + ([] : String8).length + u.length + 1
        names := []
        isDone := true } none =
      ((start + 1 + a.length + 7 + ([] : String8).length + u.length + 1,
        some (.node .mixed .none none [])), none) := by
    have hnot : ∀ c : Character8, start + 1 + a.length + 7 + ([] : String8).length + u.length + 1 ≤
        stop → subset.item (start + 1 + a.length + 7 + ([] : String8).length + u.length + 1) = c →
        c ≠ ('?' : Character8) ∧ c ≠ ('*' : Character8) ∧ c ≠ ('+' : Character8) := by
      intro c hle hc
      obtain ⟨d, v', rfl⟩ := hbehind.exists_cons hle
      rw [hbehind.item] at hc
      exact hc ▸ not_quantifier_of_isDelimiter (hv d rfl)
    unfold mixedOutcome
    dsimp only
    rw [Option.isSome_none, if_neg Bool.false_ne_true,
      if_neg (fun h ↦ (hnot _ h.1 h.2).2.1 rfl), List.isEmpty_nil, Bool.not_true,
      if_neg Bool.false_ne_true, if_neg]
    · rfl
    · rintro ⟨hle, hc | hc⟩
      · exact (hnot _ hle hc).1 rfl
      · exact (hnot _ hle hc).2.2 rfl
  rw [← hends]
  exact .mixed hmixed hreads (.inl rfl)

theorem particleEnds_mixed {rest b : String8} (hat : InContent subset stop start
      ((str "(" ++ a ++ str "#PCDATA" ++ rest ++ b ++ str ")*") ++ v))
    (ha : a ∈ optionalSpace) (hnames : MixedNames cfg.usesLegacyNameCharacterRanges rest names)
    (hb : b ∈ optionalSpace) :
    ParticleEnds cfg subset start stop
      ((start + (str "(" ++ a ++ str "#PCDATA" ++ rest ++ b ++ str ")*").length,
        some (.node .mixed .repetition none
          (names.map fun child ↦ .node .name .none (some child) []))), none) := by
  have hspaces := spaces_of_optionalSpace ha
  have hinside : InContent subset stop start (('(' : Character8) :: (a ++ (str "#PCDATA" ++
      (rest ++ (b ++ (')' : Character8) :: (('*' : Character8) :: v)))))) := by
    simp only [List.append_assoc] at hat
    exact hat
  have hreads := reads_mixed hinside hspaces hnames (spaces_of_optionalSpace hb)
  have hmixed : startsMixed subset start := (startsMixed_iff hinside).2 ⟨a, _, rfl, hspaces⟩
  have hstar : InContent subset stop (start + 1 + a.length + 7 + rest.length + b.length + 1)
      (('*' : Character8) :: v) := hinside.cons.append.append.append.append.cons
  have hlength : start + (str "(" ++ a ++ str "#PCDATA" ++ rest ++ b ++ str ")*").length =
      start + 1 + a.length + 7 + rest.length + b.length + 1 + 1 := by
    have hone : (str "(").length = 1 := rfl
    have hseven : (str "#PCDATA").length = 7 := rfl
    have hclose : (str ")*").length = 2 := rfl
    simp only [List.length_append]
    omega
  have hends : mixedOutcome subset stop
      { index := start + 1 + a.length + 7 + rest.length + b.length + 1
        names := names
        isDone := true } none =
      ((start + 1 + a.length + 7 + rest.length + b.length + 1 + 1,
        some (mixedModel names .repetition)), none) := by
    unfold mixedOutcome
    dsimp only
    rw [Option.isSome_none, if_neg Bool.false_ne_true, if_pos ⟨hstar.le_stop, hstar.item⟩]
  have hparticle := ParticleEnds.mixed hmixed hreads (.inl rfl)
  rw [hends] at hparticle
  rw [hlength]
  exact hparticle

end

/-! ## Element content -/

/-- A particle begins neither with white space nor with a `#`. -/
theorem particle_head {legacy : Bool} {w : String8} {m : ContentModel} (h : Particle legacy w m) :
    ∃ c u, w = c :: u ∧ isXmlSpace c = false ∧ c ≠ ('#' : Character8) := by
  cases h with
  | @name w q hname =>
    obtain ⟨c, u, rfl⟩ := List.exists_cons_of_ne_nil (ne_nil_of_mem_name hname)
    have hwhole : RestAt (c :: u) 1 (c :: u) := ⟨Nat.le_refl 1, Nat.add_comm 1 _, rfl⟩
    have hat : RestAt (c :: u) 1 ((c :: u) ++ []) := by rwa [List.append_nil]
    have hstart := isNameStartCharacter_name hname hat
    rw [hwhole.item] at hstart
    refine ⟨c, u ++ quantifierText q, rfl, isXmlSpace_of_nameStart hstart, ?_⟩
    rintro rfl
    exact absurd hstart (by decide)
  | @group w t children q hgroup =>
    cases hgroup with
    | choice _ _ _ => exact ⟨_, _, rfl, by decide, by decide⟩
    | seq _ _ _ => exact ⟨_, _, rfl, by decide, by decide⟩

/-- A group begins with a parenthesis and a particle. -/
theorem group_head {legacy : Bool} {w : String8} {t : ContentType} {ms : List ContentModel}
    (h : Group legacy w t ms) : ∃ a u v m, w = ('(' : Character8) :: (a ++ (u ++ v)) ∧
      (∀ c ∈ a, isXmlSpace c = true) ∧ Particle legacy u m := by
  cases h with
  | @choice a u rest m n ms ha hfirst _ =>
    refine ⟨a, u, rest, m, ?_, spaces_of_optionalSpace ha, hfirst⟩
    simp only [List.append_assoc]
    rfl
  | @seq a u rest m ms ha hfirst _ =>
    refine ⟨a, u, rest, m, ?_, spaces_of_optionalSpace ha, hfirst⟩
    simp only [List.append_assoc]
    rfl

theorem not_startsMixed_of_group {legacy : Bool} {v : String8} {t : ContentType}
    {ms : List ContentModel} (h : Group legacy w t ms)
    (hat : InContent subset stop start (w ++ v)) :
    ¬ startsMixed subset start := by
  obtain ⟨a, u, rest, m, rfl, ha, hparticle⟩ := group_head h
  obtain ⟨c, u, rfl, hc, hmarker⟩ := particle_head hparticle
  rw [startsMixed_iff hat]
  rintro ⟨b, u', hsplit, hb⟩
  have hrest : a ++ (c :: (u ++ rest ++ v)) =
      b ++ (('#' : Character8) :: (str "PCDATA" ++ u')) := by
    have htail : (a ++ (c :: u ++ rest)) ++ v = b ++ (str "#PCDATA" ++ u') :=
      (List.cons.inj hsplit).2
    rw [List.append_assoc, List.cons_append, List.cons_append] at htail
    exact htail
  have hfirst := RestAt.takeWhile_spaces (v := c :: (u ++ rest ++ v)) ha (by rintro d ⟨⟩; exact hc)
  rw [hrest, RestAt.takeWhile_spaces hb (by rintro d ⟨⟩; decide)] at hfirst
  subst hfirst
  exact hmarker (List.cons.inj (List.append_cancel_left hrest)).1

theorem particleEnds_children {v : String8} {q : Quantifier} {t : ContentType}
    {ms : List ContentModel}
    (hat : InContent subset stop start ((w ++ quantifierText q) ++ v))
    (hgroup : Group cfg.usesLegacyNameCharacterRanges w t ms) (hv : Delimits v) :
    ParticleEnds cfg subset start stop
      ((start + (w ++ quantifierText q).length, some (.node t q none ms)), none) := by
  rw [List.append_assoc] at hat
  have hmixed := not_startsMixed_of_group hgroup hat
  obtain ⟨u, hreads, htook⟩ := reads_group hgroup (s := { index := start }) (a := []) rfl rfl
    (fun c hc ↦ nomatch hc) hat hv
  have hresult : u.result = some (.node t q none ms) := htook.top rfl
  have hindex : u.index = start + 0 + w.length + (quantifierText q).length := htook.index
  have hdone : u.isDone = true := by
    unfold ContentScan.isDone
    rw [hresult]
    rfl
  have hends : contentOutcome stop u none =
      ((start + (w ++ quantifierText q).length, some (.node t q none ms)), none) := by
    unfold contentOutcome
    rw [Option.isSome_none, if_neg Bool.false_ne_true, hindex, hresult, List.length_append,
      Nat.add_zero, Nat.add_assoc]
  rw [← hends]
  exact .content hmixed hreads (.inl hdone)

/-! ## Content specifications -/

/-- What the grammar generates behind a parenthesis is returned as its tree. -/
theorem particleEnds_of_contentSpec {v : String8} {m : ContentModel}
    (h : ContentSpec cfg.usesLegacyNameCharacterRanges w m)
    (hat : InContent subset stop start (w ++ v))
    (hopen : subset.item start = '(') (hv : Delimits v) :
    ParticleEnds cfg subset start stop ((start + w.length, some m), none) := by
  cases h with
  | empty =>
    rw [hat.item] at hopen
    exact absurd hopen (by decide)
  | any =>
    rw [hat.item] at hopen
    exact absurd hopen (by decide)
  | text ha hb => exact particleEnds_text hat ha hb hv
  | mixed ha hnames hb => exact particleEnds_mixed hat ha hnames hb
  | children q hgroup => exact particleEnds_children hat hgroup hv

theorem contentSpec_of_mixed {s : MixedScan} {e : Option String} {i : Nat}
    {model : Option ContentModel}
    (hat : InContent subset stop start w) (hmixed : startsMixed subset start)
    (hleads : Leads MixedScan.isDone (mixedRound cfg subset stop) (mixedStart subset start stop)
      s e)
    (hend : Ended MixedScan.isDone s e) (hr : mixedOutcome subset stop s e = ((i, model), none)) :
    ∃ m u v, model = some m ∧ w = u ++ v ∧ ContentSpec cfg.usesLegacyNameCharacterRanges u m ∧
      i = start + u.length := by
  obtain ⟨a, w, rfl, ha⟩ := (startsMixed_iff hat).1 hmixed
  obtain ⟨hinside, hstart⟩ := mixedStart_eq hat ha
  obtain ⟨b, w, rfl, hb, hends⟩ := exists_spaces w
  rw [hinside.min_skipSpaces hb hends] at hstart
  have hnone : e = none := by
    cases e with
    | none => rfl
    | some message =>
      unfold mixedOutcome at hr
      cases hr
  subst hnone
  have hdone : s.isDone = true := by
    rcases hend with hdone | hfailed
    · exact hdone
    · cases hfailed
  rw [hstart] at hleads
  obtain ⟨names, v, hnames, hbehind, hholds⟩ := holdsNames_of_reads hleads rfl hinside.append
  obtain ⟨rest, d, hsplit, hmixedNames, hd⟩ := hholds b hb
  rw [hdone, if_pos rfl] at hsplit
  rw [List.nil_append] at hnames
  rw [hsplit] at hat
  have hindex : s.index + v.length = start + 1 + a.length + 7 + rest.length + d.length + 1 +
      v.length := by
    have hleft := hat.stop_eq
    have hright := hbehind.stop_eq
    have hseven : (str "#PCDATA").length = 7 := rfl
    simp only [List.length_cons, List.length_append] at hleft
    omega
  have hone : (str "(").length = 1 := rfl
  have hseven : (str "#PCDATA").length = 7 := rfl
  unfold mixedOutcome at hr
  dsimp only at hr
  rw [Option.isSome_none, if_neg Bool.false_ne_true] at hr
  split at hr
  · -- `)*`
    rename_i hstar
    obtain ⟨c, v, rfl⟩ := hbehind.exists_cons hstar.1
    have hc := hbehind.item.symm.trans hstar.2
    subst hc
    cases hr
    have htwo : (str ")*").length = 2 := rfl
    refine ⟨_, str "(" ++ a ++ str "#PCDATA" ++ rest ++ d ++ str ")*", v, rfl, ?_, ?_, ?_⟩
    · rw [hsplit]
      simp only [List.append_assoc]
      rfl
    · rw [hnames]
      exact .mixed (mem_optionalSpace.2 ha) hmixedNames (mem_optionalSpace.2 hd)
    · simp only [List.length_append, List.length_cons] at hindex ⊢
      omega
  split at hr
  · cases hr
  split at hr
  · cases hr
  · rename_i hempty _
    have hnil : names = [] := by
      rw [Bool.not_eq_true, Bool.not_eq_false', List.isEmpty_iff, hnames] at hempty
      exact hempty
    subst hnil
    cases hmixedNames
    cases hr
    have hclose : (str ")").length = 1 := rfl
    refine ⟨_, str "(" ++ a ++ str "#PCDATA" ++ d ++ str ")", v, rfl, ?_, ?_, ?_⟩
    · rw [hsplit]
      simp only [List.append_assoc]
      rfl
    · rw [hnames]
      exact .text (mem_optionalSpace.2 ha) (mem_optionalSpace.2 hd)
    · simp only [List.length_append, List.length_nil] at hindex ⊢
      omega

theorem contentSpec_of_content {s : ContentScan} {e : Option String} {i : Nat}
    {model : Option ContentModel} (hat : InContent subset stop start w)
    (hopen : subset.item start = '(')
    (hleads : Leads ContentScan.isDone (contentRound cfg subset stop) { index := start } s e)
    (hend : Ended ContentScan.isDone s e) (hr : contentOutcome stop s e = ((i, model), none)) :
    ∃ m u v, model = some m ∧ w = u ++ v ∧ ContentSpec cfg.usesLegacyNameCharacterRanges u m ∧
      i = start + u.length := by
  have hnone : e = none := by
    cases e with
    | none => rfl
    | some message =>
      unfold contentOutcome at hr
      cases hr
  subst hnone
  unfold contentOutcome at hr
  rw [Option.isSome_none, if_neg Bool.false_ne_true] at hr
  cases hr
  obtain ⟨m, hm⟩ : ∃ m, s.result = some m := by
    rcases hend with hdone | hfailed
    · exact Option.isSome_iff_exists.1 hdone
    · cases hfailed
  have hshaped : Shaped { index := start } := ⟨fun _ g hg ↦ (nomatch hg), fun h ↦ nomatch h⟩
  obtain ⟨r, hdemands, hbehind⟩ := demands_of_reads hleads hm rfl hshaped hat
  obtain ⟨a, u, x, v, rfl, ha, hparticle, rfl, rfl⟩ := hdemands.1 rfl
  obtain rfl : a = [] := by
    cases a with
    | nil => rfl
    | cons c a =>
      have hspace := spaces_of_optionalSpace ha c List.mem_cons_self
      rw [← hat.item (c := c), hopen] at hspace
      exact absurd hspace (by decide)
  have hspec : ContentSpec cfg.usesLegacyNameCharacterRanges u m := by
    cases hparticle with
    | @name w q hname =>
      obtain ⟨tail, hrest⟩ := hat.restAt
      simp only [List.nil_append, List.append_assoc] at hrest
      have hstart := isNameStartCharacter_name hname hrest
      rw [hopen] at hstart
      exact absurd hstart (by decide)
    | group q hgroup => exact .children q hgroup
  refine ⟨m, u, v, hm, rfl, hspec, ?_⟩
  have hleft := hat.stop_eq
  have hright := hbehind.stop_eq
  simp only [List.nil_append, List.length_append] at hleft
  omega

/-- What is returned without an error is generated by the grammar. -/
theorem contentSpec_of_particleEnds {i : Nat} {model : Option ContentModel}
    (hat : InContent subset stop start w) (hopen : subset.item start = '(')
    (h : ParticleEnds cfg subset start stop ((i, model), none)) :
    ∃ m u v, model = some m ∧ w = u ++ v ∧ ContentSpec cfg.usesLegacyNameCharacterRanges u m ∧
      i = start + u.length := by
  generalize hr : (((i, model), none) : ContentOutcome) = r at h
  cases h with
  | mixed hmixed hleads hend => exact contentSpec_of_mixed hat hmixed hleads hend hr.symm
  | content hmixed hleads hend => exact contentSpec_of_content hat hopen hleads hend hr.symm

end Xpact
