import Xpact.Grammar.ContentText

/-!
# Content models of the grammar

The stack loop of `parse_content_particle` reads the groups of the grammar.  An open group has
the type of a sequence until its first separator is met; what the stack still asks of the text is
written down as `Closes`.
-/

namespace Xpact

open Grammar Library

variable {cfg : Config} {subset : String8} {stop : Nat}

/-! ## Open groups -/

/-- The type of a group with this separator. -/
def separatorType (c : Character8) : ContentType := if c = '|' then .choice else .sequence

/-- An open group that holds a member, with the members that follow behind the separator `c`, and
the type it has in the end. -/
inductive Grows (c : Character8) :
    ContentModel × Character8 → List ContentModel → ContentType → Prop where
  | first {m : ContentModel} {ms : List ContentModel} :
      Grows c (.node .sequence .none none [m], (' ' : Character8)) ms
        (if ms = [] then .sequence else separatorType c)
  | later {cs ms : List ContentModel} :
      Grows c (.node (separatorType c) .none none cs, c) ms (separatorType c)

/-- A particle has been read within these groups, up to `i`. -/
structure Took (groups : List (ContentModel × Character8)) (t : ContentScan) (i : Nat)
    (m : ContentModel) : Prop where
  index : t.index = i
  top : groups = [] → t.result = some m
  inner : ∀ g outer, groups = g :: outer → t.result = none ∧ t.expectsChild = false ∧
    t.groups = (g.1.addChild m, g.2) :: outer

theorem took_finish {s : ContentScan} (hresult : s.result = none) (i : Nat) (m : ContentModel) :
    Took s.groups (s.finish i m) i m := by
  unfold ContentScan.finish
  cases hgroups : s.groups with
  | nil => exact ⟨rfl, fun _ ↦ rfl, fun g outer h ↦ nomatch h⟩
  | cons g outer =>
    refine ⟨rfl, fun h ↦ (nomatch h), fun g' outer' h ↦ ?_⟩
    cases h
    exact ⟨hresult, rfl, rfl⟩

/-! ## Rounds -/

section

variable (cfg) {s : ContentScan} {a v w : String8} {c : Character8}

theorem contentRound_eq (h : InContent subset stop s.index (a ++ c :: v))
    (ha : ∀ c ∈ a, isXmlSpace c = true) (hc : isXmlSpace c = false) :
    contentRound cfg subset stop s =
      if s.expectsChild then childRound cfg subset stop s (s.index + a.length)
      else separatorRound subset stop s (s.index + a.length) := by
  have hskip : min (skipSpaces subset s.index) (stop + 1) = s.index + a.length := by
    apply h.min_skipSpaces ha
    intro d hd
    cases hd
    exact hc
  unfold contentRound
  dsimp only
  rw [hskip, if_neg (Nat.not_lt.2 h.append.le_stop)]

/-- Behind its white space the declaration has ended. -/
theorem contentRound_end (h : InContent subset stop s.index a) (ha : ∀ c ∈ a, isXmlSpace c = true) :
    (contentRound cfg subset stop s).2.isSome = true := by
  have hnil : InContent subset stop s.index (a ++ []) := by rwa [List.append_nil]
  have hskip : min (skipSpaces subset s.index) (stop + 1) = s.index + a.length :=
    hnil.min_skipSpaces ha fun c hc ↦ nomatch hc
  unfold contentRound
  dsimp only
  rw [hskip, if_pos hnil.append.lt_of_nil]
  rfl

theorem contentRound_open (h : InContent subset stop s.index (a ++ ('(' : Character8) :: v))
    (ha : ∀ c ∈ a, isXmlSpace c = true) (hexpects : s.expectsChild = true) :
    contentRound cfg subset stop s =
      ({ s with
        index := s.index + a.length + 1
        groups := (.node .sequence .none none [], (' ' : Character8)) :: s.groups }, none) := by
  rw [contentRound_eq cfg h ha (by decide), if_pos hexpects]
  unfold childRound
  rw [if_pos h.append.item]

/-- A name, up to its quantifier. -/
theorem contentRound_name (h : InContent subset stop s.index (a ++ (w ++ v)))
    (ha : ∀ c ∈ a, isXmlSpace c = true) (hexpects : s.expectsChild = true)
    (hw : w ∈ name cfg.usesLegacyNameCharacterRanges) (hv : EndsNameText v) :
    contentRound cfg subset stop s =
      let next := applyContentQuantifier (nameModel w) subset (s.index + a.length + w.length) stop
      (s.finish next.1 next.2, none) := by
  have hat := h.append
  obtain ⟨tail, hrest⟩ := hat.restAt
  rw [List.append_assoc] at hrest
  have hfirst := isNameStartCharacter_name hw hrest
  have hle := hat.append.le
  have hpos := hat.pos
  have hwritten := hat.substring
  obtain ⟨c, u, rfl⟩ := List.exists_cons_of_ne_nil (ne_nil_of_mem_name hw)
  rw [hat.item] at hfirst
  have hopen : c ≠ ('(' : Character8) := by
    rintro rfl
    exact absurd hfirst (by decide)
  rw [contentRound_eq cfg h ha (isXmlSpace_of_nameStart hfirst), if_pos hexpects]
  unfold childRound
  rw [hat.item, if_neg hopen, if_pos hfirst, hat.scannedName hw hv]
  dsimp only
  rw [Nat.min_eq_left hle, hwritten]
  rfl

theorem contentRound_separator (h : InContent subset stop s.index (a ++ c :: v))
    (ha : ∀ c ∈ a, isXmlSpace c = true) (hc : c = (',' : Character8) ∨ c = ('|' : Character8))
    (hexpects : s.expectsChild = false) {g : ContentModel × Character8} {cs : List ContentModel}
    {outer : List (ContentModel × Character8)} (hgroups : s.groups = g :: outer)
    (hg : (∃ m, cs = [m] ∧ g = (.node .sequence .none none [m], (' ' : Character8))) ∨
      g = (.node (separatorType c) .none none cs, c)) :
    contentRound cfg subset stop s =
      ({ s with
        index := s.index + a.length + 1
        expectsChild := true
        groups := (.node (separatorType c) .none none cs, c) :: outer }, none) := by
  have hspace : isXmlSpace c = false := by
    rcases hc with rfl | rfl <;> decide
  rw [contentRound_eq cfg h ha hspace, if_neg (by rw [hexpects]; exact Bool.false_ne_true)]
  unfold separatorRound
  rw [hgroups, h.append.item]
  dsimp only
  rcases hg with ⟨m, rfl, rfl⟩ | rfl
  · dsimp only
    rw [if_pos hc, if_pos rfl]
    unfold separatorType ContentModel.children
    rcases hc with rfl | rfl <;> rfl
  · have hblank : c ≠ (' ' : Character8) := by
      rcases hc with rfl | rfl <;> decide
    dsimp only
    rw [if_pos hc, if_neg hblank, if_neg (fun hne ↦ hne rfl)]

theorem contentRound_close (h : InContent subset stop s.index (a ++ (')' : Character8) :: v))
    (ha : ∀ c ∈ a, isXmlSpace c = true) (hexpects : s.expectsChild = false)
    {g : ContentModel × Character8} {outer : List (ContentModel × Character8)}
    (hgroups : s.groups = g :: outer) :
    contentRound cfg subset stop s =
      let next := applyContentQuantifier g.1 subset (s.index + a.length + 1) stop
      (({ s with groups := outer }).finish next.1 next.2, none) := by
  rw [contentRound_eq cfg h ha (by decide), if_neg (by rw [hexpects]; exact Bool.false_ne_true)]
  unfold separatorRound
  rw [hgroups, h.append.item]
  dsimp only
  rw [if_neg (by decide), if_pos rfl]

end

/-! ## What the grammar generates is read -/

/-- The rounds of the loop that fail no more than the end. -/
abbrev ReadsContent (cfg : Config) (subset : String8) (stop : Nat) (s t : ContentScan) : Prop :=
  Leads ContentScan.isDone (contentRound cfg subset stop) s t none

theorem ReadsContent.round {s t u : ContentScan} (hresult : s.result = none)
    (hround : contentRound cfg subset stop s = (t, none)) (h : ReadsContent cfg subset stop t u) :
    ReadsContent cfg subset stop s u := by
  refine .next ?_ hround h
  unfold ContentScan.isDone
  rw [hresult]
  rfl

theorem spaces_of_optionalSpace {a : String8} (ha : a ∈ optionalSpace) :
    ∀ c ∈ a, isXmlSpace c = true := mem_optionalSpace.1 ha

/-- The rest of a group begins with a delimiter. -/
theorem delimits_members {legacy : Bool} {separator : Char} {rest v : String8}
    {ms : List ContentModel} (hseparator : separator = ',' ∨ separator = '|')
    (h : Members legacy separator rest ms) : Delimits (rest ++ v) := by
  cases h with
  | close ha =>
    rw [List.append_assoc]
    apply delimits_spaces (spaces_of_optionalSpace ha)
    intro c hc
    cases hc
    decide
  | next ha _ _ _ =>
    simp only [List.append_assoc]
    apply delimits_spaces (spaces_of_optionalSpace ha)
    intro c hc
    cases hc
    rcases hseparator with rfl | rfl <;> decide

/-- A group whose first member and whose rest are read. -/
theorem reads_opened {s : ContentScan} {a b w rest v : String8} {q : Quantifier} {m : ContentModel}
    {ms : List ContentModel} {t : ContentType} (hexpects : s.expectsChild = true)
    (hresult : s.result = none) (ha : ∀ c ∈ a, isXmlSpace c = true)
    (hat : InContent subset stop s.index
      (a ++ ((str "(" ++ b ++ w ++ rest) ++ (quantifierText q ++ v))))
    (hfirst : ∀ {s : ContentScan}, s.expectsChild = true → s.result = none →
      InContent subset stop s.index (b ++ (w ++ (rest ++ (quantifierText q ++ v)))) →
      ∃ t, ReadsContent cfg subset stop s t ∧ Took s.groups t (s.index + b.length + w.length) m)
    (hrest : ∀ {r : ContentScan},
      r.groups = (.node .sequence .none none [m], (' ' : Character8)) :: s.groups →
      r.expectsChild = false → r.result = none →
      InContent subset stop r.index (rest ++ (quantifierText q ++ v)) →
      ∃ u, ReadsContent cfg subset stop r u ∧
        Took s.groups u (r.index + rest.length + (quantifierText q).length)
          (.node t q none ([m] ++ ms))) :
    ∃ u, ReadsContent cfg subset stop s u ∧
      Took s.groups u
        (s.index + a.length + (str "(" ++ b ++ w ++ rest).length + (quantifierText q).length)
        (.node t q none (m :: ms)) := by
  simp only [List.append_assoc] at hat
  have hopened := contentRound_open cfg hat ha hexpects
  have hinside : InContent subset stop (s.index + a.length + 1)
      (b ++ (w ++ (rest ++ (quantifierText q ++ v)))) := hat.append.cons
  obtain ⟨r, hreads, htook⟩ := hfirst (s := { s with
    index := s.index + a.length + 1
    groups := (.node .sequence .none none [], (' ' : Character8)) :: s.groups })
    hexpects hresult hinside
  obtain ⟨hnone, hwaits, hgroups⟩ := htook.inner _ _ rfl
  have hindex : r.index = s.index + a.length + 1 + b.length + w.length := htook.index
  have hbehind := hinside.append.append
  rw [← hindex] at hbehind
  obtain ⟨u, hreadsRest, htookRest⟩ := hrest hgroups hwaits hnone hbehind
  refine ⟨u, .round hresult hopened (hreads.trans hreadsRest), ?_⟩
  have hlength : s.index + a.length + (str "(" ++ b ++ w ++ rest).length =
      r.index + rest.length := by
    rw [hindex]
    simp only [List.length_append]
    have hone : (str "(").length = 1 := rfl
    omega
  rw [hlength]
  exact htookRest

mutual

/-- A particle of the grammar is read as its tree. -/
theorem reads_particle {w : String8} {m : ContentModel} :
    Particle cfg.usesLegacyNameCharacterRanges w m → ∀ {s : ContentScan} {a v : String8},
      s.expectsChild = true → s.result = none → (∀ c ∈ a, isXmlSpace c = true) →
      InContent subset stop s.index (a ++ (w ++ v)) → Delimits v →
      ∃ t, ReadsContent cfg subset stop s t ∧
        Took s.groups t (s.index + a.length + w.length) m
  | .name (w := w) q hname, s, a, v, hexpects, hresult, ha, hat, hv => by
    rw [List.append_assoc] at hat
    have hround := contentRound_name cfg hat ha hexpects hname (endsNameText_quantifierText q hv)
    rw [hat.append.append.applyContentQuantifier hv rfl] at hround
    refine ⟨_, .round hresult hround (.here _), ?_⟩
    rw [List.length_append, ← Nat.add_assoc]
    exact took_finish hresult _ _
  | .group (w := w) q hgroup, s, a, v, hexpects, hresult, ha, hat, hv => by
    rw [List.append_assoc] at hat
    rw [List.length_append, ← Nat.add_assoc]
    exact reads_group hgroup hexpects hresult ha hat hv

theorem reads_group {w : String8} {t : ContentType} {ms : List ContentModel} :
    Group cfg.usesLegacyNameCharacterRanges w t ms →
    ∀ {s : ContentScan} {a v : String8} {q : Quantifier},
      s.expectsChild = true → s.result = none → (∀ c ∈ a, isXmlSpace c = true) →
      InContent subset stop s.index (a ++ (w ++ (quantifierText q ++ v))) → Delimits v →
      ∃ u, ReadsContent cfg subset stop s u ∧
        Took s.groups u (s.index + a.length + w.length + (quantifierText q).length)
          (.node t q none ms)
  | @Group.choice _ b w rest m n ms hb hfirst hrest, s, a, v, q, hexpects, hresult, ha, hat, hv =>
    reads_opened hexpects hresult ha hat
      (fun hexpects hresult hat ↦ reads_particle hfirst hexpects hresult
        (spaces_of_optionalSpace hb) hat (delimits_members (.inr rfl) hrest))
      (fun hgroups hexpects hresult hat ↦ reads_members (.inr rfl) hrest hgroups hexpects hresult
        hat hv .first)
  | @Group.seq _ b w rest m ms hb hfirst hrest, s, a, v, q, hexpects, hresult, ha, hat, hv => by
    have htype : (if ms = [] then .sequence else separatorType (',' : Char).toUInt8) =
        ContentType.sequence := by
      split <;> rfl
    refine reads_opened hexpects hresult ha hat
      (fun hexpects hresult hat ↦ reads_particle hfirst hexpects hresult
        (spaces_of_optionalSpace hb) hat (delimits_members (.inl rfl) hrest))
      (fun hgroups hexpects hresult hat ↦ ?_)
    have hrestReads := reads_members (.inl rfl) hrest hgroups hexpects hresult hat hv .first
    rwa [htype] at hrestReads

theorem reads_members {separator : Char} {rest : String8} {ms : List ContentModel}
    (hseparator : separator = ',' ∨ separator = '|') :
    Members cfg.usesLegacyNameCharacterRanges separator rest ms →
    ∀ {s : ContentScan} {g : ContentModel × Character8}
      {outer : List (ContentModel × Character8)} {t : ContentType} {q : Quantifier} {v : String8},
      s.groups = g :: outer → s.expectsChild = false → s.result = none →
      InContent subset stop s.index (rest ++ (quantifierText q ++ v)) → Delimits v →
      Grows separator.toUInt8 g ms t →
      ∃ u, ReadsContent cfg subset stop s u ∧
        Took outer u (s.index + rest.length + (quantifierText q).length)
          (.node t q none (g.1.children ++ ms))
  | @Members.close _ _ a ha, s, g, outer, t, q, v, hgroups, hexpects, hresult, hat, hv,
      hgrows => by
    rw [List.append_assoc] at hat
    have hmodel : g.1.setQuantifier q = .node t q none (g.1.children ++ []) ∧
        g.1.setQuantifier .none = g.1 := by
      cases hgrows with
      | first => exact ⟨rfl, rfl⟩
      | @later cs ms =>
        refine ⟨?_, rfl⟩
        rw [List.append_nil]
        rfl
    have hround := contentRound_close cfg hat (spaces_of_optionalSpace ha) hexpects hgroups
    rw [hat.append.cons.applyContentQuantifier hv hmodel.2, hmodel.1] at hround
    refine ⟨_, .round hresult hround (.here _), ?_⟩
    rw [List.length_append, ← Nat.add_assoc]
    exact took_finish (s := { s with groups := outer }) hresult _ _
  | @Members.next _ _ a b w rest m ms ha hb hnext hrest, s, g, outer, t, q, v, hgroups, hexpects,
      hresult, hat, hv, hgrows => by
    simp only [List.append_assoc] at hat
    have hcharacter : separator.toUInt8 = (',' : Character8) ∨
        separator.toUInt8 = ('|' : Character8) := by
      rcases hseparator with rfl | rfl
      · exact .inl rfl
      · exact .inr rfl
    have hgroup : ((∃ m, g.1.children = [m] ∧
        g = (.node .sequence .none none [m], (' ' : Character8))) ∨
        g = (.node (separatorType separator.toUInt8) .none none g.1.children,
          separator.toUInt8)) ∧ t = separatorType separator.toUInt8 := by
      cases hgrows with
      | @first first ms => exact ⟨.inl ⟨first, rfl, rfl⟩, rfl⟩
      | later => exact ⟨.inr rfl, rfl⟩
    obtain ⟨hgroup, rfl⟩ := hgroup
    have hround := contentRound_separator cfg hat (spaces_of_optionalSpace ha) hcharacter
      hexpects hgroups hgroup
    have hinside : InContent subset stop (s.index + a.length + 1)
        (b ++ (w ++ (rest ++ (quantifierText q ++ v)))) := hat.append.cons
    obtain ⟨r, hreads, htook⟩ := reads_particle hnext (s := { s with
      index := s.index + a.length + 1
      expectsChild := true
      groups := (.node (separatorType separator.toUInt8) .none none g.1.children,
        separator.toUInt8) :: outer }) rfl hresult (spaces_of_optionalSpace hb)
      hinside (delimits_members hseparator hrest)
    obtain ⟨hnone, hwaits, hgroups'⟩ := htook.inner _ _ rfl
    have hindex : r.index = s.index + a.length + 1 + b.length + w.length := htook.index
    have hbehind := hinside.append.append
    rw [← hindex] at hbehind
    obtain ⟨u, hreadsRest, htookRest⟩ := reads_members hseparator hrest hgroups' hwaits hnone
      hbehind hv .later
    refine ⟨u, .round hresult hround (hreads.trans hreadsRest), ?_⟩
    have hlength : s.index + (a ++ [separator.toUInt8] ++ b ++ w ++ rest).length =
        r.index + rest.length := by
      rw [hindex]
      simp only [List.length_append, List.length_singleton]
      omega
    have hmembers : g.1.children ++ m :: ms = g.1.children ++ [m] ++ ms := by
      rw [List.append_assoc, List.singleton_append]
    rw [hlength, hmembers]
    exact htookRest

end

/-! ## What is read is generated by the grammar -/

/-- An open group that waits for a member. -/
inductive Waits : ContentModel × Character8 → Prop where
  | fresh : Waits (.node .sequence .none none [], (' ' : Character8))
  | later {separator : Char} {cs : List ContentModel}
      (hseparator : separator = ',' ∨ separator = '|') :
      Waits (.node (separatorType separator.toUInt8) .none none cs, separator.toUInt8)

/-- An open group behind a member. -/
inductive Filled : ContentModel × Character8 → Prop where
  | first {m : ContentModel} : Filled (.node .sequence .none none [m], (' ' : Character8))
  | later {separator : Char} {cs : List ContentModel}
      (hseparator : separator = ',' ∨ separator = '|') :
      Filled (.node (separatorType separator.toUInt8) .none none cs, separator.toUInt8)

theorem Waits.filled {g : ContentModel × Character8} (h : Waits g) (m : ContentModel) :
    Filled (g.1.addChild m, g.2) := by
  cases h with
  | fresh => exact .first
  | later hseparator => exact .later hseparator

/-- The groups of the loop while it goes on. -/
structure Shaped (s : ContentScan) : Prop where
  waits : s.expectsChild = true → ∀ g ∈ s.groups, Waits g
  filled : s.expectsChild = false →
    ∃ g outer, s.groups = g :: outer ∧ Filled g ∧ ∀ h ∈ outer, Waits h

section

variable (legacy : Bool)

/-- `w` is the rest of the group `g` with its quantifier, and what then satisfies `closes`. -/
def Continues (g : ContentModel × Character8) (closes : ContentModel → String8 → Prop)
    (w : String8) : Prop :=
  ∃ separator rest ms q t v, (separator = ',' ∨ separator = '|') ∧
    w = rest ++ (quantifierText q ++ v) ∧ Members legacy separator rest ms ∧
    Grows separator.toUInt8 g ms t ∧ closes (.node t q none (g.1.children ++ ms)) v

/-- Behind the particle `x`, the text `w` closes the groups to the model `m` and leaves `r`. -/
def Closes : List (ContentModel × Character8) → ContentModel → String8 → ContentModel →
    String8 → Prop
  | [], x, w, m, r => w = r ∧ m = x
  | g :: outer, x, w, m, r =>
    Continues legacy (g.1.addChild x, g.2) (fun y v ↦ Closes outer y v m r) w

/-- What the loop asks of the text `w` at its index, to end with `m` and leave `r`. -/
def Demands (s : ContentScan) (w : String8) (m : ContentModel) (r : String8) : Prop :=
  (s.expectsChild = true → ∃ a u x v, w = a ++ (u ++ v) ∧ a ∈ optionalSpace ∧
    Particle legacy u x ∧ Closes legacy s.groups x v m r) ∧
  (s.expectsChild = false → ∀ g outer, s.groups = g :: outer →
    Continues legacy g (fun y v ↦ Closes legacy outer y v m r) w)

end

/-- A group is closed. -/
theorem group_of_members {legacy : Bool} {separator : Char} {a w rest : String8} {t : ContentType}
    {m : ContentModel} {ms : List ContentModel} (hseparator : separator = ',' ∨ separator = '|')
    (ha : a ∈ optionalSpace) (hfirst : Particle legacy w m)
    (hrest : Members legacy separator rest ms)
    (hgrows : Grows separator.toUInt8 (.node .sequence .none none [m], (' ' : Character8)) ms t) :
    Group legacy (str "(" ++ a ++ w ++ rest) t (m :: ms) := by
  have htype : t = if ms = [] then .sequence else separatorType separator.toUInt8 := by
    generalize hg : (ContentModel.node .sequence .none none [m], (' ' : Character8)) = g at hgrows
    cases hgrows with
    | first => rfl
    | later =>
      have hblank : (' ' : Character8) = separator.toUInt8 := congrArg Prod.snd hg
      rcases hseparator with rfl | rfl <;> exact absurd hblank (by decide)
  cases hrest with
  | close hb =>
    rw [htype, if_pos rfl]
    exact .seq ha hfirst (.close hb)
  | next hb hd hnext hmore =>
    rw [htype, if_neg (List.cons_ne_nil _ _)]
    rcases hseparator with rfl | rfl
    · exact .seq ha hfirst (.next hb hd hnext hmore)
    · exact .choice ha hfirst (.next hb hd hnext hmore)

section

variable {s s' t : ContentScan} {a w v : String8} {m x : ContentModel} {i : Nat} {c : Character8}

/-- What the rounds after the first one ask of the text. -/
structure Later (cfg : Config) (subset : String8) (stop : Nat) (s' t : ContentScan)
    (m : ContentModel) : Prop where
  goes : s'.result = none → Shaped s' → ∀ w, InContent subset stop s'.index w →
    ∃ r, Demands cfg.usesLegacyNameCharacterRanges s' w m r ∧ InContent subset stop t.index r
  ends : ∀ x, s'.result = some x → t = s' ∧ m = x

theorem Later.closes (h : Later cfg subset stop s' t m)
    {groups : List (ContentModel × Character8)} (htook : Took groups s' i x)
    (hwaits : ∀ g ∈ groups, Waits g) (hat : InContent subset stop i v) :
    ∃ r, Closes cfg.usesLegacyNameCharacterRanges groups x v m r ∧
      InContent subset stop t.index r := by
  rw [← htook.index] at hat
  cases groups with
  | nil =>
    obtain ⟨rfl, rfl⟩ := h.ends x (htook.top rfl)
    exact ⟨v, ⟨rfl, rfl⟩, hat⟩
  | cons g outer =>
    obtain ⟨hresult, hexpects, hgroups⟩ := htook.inner g outer rfl
    have hshaped : Shaped s' := by
      refine ⟨fun h ↦ ?_, fun _ ↦ ⟨_, outer, hgroups, ?_, ?_⟩⟩
      · rw [hexpects] at h
        cases h
      · exact (hwaits g List.mem_cons_self).filled x
      · exact fun h hh ↦ hwaits h (List.mem_cons_of_mem g hh)
    obtain ⟨r, hdemands, hend⟩ := h.goes hresult hshaped v hat
    exact ⟨r, hdemands.2 hexpects _ _ hgroups, hend⟩

/-- The round that opens a group. -/
theorem Later.demands_open (h : Later cfg subset stop s' t m)
    (hround : contentRound cfg subset stop s = (s', none)) (hresult : s.result = none)
    (hshaped : Shaped s) (hexpects : s.expectsChild = true)
    (hat : InContent subset stop s.index (a ++ ('(' : Character8) :: v))
    (ha : ∀ c ∈ a, isXmlSpace c = true) :
    ∃ u x v' r, ('(' : Character8) :: v = u ++ v' ∧
      Particle cfg.usesLegacyNameCharacterRanges u x ∧
      Closes cfg.usesLegacyNameCharacterRanges s.groups x v' m r ∧
      InContent subset stop t.index r := by
  rw [contentRound_open cfg hat ha hexpects] at hround
  cases hround
  have hnext : Shaped { s with
      index := s.index + a.length + 1
      groups := (.node .sequence .none none [], (' ' : Character8)) :: s.groups } := by
    refine ⟨fun _ g hg ↦ ?_, fun hnot ↦ ?_⟩
    · rcases List.mem_cons.1 hg with rfl | hg
      · exact .fresh
      · exact hshaped.waits hexpects g hg
    · exact absurd (hexpects.symm.trans hnot) (by decide)
  obtain ⟨r, hdemands, hend⟩ := h.goes hresult hnext v hat.append.cons
  obtain ⟨b, u, x, v, rfl, hb, hparticle, hcloses⟩ := hdemands.1 hexpects
  obtain ⟨separator, rest, ms, q, type, v, hseparator, rfl, hmembers, hgrows, hcloses⟩ := hcloses
  have hgroup := group_of_members hseparator hb hparticle hmembers hgrows
  refine ⟨str "(" ++ b ++ u ++ rest ++ quantifierText q, _, v, r, ?_, .group q hgroup, hcloses,
    hend⟩
  simp only [List.append_assoc]
  rfl

/-- The round that reads a name. -/
theorem Later.demands_name (h : Later cfg subset stop s' t m)
    (hround : contentRound cfg subset stop s = (s', none)) (hresult : s.result = none)
    (hshaped : Shaped s) (hexpects : s.expectsChild = true)
    (hat : InContent subset stop s.index (a ++ c :: v)) (ha : ∀ c ∈ a, isXmlSpace c = true)
    (hc : isXmlSpace c = false) (hopen : c ≠ ('(' : Character8)) :
    ∃ u x v' r, c :: v = u ++ v' ∧ Particle cfg.usesLegacyNameCharacterRanges u x ∧
      Closes cfg.usesLegacyNameCharacterRanges s.groups x v' m r ∧
      InContent subset stop t.index r := by
  have hname := hat.append
  rw [contentRound_eq cfg hat ha hc, if_pos hexpects] at hround
  unfold childRound at hround
  rw [hname.item, if_neg hopen] at hround
  split at hround
  · rename_i hfirst
    dsimp only at hround
    split at hround
    · rename_i hfailed
      rw [(Prod.mk.inj hround).2] at hfailed
      cases hfailed
    · rename_i hscan
      rw [Bool.not_eq_true, Option.isSome_eq_false_iff, Option.isNone_iff_eq_none] at hscan
      obtain ⟨w, v', hsplit, hw, hend⟩ := hname.exists_name hname.le_stop
        (by rw [hname.item]; exact hfirst) hscan
      rw [hsplit] at hname
      obtain ⟨q, v, rfl, hquantifier⟩ := hname.append.exists_quantifier
        (show (nameModel w).setQuantifier .none = nameModel w from rfl)
      rw [hend, Nat.min_eq_left hname.append.le, hname.substring, hquantifier] at hround
      cases hround
      obtain ⟨r, hcloses, hrest⟩ := h.closes (took_finish hresult _ _) (hshaped.waits hexpects)
        hname.append.append
      refine ⟨w ++ quantifierText q, _, v, r, ?_, .name q hw, hcloses, hrest⟩
      rw [hsplit, List.append_assoc]
  · cases hround

/-- The round that reads a separator. -/
theorem Later.continues_separator (h : Later cfg subset stop s' t m)
    (hround : contentRound cfg subset stop s = (s', none)) (hresult : s.result = none)
    (hexpects : s.expectsChild = false) {g : ContentModel × Character8}
    {outer : List (ContentModel × Character8)} (hgroups : s.groups = g :: outer)
    (hfilled : Filled g)
    (hwaits : ∀ h ∈ outer, Waits h) {separator : Char}
    (hseparator : separator = ',' ∨ separator = '|')
    (hat : InContent subset stop s.index (a ++ separator.toUInt8 :: v))
    (ha : ∀ c ∈ a, isXmlSpace c = true) :
    ∃ r, Continues cfg.usesLegacyNameCharacterRanges g
        (fun y v ↦ Closes cfg.usesLegacyNameCharacterRanges outer y v m r)
        (a ++ separator.toUInt8 :: v) ∧ InContent subset stop t.index r := by
  have hcharacter : separator.toUInt8 = (',' : Character8) ∨
      separator.toUInt8 = ('|' : Character8) := by
    rcases hseparator with rfl | rfl
    · exact .inl rfl
    · exact .inr rfl
  have hblank : (' ' : Character8) ≠ separator.toUInt8 := by
    rcases hseparator with rfl | rfl <;> decide
  -- With another separator than the group's the round would have failed.
  have hgroup : (∃ m, g.1.children = [m] ∧
      g = (.node .sequence .none none [m], (' ' : Character8))) ∨
      g = (.node (separatorType separator.toUInt8) .none none g.1.children,
        separator.toUInt8) := by
    cases hfilled with
    | @first m => exact .inl ⟨m, rfl, rfl⟩
    | @later other cs hother =>
      by_cases heq : other = separator
      · subst heq
        exact .inr rfl
      · have hblank : other.toUInt8 ≠ (' ' : Character8) := by
          rcases hother with rfl | rfl <;> decide
        have hdiffers : other.toUInt8 ≠ separator.toUInt8 := by
          rcases hother with rfl | rfl <;> rcases hseparator with rfl | rfl
          · exact absurd rfl heq
          · decide
          · decide
          · exact absurd rfl heq
        have hspace : isXmlSpace separator.toUInt8 = false := by
          rcases hseparator with rfl | rfl <;> decide
        rw [contentRound_eq cfg hat ha hspace,
          if_neg (by rw [hexpects]; exact Bool.false_ne_true)] at hround
        unfold separatorRound at hround
        rw [hgroups, hat.append.item] at hround
        dsimp only at hround
        rw [if_pos hcharacter, if_neg hblank, if_pos hdiffers] at hround
        cases hround
  rw [contentRound_separator cfg hat ha hcharacter hexpects hgroups hgroup] at hround
  cases hround
  have hnext : Shaped { s with
      index := s.index + a.length + 1
      expectsChild := true
      groups := (.node (separatorType separator.toUInt8) .none none g.1.children,
        separator.toUInt8) :: outer } := by
    refine ⟨fun _ h hh ↦ ?_, fun hnot ↦ nomatch hnot⟩
    rcases List.mem_cons.1 hh with rfl | hh
    · exact .later hseparator
    · exact hwaits h hh
  obtain ⟨r, hdemands, hend⟩ := h.goes hresult hnext v hat.append.cons
  obtain ⟨b, u, x, v, rfl, hb, hparticle, hcloses⟩ := hdemands.1 rfl
  obtain ⟨later, rest, ms, q, type, v, hlater, rfl, hmembers, hgrows, hcloses⟩ := hcloses
  have hsame : separator.toUInt8 = later.toUInt8 ∧ type = separatorType later.toUInt8 := by
    generalize hg : (ContentModel.addChild (.node (separatorType separator.toUInt8) .none none
      g.1.children) x, separator.toUInt8) = h at hgrows
    cases hgrows with
    | first => exact absurd (congrArg Prod.snd hg).symm hblank
    | later => exact ⟨congrArg Prod.snd hg, rfl⟩
  obtain ⟨hsame, rfl⟩ := hsame
  have hrest : Members cfg.usesLegacyNameCharacterRanges later
      (a ++ [later.toUInt8] ++ b ++ u ++ rest) (x :: ms) :=
    .next (mem_optionalSpace.2 ha) hb hparticle hmembers
  have hgrowsBefore : Grows later.toUInt8 g (x :: ms) (separatorType later.toUInt8) := by
    rcases hgroup with ⟨first, -, rfl⟩ | hg
    · have htype : (if x :: ms = [] then .sequence else separatorType later.toUInt8) =
          separatorType later.toUInt8 := if_neg (List.cons_ne_nil x ms)
      rw [← htype]
      exact .first
    · rw [hg, hsame]
      exact .later
  refine ⟨r, ⟨later, _, x :: ms, q, _, v, hlater, ?_, hrest, hgrowsBefore, ?_⟩, hend⟩
  · rw [hsame]
    simp only [List.append_assoc]
    rfl
  · have hmembers : g.1.children ++ x :: ms = g.1.children ++ [x] ++ ms := by
      rw [List.append_assoc, List.singleton_append]
    rw [hmembers]
    exact hcloses

/-- The round that closes a group. -/
theorem Later.continues_close (h : Later cfg subset stop s' t m)
    (hround : contentRound cfg subset stop s = (s', none)) (hresult : s.result = none)
    (hexpects : s.expectsChild = false) {g : ContentModel × Character8}
    {outer : List (ContentModel × Character8)} (hgroups : s.groups = g :: outer)
    (hfilled : Filled g)
    (hwaits : ∀ h ∈ outer, Waits h)
    (hat : InContent subset stop s.index (a ++ (')' : Character8) :: v))
    (ha : ∀ c ∈ a, isXmlSpace c = true) :
    ∃ r, Continues cfg.usesLegacyNameCharacterRanges g
        (fun y v ↦ Closes cfg.usesLegacyNameCharacterRanges outer y v m r)
        (a ++ (')' : Character8) :: v) ∧ InContent subset stop t.index r := by
  obtain ⟨separator, type, hseparator, hgrows, hmodel⟩ : ∃ separator type,
      (separator = ',' ∨ separator = '|') ∧ Grows separator.toUInt8 g [] type ∧
      ∀ q, g.1.setQuantifier q = .node type q none (g.1.children ++ []) := by
    cases hfilled with
    | first => exact ⟨',', .sequence, .inl rfl, .first, fun q ↦ rfl⟩
    | @later separator cs hseparator =>
      refine ⟨separator, _, hseparator, .later, fun q ↦ ?_⟩
      rw [List.append_nil]
      rfl
  have hplain : g.1.setQuantifier .none = g.1 := by
    cases hfilled with
    | first => rfl
    | later _ => rfl
  obtain ⟨q, v, rfl, hquantifier⟩ := hat.append.cons.exists_quantifier hplain
  rw [contentRound_close cfg hat ha hexpects hgroups, hquantifier] at hround
  cases hround
  obtain ⟨r, hcloses, hend⟩ := h.closes
    (took_finish (s := { s with groups := outer }) hresult _ _) hwaits hat.append.cons.append
  rw [hmodel] at hcloses
  refine ⟨r, ⟨separator, a ++ str ")", [], q, type, v, hseparator, ?_,
    .close (mem_optionalSpace.2 ha), hgrows, hcloses⟩, hend⟩
  rw [List.append_assoc]
  rfl

/-- A round that waits for a separator and does not fail reads one, or the end of the group. -/
theorem separator_or_close {g : ContentModel × Character8}
    {outer : List (ContentModel × Character8)}
    (hround : contentRound cfg subset stop s = (s', none)) (hexpects : s.expectsChild = false)
    (hgroups : s.groups = g :: outer) (hat : InContent subset stop s.index (a ++ c :: v))
    (ha : ∀ c ∈ a, isXmlSpace c = true) (hc : isXmlSpace c = false) :
    (∃ separator : Char, (separator = ',' ∨ separator = '|') ∧ c = separator.toUInt8) ∨
      c = (')' : Character8) := by
  rw [contentRound_eq cfg hat ha hc, if_neg (by rw [hexpects]; exact Bool.false_ne_true)] at hround
  unfold separatorRound at hround
  rw [hgroups, hat.append.item] at hround
  dsimp only at hround
  split at hround
  · rename_i hseparator
    rcases hseparator with rfl | rfl
    · exact .inl ⟨',', .inl rfl, rfl⟩
    · exact .inl ⟨'|', .inr rfl, rfl⟩
  split at hround
  · rename_i hclose
    exact .inr hclose
  · cases hround

/-- One round. -/
theorem Later.demands (h : Later cfg subset stop s' t m)
    (hround : contentRound cfg subset stop s = (s', none)) (hresult : s.result = none)
    (hshaped : Shaped s) (hat : InContent subset stop s.index w) :
    ∃ r, Demands cfg.usesLegacyNameCharacterRanges s w m r ∧ InContent subset stop t.index r := by
  obtain ⟨a, u, rfl, ha, hends⟩ := exists_spaces w
  cases u with
  | nil =>
    rw [List.append_nil] at hat
    have hfailed := contentRound_end cfg hat ha
    rw [hround] at hfailed
    cases hfailed
  | cons c v =>
    have hc := hends c rfl
    cases hexpects : s.expectsChild with
    | true =>
      have hparticle : ∃ u x v' r, c :: v = u ++ v' ∧
          Particle cfg.usesLegacyNameCharacterRanges u x ∧
          Closes cfg.usesLegacyNameCharacterRanges s.groups x v' m r ∧
          InContent subset stop t.index r := by
        by_cases hopen : c = ('(' : Character8)
        · subst hopen
          exact h.demands_open hround hresult hshaped hexpects hat ha
        · exact h.demands_name hround hresult hshaped hexpects hat ha hc hopen
      obtain ⟨u, x, v', r, hsplit, hparticle, hcloses, hend⟩ := hparticle
      refine ⟨r, ⟨fun _ ↦ ⟨a, u, x, v', ?_, mem_optionalSpace.2 ha, hparticle, hcloses⟩, ?_⟩,
        hend⟩
      · rw [hsplit]
      · intro hnot
        rw [hexpects] at hnot
        cases hnot
    | false =>
      obtain ⟨g, outer, hgroups, hfilled, hwaits⟩ := hshaped.filled hexpects
      have hcontinues : ∃ r, Continues cfg.usesLegacyNameCharacterRanges g
          (fun y v ↦ Closes cfg.usesLegacyNameCharacterRanges outer y v m r) (a ++ c :: v) ∧
          InContent subset stop t.index r := by
        rcases separator_or_close hround hexpects hgroups hat ha hc with
          ⟨separator, hseparator, rfl⟩ | rfl
        · exact h.continues_separator hround hresult hexpects hgroups hfilled hwaits hseparator hat
            ha
        · exact h.continues_close hround hresult hexpects hgroups hfilled hwaits hat ha
      obtain ⟨r, hcontinues, hend⟩ := hcontinues
      refine ⟨r, ⟨?_, fun _ g' outer' hsame ↦ ?_⟩, hend⟩
      · intro hnot
        rw [hexpects] at hnot
        cases hnot
      · rw [hgroups] at hsame
        cases hsame
        exact hcontinues

/-- What the loop reads up to a model is what it asks of the text. -/
theorem demands_of_reads (h : ReadsContent cfg subset stop s t) (ht : t.result = some m)
    (hresult : s.result = none) (hshaped : Shaped s) (hat : InContent subset stop s.index w) :
    ∃ r, Demands cfg.usesLegacyNameCharacterRanges s w m r ∧ InContent subset stop t.index r := by
  obtain ⟨f, hf⟩ : ∃ f : Option String, f = none := ⟨none, rfl⟩
  unfold ReadsContent at h
  rw [← hf] at h
  induction h generalizing w with
  | here s =>
    rw [ht] at hresult
    cases hresult
  | @next s s' t f hdone hround hrest ih =>
    have hlater : Later cfg subset stop s' t m := by
      refine ⟨fun hresult hshaped w hat ↦ ih ht hresult hshaped hat hf, fun x hx ↦ ?_⟩
      have hdone' : s'.isDone = true := by
        unfold ContentScan.isDone
        rw [hx]
        rfl
      obtain ⟨rfl, -⟩ := hrest.of_done hdone'
      exact ⟨rfl, Option.some.inj (ht.symm.trans hx)⟩
    exact hlater.demands hround hresult hshaped hat
  | fails _ _ => cases hf

end

end Xpact
