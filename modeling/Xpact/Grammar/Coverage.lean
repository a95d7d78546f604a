import Xpact.Grammar.Productions
import Xpact.Library.Delimiters
import Xpact.Parser.Names

/-!
# Productions and delimiters

What a search for a delimiter sees of the grammar.  The delimiters of a declaration occur in the
texts of the grammar in literals, comments and processing instructions only, which a search passes
over as a whole; so it covers every production.
-/

namespace Xpact.Grammar

open Computability Library Library.Delimiters

/-! ## The bytes of the productions -/

/-- A byte that delimits nothing. -/
def isOrdinary (c : Character8) : Bool := !(str "\"'<>[]").contains c

/-- Every byte of a text of `L` satisfies `p`. -/
def Bytes (p : Character8 → Bool) (L : Language Character8) : Prop := ∀ w ∈ L, ∀ c ∈ w, p c = true

namespace Bytes

variable {p : Character8 → Bool} {L M : Language Character8}

theorem mul (hL : Bytes p L) (hM : Bytes p M) : Bytes p (L * M) := by
  intro w hw c hc
  obtain ⟨u, hu, v, hv, rfl⟩ := Language.mem_mul.1 hw
  cases List.mem_append.1 hc with
  | inl h => exact hL u hu c h
  | inr h => exact hM v hv c h

theorem add (hL : Bytes p L) (hM : Bytes p M) : Bytes p (L + M) := by
  intro w hw c hc
  cases (Language.mem_add L M w).1 hw with
  | inl h => exact hL w h c hc
  | inr h => exact hM w h c hc

theorem kstar (hL : Bytes p L) : Bytes p L∗ := by
  intro w hw c hc
  obtain ⟨parts, rfl, hparts⟩ := Language.mem_kstar.1 hw
  obtain ⟨u, hu, hcu⟩ := List.mem_flatten.1 hc
  exact hL u (hparts u hu) c hcu

theorem optional (hL : Bytes p L) : Bytes p (optional L) := by
  apply Bytes.add _ hL
  intro w hw c hc
  rw [(Language.mem_one w).1 hw] at hc
  cases hc

theorem oneOrMore (hL : Bytes p L) : Bytes p (oneOrMore L) := hL.mul hL.kstar

theorem text {s : String} (h : ∀ c ∈ str s, p c = true) : Bytes p (text s) := by
  intro w hw c hc
  exact h c (by rwa [Set.mem_singleton_iff.1 hw] at hc)

theorem mono {q : Character8 → Bool} (hL : Bytes p L) (h : ∀ c, p c = true → q c = true) :
    Bytes q L := fun w hw c hc ↦ h c (hL w hw c hc)

end Bytes

theorem utf8Bytes_ascii {code : Nat} (h : code < 128) : utf8Bytes code = [UInt8.ofNat code] := by
  unfold utf8Bytes
  rw [if_pos (by omega)]

/-- The bytes of a character behind ASCII are above ASCII. -/
theorem utf8Bytes_wide {code : Nat} (hbound : code ≤ 1114111) (h : 128 ≤ code) :
    ∀ c ∈ utf8Bytes code, 128 ≤ c.toNat := by
  intro c hc
  unfold utf8Bytes at hc
  rw [if_neg (by omega)] at hc
  split at hc
  · simp only [List.mem_cons, List.not_mem_nil, or_false] at hc
    rcases hc with rfl | rfl <;> rw [UInt8.toNat_ofNat'] <;> omega
  · split at hc
    · simp only [List.mem_cons, List.not_mem_nil, or_false] at hc
      rcases hc with rfl | rfl | rfl <;> rw [UInt8.toNat_ofNat'] <;> omega
    · simp only [List.mem_cons, List.not_mem_nil, or_false] at hc
      rcases hc with rfl | rfl | rfl | rfl <;> rw [UInt8.toNat_ofNat'] <;> omega

/-- A character is one ASCII byte of the class, or bytes above ASCII. -/
theorem character_cases {p : Nat → Bool} {w : String8} (h : w ∈ character p) :
    (∃ code, code < 128 ∧ p code = true ∧ w = [UInt8.ofNat code]) ∨ ∀ c ∈ w, 128 ≤ c.toNat := by
  obtain ⟨code, hcode, hp, rfl⟩ := h
  by_cases hascii : code < 128
  · exact Or.inl ⟨code, hascii, hp, utf8Bytes_ascii hascii⟩
  · exact Or.inr (utf8Bytes_wide (isXmlCharacterCode_le hcode) (by omega))

/-- A class is tested on its ASCII characters when the test holds above ASCII. -/
theorem bytes_character {p : Nat → Bool} {q : Character8 → Bool}
    (hascii : ∀ code, code < 128 → p code = true → q (UInt8.ofNat code) = true)
    (hwide : ∀ c : Character8, 128 ≤ c.toNat → q c = true) : Bytes q (character p) := by
  intro w hw c hc
  cases character_cases hw with
  | inl h =>
    obtain ⟨code, hcode, hp, rfl⟩ := h
    rw [List.mem_singleton.1 hc]
    exact hascii code hcode hp
  | inr h => exact hwide c (h c hc)

theorem isOrdinary_wide (c : Character8) (h : 128 ≤ c.toNat) : isOrdinary c = true := by
  have hascii : ∀ d ∈ str "\"'<>[]", d.toNat < 128 := by decide
  unfold isOrdinary
  rw [Bool.not_eq_true', ← Bool.not_eq_true, List.contains_iff_mem]
  intro hmem
  have hlow := hascii c hmem
  omega

theorem ordinary_space : Bytes isOrdinary space :=
  (bytes_character (by decide) isOrdinary_wide).oneOrMore

theorem ordinary_optionalSpace : Bytes isOrdinary optionalSpace := ordinary_space.optional

variable (legacy : Bool)

theorem ordinary_nameCharacter : Bytes isOrdinary (character (isNameCode legacy)) := by
  refine bytes_character ?_ isOrdinary_wide
  intro code hcode hname
  rw [isNameCode_ascii legacy code hcode] at hname
  revert hname
  revert code
  decide

theorem ordinary_name : Bytes isOrdinary (name legacy) := by
  refine Bytes.mul ?_ (ordinary_nameCharacter legacy).kstar
  intro w hw
  obtain ⟨code, hcode, hstart, rfl⟩ := hw
  exact ordinary_nameCharacter legacy _ ⟨code, hcode, isNameCode_of_isNameStartCode hstart, rfl⟩

theorem ordinary_nmtoken : Bytes isOrdinary (nmtoken legacy) :=
  (ordinary_nameCharacter legacy).oneOrMore

/-! ## What a search covers outside declarations -/

section

variable {σ : Type} {D : Delimiters Character8 σ} {s : σ}

variable (D s) in
/-- Quotes are the quotes of XML, all blocks begin with a left angle bracket, and the state changes at
brackets only. -/
structure ReadsText : Prop where
  isQuote : D.isQuote = Xpact.isQuote
  blocks : ∀ b ∈ D.blocks s, b.1.head? = some ('<' : Character8)
  next : ∀ c, isOrdinary c = true → D.next s c = some s

theorem ReadsText.blockAt (h : ReadsText D s) {c : Character8} (hc : c ≠ ('<' : Character8))
    (p : String8) : D.blockAt s (c :: p) = none := by
  unfold Delimiters.blockAt
  rw [List.find?_eq_none]
  intro b hb hpre
  have hhead := h.blocks b hb
  obtain ⟨opener, closer⟩ := b
  cases opener with
  | nil => cases hhead
  | cons d opener =>
    have hd := Option.some.inj hhead
    rw [List.isPrefixOf_iff_prefix] at hpre
    exact hc ((List.cons_prefix_cons.1 hpre).1.symm.trans hd)

theorem ne_of_isOrdinary {c d : Character8} (h : isOrdinary c = true)
    (hd : d ∈ str "\"'<>[]") : c ≠ d := by
  intro heq
  unfold isOrdinary at h
  rw [Bool.not_eq_true', ← Bool.not_eq_true, List.contains_iff_mem] at h
  exact h (heq ▸ hd)

theorem isQuote_cases {c : Character8} (h : isQuote c = true) :
    c = ('"' : Character8) ∨ c = ('\'' : Character8) := by
  unfold isQuote at h
  simp only [Bool.or_eq_true, beq_iff_eq] at h
  cases h with
  | inl h => exact Or.inl (UInt8.toNat_inj.1 h)
  | inr h => exact Or.inr (UInt8.toNat_inj.1 h)

theorem isQuote_of_isOrdinary {c : Character8} (h : isOrdinary c = true) : isQuote c = false := by
  rw [← Bool.not_eq_true]
  intro hquote
  cases isQuote_cases hquote with
  | inl heq => exact ne_of_isOrdinary h (by decide) heq
  | inr heq => exact ne_of_isOrdinary h (by decide) heq

theorem ReadsText.ordinary (h : ReadsText D s) {w : String8} (hw : ∀ c ∈ w, isOrdinary c = true) :
    D.Covers s w s := by
  induction w with
  | nil => exact Covers.nil
  | cons c w ih =>
    have hc := hw c List.mem_cons_self
    have hblock := h.blockAt (ne_of_isOrdinary hc (d := '<') (by decide))
    have hquote : D.isQuote c = false := by
      rw [h.isQuote]
      exact isQuote_of_isOrdinary hc
    exact Covers.cons (fun p _ ↦ hblock p) hquote (h.next c hc)
      (ih fun d hd ↦ hw d (List.mem_cons_of_mem c hd))

theorem ReadsText.bytes (h : ReadsText D s) {L : Language Character8}
    (hL : Bytes isOrdinary L) : D.CoversAll s L :=
  fun w hw ↦ h.ordinary (hL w hw)

/-- A literal whose text does not hold its quote. -/
theorem ReadsText.quoted (h : ReadsText D s) {q : String} {c : Character8} (hq : str q = [c])
    (hquote : Xpact.isQuote c = true) {body : Language Character8}
    (hbody : Bytes (fun d ↦ d != c) body) :
    D.CoversAll s (text q * body * text q) := by
  intro w hw
  obtain ⟨u, hu, v, hv, rfl⟩ := Language.mem_mul.1 hw
  obtain ⟨v', hv', u', hu', rfl⟩ := Language.mem_mul.1 hu
  rw [Set.mem_singleton_iff.1 hv, Set.mem_singleton_iff.1 hv', hq, List.singleton_append,
    List.cons_append]
  apply Covers.literal (h.blockAt _)
  · rw [h.isQuote]
    exact hquote
  · intro hmem
    have hne := hbody u' hu' c hmem
    simp at hne
  · cases isQuote_cases hquote with
    | inl heq => rw [heq]; decide
    | inr heq => rw [heq]; decide

/-! ## Literals and references -/

theorem ordinary_reference : Bytes isOrdinary (reference legacy) := by
  have hdigits : Bytes isOrdinary digit := bytes_character (by decide) isOrdinary_wide
  have hhex : Bytes isOrdinary hexDigit := bytes_character (by decide +kernel) isOrdinary_wide
  have hend : Bytes isOrdinary (text ";") := Bytes.text (by decide)
  have hentity : Bytes isOrdinary (entityRef legacy) :=
    ((Bytes.text (by decide)).mul (ordinary_name legacy)).mul hend
  have hdecimal : Bytes isOrdinary (text "&#" * oneOrMore digit * text ";") :=
    ((Bytes.text (by decide)).mul hdigits.oneOrMore).mul hend
  have hhexadecimal : Bytes isOrdinary (text "&#x" * oneOrMore hexDigit * text ";") :=
    ((Bytes.text (by decide)).mul hhex.oneOrMore).mul hend
  exact hentity.add (hdecimal.add hhexadecimal)

theorem ordinary_peReference : Bytes isOrdinary (peReference legacy) :=
  ((Bytes.text (by decide)).mul (ordinary_name legacy)).mul (Bytes.text (by decide))

theorem ne_quote_of_isOrdinary {q : Character8} (hq : q ∈ str "\"'") (c : Character8)
    (h : isOrdinary c = true) : (c != q) = true := by
  rw [bne_iff_ne]
  have hin : ∀ d ∈ str "\"'", d ∈ str "\"'<>[]" := by decide
  exact ne_of_isOrdinary h (hin q hq)

theorem ne_ascii_wide {q : Character8} (hq : q.toNat < 128) (c : Character8) (h : 128 ≤ c.toNat) :
    (c != q) = true := by
  rw [bne_iff_ne]
  intro heq
  rw [heq] at h
  omega

theorem ReadsText.entityValue (h : ReadsText D s) : D.CoversAll s (entityValue legacy) := by
  refine CoversAll.add (h.quoted (c := '"') (by decide) (by decide) (Bytes.kstar ?_))
    (h.quoted (c := '\'') (by decide) (by decide) (Bytes.kstar ?_))
  · exact ((bytes_character (by decide) (ne_ascii_wide (by decide))).add
      ((ordinary_peReference legacy).mono (ne_quote_of_isOrdinary (by decide)))).add
      ((ordinary_reference legacy).mono (ne_quote_of_isOrdinary (by decide)))
  · exact ((bytes_character (by decide) (ne_ascii_wide (by decide))).add
      ((ordinary_peReference legacy).mono (ne_quote_of_isOrdinary (by decide)))).add
      ((ordinary_reference legacy).mono (ne_quote_of_isOrdinary (by decide)))

theorem ReadsText.attValue (h : ReadsText D s) : D.CoversAll s (attValue legacy) := by
  refine CoversAll.add (h.quoted (c := '"') (by decide) (by decide) (Bytes.kstar ?_))
    (h.quoted (c := '\'') (by decide) (by decide) (Bytes.kstar ?_))
  · exact (bytes_character (by decide) (ne_ascii_wide (by decide))).add
      ((ordinary_reference legacy).mono (ne_quote_of_isOrdinary (by decide)))
  · exact (bytes_character (by decide) (ne_ascii_wide (by decide))).add
      ((ordinary_reference legacy).mono (ne_quote_of_isOrdinary (by decide)))

theorem ReadsText.systemLiteral (h : ReadsText D s) : D.CoversAll s systemLiteral :=
  CoversAll.add
    (h.quoted (c := '"') (by decide) (by decide)
      (bytes_character (by decide) (ne_ascii_wide (by decide))).kstar)
    (h.quoted (c := '\'') (by decide) (by decide)
      (bytes_character (by decide) (ne_ascii_wide (by decide))).kstar)

theorem ReadsText.pubidLiteral (h : ReadsText D s) : D.CoversAll s pubidLiteral :=
  CoversAll.add
    (h.quoted (c := '"') (by decide) (by decide)
      ((bytes_character (by decide +kernel) (ne_ascii_wide (by decide))).add
        (Bytes.text (by decide))).kstar)
    (h.quoted (c := '\'') (by decide) (by decide)
      (bytes_character (by decide +kernel) (ne_ascii_wide (by decide))).kstar)

theorem ReadsText.space (h : ReadsText D s) : D.CoversAll s space := h.bytes ordinary_space

theorem ReadsText.optionalSpace (h : ReadsText D s) : D.CoversAll s optionalSpace :=
  h.bytes ordinary_optionalSpace

theorem ReadsText.name (h : ReadsText D s) : D.CoversAll s (name legacy) :=
  h.bytes (ordinary_name legacy)

/-- A keyword. -/
theorem ReadsText.text (h : ReadsText D s) {k : String} (hk : ∀ c ∈ str k, isOrdinary c = true) :
    D.CoversAll s (text k) := h.bytes (Bytes.text hk)

theorem coversAll_optional {L : Language Character8} (h : D.CoversAll s L) :
    D.CoversAll s (optional L) := CoversAll.one.add h

theorem ReadsText.publicId (h : ReadsText D s) : D.CoversAll s publicId :=
  ((h.text (by decide)).mul h.space).mul h.pubidLiteral

theorem ReadsText.externalId (h : ReadsText D s) : D.CoversAll s externalId :=
  (((h.text (by decide)).mul h.space).mul h.systemLiteral).add
    ((h.publicId.mul h.space).mul h.systemLiteral)

end

/-! ## Markup declarations -/

section

variable {σ : Type} {D : Delimiters Character8 σ} {s : σ}

def subsetBlocks : List (String8 × String8) := [(str "<!--", str "-->"), (str "<?", str "?>")]

variable (D s) in
/-- In a subset, angle brackets count for nothing, and comments and processing instructions are
blocks. -/
structure ReadsMarkup : Prop extends ReadsText D s where
  blocks_eq : D.blocks s = subsetBlocks
  angle : ∀ c ∈ str "<>", D.next s c = some s

theorem ReadsMarkup.angleClose (h : ReadsMarkup D s) : D.CoversAll s (text ">") := by
  intro w hw
  rw [Set.mem_singleton_iff.1 hw]
  apply Covers.char (h.blockAt (by decide))
  · rw [h.isQuote]
    decide
  · exact h.angle _ (by decide)

/-- The beginning of a declaration is not that of a comment. -/
theorem ReadsMarkup.declaration (h : ReadsMarkup D s) {k : String} {c : Character8} {w : String8}
    (hk : str k = ('<' : Character8) :: ('!' : Character8) :: c :: w) (hc : c ≠ ('-' : Character8))
    (hw : ∀ d ∈ c :: w, isOrdinary d = true) : D.CoversAll s (text k) := by
  intro v hv
  rw [Set.mem_singleton_iff.1 hv, hk]
  have hblock (p : String8)
      (hp : p <+: ('!' : Character8) :: c :: w ∨ ('!' : Character8) :: c :: w <+: p) :
      D.blockAt s (('<' : Character8) :: p) = none := by
    unfold Delimiters.blockAt
    rw [h.blocks_eq, List.find?_eq_none]
    intro b hb hpre
    rw [List.isPrefixOf_iff_prefix] at hpre
    simp only [subsetBlocks, List.mem_cons, List.not_mem_nil, or_false] at hb
    -- Both openers would need another second or third character.
    rcases hb with rfl | rfl
    · obtain ⟨rest, hrest⟩ := hpre
      have hp' : p = ('!' : Character8) :: ('-' : Character8) :: ('-' : Character8) :: rest :=
        (List.cons.inj hrest).2.symm
      rw [hp'] at hp
      cases hp with
      | inl hp => exact hc (List.cons_prefix_cons.1 (List.cons_prefix_cons.1 hp).2).1.symm
      | inr hp => exact hc (List.cons_prefix_cons.1 (List.cons_prefix_cons.1 hp).2).1
    · obtain ⟨rest, hrest⟩ := hpre
      have hp' : p = ('?' : Character8) :: rest := (List.cons.inj hrest).2.symm
      have hne : ('?' : Character8) ≠ ('!' : Character8) := by decide
      rw [hp'] at hp
      cases hp with
      | inl hp => exact hne (List.cons_prefix_cons.1 hp).1
      | inr hp => exact hne (List.cons_prefix_cons.1 hp).1.symm
  have hordinary : ∀ d ∈ ('!' : Character8) :: c :: w, isOrdinary d = true := by
    intro d hd
    cases hd with
    | head => decide
    | tail _ hd => exact hw d hd
  refine Covers.cons hblock ?_ (h.angle _ (by decide)) (h.ordinary hordinary)
  rw [h.isQuote]
  decide

end

/-! ## Content models -/

theorem ordinary_append {u v : String8} (hu : ∀ c ∈ u, isOrdinary c = true)
    (hv : ∀ c ∈ v, isOrdinary c = true) : ∀ c ∈ u ++ v, isOrdinary c = true := by
  intro c hc
  cases List.mem_append.1 hc with
  | inl h => exact hu c h
  | inr h => exact hv c h

theorem ordinary_quantifierText (q : Quantifier) : ∀ c ∈ quantifierText q, isOrdinary c = true := by
  cases q <;> decide

mutual

theorem ordinary_particle {w : String8} {m : ContentModel} :
    Particle legacy w m → ∀ c ∈ w, isOrdinary c = true
  | .name q hname => ordinary_append (ordinary_name legacy _ hname) (ordinary_quantifierText q)
  | .group q hgroup => ordinary_append (ordinary_group hgroup) (ordinary_quantifierText q)

theorem ordinary_group {w : String8} {t : ContentType} {ms : List ContentModel} :
    Group legacy w t ms → ∀ c ∈ w, isOrdinary c = true
  | .choice ha hfirst hrest =>
    ordinary_append (ordinary_append (ordinary_append (by decide) (ordinary_optionalSpace _ ha))
      (ordinary_particle hfirst)) (ordinary_members (by decide) hrest)
  | .seq ha hfirst hrest =>
    ordinary_append (ordinary_append (ordinary_append (by decide) (ordinary_optionalSpace _ ha))
      (ordinary_particle hfirst)) (ordinary_members (by decide) hrest)

theorem ordinary_members {separator : Char} {w : String8} {ms : List ContentModel}
    (hseparator : ∀ c ∈ [separator.toUInt8], isOrdinary c = true) :
    Members legacy separator w ms → ∀ c ∈ w, isOrdinary c = true
  | .close ha => ordinary_append (ordinary_optionalSpace _ ha) (by decide)
  | .next ha hb hnext hrest =>
    ordinary_append (ordinary_append (ordinary_append (ordinary_append
      (ordinary_optionalSpace _ ha) hseparator) (ordinary_optionalSpace _ hb))
      (ordinary_particle hnext)) (ordinary_members hseparator hrest)

end

theorem ordinary_mixedNames {w : String8} {names : List String8} (h : MixedNames legacy w names) :
    ∀ c ∈ w, isOrdinary c = true := by
  induction h with
  | nil => simp
  | next ha hb hname _ ih =>
    exact ordinary_append (ordinary_append (ordinary_append (ordinary_append
      (ordinary_optionalSpace _ ha) (by decide)) (ordinary_optionalSpace _ hb))
      (ordinary_name legacy _ hname)) ih

theorem ordinary_contentSpec : Bytes isOrdinary (contentSpec legacy) := by
  intro w hw
  obtain ⟨model, hspec⟩ := hw
  cases hspec with
  | empty => decide
  | any => decide
  | text ha hb =>
    exact ordinary_append (ordinary_append (ordinary_append (ordinary_append (by decide)
      (ordinary_optionalSpace _ ha)) (by decide)) (ordinary_optionalSpace _ hb)) (by decide)
  | mixed ha hnames hb =>
    exact ordinary_append (ordinary_append (ordinary_append (ordinary_append (ordinary_append
      (by decide) (ordinary_optionalSpace _ ha)) (by decide)) (ordinary_mixedNames legacy hnames))
      (ordinary_optionalSpace _ hb)) (by decide)
  | children q hgroup =>
    exact ordinary_append (ordinary_group legacy hgroup) (ordinary_quantifierText q)

/-! ## Blocks -/

theorem utf8Bytes_ne_nil (code : Nat) : utf8Bytes code ≠ [] := by
  unfold utf8Bytes
  split
  · exact List.cons_ne_nil _ _
  · split
    · exact List.cons_ne_nil _ _
    · split <;> exact List.cons_ne_nil _ _

theorem hides_commentBody {w : String8} (hw : w ∈ commentBody) : Hides (str "-->") w := by
  have hhead : (str "-->").head? = some ('-' : Character8) := by decide
  have hbut : ∀ x ∈ characterBut "-", ('-' : Character8) ∉ x := by
    have hbytes : Bytes (fun c ↦ c != ('-' : Character8)) (characterBut "-") :=
      bytes_character (by decide) (ne_ascii_wide (by decide))
    intro x hx hmem
    have hne := hbytes x hx _ hmem
    simp at hne
  refine (avoids_kstar (fun v hv ↦ ?_) hw).hides
  cases (Language.mem_add _ _ v).1 hv with
  | inl h => exact avoids_of_forall_ne hhead (hbut v h)
  | inr h =>
    obtain ⟨u, hu, x, hx, rfl⟩ := Language.mem_mul.1 h
    rw [Set.mem_singleton_iff.1 hu]
    have hdash := hbut x hx
    intro k hk rest hpre
    cases k with
    | zero =>
      -- The hyphen is followed by a character that is none.
      obtain ⟨code, -, -, hcode⟩ := hx
      cases x with
      | nil => exact utf8Bytes_ne_nil code hcode.symm
      | cons d x =>
        have hd := (List.cons_prefix_cons.1 (List.cons_prefix_cons.1 hpre).2).1
        exact hdash (hd ▸ List.mem_cons_self)
    | succ k => exact avoids_of_forall_ne hhead hdash k (Nat.lt_of_succ_lt_succ hk) rest hpre

/-- A text of characters can be divided at each ASCII byte. -/
theorem anyCharacter_split {u v : String8} {c : Character8} (hc : c.toNat < 128)
    (h : u ++ c :: v ∈ anyCharacter∗) : u ∈ anyCharacter∗ ∧ v ∈ anyCharacter∗ := by
  obtain ⟨parts, heq, hparts⟩ := Language.mem_kstar.1 h
  clear h
  induction parts generalizing u with
  | nil => exact absurd heq (by simp)
  | cons x parts ih =>
    have hx := hparts x List.mem_cons_self
    have hrest : ∀ y ∈ parts, y ∈ anyCharacter := fun y hy ↦ hparts y (List.mem_cons_of_mem x hy)
    rw [List.flatten_cons] at heq
    cases List.append_eq_append_iff.1 heq with
    | inl hsplit =>
      obtain ⟨a, rfl, hcv⟩ := hsplit
      cases a with
      | nil =>
        rw [List.append_nil] at hx
        obtain ⟨-, hv⟩ := ih (u := []) hcv hrest
        exact ⟨Language.mem_kstar.2 ⟨[u], by simp, by simpa using hx⟩, hv⟩
      | cons d a =>
        have hd : d = c := (List.cons.inj hcv).1.symm
        subst hd
        cases character_cases hx with
        | inl hascii =>
          obtain ⟨code, -, -, hcode⟩ := hascii
          have hlength := congrArg List.length hcode
          rw [List.length_append, List.length_cons, List.length_singleton] at hlength
          have hu : u = [] := List.eq_nil_of_length_eq_zero (by omega)
          have ha : a = [] := List.eq_nil_of_length_eq_zero (by omega)
          subst hu ha
          exact ⟨Language.nil_mem_kstar _,
            Language.mem_kstar.2 ⟨parts, (List.cons.inj hcv).2, hrest⟩⟩
        | inr hwide =>
          have hlow := hwide d (List.mem_append_right u List.mem_cons_self)
          omega
    | inr hsplit =>
      obtain ⟨a, rfl, hflatten⟩ := hsplit
      obtain ⟨ha, hv⟩ := ih hflatten.symm hrest
      refine ⟨?_, hv⟩
      obtain ⟨front, rfl, hfront⟩ := Language.mem_kstar.1 ha
      refine Language.mem_kstar.2 ⟨x :: front, List.flatten_cons.symm, ?_⟩
      intro y hy
      cases hy with
      | head => exact hx
      | tail _ hy => exact hfront y hy

theorem hides_piBody {w : String8} (hw : w ∈ piBody legacy) : Hides (str "?>") w := by
  have hhead : (str "?>").head? = some ('?' : Character8) := by decide
  have havoids {L : Language Character8} (hL : Bytes (fun c ↦ c != ('?' : Character8)) L)
      {v : String8} (hv : v ∈ L) : Avoids (str "?>") v := by
    apply avoids_of_forall_ne hhead
    intro hmem
    have hne := hL v hv _ hmem
    simp at hne
  have hname : Bytes (fun c ↦ c != ('?' : Character8)) (name legacy) := by
    have hcharacter : Bytes (fun c ↦ c != ('?' : Character8)) (character (isNameCode legacy)) := by
      refine bytes_character ?_ (ne_ascii_wide (by decide))
      intro code hcode hin
      rw [isNameCode_ascii legacy code hcode] at hin
      revert hin
      revert code
      decide
    refine Bytes.mul ?_ hcharacter.kstar
    intro v hv
    obtain ⟨code, hcode, hstart, rfl⟩ := hv
    exact hcharacter _ ⟨code, hcode, isNameCode_of_isNameStartCode hstart, rfl⟩
  have hspace : Bytes (fun c ↦ c != ('?' : Character8)) space :=
    (bytes_character (by decide) (ne_ascii_wide (by decide))).oneOrMore
  obtain ⟨target, htarget, data, hdata, rfl⟩ := Language.mem_mul.1 hw
  have htarget := havoids hname htarget.1
  cases (Language.mem_add _ _ data).1 hdata with
  | inl h =>
    rw [(Language.mem_one data).1 h, List.append_nil]
    exact htarget.hides
  | inr h =>
    obtain ⟨blank, hblank, body, hbody, rfl⟩ := Language.mem_mul.1 h
    obtain ⟨hall, hnone⟩ := hbody
    refine htarget.append_hides ((havoids hspace hblank).append_hides ?_)
    intro k hk hpre
    obtain ⟨rest, hrest⟩ := hpre
    by_cases hlast : k + 1 = body.length
    · -- The closer would begin with the last byte and end with the first byte of the real one.
      have hat := congrArg (fun l : String8 ↦ l.getD 1 0) hrest
      simp [str, List.getD_eq_getElem?_getD, List.getElem?_drop, hlast] at hat
      exact absurd hat (by decide)
    · have hinside : str "?>" <+: body.drop k := by
        refine List.prefix_of_prefix_length_le ⟨rest, hrest⟩ ?_ ?_
        · rw [List.drop_append_of_le_length (by omega)]
          exact List.prefix_append _ _
        · rw [List.length_drop]
          have htwo : (str "?>").length = 2 := by decide
          omega
      obtain ⟨tail, htail⟩ := hinside
      have hbody : body = body.take k ++ ('?' : Character8) :: (('>' : Character8) :: tail) := by
        conv_lhs => rw [← List.take_append_drop k body, ← htail]
        rfl
      rw [hbody] at hall
      obtain ⟨hfront, hback⟩ := anyCharacter_split (by decide) hall
      have hback := (anyCharacter_split (u := []) (by decide) hback).2
      apply hnone
      rw [hbody]
      exact Language.mem_mul.2 ⟨body.take k ++ str "?>",
        Language.mem_mul.2 ⟨_, hfront, _, rfl, rfl⟩, tail, hback, by simp [str]⟩

/-! ## What a search covers in a subset -/

section

variable {σ : Type} {D : Delimiters Character8 σ} {s : σ}

/-- A text that stops within an opener shows characters that end nothing. -/
theorem ReadsMarkup.scan_cut (h : ReadsMarkup D s) {w : String8}
    (hw : ∀ c ∈ w, isOrdinary c = true)
    (hblock : ∀ p ∈ w.inits, p ≠ w →
      subsetBlocks.find? (fun b ↦ b.1.isPrefixOf (('<' : Character8) :: p)) = none)
    (p : String8) (hp : p <+: ('<' : Character8) :: w) (hne : p ≠ ('<' : Character8) :: w)
    (i : Nat) : D.scan .visible s 0 p i = none := by
  cases p with
  | nil => exact D.scan_nil _ s 0 i
  | cons c p =>
    obtain ⟨rfl, htail⟩ := List.cons_prefix_cons.1 hp
    have hopen : D.blockAt s (('<' : Character8) :: p) = none := by
      unfold Delimiters.blockAt
      rw [h.blocks_eq]
      exact hblock p ((List.mem_inits p w).2 htail) fun heq ↦ hne (by rw [heq])
    have hquote : D.isQuote ('<' : Character8) = false := by
      rw [h.isQuote]
      decide
    rw [D.scan_visible_step hopen hquote (h.angle _ (by decide))]
    exact (h.ordinary fun c hc ↦ hw c (htail.subset hc)).waits_le (List.prefix_refl p) (i + 1)

theorem ReadsMarkup.block (h : ReadsMarkup D s) {opener closer : String} {w : String8}
    (hw : str opener = ('<' : Character8) :: w) (hordinary : ∀ c ∈ w, isOrdinary c = true)
    (hcut : ∀ p ∈ w.inits, p ≠ w →
      subsetBlocks.find? (fun b ↦ b.1.isPrefixOf (('<' : Character8) :: p)) = none)
    (hblock : ∀ rest, subsetBlocks.find? (fun b ↦ b.1.isPrefixOf (str opener ++ rest)) =
      some (str opener, str closer))
    (hcloser : str closer ≠ []) {body : Language Character8}
    (hbody : ∀ w ∈ body, Hides (str closer) w) :
    D.CoversAll s (text opener * body * text closer) := by
  intro v hv
  obtain ⟨u, hu, z, hz, rfl⟩ := Language.mem_mul.1 hv
  obtain ⟨x, hx, y, hy, rfl⟩ := Language.mem_mul.1 hu
  rw [Set.mem_singleton_iff.1 hz, Set.mem_singleton_iff.1 hx, List.append_assoc]
  refine Covers.block (fun rest ↦ ?_) ?_ ?_ hcloser (hbody y hy)
  · unfold Delimiters.blockAt
    rw [h.blocks_eq]
    exact hblock rest
  · rw [hw]
    exact h.scan_cut hordinary hcut
  · rw [hw]
    exact List.cons_ne_nil _ _

theorem ReadsMarkup.comment (h : ReadsMarkup D s) : D.CoversAll s comment :=
  h.block (w := str "!--") (by decide) (by decide) (by decide)
    (fun _ ↦ rfl) (by decide) fun _ hw ↦ hides_commentBody hw

theorem ReadsMarkup.processingInstruction (h : ReadsMarkup D s) :
    D.CoversAll s (processingInstruction legacy) :=
  h.block (w := str "?") (by decide) (by decide) (by decide)
    (fun _ ↦ rfl) (by decide) fun _ hw ↦ hides_piBody legacy hw

theorem ReadsMarkup.elementDecl (h : ReadsMarkup D s) : D.CoversAll s (elementDecl legacy) := by
  have hspace := h.space
  exact ((((((h.declaration (c := 'E') (w := str "LEMENT") (by decide) (by decide) (by decide)).mul
    hspace).mul (h.name legacy)).mul hspace).mul (h.bytes (ordinary_contentSpec legacy))).mul
    h.optionalSpace).mul h.angleClose

theorem ordinary_enumeration {token : Language Character8} (htoken : Bytes isOrdinary token) :
    Bytes isOrdinary (enumeration token) := by
  have hspace := ordinary_optionalSpace
  have hbar : Bytes isOrdinary (optionalSpace * text "|" * optionalSpace * token) :=
    ((hspace.mul (Bytes.text (by decide))).mul hspace).mul htoken
  exact ((((Bytes.text (by decide)).mul hspace).mul htoken).mul hbar.kstar |>.mul hspace).mul
    (Bytes.text (by decide))

theorem ordinary_attType : Bytes isOrdinary (attType legacy) := by
  have hkeyword {k : String} (hk : ∀ c ∈ str k, isOrdinary c = true) : Bytes isOrdinary (text k) :=
    Bytes.text hk
  refine Bytes.add (Bytes.add (Bytes.add (Bytes.add (Bytes.add (Bytes.add (Bytes.add (Bytes.add
    (Bytes.add ?_ ?_) ?_) ?_) ?_) ?_) ?_) ?_) ?_) ?_
  · exact hkeyword (by decide)
  · exact hkeyword (by decide)
  · exact hkeyword (by decide)
  · exact hkeyword (by decide)
  · exact hkeyword (by decide)
  · exact hkeyword (by decide)
  · exact hkeyword (by decide)
  · exact hkeyword (by decide)
  · exact ((hkeyword (by decide)).mul ordinary_space).mul
      (ordinary_enumeration (ordinary_name legacy))
  · exact ordinary_enumeration (ordinary_nmtoken legacy)

theorem ReadsText.defaultDecl (h : ReadsText D s) : D.CoversAll s (defaultDecl legacy) := by
  have hfixed := coversAll_optional ((h.text (k := "#FIXED") (by decide)).mul h.space)
  exact ((h.text (by decide)).add (h.text (by decide))).add (hfixed.mul (h.attValue legacy))

theorem ReadsText.attDef (h : ReadsText D s) : D.CoversAll s (attDef legacy) := by
  have hspace := h.space
  exact ((((hspace.mul (h.name legacy)).mul hspace).mul (h.bytes (ordinary_attType legacy))).mul
    hspace).mul (h.defaultDecl legacy)

theorem ReadsMarkup.attlistDecl (h : ReadsMarkup D s) : D.CoversAll s (attlistDecl legacy) :=
  (((((h.declaration (c := 'A') (w := str "TTLIST") (by decide) (by decide) (by decide)).mul
    h.space).mul (h.name legacy)).mul (h.attDef legacy).kstar).mul h.optionalSpace).mul
    h.angleClose

theorem ReadsText.entityDef (h : ReadsText D s) : D.CoversAll s (entityDef legacy) := by
  have hndata : D.CoversAll s (ndataDecl legacy) :=
    ((h.space.mul (h.text (by decide))).mul h.space).mul (h.name legacy)
  exact (h.entityValue legacy).add (h.externalId.mul (coversAll_optional hndata))

theorem ReadsMarkup.entityDecl (h : ReadsMarkup D s) : D.CoversAll s (entityDecl legacy) := by
  have hspace := h.space
  have hopen := h.declaration (k := "<!ENTITY") (c := 'E') (w := str "NTITY") (by decide) (by decide)
    (by decide)
  have hpeDef : D.CoversAll s (peDef legacy) := (h.entityValue legacy).add h.externalId
  refine CoversAll.add ?_ ?_
  · exact (((((hopen.mul hspace).mul (h.name legacy)).mul hspace).mul (h.entityDef legacy)).mul
      h.optionalSpace).mul h.angleClose
  · exact (((((((hopen.mul hspace).mul (h.text (by decide))).mul hspace).mul (h.name legacy)).mul
      hspace).mul hpeDef).mul h.optionalSpace).mul h.angleClose

theorem ReadsMarkup.notationDecl (h : ReadsMarkup D s) : D.CoversAll s (notationDecl legacy) := by
  have hspace := h.space
  have hopen := h.declaration (k := "<!NOTATION") (c := 'N') (w := str "OTATION") (by decide)
    (by decide) (by decide)
  exact (((((hopen.mul hspace).mul (h.name legacy)).mul hspace).mul
    (h.externalId.add h.publicId)).mul h.optionalSpace).mul h.angleClose

theorem ReadsMarkup.intSubset (h : ReadsMarkup D s) : D.CoversAll s (intSubset legacy) := by
  have hmarkup : D.CoversAll s (markupDecl legacy) :=
    (((((h.elementDecl legacy).add (h.attlistDecl legacy)).add (h.entityDecl legacy)).add
      (h.notationDecl legacy)).add (h.processingInstruction legacy)).add h.comment
  have hsep : D.CoversAll s (declSep legacy) :=
    (h.bytes (ordinary_peReference legacy)).add h.space
  exact (hmarkup.add hsep).kstar

end

end Xpact.Grammar
