import Xpact.Grammar.ContentSpecs

/-!
# Mixed content of the grammar

The loop of `parse_mixed_content_particle` reads the names of mixed content, each with the white
space behind it, up to the end of the group or of the declaration.
-/

namespace Xpact

open Grammar Library

variable {cfg : Config} {subset : String8} {stop i : Nat}

/-! ## Rounds -/

section

variable (cfg) {s : MixedScan} {a b v w : String8}

theorem mixedRound_close (h : InContent subset stop s.index ((')' : Character8) :: v)) :
    mixedRound cfg subset stop s = ({ s with index := s.index + 1, isDone := true }, none) := by
  unfold mixedRound
  rw [if_pos ⟨h.le_stop, h.item⟩]

theorem mixedRound_bar (h : InContent subset stop s.index (('|' : Character8) :: (b ++ v)))
    (hb : ∀ c ∈ b, isXmlSpace c = true) (hends : ∀ c ∈ v.head?, isXmlSpace c = false) :
    mixedRound cfg subset stop s = mixedNameRound cfg subset stop s (s.index + 1 + b.length) := by
  unfold mixedRound
  rw [h.item, if_neg (by rw [and_comm]; exact fun h ↦ absurd h.1 (by decide)),
    if_pos ⟨h.le_stop, rfl⟩, h.cons.min_skipSpaces hb hends]

/-- A name, up to the white space behind it. -/
theorem mixedNameRound_name (h : InContent subset stop i (w ++ (a ++ v)))
    (hw : w ∈ name cfg.usesLegacyNameCharacterRanges) (ha : ∀ c ∈ a, isXmlSpace c = true)
    (hends : ∀ c ∈ v.head?, isXmlSpace c = false) (hname : EndsNameText (a ++ v)) :
    mixedNameRound cfg subset stop s i =
      ({ s with index := i + w.length + a.length, names := s.names ++ [w] }, none) := by
  obtain ⟨tail, hat⟩ := h.restAt
  rw [List.append_assoc] at hat
  have hfirst := isNameStartCharacter_name hw hat
  have hstop : i ≤ stop := by
    obtain ⟨c, u, rfl⟩ := List.exists_cons_of_ne_nil (ne_nil_of_mem_name hw)
    exact h.le_stop
  unfold mixedNameRound
  rw [if_pos ⟨hstop, hfirst⟩, h.scannedName hw hname]
  dsimp only
  rw [Nat.min_eq_left h.append.le, h.substring, h.append.min_skipSpaces ha hends]

/-- A round behind the end of the declaration fails. -/
theorem mixedRound_end (h : InContent subset stop s.index []) :
    (mixedRound cfg subset stop s).2.isSome = true := by
  have hend := h.lt_of_nil
  unfold mixedRound
  rw [if_neg (fun h ↦ absurd h.1 (Nat.not_le.2 hend)),
    if_neg (fun h ↦ absurd h.1 (Nat.not_le.2 hend))]
  rfl

end

/-! ## The names of the grammar are read -/

/-- What ends the list of names. -/
structure EndsNames (v : String8) : Prop where
  space : ∀ c ∈ v.head?, isXmlSpace c = false
  name : EndsNameText v

theorem endsNameText_spaces {u v : String8} (hu : ∀ c ∈ u, isXmlSpace c = true)
    (hv : EndsNameText v) : EndsNameText (u ++ v) := by
  cases u with
  | nil => exact hv
  | cons d u =>
    intro c hc
    cases hc
    exact not_nameCode_of_isDelimiter (isDelimiter_of_isXmlSpace (hu d List.mem_cons_self))

theorem endsNameText_mixedNames {legacy : Bool} {rest b v : String8} {names : List String8}
    (h : MixedNames legacy rest names) (hb : ∀ c ∈ b, isXmlSpace c = true) (hv : EndsNameText v) :
    EndsNameText (rest ++ (b ++ v)) := by
  cases h with
  | nil => exact endsNameText_spaces (u := b) hb hv
  | next ha _ _ _ =>
    simp only [List.append_assoc]
    apply endsNameText_spaces (spaces_of_optionalSpace ha)
    intro c hc
    cases hc
    decide

/-- The rounds of the mixed loop that fail no more than the end. -/
abbrev ReadsMixed (cfg : Config) (subset : String8) (stop : Nat) (s t : MixedScan) : Prop :=
  Leads MixedScan.isDone (mixedRound cfg subset stop) s t none

theorem reads_mixedNames {rest b v : String8} {names : List String8}
    (h : MixedNames cfg.usesLegacyNameCharacterRanges rest names) {s : MixedScan}
    (hdone : s.isDone = false) (hb : ∀ c ∈ b, isXmlSpace c = true) (hv : EndsNames v)
    (hat : InContent subset stop i (rest ++ (b ++ v)))
    (hindex : s.index = min (skipSpaces subset i) (stop + 1)) :
    ReadsMixed cfg subset stop s
      { s with index := i + rest.length + b.length, names := s.names ++ names } := by
  induction h generalizing s i with
  | nil =>
    rw [List.nil_append] at hat
    rw [hat.min_skipSpaces hb hv.space] at hindex
    rw [List.append_nil, List.length_nil, Nat.add_zero, ← hindex]
    exact .here s
  | @next a b' w rest names ha hb' hname hrest ih =>
    simp only [List.append_assoc] at hat
    rw [hat.min_skipSpaces (spaces_of_optionalSpace ha) (by rintro c ⟨⟩; decide)] at hindex
    have hbar : InContent subset stop s.index
        (('|' : Character8) :: (b' ++ (w ++ (rest ++ (b ++ v))))) := by
      rw [hindex]
      exact hat.append
    -- The white space that the round skips behind the name begins what is left.
    obtain ⟨a', v', hsplit, ha', hends⟩ := exists_spaces (rest ++ (b ++ v))
    have hfirst : ∀ c ∈ (w ++ (rest ++ (b ++ v))).head?, isXmlSpace c = false := by
      obtain ⟨tail, hrestAt⟩ := hbar.cons.append.restAt
      rw [List.append_assoc] at hrestAt
      have hstart := isNameStartCharacter_name hname hrestAt
      obtain ⟨c, u, rfl⟩ := List.exists_cons_of_ne_nil (ne_nil_of_mem_name hname)
      rw [hrestAt.item] at hstart
      rintro d ⟨⟩
      exact isXmlSpace_of_nameStart hstart
    have hround := mixedRound_bar cfg hbar (spaces_of_optionalSpace hb') hfirst
    have hinside := hbar.cons.append
    have hbehind := hinside.append
    rw [hsplit] at hinside
    rw [mixedNameRound_name cfg hinside hname ha' hends
      (by rw [← hsplit]; exact endsNameText_mixedNames hrest hb hv.name)] at hround
    have hskipped : s.index + 1 + b'.length + w.length + a'.length =
        min (skipSpaces subset (s.index + 1 + b'.length + w.length)) (stop + 1) := by
      rw [hsplit] at hbehind
      exact (hbehind.min_skipSpaces ha' hends).symm
    have hnext := ih (s := { s with
      index := s.index + 1 + b'.length + w.length + a'.length
      names := s.names ++ [w] }) hdone hbehind hskipped
    refine .next hdone hround ?_
    have hlength : i + (a ++ str "|" ++ b' ++ w ++ rest).length =
        s.index + 1 + b'.length + w.length + rest.length := by
      have hone : (str "|").length = 1 := rfl
      simp only [List.length_append]
      omega
    rw [hlength]
    rwa [List.append_assoc, List.singleton_append] at hnext

/-! ## What is read are names of the grammar -/

/-- The text `w` behind the white space `a` holds these names, up to the end of the loop. -/
def HoldsNames (legacy : Bool) (names : List String8) (a w v : String8) : Prop :=
  ∃ rest b, a ++ w = rest ++ (b ++ v) ∧ MixedNames legacy rest names ∧
    ∀ c ∈ b, isXmlSpace c = true

/-- A round that does not fail reads the end of the group or a name. -/
theorem mixedRound_cases {s s' : MixedScan} {w : String8}
    (hround : mixedRound cfg subset stop s = (s', none)) (hat : InContent subset stop s.index w) :
    (∃ u, w = (')' : Character8) :: u ∧ s' = { s with index := s.index + 1, isDone := true }) ∨
      ∃ b n a u, w = ('|' : Character8) :: (b ++ (n ++ (a ++ u))) ∧
        (∀ c ∈ b, isXmlSpace c = true) ∧ n ∈ name cfg.usesLegacyNameCharacterRanges ∧
        (∀ c ∈ a, isXmlSpace c = true) ∧ s'.names = s.names ++ [n] ∧ s'.isDone = s.isDone ∧
        InContent subset stop s'.index u := by
  cases w with
  | nil =>
    have hfailed := mixedRound_end cfg hat
    rw [hround] at hfailed
    cases hfailed
  | cons c w =>
    by_cases hclose : c = (')' : Character8)
    · subst hclose
      rw [mixedRound_close cfg hat] at hround
      cases hround
      exact .inl ⟨w, rfl, rfl⟩
    by_cases hbar : c = ('|' : Character8)
    · subst hbar
      obtain ⟨b, v, rfl, hb, hends⟩ := exists_spaces w
      rw [mixedRound_bar cfg hat hb hends] at hround
      have hname := hat.cons.append
      unfold mixedNameRound at hround
      split at hround
      · rename_i hfirst
        dsimp only at hround
        have hscan := (Prod.mk.inj hround).2
        obtain ⟨n, v, rfl, hn, hend⟩ := hname.exists_name hfirst.1 hfirst.2 hscan
        obtain ⟨a, u, rfl, ha, hends⟩ := exists_spaces v
        rw [hend, Nat.min_eq_left hname.append.le, hname.substring,
          hname.append.min_skipSpaces ha hends] at hround
        cases (Prod.mk.inj hround).1
        exact .inr ⟨b, n, a, u, rfl, hb, hn, ha, rfl, rfl, hname.append.append⟩
      · cases hround
    · unfold mixedRound at hround
      rw [hat.item, if_neg (fun h ↦ hclose h.2), if_neg (fun h ↦ hbar h.2)] at hround
      cases hround

theorem holdsNames_of_reads {s t : MixedScan} {w : String8} (h : ReadsMixed cfg subset stop s t)
    (hdone : s.isDone = false) (hat : InContent subset stop s.index w) :
    ∃ names v, t.names = s.names ++ names ∧ InContent subset stop t.index v ∧
      ∀ a, (∀ c ∈ a, isXmlSpace c = true) →
        HoldsNames cfg.usesLegacyNameCharacterRanges names a w
          (if t.isDone then (')' : Character8) :: v else v) := by
  obtain ⟨f, hf⟩ : ∃ f : Option String, f = none := ⟨none, rfl⟩
  unfold ReadsMixed at h
  rw [← hf] at h
  induction h generalizing w with
  | here s =>
    refine ⟨[], w, (List.append_nil _).symm, hat, fun a ha ↦ ⟨[], a, ?_, .nil, ha⟩⟩
    rw [hdone]
    rfl
  | @next s s' t f _ hround hrest ih =>
    rcases mixedRound_cases hround hat with ⟨u, rfl, rfl⟩ | ⟨b, n, a', u, rfl, hb, hn, ha', hnames,
      hsame, hnext⟩
    · obtain ⟨rfl, -⟩ := hrest.of_done rfl
      exact ⟨[], u, (List.append_nil _).symm, hat.cons, fun a ha ↦ ⟨[], a, rfl, .nil, ha⟩⟩
    · rw [hdone] at hsame
      obtain ⟨names, v, hrestNames, hend, hholds⟩ := ih hsame hnext hf
      refine ⟨n :: names, v, ?_, hend, fun a ha ↦ ?_⟩
      · rw [hrestNames, hnames, List.append_assoc, List.singleton_append]
      · obtain ⟨rest, b', hsplit, hmixed, hb'⟩ := hholds a' ha'
        refine ⟨_, b', ?_, .next (mem_optionalSpace.2 ha) (mem_optionalSpace.2 hb) hn hmixed, hb'⟩
        rw [hsplit]
        simp only [List.append_assoc]
        rfl
  | fails _ _ => cases hf

end Xpact
