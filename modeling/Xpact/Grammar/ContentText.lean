import Xpact.Grammar.Names
import Xpact.Parser.ContentRounds

/-!
# The text of a content model

A content model is read up to an index behind which the `>` of its declaration stands.  The scanners
that its loops call find the white space, the names and the quantifiers of the grammar there.
-/

namespace Xpact

open Grammar

/-! ## What follows a particle -/

theorem exists_spaces (rest : String8) : ∃ u v, rest = u ++ v ∧
    (∀ c ∈ u, isXmlSpace c = true) ∧ (∀ c ∈ v.head?, isXmlSpace c = false) := by
  refine ⟨rest.takeWhile isXmlSpace, rest.dropWhile isXmlSpace,
    List.takeWhile_append_dropWhile.symm, List.all_eq_true.1 List.all_takeWhile, fun c hc ↦ ?_⟩
  have hhead := List.head?_dropWhile_not isXmlSpace rest
  rw [Option.mem_def.1 hc] at hhead
  exact hhead

theorem ne_nil_of_mem_name {legacy : Bool} {w : String8} (hw : w ∈ name legacy) : w ≠ [] := by
  rintro rfl
  obtain ⟨b, ⟨code, -, -, rfl⟩, d, -, happend⟩ := Language.mem_mul.1 hw
  exact utf8Bytes_ne_nil code (List.append_eq_nil_iff.1 happend).1

/-- A byte that continues neither a name nor a particle. -/
def isDelimiter (c : Character8) : Bool := isXmlSpace c || c == ',' || c == '|' || c == ')'

/-- What follows a particle with its quantifier. -/
def Delimits (v : String8) : Prop := ∀ c ∈ v.head?, isDelimiter c = true

/-- What ends a name. -/
def EndsNameText (v : String8) : Prop :=
  ∀ c ∈ v.head?, c.toNat < 128 ∧ isAsciiNameCode c.toNat = false

theorem isDelimiter_of_isXmlSpace {c : Character8} (h : isXmlSpace c = true) :
    isDelimiter c = true := by
  unfold isDelimiter
  rw [h, Bool.true_or, Bool.true_or, Bool.true_or]

theorem not_quantifier_of_isDelimiter {c : Character8} (h : isDelimiter c = true) :
    c ≠ ('?' : Character8) ∧ c ≠ ('*' : Character8) ∧ c ≠ ('+' : Character8) := by
  revert c
  apply forall_byte
  decide +kernel

theorem not_nameCode_of_isDelimiter {c : Character8} (h : isDelimiter c = true) :
    c.toNat < 128 ∧ isAsciiNameCode c.toNat = false := by
  revert c
  apply forall_byte
  decide +kernel

/-- A quantifier or what follows it ends a name. -/
theorem endsNameText_quantifierText (q : Quantifier) {v : String8} (hv : Delimits v) :
    EndsNameText (quantifierText q ++ v) := by
  intro c hc
  cases q with
  | none => exact not_nameCode_of_isDelimiter (hv c hc)
  | optional =>
    cases hc
    decide
  | repetition =>
    cases hc
    decide
  | plus =>
    cases hc
    decide

theorem delimits_spaces {u v : String8} (hu : ∀ c ∈ u, isXmlSpace c = true) (hv : Delimits v) :
    Delimits (u ++ v) := by
  cases u with
  | nil => exact hv
  | cons d u =>
    intro c hc
    cases hc
    exact isDelimiter_of_isXmlSpace (hu d List.mem_cons_self)

/-! ## Up to the end of the declaration -/

/-- `rest` stands at `i`, and behind it the `>` of the declaration, behind `stop`. -/
structure InContent (subset : String8) (stop i : Nat) (rest : String8) : Prop where
  restAt : ∃ tail, RestAt subset i (rest ++ ('>' : Character8) :: tail)
  stop_eq : i + rest.length = stop + 1

namespace InContent

variable {cfg : Config} {subset rest u v w : String8} {stop i : Nat} {c : Character8}
  {model : ContentModel} {q : Quantifier}

theorem append (h : InContent subset stop i (u ++ v)) : InContent subset stop (i + u.length) v := by
  obtain ⟨tail, hat⟩ := h.restAt
  have hstop := h.stop_eq
  rw [List.append_assoc] at hat
  rw [List.length_append] at hstop
  exact ⟨⟨tail, hat.append⟩, by omega⟩

theorem cons (h : InContent subset stop i (c :: v)) : InContent subset stop (i + 1) v :=
  append (u := [c]) h

theorem pos (h : InContent subset stop i rest) : 1 ≤ i := by
  obtain ⟨tail, hat⟩ := h.restAt
  exact hat.pos

theorem le_stop (h : InContent subset stop i (c :: v)) : i ≤ stop := by
  have hstop := h.stop_eq
  rw [List.length_cons] at hstop
  omega

theorem le (h : InContent subset stop i rest) : i ≤ stop + 1 := by
  have hstop := h.stop_eq
  omega

theorem lt_of_nil (h : InContent subset stop i []) : stop < i := by
  have hstop := h.stop_eq
  rw [List.length_nil] at hstop
  omega

theorem item (h : InContent subset stop i (c :: v)) : subset.item i = c := by
  obtain ⟨tail, hat⟩ := h.restAt
  exact hat.item

theorem exists_cons (h : InContent subset stop i rest) (hi : i ≤ stop) : ∃ c v, rest = c :: v := by
  cases rest with
  | nil => exact absurd h.lt_of_nil (by omega)
  | cons c v => exact ⟨c, v, rfl⟩

theorem stop_lt (h : InContent subset stop i rest) : stop < subset.length := by
  obtain ⟨tail, hat⟩ := h.restAt
  have hstop := h.stop_eq
  have hindex := hat.index
  simp only [List.length_append, List.length_cons] at hindex
  omega

/-- The `>` of the declaration. -/
theorem code_stop (h : InContent subset stop i rest) : subset.code (stop + 1) = 62 := by
  obtain ⟨tail, hat⟩ := h.restAt
  have hclose := hat.append
  rw [h.stop_eq] at hclose
  rw [hclose.code_eq]
  decide

theorem substring (h : InContent subset stop i (u ++ v)) :
    subset.substring i (i + u.length - 1) = u := by
  obtain ⟨tail, hat⟩ := h.restAt
  rw [List.append_assoc] at hat
  exact hat.substring

theorem skipSpaces (h : InContent subset stop i (u ++ v)) (hspaces : ∀ c ∈ u, isXmlSpace c = true)
    (hends : ∀ c ∈ v.head?, isXmlSpace c = false) : Xpact.skipSpaces subset i = i + u.length := by
  obtain ⟨tail, hat⟩ := h.restAt
  rw [List.append_assoc] at hat
  apply hat.skipSpaces hspaces
  intro c hc
  cases v with
  | nil =>
    cases hc
    decide
  | cons d v => exact hends c hc

/-- The loops stop at the end of the declaration at the latest, where white space ends anyway. -/
theorem min_skipSpaces (h : InContent subset stop i (u ++ v))
    (hspaces : ∀ c ∈ u, isXmlSpace c = true) (hends : ∀ c ∈ v.head?, isXmlSpace c = false) :
    min (Xpact.skipSpaces subset i) (stop + 1) = i + u.length := by
  have hle := h.append.le
  rw [h.skipSpaces hspaces hends, Nat.min_eq_left hle]

/-- A marker without `>` lies before the end of the declaration. -/
theorem hasAt_iff (h : InContent subset stop i rest) (marker : String8)
    (hmarker : ('>' : Character8) ∉ marker) :
    hasAt subset i marker = true ↔ marker <+: rest := by
  obtain ⟨tail, hat⟩ := h.restAt
  rw [hat.hasAt_iff]
  constructor
  · rintro ⟨v, hv⟩
    rcases List.append_eq_append_iff.1 hv with ⟨u, hrest, -⟩ | ⟨u, hsplit, htail⟩
    · exact ⟨u, hrest.symm⟩
    · cases u with
      | nil => exact ⟨[], by rw [hsplit, List.append_nil, List.append_nil]⟩
      | cons c u =>
        obtain ⟨rfl, -⟩ := List.cons.inj htail
        exact absurd (by rw [hsplit]; simp) hmarker
  · intro hprefix
    exact hprefix.trans (List.prefix_append rest _)

theorem endsName (h : InContent subset stop i v) (hv : EndsNameText v) : EndsName subset i := by
  have hin := h.stop_lt
  cases v with
  | nil =>
    have hstop := h.stop_eq
    rw [List.length_nil, Nat.add_zero] at hstop
    rw [hstop]
    exact endsName_of_code (by omega) h.code_stop
  | cons c v =>
    have hle := h.le_stop
    obtain ⟨hascii, hcode⟩ := hv c rfl
    refine .inr ⟨by omega, ?_⟩
    unfold String8.code
    rw [h.item]
    exact ⟨hascii, hcode⟩

theorem scannedName (h : InContent subset stop i (w ++ v))
    (hw : w ∈ name cfg.usesLegacyNameCharacterRanges) (hv : EndsNameText v) :
    Xpact.scannedName cfg subset i = (i + w.length, none) := by
  have hends := h.append.endsName hv
  obtain ⟨tail, hat⟩ := h.restAt
  rw [List.append_assoc] at hat
  exact scannedName_of_scan (scanNameFrom_name hw hat hends)

/-- What is scanned without an error is a name of the grammar. -/
theorem exists_name (h : InContent subset stop i rest) (hi : i ≤ stop)
    (hfirst : isNameStartCharacter (subset.item i) = true)
    (hscan : (Xpact.scannedName cfg subset i).2 = none) :
    ∃ w v, rest = w ++ v ∧ w ∈ name cfg.usesLegacyNameCharacterRanges ∧
      (Xpact.scannedName cfg subset i).1 = i + w.length := by
  obtain ⟨tail, hat⟩ := h.restAt
  have hin := h.stop_lt
  have hcode := h.code_stop
  have hstop := h.stop_eq
  obtain ⟨hlater, hbefore, hrun, -⟩ := isNameText_of_scan_before h.pos hfirst
    (scan_of_scannedName hscan) (show i < stop + 1 by omega) (by omega)
    (endsName_of_code (by omega) hcode) (by omega)
  obtain ⟨w, v, hsplit, hend, -, -, hname⟩ := hrun.exists_chars hat
  refine ⟨w, rest.drop w.length, ?_, hname rfl hlater, hend⟩
  have htake : (rest ++ ('>' : Character8) :: tail).take w.length = rest.take w.length :=
    List.take_append_of_le_length (by omega)
  rw [hsplit, List.take_left] at htake
  calc rest = rest.take w.length ++ rest.drop w.length := (List.take_append_drop _ _).symm
    _ = w ++ rest.drop w.length := by rw [← htake]

theorem applyContentQuantifier (h : InContent subset stop i (quantifierText q ++ v))
    (hv : Delimits v) (hmodel : model.setQuantifier .none = model) :
    Xpact.applyContentQuantifier model subset i stop =
      (i + (quantifierText q).length, model.setQuantifier q) := by
  unfold Xpact.applyContentQuantifier
  cases q with
  | none =>
    rw [hmodel]
    cases v with
    | nil => rw [if_pos h.lt_of_nil]; rfl
    | cons c v =>
      obtain ⟨hoptional, hrepetition, hplus⟩ := not_quantifier_of_isDelimiter (hv c rfl)
      rw [if_neg (Nat.not_lt.2 h.le_stop), h.item, if_neg hoptional, if_neg hrepetition,
        if_neg hplus]
      rfl
  | optional =>
    rw [if_neg (Nat.not_lt.2 h.le_stop), h.item]
    rfl
  | repetition =>
    rw [if_neg (Nat.not_lt.2 h.le_stop), h.item]
    rfl
  | plus =>
    rw [if_neg (Nat.not_lt.2 h.le_stop), h.item]
    rfl

/-- Whatever stands at an index, a quantifier or none is read there. -/
theorem exists_quantifier (h : InContent subset stop i rest)
    (hmodel : model.setQuantifier .none = model) : ∃ q v, rest = quantifierText q ++ v ∧
      Xpact.applyContentQuantifier model subset i stop =
        (i + (quantifierText q).length, model.setQuantifier q) := by
  unfold Xpact.applyContentQuantifier
  cases rest with
  | nil =>
    rw [if_pos h.lt_of_nil]
    exact ⟨.none, [], rfl, by rw [hmodel]; rfl⟩
  | cons c v =>
    rw [if_neg (Nat.not_lt.2 h.le_stop), h.item]
    split
    · rename_i hc
      exact ⟨.optional, v, by rw [hc]; rfl, rfl⟩
    split
    · rename_i hc
      exact ⟨.repetition, v, by rw [hc]; rfl, rfl⟩
    split
    · rename_i hc
      exact ⟨.plus, v, by rw [hc]; rfl, rfl⟩
    · exact ⟨.none, c :: v, rfl, by rw [hmodel]; rfl⟩

end InContent

end Xpact
