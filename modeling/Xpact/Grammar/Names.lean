import Xpact.Grammar.Coverage
import Xpact.Text.Suffixes

/-!
# Names of the grammar

The ASCII classes of the grammar are sets of bytes.  A character of the grammar is what the parser
decodes, and a name of the grammar is what `scan_name` reads when no name goes on behind it.
-/

namespace Xpact

open Grammar Computability

/-! ## ASCII classes -/

theorem forall_byte {P : Character8 → Prop} (h : ∀ n < 256, P (UInt8.ofNat n)) (c : Character8) :
    P c := by
  rw [← UInt8.ofNat_toNat (x := c)]
  exact h _ c.toNat_lt

theorem isXmlSpace_of_nameStart {c : Character8} (h : isNameStartCharacter c = true) :
    isXmlSpace c = false := by
  revert c
  apply forall_byte
  decide +kernel

theorem isXmlSpace_of_isQuote {c : Character8} (h : isQuote c = true) : isXmlSpace c = false := by
  revert c
  apply forall_byte
  decide +kernel

theorem mem_optional {L : Language Character8} {w : String8} : w ∈ optional L ↔ w = [] ∨ w ∈ L :=
  Iff.rfl

/-- Every code of the class is an ASCII character of XML. -/
def IsAscii (p : Nat → Bool) : Prop :=
  ∀ code, p code = true → code < 128 ∧ isXmlCharacterCode code = true

theorem isAscii_of_chars {s : String}
    (hs : (s.toList.all fun c ↦ c.toNat < 128 && isXmlCharacterCode c.toNat) = true) :
    IsAscii fun code ↦ s.toList.any fun c ↦ code == c.toNat := by
  intro code hany
  obtain ⟨c, hc, hcode⟩ := List.any_eq_true.1 hany
  rw [beq_iff_eq.1 hcode]
  have hboth := List.all_eq_true.1 hs c hc
  rw [Bool.and_eq_true, decide_eq_true_iff] at hboth
  exact hboth

section

variable {p : Nat → Bool} {w : String8}

/-- The characters of an ASCII class are their own UTF-8 sequences. -/
theorem mem_character (hp : IsAscii p) :
    w ∈ character p ↔ ∃ c : Character8, p c.toNat = true ∧ w = [c] := by
  constructor
  · rintro ⟨code, -, hcode, rfl⟩
    have hascii := (hp code hcode).1
    refine ⟨UInt8.ofNat code, ?_, utf8Bytes_ascii hascii⟩
    rwa [UInt8.toNat_ofNat', Nat.mod_eq_of_lt (by omega)]
  · rintro ⟨c, hc, rfl⟩
    refine ⟨c.toNat, (hp _ hc).2, hc, ?_⟩
    rw [utf8Bytes_ascii (hp _ hc).1, UInt8.ofNat_toNat]

theorem mem_kstar_character (hp : IsAscii p) :
    w ∈ (character p)∗ ↔ ∀ c ∈ w, p c.toNat = true := by
  constructor
  · intro hw c hc
    obtain ⟨parts, rfl, hparts⟩ := Language.mem_kstar.1 hw
    obtain ⟨u, hu, hcu⟩ := List.mem_flatten.1 hc
    obtain ⟨d, hd, rfl⟩ := (mem_character hp).1 (hparts u hu)
    rwa [List.mem_singleton.1 hcu]
  · intro hw
    refine Language.mem_kstar.2 ⟨w.map fun c ↦ [c], ?_, ?_⟩
    · clear hw
      induction w with
      | nil => rfl
      | cons c w ih => rw [List.map_cons, List.flatten_cons, ← ih, List.singleton_append]
    · intro u hu
      obtain ⟨c, hc, rfl⟩ := List.mem_map.1 hu
      exact (mem_character hp).2 ⟨c, hw c hc, rfl⟩

theorem mem_character_mul {L : Language Character8} (hp : IsAscii p) :
    w ∈ character p * L ↔ ∃ c : Character8, p c.toNat = true ∧ ∃ u ∈ L, w = c :: u := by
  constructor
  · rintro ⟨a, ha, u, hu, rfl⟩
    obtain ⟨c, hc, rfl⟩ := (mem_character hp).1 ha
    exact ⟨c, hc, u, hu, rfl⟩
  · rintro ⟨c, hc, u, hu, rfl⟩
    exact ⟨[c], (mem_character hp).2 ⟨c, hc, rfl⟩, u, hu, rfl⟩

theorem mem_oneOrMore_character (hp : IsAscii p) :
    w ∈ oneOrMore (character p) ↔ w ≠ [] ∧ ∀ c ∈ w, p c.toNat = true := by
  unfold oneOrMore
  rw [mem_character_mul hp]
  constructor
  · rintro ⟨c, hc, u, hu, rfl⟩
    rw [mem_kstar_character hp] at hu
    refine ⟨List.cons_ne_nil c u, fun d hd ↦ ?_⟩
    rcases List.mem_cons.1 hd with rfl | hd
    · exact hc
    · exact hu d hd
  · rintro ⟨hne, hall⟩
    obtain ⟨c, u, rfl⟩ := List.exists_cons_of_ne_nil hne
    refine ⟨c, hall c List.mem_cons_self, u, (mem_kstar_character hp).2 ?_, rfl⟩
    exact fun d hd ↦ hall d (List.mem_cons_of_mem c hd)

end

theorem mem_space {w : String8} : w ∈ space ↔ w ≠ [] ∧ ∀ c ∈ w, isXmlSpace c = true := by
  have hclass (c : Character8) :
      (" \t\r\n".toList.any fun d ↦ c.toNat == d.toNat) = isXmlSpace c := by
    revert c
    apply forall_byte
    decide +kernel
  unfold space oneOf
  rw [mem_oneOrMore_character (isAscii_of_chars (by decide))]
  simp only [hclass]

theorem mem_optionalSpace {w : String8} :
    w ∈ optionalSpace ↔ ∀ c ∈ w, isXmlSpace c = true := by
  unfold optionalSpace
  rw [mem_optional, mem_space]
  constructor
  · rintro (rfl | h)
    · intro c hc
      cases hc
    · exact h.2
  · intro h
    by_cases hw : w = []
    · exact Or.inl hw
    · exact Or.inr ⟨hw, h⟩

/-- An ASCII character that begins names is a name. -/
theorem mem_name_of_ascii {legacy : Bool} {c : Character8} (hc : c.toNat < 128)
    (hfirst : isNameStartCode legacy c.toNat = true)
    (hcode : isXmlCharacterCode c.toNat = true) : [c] ∈ name legacy := by
  have hbytes : [c] = utf8Bytes c.toNat := by
    rw [utf8Bytes_ascii hc, UInt8.ofNat_toNat]
  exact ⟨[c], ⟨c.toNat, hcode, hfirst, hbytes⟩, [], Language.nil_mem_kstar _, rfl⟩

/-! ## Characters -/

theorem toNat_byte {n : Nat} (h : n < 256) : (UInt8.ofNat n).toNat = n := by
  rw [UInt8.toNat_ofNat', Nat.mod_eq_of_lt h]

theorem utf8Continue_byte (n code : Nat) {x : Nat} (hx : x < 64) (rest : String8) :
    utf8Continue (n + 1) code (UInt8.ofNat (128 + x) :: rest) =
      utf8Continue n (code * 64 + x) rest := by
  have hbyte : isUtf8ContinuationByte (128 + x) = true := by
    unfold isUtf8ContinuationByte
    simp
    omega
  rw [utf8Continue, toNat_byte (by omega), if_pos hbyte,
    show code * 64 + (128 + x) - 128 = code * 64 + x by omega]

/-- The bytes of a character above ASCII: the lead and its trailing bytes. -/
theorem utf8CharacterLength_lead {input rest : String8} {i code lead n : Nat}
    (hlead : input.code i = lead) (hdrop : input.drop i = rest)
    (hcode : isXmlCharacterCode code = true)
    (hn : n = 1 ∧ 194 ≤ lead ∧ lead ≤ 223 ∧ 128 ≤ code ∧
        utf8Continue n (lead - 192) rest = some (some code) ∨
      n = 2 ∧ 224 ≤ lead ∧ lead ≤ 239 ∧ 2048 ≤ code ∧
        utf8Continue n (lead - 224) rest = some (some code) ∨
      n = 3 ∧ 240 ≤ lead ∧ lead ≤ 244 ∧ 65536 ≤ code ∧
        utf8Continue n (lead - 240) rest = some (some code)) :
    utf8CharacterLength input i = .character (n + 1) code := by
  have htrailing : utf8TrailingCount lead = n := by
    unfold utf8TrailingCount
    split
    · omega
    split
    · omega
    split <;> omega
  unfold utf8CharacterLength
  simp only [hlead, hdrop, htrailing]
  rw [if_neg (by omega)]
  rcases hn with ⟨rfl, -, -, hleast, hread⟩ | ⟨rfl, -, -, hleast, hread⟩ |
    ⟨rfl, -, -, hleast, hread⟩ <;>
  · simp [hread, hleast, hcode]

namespace RestAt

variable {input rest v : String8} {i code : Nat}

theorem code_eq {c : Character8} (h : RestAt input i (c :: v)) : input.code i = c.toNat := by
  unfold String8.code
  rw [h.item]

theorem drop_eq {c : Character8} (h : RestAt input i (c :: v)) : input.drop i = v := by
  have hdrop := h.cons.drop
  rwa [Nat.add_sub_cancel] at hdrop

/-- A character of the grammar is decoded. -/
theorem utf8CharacterLength (h : RestAt input i (utf8Bytes code ++ v))
    (hcode : isXmlCharacterCode code = true) :
    utf8CharacterLength input i = .character (utf8Bytes code).length code := by
  have hbound := isXmlCharacterCode_le hcode
  unfold utf8Bytes at h ⊢
  split at h
  · rename_i hone
    have hlead := h.code_eq
    rw [toNat_byte (by omega)] at hlead
    rw [utf8CharacterLength_ascii (by omega), hlead, if_pos hcode, if_pos hone]
    rfl
  rename_i hone
  rw [if_neg hone]
  split at h
  · rename_i htwo
    have hlead := h.code_eq
    rw [toNat_byte (by omega)] at hlead
    rw [if_pos htwo]
    apply utf8CharacterLength_lead hlead h.drop_eq hcode
    refine Or.inl ⟨rfl, by omega, by omega, by omega, ?_⟩
    show utf8Continue 1 _ (UInt8.ofNat (128 + code % 64) :: v) = _
    rw [utf8Continue_byte 0 _ (by omega)]
    exact congrArg (some ∘ some) (by omega)
  rename_i htwo
  rw [if_neg htwo]
  split at h
  · rename_i hthree
    have hlead := h.code_eq
    rw [toNat_byte (by omega)] at hlead
    rw [if_pos hthree]
    apply utf8CharacterLength_lead hlead h.drop_eq hcode
    refine Or.inr (Or.inl ⟨rfl, by omega, by omega, by omega, ?_⟩)
    show utf8Continue 2 _
      (UInt8.ofNat (128 + code / 64 % 64) :: UInt8.ofNat (128 + code % 64) :: v) = _
    rw [utf8Continue_byte 1 _ (by omega), utf8Continue_byte 0 _ (by omega)]
    exact congrArg (some ∘ some) (by omega)
  · rename_i hthree
    have hlead := h.code_eq
    rw [toNat_byte (by omega)] at hlead
    rw [if_neg hthree]
    apply utf8CharacterLength_lead hlead h.drop_eq hcode
    refine Or.inr (Or.inr ⟨rfl, by omega, by omega, by omega, ?_⟩)
    show utf8Continue 3 _ (UInt8.ofNat (128 + code / 4096 % 64) ::
      UInt8.ofNat (128 + code / 64 % 64) :: UInt8.ofNat (128 + code % 64) :: v) = _
    rw [utf8Continue_byte 2 _ (by omega), utf8Continue_byte 1 _ (by omega),
      utf8Continue_byte 0 _ (by omega)]
    exact congrArg (some ∘ some) (by omega)

end RestAt

/-- The continuation bytes that were read are determined by the code. -/
theorem utf8Continue_some {n code result : Nat} {rest : String8}
    (h : utf8Continue (n + 1) code rest = some (some result)) :
    ∃ x v, x < 64 ∧ rest = UInt8.ofNat (128 + x) :: v ∧
      utf8Continue n (code * 64 + x) v = some (some result) := by
  cases rest with
  | nil => cases h
  | cons c v =>
    unfold utf8Continue at h
    split at h
    · rename_i hbyte
      unfold isUtf8ContinuationByte at hbyte
      simp at hbyte
      have hc : c = UInt8.ofNat (128 + (c.toNat - 128)) := by
        rw [show 128 + (c.toNat - 128) = c.toNat by omega, UInt8.ofNat_toNat]
      refine ⟨c.toNat - 128, v, by omega, by rw [← hc], ?_⟩
      rwa [show code * 64 + (c.toNat - 128) = code * 64 + c.toNat - 128 by omega]
    · cases h

theorem utf8TrailingCount_cases (lead : Nat) :
    utf8TrailingCount lead = 0 ∨ utf8TrailingCount lead = 1 ∧ 194 ≤ lead ∧ lead ≤ 223 ∨
      utf8TrailingCount lead = 2 ∧ 224 ≤ lead ∧ lead ≤ 239 ∨
      utf8TrailingCount lead = 3 ∧ 240 ≤ lead ∧ lead ≤ 244 := by
  unfold utf8TrailingCount
  by_cases htwo : 194 ≤ lead ∧ lead ≤ 223
  · rw [if_pos htwo]
    omega
  rw [if_neg htwo]
  by_cases hthree : 224 ≤ lead ∧ lead ≤ 239
  · rw [if_pos hthree]
    omega
  rw [if_neg hthree]
  by_cases hfour : 240 ≤ lead ∧ lead ≤ 244
  · rw [if_pos hfour]
    omega
  · rw [if_neg hfour]
    omega

/-- The one way through `utf8CharacterLength` to a character above ASCII. -/
theorem utf8CharacterLength_trailing {input : String8} {i length code : Nat}
    (hwide : ¬ input.code i < 128) (h : utf8CharacterLength input i = .character length code) :
    ∃ n start minimum, utf8TrailingCount (input.code i) = n ∧ n ≠ 0 ∧
      start = (if n = 1 then input.code i - 192 else if n = 2 then input.code i - 224
        else input.code i - 240) ∧
      minimum = (if n = 1 then 128 else if n = 2 then 2048 else 65536) ∧
      utf8Continue n start (input.drop i) = some (some code) ∧
      minimum ≤ code ∧ isXmlCharacterCode code = true ∧ length = n + 1 := by
  unfold utf8CharacterLength at h
  simp only at h
  rw [if_neg hwide] at h
  generalize hminimum : (if utf8TrailingCount (input.code i) = 1 then 128
    else if utf8TrailingCount (input.code i) = 2 then 2048 else 65536) = minimum at h
  split at h
  · cases h
  · rename_i hsome
    split at h
    · cases h
    · cases h
    · rename_i result hread
      split at h
      · rename_i hleast
        obtain ⟨rfl, rfl⟩ := Utf8Sequence.character.inj h
        exact ⟨_, _, minimum, rfl, hsome, rfl, hminimum.symm, hread, hleast.1, hleast.2, rfl⟩
      · cases h

/-- What was decoded above ASCII: the lead and the trailing bytes. -/
theorem utf8CharacterLength_wide {input : String8} {i length code : Nat}
    (hwide : ¬ input.code i < 128) (h : utf8CharacterLength input i = .character length code) :
    isXmlCharacterCode code = true ∧ ∃ n start, length = n + 1 ∧
      utf8Continue n start (input.drop i) = some (some code) ∧
      (n = 1 ∧ input.code i = 192 + start ∧ start < 32 ∧ 128 ≤ code ∨
        n = 2 ∧ input.code i = 224 + start ∧ start < 16 ∧ 2048 ≤ code ∨
        n = 3 ∧ input.code i = 240 + start ∧ start < 5 ∧ 65536 ≤ code) := by
  obtain ⟨n, start, minimum, hn, hsome, hstart, hminimum, hread, hleast, hcode, hlength⟩ :=
    utf8CharacterLength_trailing hwide h
  refine ⟨hcode, n, start, hlength, hread, ?_⟩
  rcases utf8TrailingCount_cases (input.code i) with hnone | hlead | hlead | hlead
  · omega
  · have hone : n = 1 := by omega
    rw [if_pos hone] at hstart hminimum
    omega
  · have htwo : n = 2 := by omega
    rw [if_neg (by omega), if_pos htwo] at hstart hminimum
    omega
  · have hthree : n = 3 := by omega
    rw [if_neg (by omega), if_neg (by omega)] at hstart hminimum
    omega

/-- Only characters of the grammar are decoded. -/
theorem RestAt.of_character {input rest : String8} {i length code : Nat}
    (h : RestAt input i rest) (hin : i ≤ input.length)
    (hread : Xpact.utf8CharacterLength input i = .character length code) :
    isXmlCharacterCode code = true ∧ length = (utf8Bytes code).length ∧
      ∃ v, rest = utf8Bytes code ++ v := by
  obtain ⟨v, hv⟩ := h.exists_cons hin
  have hitem : input.item i = UInt8.ofNat (input.code i) := (UInt8.ofNat_toNat).symm
  rw [hv] at h
  rw [hv, hitem]
  by_cases hascii : input.code i < 128
  · rw [utf8CharacterLength_ascii hascii] at hread
    split at hread
    · rename_i hcode
      obtain ⟨rfl, rfl⟩ := Utf8Sequence.character.inj hread
      rw [utf8Bytes_ascii hascii]
      exact ⟨hcode, rfl, v, rfl⟩
    · cases hread
  obtain ⟨hcode, n, start, rfl, hcontinue, hlead⟩ := utf8CharacterLength_wide hascii hread
  rw [h.drop_eq] at hcontinue
  have hbound := isXmlCharacterCode_le hcode
  refine ⟨hcode, ?_⟩
  unfold utf8Bytes
  rw [if_neg (by omega)]
  rcases hlead with ⟨rfl, hlead, hstart, hleast⟩ | ⟨rfl, hlead, hstart, hleast⟩ |
    ⟨rfl, hlead, hstart, hleast⟩
  · obtain ⟨x, w, hx, rfl, hdone⟩ := utf8Continue_some hcontinue
    have hvalue : start * 64 + x = code := Option.some.inj (Option.some.inj hdone)
    rw [if_pos (by omega), hlead, show start = code / 64 by omega, show x = code % 64 by omega]
    exact ⟨rfl, w, rfl⟩
  · obtain ⟨x, t, hx, rfl, hsecond⟩ := utf8Continue_some hcontinue
    obtain ⟨y, w, hy, rfl, hdone⟩ := utf8Continue_some hsecond
    have hvalue : (start * 64 + x) * 64 + y = code := Option.some.inj (Option.some.inj hdone)
    rw [if_neg (by omega), if_pos (by omega), hlead, show start = code / 4096 by omega,
      show x = code / 64 % 64 by omega, show y = code % 64 by omega]
    exact ⟨rfl, w, rfl⟩
  · obtain ⟨x, t, hx, rfl, hsecond⟩ := utf8Continue_some hcontinue
    obtain ⟨y, u, hy, rfl, hthird⟩ := utf8Continue_some hsecond
    obtain ⟨z, w, hz, rfl, hdone⟩ := utf8Continue_some hthird
    have hvalue : ((start * 64 + x) * 64 + y) * 64 + z = code :=
      Option.some.inj (Option.some.inj hdone)
    rw [if_neg (by omega), if_neg (by omega), hlead, show start = code / 262144 by omega,
      show x = code / 4096 % 64 by omega, show y = code / 64 % 64 by omega,
      show z = code % 64 by omega]
    exact ⟨rfl, w, rfl⟩

/-! ## Names -/

section

variable {cfg : Config} {input rest w v : String8} {start i stop n : Nat}

/-- What a run of name characters holds. -/
theorem NameRun.exists_chars (h : NameRun cfg input start i stop) (hat : RestAt input i rest) :
    ∃ w v, rest = w ++ v ∧ stop = i + w.length ∧ RestAt input stop v ∧
      (start < i → w ∈ (character (isNameCode cfg.usesLegacyNameCharacterRanges))∗) ∧
      (start = i → i < stop → w ∈ name cfg.usesLegacyNameCharacterRanges) := by
  induction h generalizing rest with
  | nil i =>
    refine ⟨[], rest, rfl, rfl, hat, fun _ ↦ Language.nil_mem_kstar _, fun _ hlt ↦ ?_⟩
    exact absurd hlt (Nat.lt_irrefl i)
  | @cons i length code stop hin hread hname hrun ih =>
    obtain ⟨hcode, rfl, v, rfl⟩ := hat.of_character hin hread
    obtain ⟨w, v, rfl, rfl, hend, hchars, -⟩ := ih hat.append
    have hpositive := List.length_pos_iff.2 (utf8Bytes_ne_nil code)
    refine ⟨utf8Bytes code ++ w, v, (List.append_assoc _ _ _).symm, ?_, hend, ?_, ?_⟩
    · rw [List.length_append]
      omega
    · intro hlt
      rw [if_neg (by omega)] at hname
      rw [← Language.one_add_self_mul_kstar_eq_kstar]
      exact Or.inr (Language.append_mem_mul ⟨code, hcode, hname, rfl⟩ (hchars (by omega)))
    · intro heq _
      rw [if_pos heq.symm] at hname
      exact Language.append_mem_mul ⟨code, hcode, hname, rfl⟩ (hchars (by omega))

/-- A scan steps over a character that the name may hold there. -/
theorem scanNameFrom_character {code : Nat} (hat : RestAt input i (utf8Bytes code ++ v))
    (hcode : isXmlCharacterCode code = true) (hi : start ≤ i)
    (hname : (if i = start then cfg.isNameStartCode code else cfg.isNameCode code) = true) :
    scanNameFrom cfg input start (n + 1) i =
      scanNameFrom cfg input start n (i + (utf8Bytes code).length) := by
  have hread := hat.utf8CharacterLength hcode
  have hin : ¬ input.length < i := by
    intro hlt
    have hindex := hat.index
    have hpositive := List.length_pos_iff.2 (utf8Bytes_ne_nil code)
    rw [List.length_append] at hindex
    omega
  rw [scanNameFrom, if_neg hin]
  by_cases hwide : 128 ≤ input.code i
  · rw [if_pos hwide, hread]
    simp only
    rw [if_pos]
    rw [Bool.or_eq_true, Bool.and_eq_true, decide_eq_true_eq]
    split at hname
    · exact Or.inl hname
    · exact Or.inr ⟨by omega, hname⟩
  · have hascii : input.code i < 128 := by omega
    rw [utf8CharacterLength_ascii hascii] at hread
    split at hread
    · obtain ⟨hlength, rfl⟩ := Utf8Sequence.character.inj hread
      have hcontinues := isNameCode_of_position hname
      unfold Config.isNameCode at hcontinues
      rw [isNameCode_ascii _ _ hascii] at hcontinues
      rw [if_neg hwide, if_pos hcontinues, ← hlength]
    · cases hread

theorem scanNameFrom_end (hends : EndsName input i) (hi : start < i) :
    scanNameFrom cfg input start (n + 1) i = (i, false) := by
  rw [scanNameFrom]
  rcases hends with rfl | ⟨hin, hascii, hcode⟩
  · rw [if_pos (by omega)]
  · rw [if_neg (by omega), if_neg (by omega), if_neg (by rw [hcode]; exact Bool.false_ne_true),
      show max i (start + 1) = i by omega]

theorem scanNameFrom_chars
    (hw : w ∈ (character (isNameCode cfg.usesLegacyNameCharacterRanges))∗)
    (hat : RestAt input i (w ++ v)) (hends : EndsName input (i + w.length)) (hi : start < i)
    (hfuel : input.length + 1 < i + n) :
    scanNameFrom cfg input start n i = (i + w.length, false) := by
  obtain ⟨parts, rfl, hparts⟩ := Language.mem_kstar.1 hw
  clear hw
  induction parts generalizing i n with
  | nil =>
    obtain ⟨n, rfl⟩ : ∃ m, n = m + 1 := by
      have hindex := hat.index
      exact ⟨n - 1, by omega⟩
    exact scanNameFrom_end hends hi
  | cons u parts ih =>
    obtain ⟨code, hcode, hname, rfl⟩ := hparts u List.mem_cons_self
    rw [List.flatten_cons] at hat hends ⊢
    rw [List.append_assoc] at hat
    rw [List.length_append, ← Nat.add_assoc] at hends ⊢
    have hpositive := List.length_pos_iff.2 (utf8Bytes_ne_nil code)
    obtain ⟨n, rfl⟩ : ∃ m, n = m + 1 := by
      have hindex := hat.index
      exact ⟨n - 1, by omega⟩
    rw [scanNameFrom_character hat hcode (by omega) (by rw [if_neg (by omega)]; exact hname)]
    exact ih (by omega) (by omega) (fun u hu ↦ hparts u (List.mem_cons_of_mem _ hu)) hat.append
      hends

/-- A name of the grammar is scanned to its end. -/
theorem scanNameFrom_name (hw : w ∈ name cfg.usesLegacyNameCharacterRanges)
    (hat : RestAt input i (w ++ v)) (hends : EndsName input (i + w.length)) :
    scanNameFrom cfg input i (input.length + 1) i = (i + w.length, false) := by
  obtain ⟨a, ⟨code, hcode, hstart, rfl⟩, b, hb, rfl⟩ := Language.mem_mul.1 hw
  rw [List.append_assoc] at hat
  rw [List.length_append, ← Nat.add_assoc] at hends ⊢
  have hpositive := List.length_pos_iff.2 (utf8Bytes_ne_nil code)
  have hpos := hat.pos
  rw [scanNameFrom_character hat hcode (Nat.le_refl i) (by rw [if_pos rfl]; exact hstart)]
  exact scanNameFrom_chars hb hat.append hends (by omega) (by omega)

theorem isNameStartCharacter_ascii (legacy : Bool) (code : Nat) (h : code < 128)
    (hstart : isNameStartCode legacy code = true) :
    isNameStartCharacter (UInt8.ofNat code) = true := by
  revert legacy code
  decide +kernel

/-- The first byte of a name passes the test that precedes every scan. -/
theorem isNameStartCharacter_name {legacy : Bool} (hw : w ∈ name legacy)
    (hat : RestAt input i (w ++ v)) : isNameStartCharacter (input.item i) = true := by
  obtain ⟨a, ⟨code, hcode, hstart, rfl⟩, b, hb, rfl⟩ := Language.mem_mul.1 hw
  by_cases hascii : code < 128
  · rw [utf8Bytes_ascii hascii] at hat
    rw [hat.item]
    exact isNameStartCharacter_ascii legacy code hascii hstart
  · have hbound := isXmlCharacterCode_le hcode
    rw [List.append_assoc] at hat
    have hlead : 192 ≤ (input.item i).toNat ∧ (input.item i).toNat ≤ 255 := by
      unfold utf8Bytes at hat
      rw [if_neg (by omega)] at hat
      split at hat
      · rw [hat.item, toNat_byte (by omega)]
        omega
      split at hat
      · rw [hat.item, toNat_byte (by omega)]
        omega
      · rw [hat.item, toNat_byte (by omega)]
        omega
    unfold isNameStartCharacter
    simp [hlead]

end

end Xpact
