import Xpact.Parser.Scan

/-!
# Names, scanned and tested

`scan_name` and `is_valid_name` implement the name production twice: one reads bytes below 128 by a
fast path and looks at the whole text, the other decodes every character of a string that is already
cut out.  They agree: the text that a scan delimits is the longest one that passes the test.
-/

namespace Xpact

/-! ## Characters of a part of a text -/

theorem String8.substring_eq {s : String8} {i j : Nat} (hi : 1 ≤ i) (hij : i ≤ j)
    (hj : j ≤ s.length) : s.substring i j = (s.drop (i - 1)).take (j + 1 - i) := by
  unfold String8.substring
  rw [if_pos ⟨hi, hij, hj⟩]

theorem String8.length_substring {s : String8} {i j : Nat} (hi : 1 ≤ i) (hij : i ≤ j)
    (hj : j ≤ s.length) : (s.substring i j).length = j + 1 - i := by
  rw [String8.substring_eq hi hij hj, List.length_take, List.length_drop]
  omega

theorem String8.code_substring {s : String8} {start i j : Nat} (hstart : 1 ≤ start)
    (hi : start ≤ i) (hij : i ≤ j) (hj : j ≤ s.length) :
    (s.substring start j).code (i + 1 - start) = s.code i := by
  have hbound : i + 1 - start - 1 < j + 1 - start := by omega
  have hindex : start - 1 + (i + 1 - start - 1) = i - 1 := by omega
  unfold String8.code String8.item
  rw [String8.substring_eq hstart (by omega) hj, List.getD_eq_getElem?_getD,
    List.getElem?_take_of_lt hbound, List.getElem?_drop, hindex, List.getD_eq_getElem?_getD]

theorem String8.drop_substring {s : String8} {start i j : Nat} (hstart : 1 ≤ start)
    (hi : start ≤ i) (hij : i ≤ j) (hj : j ≤ s.length) :
    (s.substring start j).drop (i + 1 - start) = (s.drop i).take (j - i) := by
  have hindex : start - 1 + (i + 1 - start) = i := by omega
  have hcount : j + 1 - start - (i + 1 - start) = j - i := by omega
  rw [String8.substring_eq hstart (by omega) hj, List.drop_take, List.drop_drop, hindex, hcount]

/-! ## Continuation bytes -/

/-- A character that is complete is complete in every part of the text that holds it. -/
theorem utf8Continue_take {n code result k : Nat} {rest : String8}
    (h : utf8Continue n code rest = some (some result)) (hk : n ≤ k) :
    utf8Continue n code (rest.take k) = some (some result) := by
  induction n generalizing code rest k with
  | zero => exact h
  | succ n ih =>
    cases rest with
    | nil => cases h
    | cons c rest =>
      obtain ⟨k, rfl⟩ : ∃ l, k = l + 1 := ⟨k - 1, by omega⟩
      rw [List.take_succ_cons]
      unfold utf8Continue at h ⊢
      split at h
      · rename_i hbyte
        rw [if_pos hbyte]
        exact ih h (by omega)
      · cases h

/-- The bytes after the leading byte of a complete character. -/
theorem utf8Continue_bytes {n code result : Nat} {rest : String8}
    (h : utf8Continue n code rest = some (some result)) :
    n ≤ rest.length ∧ ∀ k, k < n → 128 ≤ (rest.getD k 0).toNat := by
  induction n generalizing code rest with
  | zero => exact ⟨Nat.zero_le _, fun k hk ↦ absurd hk (Nat.not_lt_zero k)⟩
  | succ n ih =>
    cases rest with
    | nil => cases h
    | cons c rest =>
      unfold utf8Continue at h
      split at h
      · rename_i hbyte
        obtain ⟨hlength, hbytes⟩ := ih h
        have hc : 128 ≤ c.toNat := by
          unfold isUtf8ContinuationByte at hbyte
          simp at hbyte
          omega
        constructor
        · rw [List.length_cons]
          omega
        · intro k hk
          cases k with
          | zero => exact hc
          | succ k => exact hbytes k (by omega)
      · cases h

/-- A character that the end cuts off has only continuation bytes after its leading byte. -/
theorem utf8Continue_cutOff {n code : Nat} {rest : String8}
    (h : utf8Continue n code rest = some none) (k : Nat) (hk : k < rest.length) :
    128 ≤ (rest.getD k 0).toNat := by
  induction n generalizing code rest k with
  | zero => cases h
  | succ n ih =>
    cases rest with
    | nil => exact absurd hk (Nat.not_lt_zero k)
    | cons c rest =>
      unfold utf8Continue at h
      split at h
      · rename_i hbyte
        cases k with
        | zero =>
          unfold isUtf8ContinuationByte at hbyte
          simp at hbyte
          exact hbyte.1
        | succ k => exact ih h k (Nat.lt_of_succ_lt_succ hk)
      · cases h

theorem code_eq_getD_drop (input : String8) {i k : Nat} (h : i < k) :
    ((input.drop i).getD (k - 1 - i) 0).toNat = input.code k := by
  have hindex : i + (k - 1 - i) = k - 1 := by omega
  unfold String8.code String8.item
  rw [List.getD_eq_getElem?_getD, List.getElem?_drop, hindex, List.getD_eq_getElem?_getD]

/-! ## Characters -/

/-- The bytes of a character lie in the text, and after the first there are continuation bytes. -/
theorem utf8CharacterLength_bytes {input : String8} {i length code : Nat} (hi : i ≤ input.length)
    (h : utf8CharacterLength input i = .character length code) :
    1 ≤ length ∧ i + length ≤ input.length + 1 ∧
      ∀ k, i < k → k < i + length → 128 ≤ input.code k := by
  unfold utf8CharacterLength at h
  dsimp only at h
  generalize (if utf8TrailingCount (input.code i) = 1 then 128
    else if utf8TrailingCount (input.code i) = 2 then 2048 else 65536) = minimum at h
  split at h
  · split at h
    · obtain ⟨rfl, -⟩ := Utf8Sequence.character.inj h
      exact ⟨Nat.le_refl 1, by omega, fun k hik hk ↦ absurd hk (by omega)⟩
    · cases h
  · split at h
    · cases h
    · split at h
      · cases h
      · cases h
      · rename_i hread
        split at h
        · obtain ⟨rfl, -⟩ := Utf8Sequence.character.inj h
          obtain ⟨hlength, hbytes⟩ := utf8Continue_bytes hread
          rw [List.length_drop] at hlength
          refine ⟨by omega, by omega, fun k hik hk ↦ ?_⟩
          rw [← code_eq_getD_drop input hik]
          exact hbytes _ (by omega)
        · cases h

/-- Behind a sequence that the end cuts off there are continuation bytes only. -/
theorem utf8CharacterLength_cutOff {input : String8} {i k : Nat}
    (h : utf8CharacterLength input i = .cutOff) (hik : i < k) (hk : k ≤ input.length) :
    128 ≤ input.code k := by
  unfold utf8CharacterLength at h
  dsimp only at h
  generalize (if utf8TrailingCount (input.code i) = 1 then 128
    else if utf8TrailingCount (input.code i) = 2 then 2048 else 65536) = minimum at h
  split at h
  · split at h <;> cases h
  · split at h
    · cases h
    · split at h
      · cases h
      · rename_i hread
        rw [← code_eq_getD_drop input hik]
        apply utf8Continue_cutOff hread
        rw [List.length_drop]
        omega
      · split at h <;> cases h

/-- A character reads the same in a text that ends behind it. -/
theorem utf8CharacterLength_of_take {input other : String8} {i k length code count : Nat}
    (h : utf8CharacterLength input i = .character length code)
    (hcode : other.code k = input.code i) (hdrop : other.drop k = (input.drop i).take count)
    (hcount : length ≤ count + 1) : utf8CharacterLength other k = .character length code := by
  unfold utf8CharacterLength at h ⊢
  rw [hcode]
  dsimp only at h ⊢
  generalize (if utf8TrailingCount (input.code i) = 1 then 128
    else if utf8TrailingCount (input.code i) = 2 then 2048 else 65536) = minimum at h ⊢
  split at h
  · rename_i hlead
    rw [if_pos hlead]
    exact h
  · rename_i hlead
    rw [if_neg hlead]
    split at h
    · cases h
    · rename_i htrailing
      rw [if_neg htrailing]
      split at h
      · cases h
      · cases h
      · rename_i hread
        split at h
        · rename_i hcharacter
          obtain ⟨rfl, rfl⟩ := Utf8Sequence.character.inj h
          rw [hdrop, utf8Continue_take hread (by omega)]
          dsimp only
          rw [if_pos hcharacter]
        · cases h

theorem utf8CharacterLength_substring {input : String8} {start i j length code : Nat}
    (hstart : 1 ≤ start) (hi : start ≤ i) (hj : j ≤ input.length)
    (h : utf8CharacterLength input i = .character length code) (hlength : 1 ≤ length)
    (hend : i + length ≤ j + 1) :
    utf8CharacterLength (input.substring start j) (i + 1 - start) = .character length code := by
  apply utf8CharacterLength_of_take h (String8.code_substring hstart hi (by omega) hj)
  · exact String8.drop_substring hstart hi (by omega) hj
  · omega

/-- Below 128 a character is one byte. -/
theorem utf8CharacterLength_ascii {input : String8} {i : Nat} (h : input.code i < 128) :
    utf8CharacterLength input i =
      if isXmlCharacterCode (input.code i) then .character 1 (input.code i) else .malformed := by
  unfold utf8CharacterLength
  dsimp only
  rw [if_pos h]

/-! ## Name characters below 128 -/

theorem isNameCode_of_isNameStartCode {legacy : Bool} {code : Nat}
    (h : isNameStartCode legacy code = true) : isNameCode legacy code = true := by
  unfold isNameCode
  split <;> simp [h]

/-- The fast path of `scan_name` takes the name characters below 128. -/
theorem isNameCode_ascii (legacy : Bool) (code : Nat) (h : code < 128) :
    isNameCode legacy code = isAsciiNameCode code := by
  revert legacy code
  decide +kernel

theorem isXmlCharacterCode_of_isAsciiNameCode (code : Nat) (h : code < 128)
    (hname : isAsciiNameCode code = true) : isXmlCharacterCode code = true := by
  revert code
  decide

theorem isNameStartCode_of_isNameStartCharacter (legacy : Bool) (c : Character8)
    (h : c.toNat < 128) (hstart : isNameStartCharacter c = true) :
    isNameStartCode legacy c.toNat = true ∧ isAsciiNameCode c.toNat = true := by
  unfold isNameStartCharacter at hstart
  dsimp only at hstart
  generalize c.toNat = code at h hstart ⊢
  revert legacy code
  decide +kernel

/-! ## The characters that a scan takes -/

section

variable (cfg : Config) (input : String8) (start : Nat)

/-- From `i` up to `stop` there are characters that a name beginning at `start` may hold there. -/
inductive NameRun : Nat → Nat → Prop where
  | nil (i : Nat) : NameRun i i
  | cons {i length code stop : Nat} : i ≤ input.length →
      utf8CharacterLength input i = .character length code →
      (if i = start then cfg.isNameStartCode code else cfg.isNameCode code) = true →
      NameRun (i + length) stop → NameRun i stop

/-- At `i` the text ends, or holds a byte below 128 that continues no name. -/
def EndsName (i : Nat) : Prop :=
  i = input.length + 1 ∨
    i ≤ input.length ∧ input.code i < 128 ∧ isAsciiNameCode (input.code i) = false

end

section

variable {cfg : Config} {input : String8} {start n i j stop close : Nat}

theorem NameRun.le (h : NameRun cfg input start i stop) (hi : i ≤ input.length + 1) :
    i ≤ stop ∧ stop ≤ input.length + 1 := by
  induction h with
  | nil i => exact ⟨Nat.le_refl i, hi⟩
  | cons hin hread _ _ ih =>
    obtain ⟨hpositive, hend, -⟩ := utf8CharacterLength_bytes hin hread
    have hrest := ih hend
    omega

theorem isNameCode_of_position {code : Nat}
    (h : (if i = start then cfg.isNameStartCode code else cfg.isNameCode code) = true) :
    cfg.isNameCode code = true := by
  split at h
  · exact isNameCode_of_isNameStartCode h
  · exact h

/-- No name goes beyond a byte below 128 that continues none. -/
theorem NameRun.le_of_endsName (h : NameRun cfg input start i stop) (hi : i ≤ close)
    (hclose : EndsName input close) : stop ≤ close := by
  induction h with
  | nil i => exact hi
  | @cons i length code stop hin hread hname _ ih =>
    obtain ⟨-, hend, hbytes⟩ := utf8CharacterLength_bytes hin hread
    apply ih
    rcases hclose with rfl | ⟨hcloseIn, hascii, hcode⟩
    · exact hend
    · by_cases hik : i = close
      · -- The byte itself would be a name character.
        subst hik
        rw [utf8CharacterLength_ascii hascii] at hread
        split at hread
        · obtain ⟨rfl, rfl⟩ := Utf8Sequence.character.inj hread
          have hcontinues := isNameCode_of_position hname
          unfold Config.isNameCode at hcontinues
          rw [isNameCode_ascii _ _ hascii, hcode] at hcontinues
          cases hcontinues
        · cases hread
      · apply Nat.le_of_not_lt
        intro hlt
        exact absurd (hbytes close (by omega) hlt) (Nat.not_le.2 hascii)

theorem not_endsName_of_isNameStartCharacter (hin : start ≤ input.length)
    (hfirst : isNameStartCharacter (input.item start) = true) : ¬EndsName input start := by
  rintro (hend | ⟨-, hascii, hcode⟩)
  · omega
  · have hname := (isNameStartCode_of_isNameStartCharacter false _ hascii hfirst).2
    exact absurd (hname.symm.trans hcode) (by decide)

/-- A scan that meets no bad character takes a run of name characters, up to a byte that ends the
name or a sequence that the end of the text cuts off. -/
theorem scanNameFrom_spec (hscan : scanNameFrom cfg input start n i = (stop, false))
    (hfuel : input.length + 1 < i + n) (hstart : start ≤ i) (hi : i ≤ input.length + 1)
    (hfirst : i = start → i ≤ input.length ∧ isNameStartCharacter (input.item start) = true) :
    NameRun cfg input start i stop ∧ EndsName input stop ∨
      ∃ k, NameRun cfg input start i k ∧ k ≤ input.length ∧
        utf8CharacterLength input k = .cutOff ∧ stop = input.length + 1 := by
  induction n generalizing i with
  | zero => omega
  | succ n ih =>
    unfold scanNameFrom at hscan
    by_cases hend : input.length < i
    · rw [if_pos hend] at hscan
      obtain ⟨rfl, -⟩ := Prod.mk.inj hscan
      exact .inl ⟨.nil i, .inl (by omega)⟩
    · rw [if_neg hend] at hscan
      -- What follows a character is scanned in the same way.
      have hnext {length code : Nat} (hread : utf8CharacterLength input i = .character length code)
          (hname : (if i = start then cfg.isNameStartCode code else cfg.isNameCode code) = true)
          (hrest : scanNameFrom cfg input start n (i + length) = (stop, false)) :
          NameRun cfg input start i stop ∧ EndsName input stop ∨
            ∃ k, NameRun cfg input start i k ∧ k ≤ input.length ∧
              utf8CharacterLength input k = .cutOff ∧ stop = input.length + 1 := by
        obtain ⟨hpositive, hin, -⟩ := utf8CharacterLength_bytes (Nat.le_of_not_lt hend) hread
        have hrun {k : Nat} (hk : NameRun cfg input start (i + length) k) :
            NameRun cfg input start i k := .cons (Nat.le_of_not_lt hend) hread hname hk
        rcases ih hrest (by omega) (by omega) hin (fun h ↦ absurd h (by omega)) with
          ⟨hk, hstop⟩ | ⟨k, hk, hcut⟩
        · exact .inl ⟨hrun hk, hstop⟩
        · exact .inr ⟨k, hrun hk, hcut⟩
      by_cases hwide : 128 ≤ input.code i
      · rw [if_pos hwide] at hscan
        split at hscan
        · rename_i length code hread
          split at hscan
          · rename_i hname
            apply hnext hread _ hscan
            rw [Bool.or_eq_true, Bool.and_eq_true, decide_eq_true_eq] at hname
            split
            · rename_i hat
              rcases hname with hname | hname
              · exact hname
              · exact absurd hname.1 (by omega)
            · rcases hname with hname | hname
              · exact isNameCode_of_isNameStartCode hname
              · exact hname.2
          · cases hscan
        · rename_i hread
          obtain ⟨rfl, -⟩ := Prod.mk.inj hscan
          exact .inr ⟨i, .nil i, Nat.le_of_not_lt hend, hread, rfl⟩
        · cases hscan
      · have hascii : input.code i < 128 := Nat.lt_of_not_le hwide
        rw [if_neg hwide] at hscan
        split at hscan
        · rename_i hcode
          have hread : utf8CharacterLength input i = .character 1 (input.code i) := by
            rw [utf8CharacterLength_ascii hascii,
              if_pos (isXmlCharacterCode_of_isAsciiNameCode _ hascii hcode)]
          apply hnext hread _ hscan
          split
          · rename_i hat
            subst hat
            exact (isNameStartCode_of_isNameStartCharacter _ _ hascii (hfirst rfl).2).1
          · unfold Config.isNameCode
            rw [isNameCode_ascii _ _ hascii]
            exact hcode
        · rename_i hcode
          obtain ⟨rfl, -⟩ := Prod.mk.inj hscan
          have hlater : start < i := by
            apply Nat.lt_of_le_of_ne hstart
            intro hat
            subst hat
            apply hcode
            exact (isNameStartCode_of_isNameStartCharacter false _ hascii (hfirst rfl).2).2
          rw [Nat.max_eq_left hlater]
          exact .inl ⟨.nil i, .inr ⟨Nat.le_of_not_lt hend, hascii, Bool.eq_false_iff.2 hcode⟩⟩

/-! ## The test of a part of the text -/

/-- The test of a text that begins with a run of name characters succeeds on the run itself, and on
no longer text when the run ends where no name continues. -/
theorem NameRun.isValidNameFrom_substring (h : NameRun cfg input start i stop) (hstart : 1 ≤ start)
    (hi : start ≤ i) (hends : EndsName input stop) (hstop : stop ≤ j + 1) (hj : j ≤ input.length)
    (hstartj : start ≤ j) (hbefore : start < stop) (hfuel : j + 1 < i + n) :
    isValidNameFrom cfg.usesLegacyNameCharacterRanges (input.substring start j) n (i + 1 - start) =
      decide (j + 1 = stop) := by
  induction h generalizing n with
  | nil i =>
    obtain ⟨n, rfl⟩ : ∃ k, n = k + 1 := ⟨n - 1, by omega⟩
    unfold isValidNameFrom
    rw [String8.length_substring hstart hstartj hj]
    by_cases hend : j + 1 = i
    · rw [if_pos (by omega), decide_eq_true hend]
    · rcases hends with rfl | ⟨hin, hascii, hcode⟩
      · omega
      · rw [if_neg (by omega), decide_eq_false hend]
        -- The byte that ends the run is tested, and it is no name character.
        have hbyte := String8.code_substring (s := input) hstart hi (by omega) hj
        rw [utf8CharacterLength_ascii (by rw [hbyte]; exact hascii), hbyte]
        by_cases hcharacter : isXmlCharacterCode (input.code i) = true
        · rw [if_pos hcharacter]
          dsimp only
          rw [if_neg (by omega), isNameCode_ascii _ _ hascii, hcode, Bool.false_and]
        · rw [if_neg hcharacter]
  | @cons i length code stop hin hread hname hrest ih =>
    obtain ⟨hpositive, hend, -⟩ := utf8CharacterLength_bytes hin hread
    have hle := (hrest.le hend).1
    obtain ⟨n, rfl⟩ : ∃ k, n = k + 1 := ⟨n - 1, by omega⟩
    have hnext : i + 1 - start + length = i + length + 1 - start := by omega
    unfold isValidNameFrom
    rw [String8.length_substring hstart hstartj hj, if_neg (by omega),
      utf8CharacterLength_substring hstart hi hj hread hpositive (by omega)]
    dsimp only
    rw [hnext, ih (by omega) hends hstop hbefore (by omega)]
    have htest : (if i + 1 - start = 1 then
        isNameStartCode cfg.usesLegacyNameCharacterRanges code
      else isNameCode cfg.usesLegacyNameCharacterRanges code) = true := by
      by_cases hat : i = start
      · rw [if_pos hat] at hname
        rw [if_pos (by omega)]
        exact hname
      · rw [if_neg hat] at hname
        rw [if_neg (by omega)]
        exact hname
    rw [htest, Bool.true_and]

end

/-! ## Names in the sense of `is_valid_name` -/

namespace Config

/-- The character rules of `is_valid_name`, without its bound on the length. -/
def isNameText (cfg : Config) (name : String8) : Bool :=
  0 < name.length &&
    isValidNameFrom cfg.usesLegacyNameCharacterRanges name (name.length + 1) 1

theorem isValidName_iff {cfg : Config} {name : String8} :
    cfg.isValidName name = true ↔ cfg.isNameText name = true ∧ name.length ≤ cfg.maxNameLength := by
  unfold Config.isValidName Xpact.isValidName isNameText
  simp only [Bool.and_eq_true, decide_eq_true_eq]
  constructor
  · rintro ⟨⟨hpositive, hlength⟩, hcharacters⟩
    exact ⟨⟨hpositive, hcharacters⟩, hlength⟩
  · rintro ⟨⟨hpositive, hcharacters⟩, hlength⟩
    exact ⟨⟨hpositive, hlength⟩, hcharacters⟩

end Config

section

variable {cfg : Config} {input : String8} {start stop close : Nat}

/-- The text that a scan delimits is a name, and no longer text that begins there is one. -/
theorem isNameText_of_scan (hstart : 1 ≤ start) (hin : start ≤ input.length)
    (hfirst : isNameStartCharacter (input.item start) = true)
    (hscan : scanNameFrom cfg input start (input.length + 1) start = (stop, false))
    (hcut : ∀ k, start ≤ k → k < stop → utf8CharacterLength input k ≠ .cutOff) :
    start < stop ∧ stop ≤ input.length + 1 ∧
      ∀ j, stop ≤ j + 1 → j ≤ input.length →
        cfg.isNameText (input.substring start j) = decide (j + 1 = stop) := by
  rcases scanNameFrom_spec hscan (by omega) (Nat.le_refl start) (by omega)
    (fun _ ↦ ⟨hin, hfirst⟩) with ⟨hrun, hends⟩ | ⟨k, hrun, hk, hread, rfl⟩
  · obtain ⟨-, hle⟩ := hrun.le (Nat.le_succ_of_le hin)
    have hbefore : start < stop := by
      apply Nat.lt_of_le_of_ne (hrun.le (Nat.le_succ_of_le hin)).1
      intro hat
      subst hat
      exact not_endsName_of_isNameStartCharacter hin hfirst hends
    refine ⟨hbefore, hle, fun j hj hjin ↦ ?_⟩
    have hlength := String8.length_substring hstart (Nat.le_of_lt_succ (Nat.lt_of_lt_of_le hbefore hj)) hjin
    have hposition : start + 1 - start = 1 := by omega
    have htest := hrun.isValidNameFrom_substring (n := (input.substring start j).length + 1) hstart
      (Nat.le_refl start) hends hj hjin (by omega) hbefore (by omega)
    rw [hposition] at htest
    unfold Config.isNameText
    rw [htest, hlength, decide_eq_true (by omega), Bool.true_and]
  · exact absurd hread (hcut k (hrun.le (Nat.le_succ_of_le hin)).1 (Nat.lt_succ_of_le hk))

/-- A text is scanned up to a byte that ends a name, and not beyond. -/
theorem isNameText_of_scan_before (hstart : 1 ≤ start)
    (hfirst : isNameStartCharacter (input.item start) = true)
    (hscan : scanNameFrom cfg input start (input.length + 1) start = (stop, false))
    (hclose : start < close) (hin : close ≤ input.length) (hends : EndsName input close)
    (hascii : input.code close < 128) :
    start < stop ∧ stop ≤ close ∧ NameRun cfg input start start stop ∧
      cfg.isNameText (input.substring start (stop - 1)) = true := by
  have hstop : start < stop ∧ stop ≤ close ∧ NameRun cfg input start start stop := by
    rcases scanNameFrom_spec hscan (by omega) (Nat.le_refl start) (by omega)
      (fun _ ↦ ⟨by omega, hfirst⟩) with ⟨hrun, hstop⟩ | ⟨k, hrun, hk, hread, -⟩
    · refine ⟨?_, hrun.le_of_endsName (Nat.le_of_lt hclose) hends, hrun⟩
      apply Nat.lt_of_le_of_ne (hrun.le (by omega)).1
      intro hat
      subst hat
      exact not_endsName_of_isNameStartCharacter (by omega) hfirst hstop
    · -- The sequence would be cut off behind a byte that continues none.
      have hle := hrun.le_of_endsName (Nat.le_of_lt hclose) hends
      by_cases hat : k = close
      · subst hat
        rw [utf8CharacterLength_ascii hascii] at hread
        split at hread <;> cases hread
      · have hwide := utf8CharacterLength_cutOff hread (k := close) (by omega) hin
        omega
  refine ⟨hstop.1, hstop.2.1, hstop.2.2, ?_⟩
  have hcut (k : Nat) (hk : start ≤ k) (hkstop : k < stop) :
      utf8CharacterLength input k ≠ .cutOff := by
    intro hread
    have hwide := utf8CharacterLength_cutOff hread (k := close) (by omega) hin
    omega
  obtain ⟨-, -, htext⟩ := isNameText_of_scan hstart (by omega) hfirst hscan hcut
  rw [htext (stop - 1) (by omega) (by omega)]
  exact decide_eq_true (by omega)

end

/-! ## The scan of a parser -/

open Library Program in
theorem run_scanName (input : String8) (start : Nat) (p : Parser) :
    (scanName input start).run Parser.routineMachine p =
      let scan := scanNameFrom p.config input start (input.length + 1) start
      some (scan.1, if scan.2 then p.setError "invalid name character" else p) := by
  have hconfig : (Parser.routineMachine.see p).config = p.config := rfl
  generalize hscan : scanNameFrom p.config input start (input.length + 1) start = scan
  obtain ⟨stop, failed⟩ := scan
  unfold scanName Routine.config Routine.sight
  simp only [bind_assoc', run_sight_bind, pure_eq, done_bind]
  rw [hconfig, hscan]
  cases failed <;> rfl

/-! ## The end of a declaration -/

theorem findMarkupEndIn_spec {quote : Option Character8} {rest : String8} {i close : Nat}
    (h : findMarkupEndIn quote rest i = close) (hclose : close ≠ 0) :
    i ≤ close ∧ close < i + rest.length ∧ rest.getD (close - i) 0 = ('>' : Char).toUInt8 := by
  induction rest generalizing quote i with
  | nil =>
    cases quote <;> exact absurd h.symm hclose
  | cons c rest ih =>
    have hnext {quote : Option Character8} (h : findMarkupEndIn quote rest (i + 1) = close) :
        i ≤ close ∧ close < i + (c :: rest).length ∧
          (c :: rest).getD (close - i) 0 = ('>' : Char).toUInt8 := by
      obtain ⟨hle, hlt, hat⟩ := ih h
      have hindex : close - i = close - (i + 1) + 1 := by omega
      rw [hindex, List.getD_cons_succ, List.length_cons]
      exact ⟨by omega, by omega, hat⟩
    cases quote with
    | some q => exact hnext h
    | none =>
      unfold findMarkupEndIn at h
      split at h
      · exact hnext h
      split at h
      · rename_i hat
        subst h
        rw [Nat.sub_self, List.length_cons]
        exact ⟨Nat.le_refl i, by omega, hat⟩
      · exact hnext h

/-- A declaration ends with `>`. -/
theorem findMarkupDeclarationEnd_spec {input : String8} {start close : Nat}
    (h : findMarkupDeclarationEnd input start = close) (hclose : close ≠ 0) :
    close ≤ input.length ∧ input.code close = 62 := by
  unfold findMarkupDeclarationEnd at h
  dsimp only at h
  obtain ⟨hle, hlt, hat⟩ := findMarkupEndIn_spec h hclose
  rw [List.length_drop] at hlt
  have hindex : min (start + 2) (input.length + 1) - 1 + (close - min (start + 2) (input.length + 1)) =
      close - 1 := by omega
  rw [List.getD_eq_getElem?_getD, List.getElem?_drop, hindex] at hat
  constructor
  · omega
  · unfold String8.code String8.item
    rw [List.getD_eq_getElem?_getD, hat]
    rfl

theorem endsName_of_code {input : String8} {close : Nat} (hin : close ≤ input.length)
    (hat : input.code close = 62) : EndsName input close :=
  .inr ⟨hin, by rw [hat]; decide, by rw [hat]; decide⟩

end Xpact
