import Xpact.Parser.DeclaredNames

/-!
# Errors of names

A declaration or a reference that is read to its end without an error has a name where its name
stands: between the white space around it a declared name is one for the character rules, and the name
in a reference is valid.
-/

namespace Xpact

open Library Program Routine

-- A routine is one goal of instance search for each of its steps.
set_option synthInstance.maxSize 100000
set_option synthInstance.maxHeartbeats 200000

/-! ## Words -/

/-- What stands at `i`, up to white space or the end of the declaration at `close`. -/
def wordAt (subset : String8) (i close : Nat) : String8 :=
  ((subset.take (close - 1)).drop (i - 1)).takeWhile fun c ↦ !isXmlSpace c

/-- Where the name of the entity declaration at `start` stands. -/
def entityNameIndex (subset : String8) (start : Nat) : Nat :=
  let i := skipSpaces subset (start + 8)
  if i ≤ subset.length ∧ subset.code i = 37 then skipSpaces subset (i + 1) else i

theorem one_le_entityNameIndex (subset : String8) (start : Nat) :
    1 ≤ entityNameIndex subset start := by
  have hskip (i : Nat) : i ≤ skipSpaces subset i := Nat.le_add_right i _
  have hfirst := hskip (start + 8)
  have hsecond := hskip (skipSpaces subset (start + 8) + 1)
  unfold entityNameIndex
  dsimp only
  split <;> omega

/-- The name in the reference at `start`. -/
def referenceName (input : String8) (start : Nat) : String8 :=
  input.substring (start + 1) (findCharacter input ';' (start + 1) - 1)

section

variable {cfg : Config} {input : String8} {start i stop close : Nat}

theorem isXmlSpace_eq_false {c : Character8} (h : 32 < c.toNat) : isXmlSpace c = false := by
  have hne (d : Char) (hd : d.toUInt8.toNat ≤ 32) : (c == d.toUInt8) = false := by
    apply beq_false_of_ne
    rintro rfl
    omega
  unfold isXmlSpace
  rw [hne ' ' (by decide), hne '\t' (by decide), hne '\n' (by decide), hne '\r' (by decide)]
  rfl

theorem code_of_isAsciiNameCode {code : Nat} (h : isAsciiNameCode code = true) : 32 < code := by
  unfold isAsciiNameCode at h
  simp at h
  omega

/-- There is no white space in a name. -/
theorem NameRun.isXmlSpace_item (h : NameRun cfg input start i stop) {k : Nat} (hik : i ≤ k)
    (hk : k < stop) : isXmlSpace (input.item k) = false := by
  induction h with
  | nil i => omega
  | @cons i length code stop hin hread hname hrest ih =>
    obtain ⟨-, -, hbytes⟩ := utf8CharacterLength_bytes hin hread
    by_cases hat : k = i
    · subst hat
      apply isXmlSpace_eq_false
      show 32 < input.code k
      by_cases hascii : input.code k < 128
      · rw [utf8CharacterLength_ascii hascii] at hread
        split at hread
        · obtain ⟨rfl, rfl⟩ := Utf8Sequence.character.inj hread
          have hcode := isNameCode_of_position hname
          unfold Config.isNameCode at hcode
          rw [isNameCode_ascii _ _ hascii] at hcode
          exact code_of_isAsciiNameCode hcode
        · cases hread
      · omega
    · by_cases hwithin : k < i + length
      · apply isXmlSpace_eq_false
        show 32 < input.code k
        have hwide := hbytes k (by omega) hwithin
        omega
      · exact ih (by omega) hk

/-- A scanned name that white space or the end of the declaration follows is a word. -/
theorem wordAt_eq_substring (h : NameRun cfg input start i stop) (hi : 1 ≤ i) (hstop : i < stop)
    (hclose : stop ≤ close) (hin : close ≤ input.length)
    (hafter : stop = close ∨ isXmlSpace (input.item stop) = true) :
    wordAt input i close = input.substring i (stop - 1) := by
  have hlength := String8.length_substring hi (Nat.le_sub_one_of_lt hstop) (s := input) (by omega)
  have hsplit : (input.take (close - 1)).drop (i - 1) =
      input.substring i (stop - 1) ++ (input.take (close - 1)).drop (stop - 1) := by
    have hcount : stop - 1 + 1 - i = stop - i := by omega
    have hrest : (input.take (close - 1)).drop (stop - 1) =
        ((input.take (close - 1)).drop (i - 1)).drop (stop - i) := by
      rw [List.drop_drop]
      congr 1
      omega
    rw [String8.substring_eq hi (by omega) (by omega), hcount, hrest, List.drop_take]
    conv_lhs => rw [← List.take_append_drop (stop - i) ((input.drop (i - 1)).take _)]
    rw [List.take_take, Nat.min_eq_left (by omega)]
  have hname : ∀ c ∈ input.substring i (stop - 1), (!isXmlSpace c) = true := by
    intro c hc
    obtain ⟨k, hk, rfl⟩ := List.mem_iff_getElem.1 hc
    have hspace := h.isXmlSpace_item (k := i + k) (by omega) (by omega)
    unfold String8.item at hspace
    rw [List.getD_eq_getElem?_getD] at hspace
    have hitem : (input.substring i (stop - 1))[k]? = input[i + k - 1]? := by
      rw [String8.substring_eq hi (by omega) (by omega), List.getElem?_take_of_lt (by omega),
        List.getElem?_drop]
      congr 1
      omega
    rw [← hitem, List.getElem?_eq_getElem hk, Option.getD_some] at hspace
    rw [hspace]
    rfl
  unfold wordAt
  rw [hsplit, List.takeWhile_append_of_pos hname]
  have hrest : ((input.take (close - 1)).drop (stop - 1)).takeWhile (fun c ↦ !isXmlSpace c) = [] := by
    rcases hafter with rfl | hspace
    · rw [List.drop_take, Nat.sub_self, List.take_zero, List.takeWhile_nil]
    · by_cases hend : stop = close
      · rw [hend, List.drop_take, Nat.sub_self, List.take_zero, List.takeWhile_nil]
      · have hindex : stop - 1 < (input.take (close - 1)).length := by
          rw [List.length_take]
          omega
        rw [List.drop_eq_getElem_cons hindex, List.takeWhile_cons]
        unfold String8.item at hspace
        rw [List.getD_eq_getElem?_getD, List.getElem?_eq_getElem (by omega), Option.getD_some] at hspace
        rw [List.getElem_take, hspace]
        rfl
  rw [hrest, List.append_nil]

/-- A scanned name up to white space is a name. -/
theorem isNameText_wordAt (hi : 1 ≤ i) (hfirst : isNameStartCharacter (input.item i) = true)
    (hscan : scanNameFrom cfg input i (input.length + 1) i = (stop, false)) (hclose : i < close)
    (hin : close ≤ input.length) (hat : input.code close = 62)
    (hafter : stop < close → isXmlSpace (input.item stop) = true) :
    cfg.isNameText (wordAt input i close) = true := by
  obtain ⟨hstop, hle, hrun, htext⟩ := isNameText_of_scan_before hi hfirst hscan hclose hin
    (endsName_of_code hin hat) (by omega)
  rw [wordAt_eq_substring hrun hi hstop hle hin ((Nat.eq_or_lt_of_le hle).imp id hafter)]
  exact htext

end

namespace Parser

/-! ## Runs without an error -/

section

variable {α β : Type} (cfg : Config)

/-- A run of the routine without an error ends with a value that satisfies `P`. -/
abbrev Completes (P : α → Prop) (m : Routine α) : Prop :=
  m.YieldsUnless routineMachine (fun p : Parser ↦ p.config = cfg)
    (fun p : Parser ↦ p.core.hasError = true) P

variable {cfg} {P : α → Prop} {Q : β → Prop}

theorem preserves_error (m : Routine α) :
    Preserves routineMachine (fun p : Parser ↦ p.core.hasError = true) m := by
  intro p a q hp hrun
  exact ((keeps_unlessError (T := False) m).preserves (.inl hp) hrun).resolve_right id

theorem completes_bind {m : Routine α} {f : α → Routine β} (hm : Completes cfg P m)
    (hf : ∀ a, P a → Completes cfg Q (f a)) : Completes cfg Q (m >>= f) :=
  YieldsUnless.bind (preserves_config m) (fun a ↦ preserves_error (f a)) hm hf

theorem completes_of_bind {m : Routine α} {f : α → Routine β} (hf : ∀ a, Completes cfg Q (f a)) :
    Completes cfg Q (m >>= f) := by
  apply completes_bind (P := fun _ ↦ True)
  · exact ⟨fun _ _ _ _ _ ↦ .inr trivial⟩
  · exact fun a _ ↦ hf a

/-- What the first part shows holds at the end. -/
theorem completes_left {T : Prop} {m : Routine α} {f : α → Routine β}
    (hm : Completes cfg (fun _ ↦ T) m) : Completes cfg (fun _ ↦ T) (m >>= f) :=
  completes_bind hm fun _ hT ↦ ⟨fun _ _ _ _ _ ↦ .inr hT⟩

theorem completes_pure {a : α} (ha : P a) : Completes cfg P (pure a) :=
  Yields.yieldsUnless (Yields.pure ha)

theorem completes_failAt (message : String) (a : α) : Completes cfg P (failAt message a) := by
  constructor
  intro p b q _ hrun
  obtain ⟨-, rfl⟩ := Prod.mk.inj (Option.some.inj hrun)
  exact .inl (setError_hasError p message)

theorem completes_hasError : Completes cfg (fun failed ↦ failed = false) Routine.hasError := by
  constructor
  intro p b q _ hrun
  obtain ⟨rfl, rfl⟩ := Prod.mk.inj (Option.some.inj hrun)
  exact Bool.eq_false_or_eq_true p.core.hasError

/-- A test for errors has failed in a run without an error. -/
theorem completes_hasError_bind {f : Bool → Routine β} (hf : Completes cfg Q (f false)) :
    Completes cfg Q (Routine.hasError >>= f) := by
  apply completes_bind completes_hasError
  rintro _ rfl
  exact hf

theorem completes_skipRequiredSpaces (input : String8) (start : Nat) (message : String) :
    Completes cfg (fun i ↦ start ≤ input.length ∧ isXmlSpace (input.item start) = true ∧
      i = skipSpaces input start) (skipRequiredSpaces input start message) := by
  unfold skipRequiredSpaces
  apply YieldsUnless.ite
  · intro hspace
    rw [Bool.and_eq_true, decide_eq_true_eq] at hspace
    exact completes_pure ⟨hspace.1, hspace.2, rfl⟩
  · exact fun _ ↦ completes_failAt _ _

theorem completes_scanName (input : String8) (start : Nat) :
    Completes cfg (fun stop ↦ scanNameFrom cfg input start (input.length + 1) start = (stop, false))
      (scanName input start) := by
  constructor
  intro p stop q hp hrun
  rw [run_scanName, hp] at hrun
  obtain ⟨rfl, rfl⟩ := Prod.mk.inj (Option.some.inj hrun)
  split
  · exact .inl (setError_hasError p _)
  · rename_i hscan
    exact .inr (Prod.ext rfl (Bool.eq_false_iff.2 hscan))

end

/-! ## Declarations -/

section

variable {cfg : Config} (depth : Nat) (subset : String8) (start : Nat)

/-- The name of an entity declaration that is read without an error. -/
theorem completes_parseEntityDeclaration :
    Completes cfg (fun _ ↦ cfg.isNameText (wordAt subset (entityNameIndex subset start)
      (findMarkupDeclarationEnd subset start)) = true) (parseEntityDeclaration depth subset start) := by
  unfold parseEntityDeclaration
  apply completes_of_bind
  intro s
  apply YieldsUnless.ite (fun _ ↦ completes_failAt _ _)
  intro hclose
  obtain ⟨hin, hat⟩ := findMarkupDeclarationEnd_spec rfl hclose
  generalize findMarkupDeclarationEnd subset start = close at hin hat ⊢
  have hpositive := one_le_entityNameIndex subset start
  apply completes_bind (completes_skipRequiredSpaces _ _ _)
  rintro _ ⟨-, -, rfl⟩
  apply completes_hasError_bind
  apply YieldsUnless.ite
  all_goals
    intro hpercent
    refine completes_bind (P := fun i : Nat ↦ i = entityNameIndex subset start) ?_ ?_
  · refine (completes_skipRequiredSpaces _ _ _).mono ?_
    rintro _ ⟨-, -, rfl⟩
    rw [Bool.and_eq_true, Bool.and_eq_true, decide_eq_true_eq, beq_iff_eq] at hpercent
    exact (if_pos ⟨hpercent.1.2, hpercent.2⟩).symm
  rotate_left
  · apply completes_pure
    rw [Bool.and_eq_true, Bool.and_eq_true, decide_eq_true_eq, beq_iff_eq] at hpercent
    refine (if_neg fun h ↦ hpercent ?_).symm
    exact ⟨⟨rfl, h.1⟩, h.2⟩
  all_goals
    rintro _ rfl
    apply completes_hasError_bind
    apply YieldsUnless.ite (fun _ ↦ completes_failAt _ _)
    intro hstart
    rw [Bool.or_eq_true, Bool.or_eq_true, not_or, not_or, decide_eq_true_eq, Bool.not_eq_true',
      Bool.not_eq_false] at hstart
    apply completes_bind (completes_scanName _ _)
    intro stop hscan
    have hword (hafter : isXmlSpace (subset.item (stop - 1 + 1)) = true) :
        cfg.isNameText (wordAt subset (entityNameIndex subset start) close) = true := by
      obtain ⟨hstop, -, -, -⟩ := isNameText_of_scan_before hpositive hstart.2 hscan
        (Nat.lt_of_not_le hstart.1.2) hin (endsName_of_code hin hat) (by omega)
      rw [Nat.sub_add_cancel (by omega)] at hafter
      exact isNameText_wordAt hpositive hstart.2 hscan (Nat.lt_of_not_le hstart.1.2) hin hat
        fun _ ↦ hafter
    apply completes_hasError_bind
    apply completes_of_bind
    intro c
    -- After the name there is white space, or an error.
    have hrest {f : Nat → Routine Nat} : Completes cfg
        (fun _ ↦ cfg.isNameText (wordAt subset (entityNameIndex subset start) close) = true)
        (skipRequiredSpaces subset (stop - 1 + 1) "missing space after entity name" >>= f) :=
      completes_left ((completes_skipRequiredSpaces _ _ _).mono fun _ h ↦ hword h.2.1)
    apply YieldsUnless.ite
    · intro _
      apply completes_of_bind
      intro _
      apply completes_hasError_bind
      exact hrest
    · intro _
      apply completes_hasError_bind
      exact hrest

/-- The name of an attribute definition that is read without an error. -/
theorem completes_parseAttlistDefinition {close i : Nat} (elementName : String8) (hi : 1 ≤ i)
    (hdefined : skipSpaces subset i < close) (hin : close ≤ subset.length)
    (hat : subset.code close = 62) :
    Completes cfg (fun _ ↦ cfg.isNameText (wordAt subset (skipSpaces subset i) close) = true)
      (parseAttlistDefinition depth subset elementName close i) := by
  have hskip : i ≤ skipSpaces subset i := Nat.le_add_right i _
  unfold parseAttlistDefinition
  rw [Nat.min_eq_left (Nat.le_of_lt hdefined)]
  generalize skipSpaces subset i = nameStart at hdefined hskip ⊢
  apply YieldsUnless.ite (fun h ↦ absurd hdefined (Nat.not_lt.2 h))
  intro _
  apply YieldsUnless.ite (fun _ ↦ completes_failAt _ _)
  intro _
  apply YieldsUnless.ite (fun _ ↦ completes_failAt _ _)
  intro hfirst
  rw [Bool.not_eq_true', Bool.not_eq_false] at hfirst
  apply completes_bind (completes_scanName _ _)
  intro stop hscan
  obtain ⟨-, hle, -, -⟩ := isNameText_of_scan_before (by omega) hfirst hscan hdefined hin
    (endsName_of_code hin hat) (by omega)
  rw [Nat.min_eq_left hle]
  apply completes_hasError_bind
  apply completes_left
  refine (completes_skipRequiredSpaces _ _ _).mono fun _ h ↦ ?_
  exact isNameText_wordAt (by omega) hfirst hscan hdefined hin hat fun _ ↦ h.2.1

/-- What a scan delimits at `i`. -/
def scannedName (cfg : Config) (subset : String8) (i : Nat) : String8 :=
  subset.substring i ((scanNameFrom cfg subset i (subset.length + 1) i).1 - 1)

/-- The element name of a declaration that is not skipped, and read without an error. -/
theorem completes_parseAttlistDeclaration {p p' q : Parser} {r : Nat}
    (hskip : (skipDeclarationForUndefinedParameter subset start
      (findMarkupDeclarationEnd subset start)).run routineMachine p = some (false, p'))
    (hrun : (parseAttlistDeclaration depth subset start).run routineMachine p = some (r, q))
    (hq : q.core.hasError = false) :
    p.config.isNameText (scannedName p.config subset (skipSpaces subset (start + 9))) = true := by
  have hconfig := config_of_routine hskip
  unfold parseAttlistDeclaration at hrun
  dsimp only at hrun
  split at hrun
  · obtain ⟨-, rfl⟩ := Prod.mk.inj (Option.some.inj hrun)
    exact absurd ((setError_hasError p _).symm.trans hq) (by decide)
  rename_i hclose
  obtain ⟨hin, hat⟩ := findMarkupDeclarationEnd_spec rfl hclose
  generalize findMarkupDeclarationEnd subset start = close at hskip hrun hin hat
  refine (YieldsUnless.of_run_bind (J := fun p₁ : Parser ↦ p₁.config = p.config)
    (H := fun p : Parser ↦ p.core.hasError = true)
    (Q := fun _ ↦ p.config.isNameText
      (scannedName p.config subset (skipSpaces subset (start + 9))) = true)
    ?_ hskip hconfig hrun).resolve_left (by rw [hq]; decide)
  apply YieldsUnless.ite (fun h ↦ absurd h Bool.false_ne_true)
  intro _
  apply completes_bind (completes_skipRequiredSpaces _ _ _)
  rintro _ ⟨-, -, rfl⟩
  have hskipped : start + 9 ≤ skipSpaces subset (start + 9) := Nat.le_add_right _ _
  apply completes_hasError_bind
  apply YieldsUnless.ite (fun _ ↦ completes_failAt _ _)
  intro hstart
  rw [Bool.or_eq_true, Bool.or_eq_true, not_or, not_or, decide_eq_true_eq, Bool.not_eq_true',
    Bool.not_eq_false] at hstart
  apply completes_bind (completes_scanName _ _)
  intro stop hscan
  obtain ⟨-, -, -, hname⟩ := isNameText_of_scan_before (by omega) hstart.2 hscan
    (Nat.lt_of_not_le hstart.1.2) hin (endsName_of_code hin hat) (by omega)
  constructor
  intro _ _ _ _ _
  unfold scannedName
  rw [hscan]
  exact .inr hname

end

/-! ## References -/

section

variable {cfg : Config} {α β : Type} (input : String8) (start : Nat)

theorem completes_sight_bind {Q : β → Prop} {f : Sight → Routine β}
    (hf : ∀ s, s.config = cfg → Completes cfg Q (f s)) : Completes cfg Q (Routine.sight >>= f) := by
  apply completes_bind (P := fun s : Sight ↦ s.config = cfg)
  · exact ⟨fun _ _ _ hp hrun ↦ .inr (returns_sight.of_run hp hrun)⟩
  · exact hf

theorem completes_config_bind {Q : β → Prop} {f : Config → Routine β}
    (hf : Completes cfg Q (f cfg)) : Completes cfg Q (Routine.config >>= f) := by
  apply completes_bind (P := fun c : Config ↦ c = cfg)
  · exact ⟨fun _ _ _ hp hrun ↦ .inr (returns_config.of_run hp hrun)⟩
  · rintro _ rfl
    exact hf

theorem completes_of_holds {T : Prop} (hT : T) (m : Routine α) : Completes cfg (fun _ ↦ T) m :=
  ⟨fun _ _ _ _ _ ↦ .inr hT⟩

/-- A routine that goes on only with a valid name. -/
theorem completes_isValidName {name : String8} {message : String} {a : α} {m : Routine α} :
    Completes cfg (fun _ ↦ cfg.isValidName name = true)
      (if !cfg.isValidName name then failAt message a else m) := by
  apply YieldsUnless.ite (fun _ ↦ completes_failAt _ _)
  intro hvalid
  rw [Bool.not_eq_true', Bool.not_eq_false] at hvalid
  exact completes_of_holds hvalid m

/-- A general entity reference in an attribute value. -/
theorem completes_appendReferenceInLiteral (expandLiteralText : String8 → Routine String8)
    (hentity : input.item (start + 1) ≠ '#') :
    Completes cfg (fun _ ↦ cfg.isValidName (referenceName input start) = true)
      (appendReferenceInLiteral expandLiteralText input start) := by
  unfold appendReferenceInLiteral
  apply YieldsUnless.ite (fun _ ↦ completes_failAt _ _)
  intro _
  apply YieldsUnless.ite (fun _ ↦ completes_failAt _ _)
  intro _
  apply YieldsUnless.ite (fun h ↦ absurd h hentity)
  intro _
  apply completes_config_bind
  exact completes_isValidName

/-- A parameter entity reference in an entity value. -/
theorem completes_appendParameterReferenceInEntityValue (append : String8 → Routine String8) :
    Completes cfg (fun _ ↦ cfg.isValidName (referenceName input start) = true)
      (appendParameterReferenceInEntityValue append input start) := by
  unfold appendParameterReferenceInEntityValue
  apply completes_sight_bind
  rintro s rfl
  apply YieldsUnless.ite (fun _ ↦ completes_failAt _ _)
  intro _
  exact completes_isValidName

/-- A parameter entity reference inside a declaration. -/
theorem completes_dtdSubsetWithParameterReference (depth : Nat) :
    Completes cfg (fun _ ↦ cfg.isValidName (referenceName input start) = true)
      (dtdSubsetWithParameterReference depth input start) := by
  unfold dtdSubsetWithParameterReference
  apply completes_sight_bind
  rintro s rfl
  apply YieldsUnless.ite (fun _ ↦ completes_failAt _ _)
  intro _
  apply YieldsUnless.ite (fun _ ↦ completes_failAt _ _)
  intro _
  exact completes_isValidName

/-- A parameter entity reference between declarations. -/
theorem completes_includeParameterEntityInSubset (process : String8 → Routine Unit) :
    Completes cfg (fun _ ↦ cfg.isValidName (referenceName input start) = true)
      (includeParameterEntityInSubset process input start) := by
  unfold includeParameterEntityInSubset
  apply completes_of_bind
  intro _
  apply YieldsUnless.ite (fun _ ↦ completes_failAt _ _)
  intro _
  apply completes_config_bind
  apply YieldsUnless.ite (fun hvalid ↦ completes_of_holds hvalid _)
  intro hvalid
  -- A name that is not valid is not resolved, and fails the second test.
  apply completes_bind (completes_pure rfl)
  rintro _ rfl
  apply completes_sight_bind
  rintro s rfl
  apply YieldsUnless.ite (fun _ ↦ completes_failAt _ _)
  intro hagain
  rw [Bool.not_eq_true', Bool.not_eq_false] at hagain
  exact absurd hagain hvalid

/-- A parameter entity reference in a text that is copied into a declaration. -/
theorem completes_parameterCopyStep (expanded : String8 → Routine (Option String8))
    (k : ParameterCopy) (hquote : k.quote = none) (hpercent : input.code k.index = 37)
    (hname : k.index < input.length ∧ isXmlSpace (input.item (k.index + 1)) = false) :
    Completes cfg (fun _ ↦ cfg.isValidName (referenceName input k.index) = true)
      (parameterCopyStep expanded input k) := by
  have hnoquote : isQuote (input.item k.index) = false := by
    have hcode : (input.item k.index).toNat = 37 := hpercent
    unfold isQuote
    rw [hcode]
    rfl
  unfold parameterCopyStep
  rw [hquote]
  dsimp only
  apply YieldsUnless.ite
  · intro hisQuote
    exact absurd (hisQuote.symm.trans hnoquote) (by decide)
  intro _
  apply YieldsUnless.ite
  · intro _
    apply YieldsUnless.ite (fun _ ↦ completes_failAt _ _)
    intro _
    apply completes_config_bind
    exact completes_isValidName
  · intro hno
    exact absurd ⟨hpercent, hname.1, by rw [hname.2]; rfl⟩ hno

end

/-! ## Runs over a subset -/

/-- A declaration or a reference is about to be read whose name is none. -/
inductive MalformedName (p : Parser) : {α : Type} → Routine α → Prop where
  | entityDeclaration {α : Type} (depth : Nat) (subset : String8) (start : Nat) (k : Nat → Routine α) :
    p.config.isNameText (wordAt subset (entityNameIndex subset start)
      (findMarkupDeclarationEnd subset start)) = false →
    MalformedName p (parseEntityDeclaration depth subset start >>= k)
  | attlistDeclaration {α : Type} (depth : Nat) (subset : String8) (start : Nat) (k : Nat → Routine α)
      (q : Parser) :
    (skipDeclarationForUndefinedParameter subset start
      (findMarkupDeclarationEnd subset start)).run routineMachine p = some (false, q) →
    p.config.isNameText (scannedName p.config subset (skipSpaces subset (start + 9))) = false →
    MalformedName p (parseAttlistDeclaration depth subset start >>= k)
  | attlistDefinition {α : Type} (depth : Nat) (subset elementName : String8) (close i : Nat)
      (k : Nat → Routine α) :
    1 ≤ i → skipSpaces subset i < close → close ≤ subset.length → subset.code close = 62 →
    p.config.isNameText (wordAt subset (skipSpaces subset i) close) = false →
    MalformedName p (parseAttlistDefinition depth subset elementName close i >>= k)
  | generalReference {α : Type} (expandLiteralText : String8 → Routine String8) (input : String8)
      (start : Nat) (k : Nat × String8 → Routine α) :
    input.item (start + 1) ≠ '#' → p.config.isValidName (referenceName input start) = false →
    MalformedName p (appendReferenceInLiteral expandLiteralText input start >>= k)
  | valueReference {α : Type} (append : String8 → Routine String8) (input : String8) (start : Nat)
      (k : Nat × String8 → Routine α) :
    p.config.isValidName (referenceName input start) = false →
    MalformedName p (appendParameterReferenceInEntityValue append input start >>= k)
  | declarationReference {α : Type} (depth : Nat) (subset : String8) (start : Nat)
      (k : Option String8 → Routine α) :
    p.config.isValidName (referenceName subset start) = false →
    MalformedName p (dtdSubsetWithParameterReference depth subset start >>= k)
  | subsetReference {α : Type} (process : String8 → Routine Unit) (subset : String8) (start : Nat)
      (k : Nat → Routine α) :
    p.config.isValidName (referenceName subset start) = false →
    MalformedName p (includeParameterEntityInSubset process subset start >>= k)
  | copiedReference {α : Type} (expanded : String8 → Routine (Option String8)) (text : String8)
      (copy : ParameterCopy) (k : ParameterCopy → Routine α) :
    copy.quote = none → text.code copy.index = 37 →
    (copy.index < text.length ∧ isXmlSpace (text.item (copy.index + 1)) = false) →
    p.config.isValidName (referenceName text copy.index) = false →
    MalformedName p (parameterCopyStep expanded text copy >>= k)

def malformedNameSite : Site Command Sight Parser where
  At m p := MalformedName p m
  bind h f := by
    cases h with
    | entityDeclaration depth subset start k hname =>
      rw [bind_assoc']
      exact .entityDeclaration depth subset start _ hname
    | attlistDeclaration depth subset start k q hskip hname =>
      rw [bind_assoc']
      exact .attlistDeclaration depth subset start _ q hskip hname
    | attlistDefinition depth subset elementName close i k hi hdefined hin hat hname =>
      rw [bind_assoc']
      exact .attlistDefinition depth subset elementName close i _ hi hdefined hin hat hname
    | generalReference expand input start k hentity hname =>
      rw [bind_assoc']
      exact .generalReference expand input start _ hentity hname
    | valueReference append input start k hname =>
      rw [bind_assoc']
      exact .valueReference append input start _ hname
    | declarationReference depth subset start k hname =>
      rw [bind_assoc']
      exact .declarationReference depth subset start _ hname
    | subsetReference process subset start k hname =>
      rw [bind_assoc']
      exact .subsetReference process subset start _ hname
    | copiedReference expanded text copy k hquote hpercent hname' hname =>
      rw [bind_assoc']
      exact .copiedReference expanded text copy _ hquote hpercent hname' hname

section

variable {α : Type} {m : Routine α} {p q : Parser} {a : α}

/-- Where something else stands than a name, there is an error at the end. -/
theorem hasError_of_malformedName (h : MalformedName p m)
    (hrun : m.run routineMachine p = some (a, q)) : q.core.hasError = true := by
  -- What a routine shows of its name contradicts the site.
  have hname {β : Type} {n : Routine β} {k : β → Routine α} {b : Bool} (hb : b = false)
      (hn : Completes p.config (fun _ ↦ b = true) n)
      (hrun : (n >>= k).run routineMachine p = some (a, q)) : q.core.hasError = true := by
    refine ((completes_left hn).of_run rfl hrun).resolve_right ?_
    rw [hb]
    decide
  cases h with
  | entityDeclaration depth subset start k hmalformed =>
    exact hname hmalformed (completes_parseEntityDeclaration depth subset start) hrun
  | attlistDeclaration depth subset start k r hskip hmalformed =>
    obtain ⟨⟨i, t⟩, hfirst, hrest⟩ := (run_bind_eq_some _ p).1 hrun
    refine preserves_error _ ?_ hrest
    cases ht : t.core.hasError with
    | true => exact ht
    | false =>
      have hvalid := completes_parseAttlistDeclaration depth subset start hskip hfirst ht
      exact absurd (hvalid.symm.trans hmalformed) (by decide)
  | attlistDefinition depth subset elementName close i k hi hdefined hin hat hmalformed =>
    exact hname hmalformed
      (completes_parseAttlistDefinition depth subset elementName hi hdefined hin hat) hrun
  | generalReference expand input start k hentity hmalformed =>
    exact hname hmalformed (completes_appendReferenceInLiteral input start expand hentity) hrun
  | valueReference append input start k hmalformed =>
    exact hname hmalformed (completes_appendParameterReferenceInEntityValue input start append) hrun
  | declarationReference depth subset start k hmalformed =>
    exact hname hmalformed (completes_dtdSubsetWithParameterReference subset start depth) hrun
  | subsetReference process subset start k hmalformed =>
    exact hname hmalformed (completes_includeParameterEntityInSubset subset start process) hrun
  | copiedReference expanded text copy k hquote hpercent hnext hmalformed =>
    exact hname hmalformed (completes_parameterCopyStep text expanded copy hquote hpercent hnext) hrun

/-- At the site a name is passed on that is too long. -/
theorem exists_long_of_site (hsite : longNameSite.At m p) :
    ∃ c ∈ m.trace routineMachine p, ∃ name ∈ c.names, p.config.maxNameLength < name.length := by
  rcases hsite with ⟨c, k, rfl, -, hlong⟩ | ⟨depth, subset, i, close, name, k, rfl, hnew, hlong⟩
  · exact ⟨c, List.mem_cons_self, hlong⟩
  · refine ⟨.pushEntity name, ?_, name, List.mem_singleton_self name, hlong⟩
    obtain ⟨f, pushing, reading, hshape⟩ : ∃ f, ∃ pushing reading : EntityContext → _,
        parseInternalEntityValue depth subset i close name true true = (do
          assign f
          let c ← context
          if !c.isParameterEntityDeclared name then (do pushEntity name; pushing c) else reading c) :=
      ⟨_, _, _, rfl⟩
    have htrace : (parseInternalEntityValue depth subset i close name true true >>= k).trace
        routineMachine p = .assign f :: .pushEntity name ::
          (pushing p.core.context >>= k).trace routineMachine
            ((p.stepRoutine (.assign f)).stepRoutine (.pushEntity name)) := by
      rw [hshape]
      calc
        _ = .assign f :: ((if !p.core.context.isParameterEntityDeclared name then
              (do pushEntity name; pushing p.core.context)
            else reading p.core.context) >>= k).trace routineMachine (p.stepRoutine (.assign f)) := rfl
        _ = _ := by
          rw [hnew]
          rfl
    rw [htrace]
    exact List.mem_cons_of_mem _ List.mem_cons_self

end

end Parser

/-- In the run over a subset, from whatever state, all names that are passed to the tables and to the
entity stack are valid exactly when no declaration with a name that is too long is recorded.  A run
without an error comes to no other name.  The text that `scan_name` delimits without an error, and
without a sequence that the end cuts off, is the longest one at its place that satisfies the
character rules. -/
theorem declaredNames_valid (bound : Nat) (subset : String8) (allowTextDeclaration : Bool)
    (p : Parser) :
    let m := processDtdSubset bound subset allowTextDeclaration
    ((∀ c ∈ m.trace Parser.routineMachine p, ∀ name ∈ c.names,
        p.config.isValidName name = true) ↔
      Avoids Parser.routineMachine Parser.longNameSite m p) ∧
    (∀ q, m.run Parser.routineMachine p = some ((), q) → q.core.hasError = false →
      Avoids Parser.routineMachine Parser.malformedNameSite m p) ∧
    ∀ (input : String8) (start stop : Nat) (q : Parser), 1 ≤ start → start ≤ input.length →
      isNameStartCharacter (input.item start) = true →
      (scanName input start).run Parser.routineMachine p = some (stop, q) →
      q.core.hasError = false →
      (∀ k, start ≤ k → k < stop → utf8CharacterLength input k ≠ .cutOff) →
      p.config.isNameText (input.substring start (stop - 1)) = true ∧
        ∀ j, stop ≤ j → j ≤ input.length → p.config.isNameText (input.substring start j) = false := by
  intro m
  refine ⟨⟨fun hvalid n q hreach hsite ↦ ?_, fun havoids c hc ↦ ?_⟩, fun q hrun hq n t hreach hat ↦ ?_,
    fun input start stop q hstart hin hfirst hrun hq hcut ↦ ?_⟩
  · -- At the site a command follows whose name is not valid.
    obtain ⟨c, hc, name, hname, hlong⟩ := Parser.exists_long_of_site hsite
    obtain ⟨i, hstate, hrest⟩ := hreach.exists_take
    have hconfig : q.config = p.config := by
      rw [hstate]
      exact Parser.routineMachine.execute_invariant (I := fun q : Parser ↦ q.config = p.config)
        (fun c q hq ↦ (Parser.stepRoutine_config c q).trans hq) _ rfl
    rw [← hrest] at hc
    have hshort := (Config.isValidName_iff.1 (hvalid c (List.mem_of_mem_drop hc) name hname)).2
    rw [hconfig] at hlong
    exact absurd hshort (Nat.not_le.2 hlong)
  · have hpasses : Parser.PassesNames p.config
        (processDtdSubset bound subset allowTextDeclaration) :=
      Parser.names_processDtdSubset subset bound allowTextDeclaration
    have hlaw := hpasses.holds p havoids rfl
    exact Always.of_mem_trace (I := fun c ↦ ∀ name ∈ c.names, p.config.isValidName name = true)
      hlaw.always hc
  · rw [hreach.run_eq] at hrun
    exact absurd ((Parser.hasError_of_malformedName hat hrun).symm.trans hq) (by decide)
  · rw [run_scanName] at hrun
    obtain ⟨hstop, hstate⟩ := Prod.mk.inj (Option.some.inj hrun)
    have hscan : scanNameFrom p.config input start (input.length + 1) start = (stop, false) := by
      refine Prod.ext hstop (Bool.eq_false_iff.2 fun hfailed ↦ ?_)
      rw [if_pos hfailed] at hstate
      rw [← hstate, Parser.setError_hasError] at hq
      cases hq
    obtain ⟨hbefore, hle, htext⟩ := isNameText_of_scan hstart hin hfirst hscan hcut
    refine ⟨?_, fun j hj hjin ↦ ?_⟩
    · rw [htext (stop - 1) (by omega) (by omega)]
      exact decide_eq_true (by omega)
    · rw [htext j (by omega) hjin]
      exact decide_eq_false (by omega)

/-- A limit of four bytes for a name. -/
def shortNames : Parser := (Parser.make { maxNameLength := 4 } .null).start .document

/-- The entity is recorded, and the run ends without an error. -/
theorem declaredNames_long :
    let m := processDtdSubset 9 (str "<!ENTITY abcde 'x'>") false
    (∃ c ∈ m.trace Parser.routineMachine shortNames, ∃ name ∈ c.names,
      shortNames.config.isValidName name = false) ∧
    (m.run Parser.routineMachine shortNames).map (fun r ↦ r.2.core.hasError) = some false := by
  decide +kernel

/-- Four bytes are not too long, and the names of one declaration are all valid. -/
theorem declaredNames_valid_short :
    let m := processDtdSubset 9 (str "<!ENTITY abcd 'x'>") false
    Avoids Parser.routineMachine Parser.longNameSite m shortNames ∧
      shortNames.config.isNameText (str "ab") = true := by
  constructor
  · apply (declaredNames_valid 9 (str "<!ENTITY abcd 'x'>") false shortNames).1.1
    decide +kernel
  · refine ((declaredNames_valid 9 (str "<!ENTITY abcd 'x'>") false shortNames).2.2 (str "ab c") 1 3
      shortNames (by decide) (by decide) (by decide) rfl rfl ?_).1
    intro k hk hstop
    obtain rfl | rfl : k = 1 ∨ k = 2 := by omega
    all_goals decide

end Xpact
