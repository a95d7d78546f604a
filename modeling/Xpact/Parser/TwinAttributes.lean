import Xpact.Parser.ContentRounds
import Xpact.Parser.DuplicateAttributes
import Xpact.Parser.TwinElements

/-!
# Attributes of twins

The attributes of a tag are read without strings or with them.  Where the first way can read them at
all, both come to the same index or both fail, but for a carriage return: the first way does not take
it for a character.
-/

namespace Xpact

open Library Program Routine

section

variable {input : String8} {p q : Parser} {quote : Character8} {bound : Nat}

/-! ## Values -/

theorem isIncompleteUtf8SequenceAt_of_ascii {i : Nat} (h : input.code i < 128) :
    isIncompleteUtf8SequenceAt input i = false := by
  unfold isIncompleteUtf8SequenceAt utf8TrailingCount
  rw [if_neg (by omega), if_neg (by omega), if_neg (by omega)]
  rfl

theorem isXmlCharacterCode_of_plain {code : Nat} (h : (32 ≤ code ∧ code < 128) ∨ code = 9 ∨ code = 10) :
    isXmlCharacterCode code = true := by
  unfold isXmlCharacterCode
  simp only [Bool.or_eq_true, Bool.and_eq_true, beq_iff_eq, decide_eq_true_eq]
  omega

/-- What the scan of a value says of its parse, which has ended with `r`. -/
def PlainValue.Foretells (input : String8) (q : Parser) (r : (Nat × String8) × Parser) :
    PlainValue → Prop
  | .closed i => r.1.1 = i ∧ r.2 = q ∧ i ≤ input.length
  | .unsupported => True
  | .failed message => message = "invalid XML character" ∨ r.2.core.hasError = true
  | .unterminated => input.length < r.1.1 ∧ r.2 = q

theorem hasError_of_run_routine {α : Type} {m : Routine α} {r : α × Parser}
    (hp : p.core.hasError = true) (h : m.run Parser.routineMachine p = some r) :
    r.2.core.hasError = true :=
  run_invariant (M := Parser.routineMachine) (I := fun p ↦ p.core.hasError = true)
    (fun c p ↦ p.step_hasError (.routine c)) hp h

/-- Is the parse of a value over? -/
def valueOver (input : String8) (quote : Character8) (s : Nat × String8) : Routine Bool :=
  return input.length < s.1 || (← hasError) || input.item s.1 == quote

theorem foretells_value (hq : q.core.hasError = false) {n k i : Nat} {out : String8}
    {r : (Nat × String8) × Parser} (hn : input.length + 2 ≤ i + n)
    (hrun : (Program.loop (valueOver input quote) (parseAttributeValueStep bound input) k
      (i, out)).run Parser.routineMachine q = some r) :
    (plainValueFrom input quote n i).Foretells input q r := by
  have hover (i : Nat) (out : String8) : (valueOver input quote (i, out)).run Parser.routineMachine q =
      some (decide (input.length < i) || input.item i == quote, q) := by
    show some (decide (input.length < i) || q.core.hasError || input.item i == quote, q) = _
    rw [hq, Bool.or_false]
  -- On the rounds of the scan, which has one for each byte; the parse may have any number.
  induction n generalizing k i out with
  | zero =>
    have hout := hover i out
    rw [decide_eq_true (by omega), Bool.true_or] at hout
    obtain ⟨-, rfl⟩ | ⟨h, -⟩ := run_loop_of_test hrun hout
    · exact ⟨show input.length < i by omega, rfl⟩
    · cases h
  | succ n ih =>
    unfold plainValueFrom
    dsimp only
    by_cases hin : input.length < i
    · have hout := hover i out
      rw [decide_eq_true hin, Bool.true_or] at hout
      rw [if_pos hin]
      obtain ⟨-, rfl⟩ | ⟨h, -⟩ := run_loop_of_test hrun hout
      · exact ⟨hin, rfl⟩
      · cases h
    rw [if_neg hin]
    by_cases hquote : input.item i = quote
    · have hclosed := hover i out
      rw [hquote, beq_self_eq_true, Bool.or_true] at hclosed
      rw [if_pos hquote]
      obtain ⟨-, rfl⟩ | ⟨h, -⟩ := run_loop_of_test hrun hclosed
      · exact ⟨rfl, rfl, by omega⟩
      · cases h
    rw [if_neg hquote]
    have hopen := hover i out
    rw [decide_eq_false hin, beq_false_of_ne hquote] at hopen
    obtain ⟨h, -⟩ | ⟨-, l, u, -, hstep, hrest⟩ := run_loop_of_test hrun hopen
    · cases h
    -- The parse takes the same step, but for a byte that the scan does not take for a character.
    have hfails {message : String} (h : (parseAttributeValueStep bound input (i, out)).run
        Parser.routineMachine q = some ((input.length + 1, out), q.setError message)) :
        r.2.core.hasError = true := by
      obtain rfl := Option.some.inj (hstep.symm.trans h)
      exact hasError_of_run_routine (q.setError_hasError message) hrest
    have hgoes (h : (parseAttributeValueStep bound input (i, out)).run Parser.routineMachine q =
        some ((i + 1, out ++ [literalCharacter (input.item i)]), q)) :
        (plainValueFrom input quote n (i + 1)).Foretells input q r := by
      obtain rfl := Option.some.inj (hstep.symm.trans h)
      exact ih (by omega) hrest
    -- The cases follow the scan, which tests for plain bytes before anything else.
    unfold parseAttributeValueStep at hfails hgoes
    dsimp only at hfails hgoes
    by_cases hangle : input.item i = '<'
    · rw [if_pos hangle] at hfails ⊢
      exact .inr (hfails rfl)
    rw [if_neg hangle] at hfails hgoes ⊢
    by_cases hreference : input.item i = '&'
    · rw [if_pos hreference]
      exact trivial
    rw [if_neg hreference] at hfails hgoes ⊢
    by_cases hplain : (32 ≤ (input.item i).toNat ∧ (input.item i).toNat < 128) ∨
        (input.item i).toNat = 9 ∨ (input.item i).toNat = 10
    · have hascii : input.code i < 128 := by
        unfold String8.code
        omega
      rw [if_pos hplain]
      rw [isIncompleteUtf8SequenceAt_of_ascii hascii, isXmlCharacterCode_of_plain hplain] at hgoes
      exact hgoes rfl
    rw [if_neg hplain]
    by_cases hascii : (input.item i).toNat < 128
    · rw [if_pos hascii]
      exact .inl rfl
    rw [if_neg hascii]
    by_cases hpartial : isIncompleteUtf8SequenceAt input i = true
    · rw [if_pos hpartial] at hfails ⊢
      exact .inr (hfails rfl)
    rw [if_neg hpartial] at hgoes ⊢
    by_cases hcode : (!isXmlCharacterCode (input.item i).toNat) = true
    · rw [if_pos hcode]
      exact .inl rfl
    · rw [if_neg hcode] at hgoes ⊢
      exact hgoes rfl

/-- What the scan of a value says of its parse. -/
theorem foretells_parseAttributeValue (hq : q.core.hasError = false) {start : Nat} (hstart : 1 ≤ start)
    {r : (Nat × String8) × Parser}
    (hrun : (parseAttributeValue bound input start quote).run Parser.routineMachine q = some r) :
    match plainValueFrom input quote (input.length + 1) start with
    | .closed i => r.1.1 = i ∧ r.2 = q
    | .unsupported => True
    | .failed message => message = "invalid XML character" ∨ r.2.core.hasError = true
    | .unterminated => r.2.core.hasError = true := by
  obtain ⟨⟨⟨i, value⟩, q₁⟩, hloop, hrest⟩ := (run_bind_eq_some _ _).1 hrun
  have hforetells := foretells_value hq (n := input.length + 1) (by omega) hloop
  cases hplain : plainValueFrom input quote (input.length + 1) start with
  | closed j =>
    rw [hplain] at hforetells
    obtain ⟨rfl, rfl, hin⟩ := hforetells
    dsimp only at hrest hin
    rw [run_hasError_bind, hq, if_neg Bool.false_ne_true, if_neg (by omega)] at hrest
    cases hrest
    exact ⟨rfl, rfl⟩
  | unsupported => exact trivial
  | failed message =>
    rw [hplain] at hforetells
    exact hforetells.imp_right fun hfailed ↦ hasError_of_run_routine hfailed hrest
  | unterminated =>
    rw [hplain] at hforetells
    obtain ⟨hout, rfl⟩ := hforetells
    dsimp only at hrest hout
    rw [run_hasError_bind, hq, if_neg Bool.false_ne_true, if_pos hout, run_failAt] at hrest
    cases hrest
    exact q₁.setError_hasError _

end

/-! ## Attributes -/

namespace Parser

theorem parted_left_routine (c : Command) (p q : Parser) (h : parted.Holds p q) :
    parted.Holds (routineMachine.step c p) q :=
  parted.left (.routine c) p q h

theorem parted_right_routine (c : Command) (p q : Parser) (h : parted.Holds p q) :
    parted.Holds p (routineMachine.step c q) :=
  parted.right (.routine c) p q h

/-- `parted`, for routines. -/
def partedRoutines : Settled routineMachine routineMachine where
  Holds := parted.Holds
  left := parted_left_routine
  right := parted_right_routine

section

variable {α β : Type} {input : String8} {p q : Parser} {bound : Nat}

theorem coupled_failAt {message message' : String} {a : α} {b : β}
    {Q : α → Parser → β → Parser → Prop} :
    Coupled partedRoutines (failAt message a) (failAt message' b) p q Q :=
  Coupled.settled (m := Program.done a) (n := Program.done b) (s := p.setError message)
    (t := q.setError message')
    ⟨setError_hasError p message, .inl (setError_hasError q message')⟩

/-- The name of an attribute is read without a trace, or refused on both sides. -/
theorem Alike.coupled_scanName (h : Alike p q) (start : Nat) :
    Coupled partedRoutines (scanName input start) (scanName input start) p q fun i p' j q' ↦
      i = (scanNameFrom p.config input start (input.length + 1) start).1 ∧ i = j ∧ p' = p ∧ q' = q := by
  intro i p' j q' hp hq
  rw [Xpact.run_scanName] at hp hq
  rw [h.config] at hq
  dsimp only at hp hq
  cases hfailed : (scanNameFrom p.config input start (input.length + 1) start).2 with
  | true =>
    rw [hfailed, if_pos rfl] at hp hq
    cases hp
    cases hq
    exact .inl ⟨setError_hasError p _, .inl (setError_hasError q _)⟩
  | false =>
    rw [hfailed, if_neg Bool.false_ne_true] at hp hq
    cases hp
    cases hq
    exact .inr ⟨rfl, rfl, rfl, rfl⟩

theorem substring_scanName (cfg : Config) {start : Nat} (hstart : 1 ≤ start)
    (hin : start ≤ input.length) :
    input.substring start ((scanNameFrom cfg input start (input.length + 1) start).1 - 1) =
      inputRange input start ((scanNameFrom cfg input start (input.length + 1) start).1 - 1) := by
  have hle : (scanNameFrom cfg input start (input.length + 1) start).1 ≤ input.length + 1 :=
    scanNameFrom_le hin (Nat.le_succ_of_le hin)
  have hlt : start < (scanNameFrom cfg input start (input.length + 1) start).1 := lt_scannedName hin
  unfold String8.substring inputRange
  rw [if_pos (by omega)]

/-- An attribute, read without strings and with them. -/
theorem Alike.coupled_parseAttribute (h : Alike p q) (hp : p.core.hasError = false)
    (hmode : p.config.namespaceMode = false) {i : Nat} (hi : 1 ≤ i) (hin : i ≤ input.length)
    (a : Attributes) :
    Coupled partedRoutines (parseAttributeNoEvents input i) (parseAttribute bound input i a) p q
      fun r p' u q' ↦ p' = p ∧ (r.1 = 0 ∨ r.1 ≠ 0 ∧
        (a.has (r.2.text input) = true ∧ q'.core.hasError = true ∨
          a.has (r.2.text input) = false ∧ q' = q ∧
            ∃ value, u = (r.1, a.put (r.2.text input) value))) := by
  have hq : q.core.hasError = false := h.hasError.trans hp
  have hmode' : q.config.namespaceMode = false := by rw [h.config, hmode]
  unfold parseAttributeNoEvents parseAttribute
  dsimp only
  refine Coupled.ite Iff.rfl (fun _ ↦ coupled_failAt) fun _ ↦ ?_
  refine Coupled.bind ((h.coupled_scanName i).mono ?_)
  rintro nameEnd p₁ _ q₁ ⟨hend, rfl, rfl, rfl⟩
  have hname := substring_scanName p₁.config hi hin
  rw [← hend] at hname
  show Coupled _ _ (if (q₁.config.namespaceMode && _) = true then _ else _ : Routine _) _ _ _
  rw [hmode', Bool.false_and, if_neg Bool.false_ne_true]
  refine Coupled.ite Iff.rfl (fun _ ↦ coupled_failAt) fun _ ↦ ?_
  refine Coupled.ite Iff.rfl (fun _ ↦ coupled_failAt) fun _ ↦ ?_
  show Coupled _ (if p₁.core.hasError = true then _ else _ : Routine _) _ _ _ _
  rw [hp, if_neg Bool.false_ne_true, hname]
  -- Only the right parses the value; on the left its scan is a function of the input.
  refine Coupled.right fun u q₂ hvalue ↦ ?_
  have hforetells := foretells_parseAttributeValue hq (Nat.succ_le_succ (Nat.zero_le _)) hvalue
  have hrefused {message : String} {r : Nat × NameRange} {n : Routine (Nat × Attributes)}
      {Q : Nat × NameRange → Parser → Nat × Attributes → Parser → Prop}
      (h : q₂.core.hasError = true ∨ message = "invalid XML character") :
      Coupled partedRoutines (Routine.failAt message r) n p₁ q₂ Q :=
    Coupled.settled (S := partedRoutines) (m := Program.done r) (s := p₁.setError message) (t := q₂)
      ⟨setError_hasError p₁ message, h.imp_right (setError_of_ongoing hp message).2.trans⟩
  cases hplain : plainValueFrom input (input.item (skipSpaces input (skipSpaces input nameEnd + 1)))
      (input.length + 1) (skipSpaces input (skipSpaces input nameEnd + 1) + 1) with
  | closed j =>
    rw [hplain] at hforetells
    obtain ⟨rfl, rfl⟩ := hforetells
    show Coupled _ _ (if q₂.core.hasError = true then _ else _ : Routine _) _ _ _
    rw [hq, if_neg Bool.false_ne_true]
    -- The right refuses a repeated name here, the left when it adds the name to its set.
    by_cases hhas : a.has (inputRange input i (nameEnd - 1)) = true
    · rw [if_pos hhas]
      refine fun r p' u q' hr hu ↦ ?_
      cases hr
      cases hu
      exact .inr ⟨rfl, .inr ⟨Nat.succ_ne_zero _, .inl ⟨hhas, setError_hasError q₂ _⟩⟩⟩
    · rw [if_neg hhas]
      exact Coupled.done ⟨rfl, .inr ⟨Nat.succ_ne_zero _, .inr ⟨Bool.eq_false_iff.2 hhas, rfl,
        u.2, rfl⟩⟩⟩
  | unsupported =>
    -- A reference: with the index 0 the left gives up, and the tag is read again with strings.
    refine fun r p' u q' hr _ ↦ ?_
    cases hr
    exact .inr ⟨rfl, .inl rfl⟩
  | failed message =>
    rw [hplain] at hforetells
    exact hrefused hforetells.symm
  | unterminated =>
    rw [hplain] at hforetells
    exact hrefused (.inl hforetells)

/-! ## All attributes of a tag -/

/-- What two scans that go on have in common. -/
structure ScansTogether (input : String8) (p q : Parser) (a : PlainAttributes) (p' : Parser)
    (u : Nat × Attributes) (q' : Parser) : Prop where
  left : p' = p
  right : q' = q
  index : a.index = u.1
  pos : 1 ≤ a.index
  names : a.names.Holds input u.2.table.keys

/-- The space between attributes is skipped without a trace, or missing on both sides. -/
theorem coupled_skipSpacesBetweenAttributes (i : Nat) :
    Coupled partedRoutines (skipSpacesBetweenAttributes input i) (skipSpacesBetweenAttributes input i)
      p q fun j p' k q' ↦ j = skipSpaces input i ∧ k = skipSpaces input i ∧ p' = p ∧ q' = q := by
  unfold skipSpacesBetweenAttributes
  exact Coupled.ite Iff.rfl (fun _ ↦ coupled_failAt) fun _ ↦ Coupled.done ⟨rfl, rfl, rfl, rfl⟩

theorem has_iff_mem_keys {a : Attributes} {name : String8} :
    a.has name = true ↔ name ∈ a.table.keys :=
  decide_eq_true_iff.trans AList.mem_keys

theorem keys_put {a : Attributes} {name : String8} (h : a.has name = false) (value : String8) :
    (a.put name value).table.keys = a.table.keys ++ [name] := by
  have hnew : name ∉ a.table := of_decide_eq_false h
  show (Table.put a.table name value).entries.keys = a.table.entries.keys ++ [name]
  rw [Table.put, Table.union_entries]
  show (a.table.entries ++ [(⟨name, value⟩ : Sigma fun _ ↦ String8)].filter fun e ↦
    e.1 ∉ a.table).keys = a.table.entries.keys ++ [name]
  simp [List.keys, hnew]

/-- One round of the two scans. -/
theorem Alike.coupled_attributeStep (h : Alike p q) (hp : p.core.hasError = false)
    (hmode : p.config.namespaceMode = false) {a : PlainAttributes} {u : Nat × Attributes}
    (hin : a.index ≤ input.length) (hau : ScansTogether input p q a p u q) :
    Coupled partedRoutines (plainAttributeStep input a) (attributeStep bound input u) p q
      fun a' p' u' q' ↦ (a'.index = 0 ∧ p' = p) ∨ ScansTogether input p q a' p' u' q' := by
  have hq : q.core.hasError = false := h.hasError.trans hp
  obtain ⟨i, attributes⟩ := u
  have hindex : a.index = i := hau.index
  subst hindex
  have hcount : a.names.count = attributes.count :=
    hau.names.count.trans (List.length_map _)
  unfold plainAttributeStep attributeStep
  dsimp only
  show Coupled _ (if p.config.maxAttributeCount ≤ a.names.count then _ else _ : Routine _)
    (if q.config.maxAttributeCount ≤ attributes.count then _ else _ : Routine _) _ _ _
  -- Both count the names they have before the next one, so they meet the limit together.
  rw [h.config, hcount]
  refine Coupled.ite Iff.rfl (fun _ ↦ coupled_failAt) fun _ ↦ ?_
  refine Coupled.bind ((h.coupled_parseAttribute hp hmode hau.pos hin attributes).mono ?_)
  rintro ⟨next, range⟩ p₁ ⟨next', attributes'⟩ q₁ ⟨rfl, hrest⟩
  dsimp only at hrest ⊢
  obtain rfl | ⟨hnext, hrest⟩ := hrest
  · rw [if_pos rfl]
    refine fun a' p' u' q' ha' _ ↦ ?_
    cases ha'
    exact .inr (.inl ⟨rfl, rfl⟩)
  rw [if_neg hnext]
  obtain ⟨hduplicate, hkept⟩ := hau.names.add range
  show Coupled _ (if p₁.core.hasError = true then _ else _ : Routine _) _ _ _ _
  rw [hp, if_neg Bool.false_ne_true]
  obtain ⟨hhas, hfailed⟩ | ⟨hhas, rfl, value, hvalue⟩ := hrest
  · -- The other scan has refused the name already.
    rw [if_pos (hduplicate.2 (has_iff_mem_keys.1 hhas))]
    exact Coupled.settled (S := partedRoutines) (m := Program.done _) (s := p₁.setError _) (t := q₁)
      ⟨setError_hasError p₁ _, .inl hfailed⟩
  · obtain ⟨rfl, rfl⟩ := Prod.mk.inj hvalue
    have hnew : range.text input ∉ attributes.table.keys := fun hmem ↦
      Bool.false_ne_true (hhas.symm.trans (has_iff_mem_keys.2 hmem))
    rw [if_neg fun hagain ↦ hnew (hduplicate.1 hagain)]
    show Coupled _ _ (if q₁.core.hasError = true then _ else _ : Routine _) _ _ _
    rw [hq, if_neg Bool.false_ne_true]
    refine Coupled.bind ((coupled_skipSpacesBetweenAttributes next').mono ?_)
    rintro _ _ _ _ ⟨rfl, rfl, rfl, rfl⟩
    refine Coupled.done (.inr ⟨rfl, rfl, rfl, ?_, ?_⟩)
    · exact Nat.le_trans (Nat.one_le_iff_ne_zero.2 hnext) (le_skipSpaces input next')
    · rw [keys_put hhas]
      exact hkept hnew

/-- The attributes of a tag are read to the same end without strings and with them. -/
theorem Alike.coupled_parseAttributes (bound : Nat) (h : Alike p q) (hp : p.core.hasError = false)
    (hmode : p.config.namespaceMode = false) {start : Nat} (hstart : 1 ≤ start) :
    Coupled partedRoutines (parseAttributesNoEvents input start) (parseAttributes bound input start)
      p q fun i p' u q' ↦ p' = p ∧ (i = 0 ∨ i ≠ 0 ∧ q' = q ∧ u.1 = i) := by
  have hongoing : (!p.core.hasError && !p.core.isSuspended) = true := by rw [hp, h.isSuspended]; rfl
  have hongoing' : (!q.core.hasError && !q.core.isSuspended) = true := by rw [h.core]; exact hongoing
  rw [parseAttributesNoEvents_eq, ← bind_done (parseAttributes bound input start)]
  refine Coupled.bind ((Coupled.loop_until (I := ScansTogether input p q)
    (E := fun a p' _ _ ↦ a.index = 0 ∧ p' = p) (J := fun a _ ↦ a.index ≤ input.length) ?_ ?_ ?_
    _ _ ?_).mono ?_)
  -- A scan that has given up stays where it is.
  · rintro a p' _ _ ⟨hzero, rfl⟩ k l a' p'' _ _ hrun _
    have hover := run_attributesOver p' input a
    rw [hzero, beq_self_eq_true, Bool.or_true, Bool.true_or] at hover
    obtain ⟨-, heq⟩ | ⟨hopen, -⟩ := run_loop_of_test hrun hover
    · obtain ⟨rfl, rfl⟩ := Prod.mk.inj heq
      exact .inr ⟨hzero, rfl⟩
    · cases hopen
  -- The tests agree: neither side has failed, and the left has not given up.
  · rintro a p' u q' ⟨rfl, rfl, hindex, hpos, hnames⟩ x p'' y q'' hx hy
    obtain ⟨hxval, rfl⟩ := Prod.mk.inj (Option.some.inj hx)
    obtain ⟨hyval, rfl⟩ := Prod.mk.inj (Option.some.inj hy)
    have hx : (!(!p'.core.hasError && !p'.core.isSuspended) || a.index == 0 ||
      endsAttributes input a.index) = x := hxval
    have hy : (!(!q'.core.hasError && !q'.core.isSuspended) || endsAttributes input u.1) = y := hyval
    rw [hongoing, beq_false_of_ne (by omega), Bool.not_true, Bool.false_or, Bool.false_or] at hx
    rw [hongoing', Bool.not_true, Bool.false_or, ← hindex] at hy
    refine .inr ⟨hx.symm.trans hy, ⟨rfl, rfl, hindex, hpos, hnames⟩, fun hopen ↦ ?_⟩
    rw [← hx, endsAttributes, Bool.or_eq_false_iff, Bool.or_eq_false_iff] at hopen
    exact Nat.not_lt.1 (of_decide_eq_false hopen.1.1)
  · rintro a p' u q' hau hin
    obtain rfl := hau.left
    obtain rfl := hau.right
    exact h.coupled_attributeStep hp hmode hin hau
  · exact ⟨rfl, rfl, rfl, hstart, holds_nil input⟩
  · rintro a p' u q' (⟨hzero, rfl⟩ | hau)
    · rw [if_pos hzero]
      exact Coupled.done ⟨rfl, .inl rfl⟩
    · obtain ⟨rfl, rfl, hindex, hpos, -⟩ := hau
      rw [if_neg (by omega)]
      show Coupled _ (if (!p'.core.hasError && !p'.core.isSuspended) = true then _ else _ : Routine _)
        _ _ _ _
      rw [if_pos hongoing]
      exact Coupled.done ⟨rfl, .inr ⟨by omega, rfl, hindex.symm⟩⟩

end

end Parser

end Xpact
