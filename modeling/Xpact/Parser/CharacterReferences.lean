import Mathlib.Data.Nat.Digits.Lemmas
import Xpact.Grammar.Names
import Xpact.Native.Utf8
import Xpact.Parser.Recognizers

/-!
# Character references

The digits of a reference may be any number.  They are read into an integer of 32 bits, which is
compared with the last character after every digit, so that leading zeros are allowed and no
operation overflows.
-/

namespace Xpact

open Library Program Routine

/-! ## Numbers -/

/-- `c` is the digit `d`, in either letter case. -/
def IsDigitOf (base : Nat) (c : Character8) (d : Nat) : Prop :=
  d < base ∧ (c = (Nat.digitChar d : Character8) ∨ c = ((Nat.digitChar d).toUpper : Character8))

/-- `body` is a decimal number, or `x` and a hexadecimal one. -/
inductive DenotesCode : String8 → Nat → Prop where
  | decimal {body : String8} {digits : List Nat} :
      digits ≠ [] → List.Forall₂ (IsDigitOf 10) body digits →
      DenotesCode body (Nat.ofDigits 10 digits.reverse)
  | hexadecimal {body : String8} {digits : List Nat} :
      digits ≠ [] → List.Forall₂ (IsDigitOf 16) body digits →
      DenotesCode (('x' : Character8) :: body) (Nat.ofDigits 16 digits.reverse)

def digitValue (base : Nat) (c : Character8) : Option Nat :=
  if base = 16 then hexDigitValue c else decimalDigitValue c

/-! ## Digits -/

theorem digitValue_eq_some_iff {base : Nat} (hbase : base = 10 ∨ base = 16) {c : Character8}
    {d : Nat} : digitValue base c = some d ↔ IsDigitOf base c d := by
  have hread (c : Character8) : (∀ d ∈ digitValue 10 c, d < 10 ∧
      (c = (Nat.digitChar d : Character8) ∨ c = ((Nat.digitChar d).toUpper : Character8))) ∧
      ∀ d ∈ digitValue 16 c, d < 16 ∧
      (c = (Nat.digitChar d : Character8) ∨ c = ((Nat.digitChar d).toUpper : Character8)) := by
    revert c
    apply forall_byte
    decide +kernel
  have hdigits : (∀ d < 10, digitValue 10 (Nat.digitChar d : Character8) = some d ∧
      digitValue 10 ((Nat.digitChar d).toUpper : Character8) = some d) ∧
      ∀ d < 16, digitValue 16 (Nat.digitChar d : Character8) = some d ∧
      digitValue 16 ((Nat.digitChar d).toUpper : Character8) = some d := by
    decide
  rcases hbase with rfl | rfl
  · refine ⟨fun h ↦ (hread c).1 d h, ?_⟩
    rintro ⟨hd, rfl | rfl⟩
    · exact (hdigits.1 d hd).1
    · exact (hdigits.1 d hd).2
  · refine ⟨fun h ↦ (hread c).2 d h, ?_⟩
    rintro ⟨hd, rfl | rfl⟩
    · exact (hdigits.2 d hd).1
    · exact (hdigits.2 d hd).2

/-- The number that digits denote behind `code`. -/
def codeBehind (base code : Nat) (digits : List Nat) : Nat :=
  digits.foldl (fun code d ↦ code * base + d) code

theorem codeBehind_zero (base : Nat) (digits : List Nat) :
    codeBehind base 0 digits = Nat.ofDigits base digits.reverse := by
  unfold codeBehind
  rw [Nat.ofDigits_eq_foldr, List.foldr_reverse]
  congr 1
  funext code d
  show code * base + d = (d : ℕ) + base * code
  rw [Nat.mul_comm, Nat.add_comm]

theorem le_codeBehind {base : Nat} (hbase : 0 < base) (code : Nat) (digits : List Nat) :
    code ≤ codeBehind base code digits := by
  induction digits generalizing code with
  | nil => exact Nat.le_refl code
  | cons d digits ih =>
    have hstep : code ≤ code * base := Nat.le_mul_of_pos_right code hbase
    have hrest := ih (code * base + d)
    show code ≤ codeBehind base (code * base + d) digits
    omega

/-! ## The loop -/

section

variable {base : Nat} {body : String8} {digits : List Nat} {code : Nat}

/-- The two values of a round are within 25 bits, so neither operation overflows. -/
theorem characterReferenceCode_cons (hbase : base = 10 ∨ base = 16) (hcode : code ≤ 1114111)
    (c : Character8) : characterReferenceCode base (c :: body) code =
      match digitValue base c with
      | none => some (.error "invalid character reference digit")
      | some digit =>
        if 1114111 < code * base + digit then some (.error "invalid character reference")
        else characterReferenceCode base body (code * base + digit) := by
  show (match digitValue base c with
    | none => _
    | some digit => (checked32 (code * base)).bind _) = _
  cases hread : digitValue base c with
  | none => rfl
  | some d =>
    have hd := ((digitValue_eq_some_iff hbase).1 hread).1
    have hproduct : code * base ≤ 1114111 * 16 := Nat.mul_le_mul hcode (by omega)
    dsimp only
    rw [checked32, if_pos (by omega), Option.bind_some, checked32, if_pos (by omega),
      Option.bind_some]

/-- Digits are read to the number that they denote, unless it is beyond all characters. -/
theorem characterReferenceCode_of_digits (hbase : base = 10 ∨ base = 16)
    (hdigits : List.Forall₂ (IsDigitOf base) body digits) (hcode : code ≤ 1114111) :
    characterReferenceCode base body code =
      if codeBehind base code digits ≤ 1114111 then some (.ok (codeBehind base code digits))
      else some (.error "invalid character reference") := by
  induction hdigits generalizing code with
  | nil => exact (if_pos hcode).symm
  | @cons c d body digits hd _ ih =>
    rw [characterReferenceCode_cons hbase hcode, (digitValue_eq_some_iff hbase).2 hd]
    show (if _ then _ else _) = if codeBehind base (code * base + d) digits ≤ _ then _ else _
    by_cases hlarge : 1114111 < code * base + d
    · have hgrows := le_codeBehind (show 0 < base by omega) (code * base + d) digits
      rw [if_pos hlarge, if_neg (by omega)]
    · rw [if_neg hlarge]
      exact ih (by omega)

/-- What was read to its end consists of digits. -/
theorem exists_digits (hbase : base = 10 ∨ base = 16) (hcode : code ≤ 1114111) {n : Nat}
    (h : characterReferenceCode base body code = some (.ok n)) :
    ∃ digits, List.Forall₂ (IsDigitOf base) body digits ∧ n = codeBehind base code digits := by
  induction body generalizing code with
  | nil => exact ⟨[], List.Forall₂.nil, (Except.ok.inj (Option.some.inj h)).symm⟩
  | cons c body ih =>
    rw [characterReferenceCode_cons hbase hcode] at h
    cases hd : digitValue base c with
    | none =>
      rw [hd] at h
      cases h
    | some d =>
      rw [hd] at h
      dsimp only at h
      split at h
      · cases h
      · rename_i hsmall
        obtain ⟨digits, hdigits, hn⟩ := ih (by omega) h
        exact ⟨d :: digits, List.Forall₂.cons ((digitValue_eq_some_iff hbase).1 hd) hdigits, hn⟩

/-- No value of the loop overflows. -/
theorem characterReferenceCode_isSome (hbase : base = 10 ∨ base = 16) (hcode : code ≤ 1114111) :
    (characterReferenceCode base body code).isSome = true := by
  induction body generalizing code with
  | nil => rfl
  | cons c body ih =>
    rw [characterReferenceCode_cons hbase hcode]
    split
    · rfl
    · split
      · rfl
      · exact ih (by omega)

end

/-! ## The reference -/

theorem characterReferenceValue_isSome (body : String8) :
    (characterReferenceValue body).isSome = true := by
  unfold characterReferenceValue
  split
  · exact characterReferenceCode_isSome (Or.inr rfl) (by omega)
  · exact characterReferenceCode_isSome (Or.inl rfl) (by omega)

/-- A body is read to the code that it denotes, and a body without code or with one that is too large
is not read. -/
theorem characterReferenceValue_eq_ok_iff {body : String8} (hbody : body ≠ []) {code : Nat} :
    characterReferenceValue body = some (.ok code) ↔ DenotesCode body code ∧ code ≤ 1114111 := by
  have hread {base : Nat} (hbase : base = 10 ∨ base = 16) {body : String8} {digits : List Nat}
      (hdigits : List.Forall₂ (IsDigitOf base) body digits)
      (hle : Nat.ofDigits base digits.reverse ≤ 1114111) :
      characterReferenceCode base body 0 = some (.ok (Nat.ofDigits base digits.reverse)) := by
    rw [characterReferenceCode_of_digits hbase hdigits (by omega), codeBehind_zero, if_pos hle]
  have hbound {base : Nat} (hbase : base = 10 ∨ base = 16) {body : String8} {digits : List Nat}
      (hdigits : List.Forall₂ (IsDigitOf base) body digits)
      (h : characterReferenceCode base body 0 = some (.ok (codeBehind base 0 digits))) :
      codeBehind base 0 digits ≤ 1114111 := by
    rw [characterReferenceCode_of_digits hbase hdigits (by omega)] at h
    by_contra hlarge
    rw [if_neg hlarge] at h
    cases h
  have hlength {base : Nat} {body : String8} {digits : List Nat}
      (hdigits : List.Forall₂ (IsDigitOf base) body digits) (hbody : body ≠ []) : digits ≠ [] := by
    intro hnil
    rw [hnil] at hdigits
    cases hdigits
    exact hbody rfl
  unfold characterReferenceValue
  constructor
  · intro h
    split at h
    · rename_i hhex
      rw [Bool.and_eq_true, decide_eq_true_eq, beq_iff_eq] at hhex
      obtain ⟨c, rest, rfl⟩ := List.exists_cons_of_ne_nil hbody
      have hc : c = (('x' : Char) : Character8) := hhex.2
      have hrest : rest ≠ [] := by
        rintro rfl
        have := hhex.1
        rw [List.length_singleton] at this
        omega
      obtain ⟨digits, hdigits, rfl⟩ := exists_digits (Or.inr rfl) (by omega) h
      refine ⟨?_, hbound (Or.inr rfl) hdigits h⟩
      rw [hc, codeBehind_zero]
      exact DenotesCode.hexadecimal (hlength hdigits hrest) hdigits
    · obtain ⟨digits, hdigits, rfl⟩ := exists_digits (Or.inl rfl) (by omega) h
      refine ⟨?_, hbound (Or.inl rfl) hdigits h⟩
      rw [codeBehind_zero]
      exact DenotesCode.decimal (hlength hdigits hbody) hdigits
  · rintro ⟨hdenotes, hle⟩
    cases hdenotes with
    | @decimal _ digits _ hdigits =>
      -- A decimal digit is no `x`.
      have hfirst : ¬ (2 ≤ body.length && body.item 1 == 'x') = true := by
        rw [Bool.and_eq_true, decide_eq_true_eq, beq_iff_eq]
        rintro ⟨-, hx⟩
        cases hdigits with
        | nil => exact hbody rfl
        | @cons c d _ _ hd _ =>
          have hvalue := (digitValue_eq_some_iff (Or.inl rfl)).2 hd
          have hc : c = (('x' : Char) : Character8) := hx
          rw [hc, show digitValue 10 (('x' : Char) : Character8) = none by decide] at hvalue
          cases hvalue
      rw [if_neg hfirst]
      exact hread (Or.inl rfl) hdigits hle
    | @hexadecimal rest digits hne hdigits =>
      have hrest : 0 < rest.length := by
        rw [hdigits.length_eq]
        exact List.length_pos_iff.2 hne
      rw [if_pos]
      · exact hread (Or.inr rfl) hdigits hle
      · rw [Bool.and_eq_true, decide_eq_true_eq, List.length_cons]
        exact ⟨by omega, rfl⟩

section

variable {p : Parser} {body : String8} {code : Nat} {message : String}

/-- Without an error, what is appended depends on the code of the reference. -/
theorem run_appendCharacterReference_of_ok (hp : p.core.hasError = false) (hbody : body ≠ [])
    (h : characterReferenceValue body = some (.ok code)) :
    (appendCharacterReference body).run Parser.routineMachine p =
      if isXmlCharacterCode code then some (utf8Bytes code, p)
      else some ([], p.setError "invalid character reference") := by
  unfold appendCharacterReference
  rw [if_neg (by rw [List.isEmpty_iff]; exact hbody),
    run_bind_of_read (by rw [run_hasError, hp]), if_neg Bool.false_ne_true]
  rw [h]
  dsimp only
  split <;> rfl

theorem run_appendCharacterReference_of_error (hp : p.core.hasError = false) (hbody : body ≠ [])
    (h : characterReferenceValue body = some (.error message)) :
    (appendCharacterReference body).run Parser.routineMachine p = some ([], p.setError message) := by
  unfold appendCharacterReference
  rw [if_neg (by rw [List.isEmpty_iff]; exact hbody),
    run_bind_of_read (by rw [run_hasError, hp]), if_neg Bool.false_ne_true]
  rw [h]
  rfl

end

theorem not_denotesCode_nil (code : Nat) : ¬ DenotesCode [] code := by
  intro h
  cases h with
  | decimal hne hdigits =>
    cases hdigits
    exact hne rfl

/-- A reference appends the character that it denotes, or reports an error and appends nothing; no
operation on a 32-bit integer overflows on the way. -/
theorem appendCharacterReference_correct (p : Parser) (hp : p.core.hasError = false)
    (body : String8) :
    (∀ c : Char, DenotesCode body c.toNat → isXmlCharacterCode c.toNat = true →
      (appendCharacterReference body).run Parser.routineMachine p =
        some (String.utf8EncodeChar c, p)) ∧
    ((¬ ∃ code, DenotesCode body code ∧ isXmlCharacterCode code = true) →
      ∃ q, (appendCharacterReference body).run Parser.routineMachine p = some ([], q) ∧
        q.core.hasError = true) ∧
    (characterReferenceValue body).isSome = true := by
  refine ⟨?_, ?_, characterReferenceValue_isSome body⟩
  · intro c hdenotes hcode
    have hbody : body ≠ [] := by
      rintro rfl
      exact not_denotesCode_nil _ hdenotes
    have hle := isXmlCharacterCode_le hcode
    rw [run_appendCharacterReference_of_ok hp hbody
      ((characterReferenceValue_eq_ok_iff hbody).2 ⟨hdenotes, hle⟩), if_pos hcode, utf8Bytes_toNat]
  · intro hnone
    have hfails (message : String) : (p.setError message).core.hasError = true :=
      Parser.setError_hasError p message
    by_cases hbody : body = []
    · rw [hbody]
      exact ⟨_, rfl, hfails "invalid character reference syntax"⟩
    obtain ⟨result, hread⟩ := Option.isSome_iff_exists.1 (characterReferenceValue_isSome body)
    cases result with
    | error message =>
      exact ⟨_, run_appendCharacterReference_of_error hp hbody hread, hfails message⟩
    | ok code =>
      have hcode : isXmlCharacterCode code ≠ true := fun h ↦
        hnone ⟨code, ((characterReferenceValue_eq_ok_iff hbody).1 hread).1, h⟩
      refine ⟨_, ?_, hfails "invalid character reference"⟩
      rw [run_appendCharacterReference_of_ok hp hbody hread, if_neg hcode]

/-- `&#x00e9;` is a letter, and there is nothing in `&#x;`. -/
theorem appendCharacterReference_correct_zeros :
    (appendCharacterReference (str "x00e9")).run Parser.routineMachine (Parser.make {} .null) =
        some (String.utf8EncodeChar 'é', Parser.make {} .null) ∧
      (∃ q, (appendCharacterReference (str "x")).run Parser.routineMachine (Parser.make {} .null) =
        some ([], q) ∧ q.core.hasError = true) ∧
      (characterReferenceValue (str "99999999999999999999")).isSome = true := by
  have hdigits : List.Forall₂ (IsDigitOf 16) (str "00e9") [0, 0, 14, 9] := by
    unfold IsDigitOf
    decide
  have hvalue : Nat.ofDigits 16 [0, 0, 14, 9].reverse = 'é'.toNat := by decide
  refine ⟨?_, ?_, ?_⟩
  · refine (appendCharacterReference_correct _ rfl _).1 'é' ?_ (by decide)
    rw [← hvalue]
    exact DenotesCode.hexadecimal (List.cons_ne_nil _ _) hdigits
  · refine (appendCharacterReference_correct _ rfl _).2.1 ?_
    rintro ⟨code, hdenotes, hcode⟩
    have hread := (characterReferenceValue_eq_ok_iff (show str "x" ≠ [] by decide)).2
      ⟨hdenotes, isXmlCharacterCode_le hcode⟩
    have herror : characterReferenceValue (str "x") =
        some (.error "invalid character reference digit") := by decide
    rw [herror] at hread
    cases hread
  · exact (appendCharacterReference_correct (Parser.make {} .null) rfl _).2.2

end Xpact
