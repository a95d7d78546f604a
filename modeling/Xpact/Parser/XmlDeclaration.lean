import Xpact.Grammar.Names
import Xpact.Parser.Misc
import Xpact.Parser.Recognizers

/-!
# XML and text declarations

The three pseudo attributes are read by one loop with a counter for their order.  What it accepts is
the production for the kind of entity that is read, and what it reports are the values written there.
-/

namespace Xpact

open Grammar Computability Library Program Routine

/-! ## The values -/

theorem mem_versionNum {w : String8} : w ∈ versionNum ↔ isValidVersionNumber w = true := by
  have hclass (c : Character8) :
      ("0123456789".toList.any fun d ↦ c.toNat == d.toNat) = isDigit c := by
    revert c
    apply forall_byte
    decide +kernel
  have hdigits (u : String8) : u ∈ oneOrMore digit ↔ u ≠ [] ∧ ∀ c ∈ u, isDigit c = true := by
    unfold digit oneOf
    rw [mem_oneOrMore_character (isAscii_of_chars (by decide))]
    simp only [hclass]
  constructor
  · rintro ⟨a, rfl, u, hu, rfl⟩
    obtain ⟨hne, hall⟩ := (hdigits u).1 hu
    have hlength := List.length_pos_iff.2 hne
    show isValidVersionNumber (('1' : Character8) :: '.' :: u) = true
    unfold isValidVersionNumber
    simp only [Bool.and_eq_true, decide_eq_true_eq, List.length_cons, List.all_eq_true]
    exact ⟨⟨⟨by omega, rfl⟩, rfl⟩, hall⟩
  · intro h
    unfold isValidVersionNumber at h
    simp only [Bool.and_eq_true, decide_eq_true_eq, List.all_eq_true, beq_iff_eq] at h
    obtain ⟨⟨⟨hlength, hone⟩, hdot⟩, hall⟩ := h
    match w, hlength with
    | a :: b :: c :: u, _ =>
      have ha : a = '1' := hone
      have hb : b = '.' := hdot
      rw [ha, hb]
      exact ⟨_, rfl, c :: u, (hdigits _).2 ⟨List.cons_ne_nil c u, hall⟩, rfl⟩

theorem isAscii_latinLetter : IsAscii isLatinLetter := by
  intro code h
  unfold isLatinLetter at h
  unfold isXmlCharacterCode
  simp at h ⊢
  omega

theorem mem_encName {w : String8} : w ∈ encName ↔ isValidEncodingName w = true := by
  have hclass (c : Character8) : (isLatinLetter c.toNat ||
      "0123456789._-".toList.any fun d ↦ c.toNat == d.toNat) =
        (isLatinLetter c.toNat || isDigit c || c == '.' || c == '_' || c == '-') := by
    revert c
    apply forall_byte
    decide +kernel
  have hascii : IsAscii fun code ↦
      isLatinLetter code || "0123456789._-".toList.any fun c ↦ code == c.toNat := by
    intro code h
    rcases Bool.or_eq_true_iff.1 h with h | h
    · exact isAscii_latinLetter code h
    · exact isAscii_of_chars (by decide) code h
  unfold encName
  rw [mem_character_mul isAscii_latinLetter]
  cases w with
  | nil =>
    constructor
    · rintro ⟨c, -, u, -, h⟩
      cases h
    · intro h
      cases h
  | cons c u =>
    have hvalid : isValidEncodingName (c :: u) = true ↔
        isLatinLetter c.toNat = true ∧ ∀ d ∈ u, (isLatinLetter d.toNat || isDigit d ||
          d == '.' || d == '_' || d == '-') = true := by
      unfold isValidEncodingName
      rw [Bool.and_eq_true, List.all_eq_true]
      rfl
    rw [hvalid]
    simp only [← hclass]
    constructor
    · rintro ⟨d, hd, v, hv, h⟩
      obtain ⟨rfl, rfl⟩ := List.cons.inj h
      exact ⟨hd, (mem_kstar_character hascii).1 hv⟩
    · rintro ⟨hc, hu⟩
      exact ⟨c, hc, u, (mem_kstar_character hascii).2 hu, rfl⟩

/-! ## Sequences of pseudo attributes -/

/-- From `d` on, `text` holds pseudo attributes that lead to `final`, up to the position. -/
inductive PseudoAttributes (external : Bool) : XmlDeclarationData → String8 → XmlDeclarationData → Prop
  where
  | done {d : XmlDeclarationData} {text : String8} (hspaces : ∀ c ∈ text, isXmlSpace c = true) :
      PseudoAttributes external d text d
  | next {d accepted final : XmlDeclarationData} {spaces keyword before after value rest : String8}
      {q : Character8} (hspaces : ∀ c ∈ spaces, isXmlSpace c = true)
      (hneeds : d.needsSpace = true → spaces ≠ [])
      (hbefore : ∀ c ∈ before, isXmlSpace c = true) (hafter : ∀ c ∈ after, isXmlSpace c = true)
      (hquote : isQuote q = true) (hvalue : q ∉ value)
      (haccept : d.accept external keyword value = some accepted)
      (hrest : PseudoAttributes external accepted rest final) :
      PseudoAttributes external d
        (spaces ++ (keyword ++ (before ++ ('=' : Character8) :: (after ++ q :: (value ++ q :: rest)))))
        final

namespace XmlDeclarationData

def code (standalone : Option Bool) : Int :=
  match standalone with
  | none => -1
  | some true => 1
  | some false => 0

/-- What is accepted, one case for each pseudo attribute. -/
theorem accept_cases {d accepted : XmlDeclarationData} {external : Bool} {keyword value : String8}
    (h : d.accept external keyword value = some accepted) :
    (keyword = str "version" ∧ isValidVersionNumber value = true ∧ d.previousOrder = 0 ∧
        accepted = { d with
          names := d.names ++ [keyword], version := value, previousOrder := 1, needsSpace := true }) ∨
      (keyword = str "encoding" ∧ isValidEncodingName value = true ∧
        (external = true ∨ d.previousOrder ≠ 0) ∧ d.previousOrder < 2 ∧
        accepted = { d with
          names := d.names ++ [keyword], encoding := value, previousOrder := 2,
          needsSpace := true }) ∨
      ∃ b : Bool, keyword = str "standalone" ∧ value = str (if b then "yes" else "no") ∧
        external = false ∧ d.previousOrder ≠ 0 ∧ d.previousOrder < 3 ∧
        accepted = { d with
          names := d.names ++ [keyword], standalone := code (some b), previousOrder := 3,
          needsSpace := true } := by
  unfold accept at h
  simp only at h
  by_cases hnames : d.names.contains keyword = true
  · rw [if_pos hnames] at h
    cases h
  rw [if_neg hnames] at h
  by_cases hversion : keyword = str "version"
  · rw [if_pos hversion] at h
    split at h
    · cases h
    · rename_i hvalid
      simp only [not_or, not_not, Bool.not_eq_true', Bool.not_eq_false] at hvalid
      exact Or.inl ⟨hversion, hvalid.2, hvalid.1, (Option.some.inj h).symm⟩
  rw [if_neg hversion] at h
  by_cases hencoding : keyword = str "encoding"
  · rw [if_pos hencoding] at h
    split at h
    · cases h
    · rename_i hvalid
      simp only [not_or, not_and, Bool.not_eq_true', Bool.not_eq_false, not_le] at hvalid
      refine Or.inr (Or.inl ⟨hencoding, hvalid.2.2, ?_, hvalid.2.1, (Option.some.inj h).symm⟩)
      cases external with
      | true => exact Or.inl rfl
      | false => exact Or.inr (hvalid.1 rfl)
  rw [if_neg hencoding] at h
  by_cases hstandalone : keyword = str "standalone"
  · rw [if_pos hstandalone] at h
    split at h
    · cases h
    rename_i hvalid
    simp only [not_or, not_le, Bool.not_eq_true] at hvalid
    split at h
    · rename_i hyes
      exact Or.inr (Or.inr ⟨true, hstandalone, hyes, hvalid.1, hvalid.2.1, hvalid.2.2,
        (Option.some.inj h).symm⟩)
    split at h
    · rename_i hno
      exact Or.inr (Or.inr ⟨false, hstandalone, hno, hvalid.1, hvalid.2.1, hvalid.2.2,
        (Option.some.inj h).symm⟩)
    · cases h
  · rw [if_neg hstandalone] at h
    cases h

/-- The position plays no part in what is accepted. -/
theorem accept_reindex (d : XmlDeclarationData) (i : Nat) (external : Bool)
    (keyword value : String8) :
    ({ d with index := i } : XmlDeclarationData).accept external keyword value =
      (d.accept external keyword value).map fun a ↦ { a with index := i } := by
  unfold accept
  simp only
  repeat' split
  all_goals rfl

end XmlDeclarationData

/-! ## The loop reads such sequences -/

theorem keyword_cases {d accepted : XmlDeclarationData} {external : Bool}
    {keyword value : String8} (h : d.accept external keyword value = some accepted) :
    keyword = str "version" ∨ keyword = str "encoding" ∨ keyword = str "standalone" := by
  rcases XmlDeclarationData.accept_cases h with ⟨hkeyword, -⟩ | ⟨hkeyword, -⟩ | ⟨b, hkeyword, -⟩
  · exact Or.inl hkeyword
  · exact Or.inr (Or.inl hkeyword)
  · exact Or.inr (Or.inr hkeyword)

theorem mem_name_of_latin (legacy : Bool) {w : String8} (hne : w ≠ [])
    (hw : ∀ c ∈ w, isLatinLetter c.toNat = true) : w ∈ name legacy := by
  have hcode (legacy : Bool) : ∀ code < 128, isLatinLetter code = true →
      isNameStartCode legacy code = true := by
    revert legacy
    decide +kernel
  have hstart (c : Character8) (hc : isLatinLetter c.toNat = true) :
      [c] ∈ character (isNameStartCode legacy) := by
    have hascii := isAscii_latinLetter c.toNat hc
    refine ⟨c.toNat, hascii.2, hcode legacy _ hascii.1 hc, ?_⟩
    rw [utf8Bytes_ascii hascii.1, UInt8.ofNat_toNat]
  obtain ⟨c, u, rfl⟩ := List.exists_cons_of_ne_nil hne
  refine ⟨[c], hstart c (hw c List.mem_cons_self), u, ?_, rfl⟩
  refine Language.mem_kstar.2 ⟨u.map fun c ↦ [c], ?_, ?_⟩
  · clear hw hne
    induction u with
    | nil => rfl
    | cons c u ih => rw [List.map_cons, List.flatten_cons, ← ih, List.singleton_append]
  · intro v hv
    obtain ⟨d, hd, rfl⟩ := List.mem_map.1 hv
    obtain ⟨code, hcharacter, hname, hbytes⟩ := hstart d (hw d (List.mem_cons_of_mem c hd))
    exact ⟨code, hcharacter, isNameCode_of_isNameStartCode hname, hbytes⟩

/-- The keywords are names, so a scan delimits them. -/
theorem keyword_latin {keyword : String8}
    (h : keyword = str "version" ∨ keyword = str "encoding" ∨ keyword = str "standalone") :
    keyword ≠ [] ∧ ∀ c ∈ keyword, isLatinLetter c.toNat = true := by
  rcases h with rfl | rfl | rfl <;> decide

theorem isXmlSpace_ascii {c : Character8} (h : isXmlSpace c = true) :
    c.toNat < 128 ∧ isAsciiNameCode c.toNat = false := by
  revert c
  apply forall_byte
  decide +kernel

theorem not_isXmlSpace_of_latin {c : Character8} (h : isLatinLetter c.toNat = true) :
    isXmlSpace c = false := by
  revert c
  apply forall_byte
  decide +kernel

section

variable {external : Bool} {data spaces keyword before after value rest : String8}
  {d accepted : XmlDeclarationData} {q : Character8} {p : Parser}

/-- A pseudo attribute at the position is read. -/
theorem run_parseXmlDeclarationAttribute
    (hat : RestAt data d.index
      (spaces ++ (keyword ++ (before ++ ('=' : Character8) :: (after ++ q :: (value ++ q :: rest))))))
    (hspaces : ∀ c ∈ spaces, isXmlSpace c = true) (hneeds : d.needsSpace = true → spaces ≠ [])
    (hbefore : ∀ c ∈ before, isXmlSpace c = true) (hafter : ∀ c ∈ after, isXmlSpace c = true)
    (hquote : isQuote q = true) (hvalue : q ∉ value)
    (haccept : d.accept external keyword value = some accepted) :
    ∃ k, d.index < k ∧ RestAt data k rest ∧
      (parseXmlDeclarationAttribute external data d).run Parser.routineMachine p =
        some ({ accepted with index := k }, p) := by
  have hkeyword := keyword_latin (keyword_cases haccept)
  have hname := mem_name_of_latin p.config.usesLegacyNameCharacterRanges hkeyword.1 hkeyword.2
  obtain ⟨first, more, hfirst⟩ := List.exists_cons_of_ne_nil hkeyword.1
  have hletter : isLatinLetter first.toNat = true := hkeyword.2 first (by rw [hfirst]; simp)
  -- The indices at which the parts begin.
  have hatName := hat.append
  have hatBefore := hatName.append
  have hatEquals := hatBefore.append
  have hatAfter := hatEquals.cons
  have hatQuote := hatAfter.append
  have hatValue := hatQuote.cons
  have hatClose := hatValue.append
  have hskip : skipSpaces data d.index = d.index + spaces.length := by
    apply hat.skipSpaces hspaces
    rw [hfirst]
    intro c hc
    obtain rfl := Option.some.inj hc
    exact not_isXmlSpace_of_latin hletter
  have hends : EndsName data (d.index + spaces.length + keyword.length) := by
    right
    cases before with
    | nil =>
      refine ⟨hatBefore.le, ?_, ?_⟩ <;> rw [hatBefore.code_eq] <;> decide
    | cons c before =>
      have hspace := isXmlSpace_ascii (hbefore c List.mem_cons_self)
      refine ⟨hatBefore.le, ?_, ?_⟩ <;> rw [hatBefore.code_eq]
      · exact hspace.1
      · exact hspace.2
  have hscan := scanNameFrom_name hname hatName hends
  have hequals : skipSpaces data (d.index + spaces.length + keyword.length) =
      d.index + spaces.length + keyword.length + before.length := by
    apply hatBefore.skipSpaces hbefore
    intro c hc
    obtain rfl := Option.some.inj hc
    decide
  have hopen : skipSpaces data
      (d.index + spaces.length + keyword.length + before.length + 1) =
      d.index + spaces.length + keyword.length + before.length + 1 + after.length := by
    apply hatAfter.skipSpaces hafter
    intro c hc
    obtain rfl := Option.some.inj hc
    exact isXmlSpace_of_isQuote hquote
  have hclose := hatValue.findCharacter hvalue
  have hstart := isNameStartCharacter_name hname hatName
  have hsubName := hatName.substring
  have hsubValue := hatValue.substring
  have hspaceFirst : (d.needsSpace && !isXmlSpace (data.item d.index)) = false := by
    cases hneedsSpace : d.needsSpace with
    | false => rfl
    | true =>
      obtain ⟨c, u, rfl⟩ := List.exists_cons_of_ne_nil (hneeds hneedsSpace)
      rw [hat.item, hspaces c List.mem_cons_self]
      rfl
  have hinName : d.index + spaces.length ≤ data.length := by
    rw [hfirst] at hatName
    exact hatName.le
  have hlater : d.index + spaces.length + keyword.length + before.length + 1 + after.length + 1 +
      value.length + 1 > d.index := by omega
  refine ⟨_, hlater, hatClose.cons, ?_⟩
  unfold parseXmlDeclarationAttribute
  simp only []
  rw [hspaceFirst, if_neg Bool.false_ne_true, hskip, if_neg (by omega), hstart,
    if_neg (by decide), run_bind_of_read (run_scanName_of_scan hscan), hequals, hopen,
    hatEquals.item, hatQuote.item, if_neg (by have := hatEquals.le; simp; omega),
    if_neg (by have := hatQuote.le; rw [hquote]; simp; omega), hclose,
    if_neg (by omega), hsubName, hsubValue, haccept]
  rfl

/-- The test of the loop. -/
def isDeclarationRead (data : String8) (d : XmlDeclarationData) : Routine Bool :=
  return data.length < d.index || (← hasError)

theorem run_isDeclarationRead {data : String8} {d : XmlDeclarationData} {b : Bool}
    (hp : p.core.hasError = false) (hb : decide (data.length < d.index) = b) :
    (isDeclarationRead data d).run Parser.routineMachine p = some (b, p) := by
  unfold isDeclarationRead
  have hrun := run_hasError (p := p)
  rw [hp] at hrun
  rw [run_bind_of_read hrun, Bool.or_false, hb]
  rfl

/-- A sequence of pseudo attributes is read to its end. -/
theorem run_loop_of_attributes {data text : String8} {d final : XmlDeclarationData}
    (h : PseudoAttributes external d text final) (hp : p.core.hasError = false) {i n : Nat}
    (hat : RestAt data i text) (hfuel : data.length + 1 < i + n) :
    ∃ k, (loop (isDeclarationRead data) (parseXmlDeclarationAttribute external data) n
      { d with index := i }).run Parser.routineMachine p = some ({ final with index := k }, p) := by
  induction h generalizing i n with
  | @done d text hspaces =>
    have hindex := hat.index
    obtain ⟨n, rfl⟩ : ∃ m, n = m + 1 := ⟨n - 1, by omega⟩
    by_cases hend : data.length < i
    · exact ⟨i, run_loop_of_finished (run_isDeclarationRead hp (decide_eq_true hend))⟩
    · -- The white space at the end takes one more round.
      obtain ⟨m, rfl⟩ : ∃ m, n = m + 1 := ⟨n - 1, by omega⟩
      have hskip : skipSpaces data i = data.length + 1 := by
        rw [← List.append_nil text] at hat
        rw [hat.skipSpaces hspaces (fun c hc ↦ nomatch hc), hindex]
      obtain ⟨v, hv⟩ := hat.exists_cons (by omega)
      have hspace : isXmlSpace (data.item i) = true := by
        apply hspaces
        rw [hv]
        exact List.mem_cons_self
      have hbody : (parseXmlDeclarationAttribute external data { d with index := i }).run
          Parser.routineMachine p = some ({ d with index := data.length + 1 }, p) := by
        unfold parseXmlDeclarationAttribute
        simp only []
        rw [hspace, Bool.not_true, Bool.and_false, if_neg Bool.false_ne_true, hskip,
          if_pos (by omega)]
        rfl
      rw [run_loop_of_read (run_isDeclarationRead hp (decide_eq_false hend)) hbody]
      exact ⟨_, run_loop_of_finished (run_isDeclarationRead hp (decide_eq_true (Nat.lt_succ_self _)))⟩
  | @next d accepted final spaces keyword before after value rest q hspaces hneeds hbefore hafter
      hquote hvalue haccept hrest ih =>
    have haccept' : ({ d with index := i } : XmlDeclarationData).accept external keyword value =
        some { accepted with index := i } := by
      rw [XmlDeclarationData.accept_reindex, haccept]
      rfl
    have hin : i ≤ data.length := by
      have hindex := hat.index
      simp only [List.length_append, List.length_cons] at hindex
      omega
    obtain ⟨k, hlater, hatRest, hbody⟩ := run_parseXmlDeclarationAttribute (p := p)
      (d := { d with index := i }) hat hspaces hneeds hbefore hafter hquote hvalue haccept'
    have hlater : i < k := hlater
    obtain ⟨n, rfl⟩ : ∃ m, n = m + 1 := by
      have hindex := hat.index
      exact ⟨n - 1, by omega⟩
    rw [run_loop_of_read (run_isDeclarationRead hp (decide_eq_false (Nat.not_lt.2 hin))) hbody]
    exact ih hatRest (by omega)

theorem scanNameFrom_bounds {cfg : Config} {input : String8} {start stop : Nat}
    (hscan : scanNameFrom cfg input start (input.length + 1) start = (stop, false))
    (hpos : 1 ≤ start) (hin : start ≤ input.length)
    (hfirst : isNameStartCharacter (input.item start) = true) :
    start < stop ∧ stop ≤ input.length + 1 := by
  rcases scanNameFrom_spec hscan (by omega) (Nat.le_refl start) (by omega)
    (fun _ ↦ ⟨hin, hfirst⟩) with ⟨hrun, hends⟩ | ⟨k, -, -, -, rfl⟩
  · have hle := hrun.le (by omega)
    refine ⟨Nat.lt_of_le_of_ne hle.1 ?_, hle.2⟩
    intro hat
    subst hat
    exact not_endsName_of_isNameStartCharacter hin hfirst hends
  · exact ⟨by omega, Nat.le_refl _⟩

/-- What one round of the loop has read, unless it has reported an error. -/
theorem recognizes_attribute (cfg : Config) {data rest : String8} {d : XmlDeclarationData}
    (hat : RestAt data d.index rest) :
    Recognizes cfg (parseXmlDeclarationAttribute external data d) fun t ↦
      (∀ c ∈ rest, isXmlSpace c = true) ∧ t = { d with index := data.length + 1 } ∨
        ∃ spaces keyword before after value rest' q accepted k,
          rest = spaces ++ (keyword ++
            (before ++ ('=' : Character8) :: (after ++ q :: (value ++ q :: rest')))) ∧
          (∀ c ∈ spaces, isXmlSpace c = true) ∧ (d.needsSpace = true → spaces ≠ []) ∧
          (∀ c ∈ before, isXmlSpace c = true) ∧ (∀ c ∈ after, isXmlSpace c = true) ∧
          isQuote q = true ∧ q ∉ value ∧ d.accept external keyword value = some accepted ∧
          d.index < k ∧ RestAt data k rest' ∧ t = { accepted with index := k } := by
  unfold parseXmlDeclarationAttribute
  simp only []
  apply Judges.ite
  · exact fun _ ↦ Recognizes.failAt _ _
  intro hneeds
  obtain ⟨spaces, v, rfl, hspaces, -, hskip, hatName⟩ := hat.exists_spaces
  apply Judges.ite
  · intro hend
    have hpos := hatName.index
    have hv : v = [] := by
      rw [← List.length_eq_zero_iff]
      omega
    apply Judges.pure
    left
    rw [hv, List.append_nil]
    refine ⟨hspaces, ?_⟩
    rw [show skipSpaces data d.index = data.length + 1 by omega]
  intro hin
  apply Judges.ite
  · exact fun _ ↦ Recognizes.failAt _ _
  intro hstart
  have hstart : isNameStartCharacter (data.item (skipSpaces data d.index)) = true := by
    simpa using hstart
  apply Judges.bind (Recognizes.scanName _ _)
  intro stop
  apply Judges.ite
  · exact fun _ ↦ Recognizes.failAt _ _
  intro hequals
  apply Judges.ite
  · exact fun _ ↦ Recognizes.failAt _ _
  intro hquote
  apply Judges.ite
  · exact fun _ ↦ Recognizes.failAt _ _
  intro hclose
  split
  · exact Recognizes.failAt _ _
  rename_i accepted haccept
  apply Judges.pure
  intro hscan
  right
  simp only [not_or, not_lt, not_not, Bool.not_eq_true', Bool.not_eq_false] at hequals hquote
  -- The text is taken apart at the indices that the routine has used.
  have hstop := scanNameFrom_bounds hscan hatName.pos (by omega) hstart
  obtain ⟨hv, hlength⟩ := hatName.of_substring (Nat.le_of_lt hstop.1) hstop.2
  have hatBefore : RestAt data stop (data.drop (stop - 1)) :=
    RestAt.of_index (show 1 ≤ stop by omega) hstop.2
  obtain ⟨before, w, hbefore, hbeforeSpaces, -, hbeforeEnd, hatEquals⟩ := hatBefore.exists_spaces
  obtain ⟨w, rfl⟩ := hatEquals.exists_cons hequals.1
  obtain ⟨after, u, rfl, hafterSpaces, -, hafterEnd, hatQuote⟩ := hatEquals.cons.exists_spaces
  obtain ⟨u, rfl⟩ := hatQuote.exists_cons hquote.1
  obtain ⟨value, rest', rfl, hvalue, hfound⟩ := hatQuote.cons.exists_of_findCharacter hclose
  have hsubValue := hatQuote.cons.substring
  rw [← hfound] at hsubValue
  rw [hsubValue] at haccept
  refine ⟨spaces, _, before, after, value, rest', _, accepted, _, ?_, hspaces, ?_, hbeforeSpaces,
    hafterSpaces, hquote.2, hvalue, haccept, ?_, ?_, rfl⟩
  · rw [hv, hbefore, hequals.2]
  · intro hneedsSpace hnone
    rw [hnone, List.length_nil, Nat.add_zero] at hskip
    rw [hskip] at hstart
    rw [hneedsSpace, isXmlSpace_of_nameStart hstart] at hneeds
    exact hneeds rfl
  · omega
  · rw [hfound]
    exact hatQuote.cons.append.cons

theorem PseudoAttributes.of_empty {d final : XmlDeclarationData}
    (h : PseudoAttributes external d [] final) : final = d := by
  generalize htext : ([] : String8) = text at h
  cases h with
  | done => rfl
  | next =>
    have hlength := congrArg List.length htext
    simp only [List.length_nil, List.length_append, List.length_cons] at hlength
    omega

variable (external data) in
/-- What has been read, with whatever may follow, is a sequence of pseudo attributes. -/
structure ReadsAttributes (d : XmlDeclarationData) : Prop where
  pos : 1 ≤ d.index
  le : d.index ≤ data.length + 1
  leads : ∀ final, PseudoAttributes external { d with index := 1 } (data.drop (d.index - 1)) final →
    PseudoAttributes external {} data final

theorem ReadsAttributes.round (cfg : Config) (hd : ReadsAttributes external data d)
    (hin : d.index ≤ data.length) :
    Recognizes cfg (parseXmlDeclarationAttribute external data d) fun t ↦
      ReadsAttributes external data t ∧ data.length + 1 - t.index < data.length + 1 - d.index := by
  apply (recognizes_attribute cfg (RestAt.of_index hd.pos hd.le)).mono
  rintro t (⟨hspaces, rfl⟩ | ⟨spaces, keyword, before, after, value, rest', q, accepted, k, hrest,
    hspaces, hneeds, hbefore, hafter, hquote, hvalue, haccept, hlater, hat, rfl⟩)
  · refine ⟨⟨Nat.succ_pos _, Nat.le_refl _, fun final hfinal ↦ hd.leads final ?_⟩, ?_⟩
    · have hnothing : data.drop (data.length + 1 - 1) = [] := by
        rw [Nat.add_sub_cancel, List.drop_length]
      simp only [hnothing] at hfinal
      rw [hfinal.of_empty]
      exact .done hspaces
    · show data.length + 1 - (data.length + 1) < data.length + 1 - d.index
      omega
  · have hindex := hat.index
    refine ⟨⟨hat.pos, ?_, fun final hfinal ↦ hd.leads final ?_⟩, ?_⟩
    · show k ≤ data.length + 1
      omega
    · have haccept' : ({ d with index := 1 } : XmlDeclarationData).accept external keyword value =
          some { accepted with index := 1 } := by
        rw [XmlDeclarationData.accept_reindex, haccept]
        rfl
      simp only [hat.drop] at hfinal
      rw [hrest]
      exact .next hspaces hneeds hbefore hafter hquote hvalue haccept' hfinal
    · show data.length + 1 - k < data.length + 1 - d.index
      omega

variable (external) in
/-- The loop accepts nothing else. -/
theorem recognizes_loop (cfg : Config) (data : String8) :
    Recognizes cfg (loop (isDeclarationRead data) (parseXmlDeclarationAttribute external data)
        (data.length + 2) {})
      fun d ↦ PseudoAttributes external {} data { d with index := 1 } := by
  apply (Judges.loop (ReadsAttributes external data) (fun d ↦ data.length + 1 - d.index)
    (fun d ↦ decide (data.length < d.index)) ?_ ?_ ?_ ?_).mono
  · rintro d ⟨hd, hend⟩
    apply hd.leads
    rw [List.drop_eq_nil_of_le (by have := of_decide_eq_true hend; omega)]
    exact .done (fun c hc ↦ nomatch hc)
  · intro d p _
    refine ⟨decide (data.length < d.index) || p.core.hasError, rfl, ?_⟩
    rw [Bool.or_eq_true]
    exact Iff.rfl
  · intro d hd hin
    exact hd.round cfg (Nat.le_of_not_lt (of_decide_eq_false hin))
  · exact ⟨Nat.le_refl 1, Nat.succ_pos _, fun final hfinal ↦ hfinal⟩
  · show data.length + 1 - 1 + 1 < data.length + 2
    omega

end

/-! ## Such sequences are the productions -/

/-- The pseudo attributes that both productions choose from, in their order. -/
def attributesText (version encoding : Option String8) (standalone : Option Bool) :
    Language Character8 :=
  given versionInfo version * (given encodingDecl encoding * (given sdDecl standalone * optionalSpace))

/-- What the data hold beside the position, where these values have been written after `d`. -/
structure Holds (d : XmlDeclarationData) (version encoding : Option String8)
    (standalone : Option Bool) (final : XmlDeclarationData) : Prop where
  version : final.version = version.getD d.version
  encoding : final.encoding = encoding.getD d.encoding
  standalone : final.standalone =
    (standalone.map (XmlDeclarationData.code ∘ some)).getD d.standalone

/-- Where the counter for the order lets the values stand. -/
structure InOrder (external : Bool) (order : Nat) (version encoding : Option String8)
    (standalone : Option Bool) : Prop where
  first : version.isSome = true → order = 0
  second : encoding.isSome = true →
    order < 2 ∧ (external = true ∨ order ≠ 0 ∨ version.isSome = true)
  third : standalone.isSome = true → order < 3 ∧ external = false ∧
    (order ≠ 0 ∨ version.isSome = true ∨ encoding.isSome = true)

section

variable {external : Bool} {d accepted final : XmlDeclarationData} {text part rest : String8}

theorem mem_given_none {β : Type} {L : β → Language Character8} {M : Language Character8} :
    rest ∈ given L none * M ↔ rest ∈ M := by
  unfold given
  rw [one_mul]

theorem mem_given_some {β : Type} {L : β → Language Character8} {M : Language Character8} {b : β}
    (hpart : part ∈ L b) (hrest : rest ∈ given L none * M) : part ++ rest ∈ given L (some b) * M :=
  Language.append_mem_mul hpart (mem_given_none.1 hrest)

theorem mem_quoted {q : Character8} {value : String8} (hquote : isQuote q = true) :
    q :: (value ++ [q]) ∈ quoted value := by
  rcases isQuote_cases hquote with rfl | rfl
  · exact Or.inl ⟨_, ⟨_, rfl, value, rfl, rfl⟩, _, rfl, rfl⟩
  · exact Or.inr ⟨_, ⟨_, rfl, value, rfl, rfl⟩, _, rfl, rfl⟩

/-- What is read between two indices is written as the grammar has it. -/
theorem mem_pseudoAttribute {spaces before after value : String8} {q : Character8}
    {keyword : String} (hspaces : ∀ c ∈ spaces, isXmlSpace c = true) (hne : spaces ≠ [])
    (hbefore : ∀ c ∈ before, isXmlSpace c = true) (hafter : ∀ c ∈ after, isXmlSpace c = true)
    (hquote : isQuote q = true) :
    spaces ++ (str keyword ++ (before ++ ('=' : Character8) :: (after ++ q :: (value ++ [q])))) ∈
      pseudoAttribute keyword value := by
  unfold pseudoAttribute equals
  simp only [mul_assoc]
  refine Language.append_mem_mul (mem_space.2 ⟨hne, hspaces⟩) (Language.append_mem_mul rfl ?_)
  refine Language.append_mem_mul (mem_optionalSpace.2 hbefore) ?_
  exact ⟨_, rfl, _, Language.append_mem_mul (mem_optionalSpace.2 hafter) (mem_quoted hquote), rfl⟩

theorem PseudoAttributes.exists_values (h : PseudoAttributes external d text final)
    (hneeds : d.needsSpace = true ∨ ∃ c u, text = c :: u ∧ isXmlSpace c = true) :
    ∃ version encoding standalone, text ∈ attributesText version encoding standalone ∧
      Holds d version encoding standalone final ∧
      InOrder external d.previousOrder version encoding standalone := by
  induction h with
  | @done d text hspaces =>
    refine ⟨none, none, none, ?_, ⟨rfl, rfl, rfl⟩, ?_⟩
    · unfold attributesText
      rw [mem_given_none, mem_given_none, mem_given_none]
      exact mem_optionalSpace.2 hspaces
    · exact ⟨fun h ↦ (nomatch h), fun h ↦ (nomatch h), fun h ↦ (nomatch h)⟩
  | @next d accepted final spaces keyword before after value rest q hspaces hspace hbefore hafter
      hquote hvalue haccept hrest ih =>
    have htext : spaces ++ (keyword ++
        (before ++ ('=' : Character8) :: (after ++ q :: (value ++ q :: rest)))) =
        (spaces ++ (keyword ++
          (before ++ ('=' : Character8) :: (after ++ q :: (value ++ [q]))))) ++ rest := by
      simp only [List.append_assoc, List.cons_append, List.nil_append]
    have hne : spaces ≠ [] := by
      rcases hneeds with hneeds | ⟨c, u, hcu, hspaceFirst⟩
      · exact hspace hneeds
      · rintro rfl
        obtain ⟨hkeyword, hlatin⟩ := keyword_latin (keyword_cases haccept)
        obtain ⟨e, v, rfl⟩ := List.exists_cons_of_ne_nil hkeyword
        rw [← (List.cons.inj hcu).1, not_isXmlSpace_of_latin (hlatin e List.mem_cons_self)]
          at hspaceFirst
        cases hspaceFirst
    rw [htext]
    rcases XmlDeclarationData.accept_cases haccept with ⟨rfl, hvalid, horder, rfl⟩ |
      ⟨rfl, hvalid, hfirst, horder, rfl⟩ | ⟨b, rfl, rfl, hdocument, hfirst, horder, rfl⟩
    · obtain ⟨version, encoding, standalone, hmem, hholds, hin⟩ := ih (Or.inl rfl)
      have hnone : version = none := by
        cases version with
        | none => rfl
        | some w => cases hin.first rfl
      subst hnone
      refine ⟨some value, encoding, standalone, ?_, ⟨hholds.version, hholds.encoding,
        hholds.standalone⟩, ?_⟩
      · exact mem_given_some ⟨mem_versionNum.2 hvalid,
          mem_pseudoAttribute hspaces hne hbefore hafter hquote⟩ hmem
      · exact ⟨fun _ ↦ horder, fun _ ↦ ⟨by omega, Or.inr (Or.inr rfl)⟩,
          fun h ↦ ⟨by omega, (hin.third h).2.1, Or.inr (Or.inl rfl)⟩⟩
    · obtain ⟨version, encoding, standalone, hmem, hholds, hin⟩ := ih (Or.inl rfl)
      have hnone : version = none := by
        cases version with
        | none => rfl
        | some w => cases hin.first rfl
      have hnone' : encoding = none := by
        cases encoding with
        | none => rfl
        | some w => exact absurd (hin.second rfl).1 (Nat.lt_irrefl 2)
      subst hnone
      subst hnone'
      refine ⟨none, some value, standalone, ?_, ⟨hholds.version, hholds.encoding,
        hholds.standalone⟩, ?_⟩
      · exact mem_given_none.2 (mem_given_some ⟨mem_encName.2 hvalid,
          mem_pseudoAttribute hspaces hne hbefore hafter hquote⟩
          (mem_given_none.1 hmem))
      · refine ⟨fun h ↦ (nomatch h), fun _ ↦ ⟨horder, ?_⟩, fun h ↦ ⟨by omega,
          (hin.third h).2.1, Or.inr (Or.inr rfl)⟩⟩
        exact hfirst.imp_right Or.inl
    · obtain ⟨version, encoding, standalone, hmem, hholds, hin⟩ := ih (Or.inl rfl)
      have hnone : version = none := by
        cases version with
        | none => rfl
        | some w => cases hin.first rfl
      have hnone' : encoding = none := by
        cases encoding with
        | none => rfl
        | some w => exact absurd (hin.second rfl).1 (by show ¬ 3 < 2; omega)
      have hnone'' : standalone = none := by
        cases standalone with
        | none => rfl
        | some w => exact absurd (hin.third rfl).1 (Nat.lt_irrefl 3)
      subst hnone
      subst hnone'
      subst hnone''
      refine ⟨none, none, some b, ?_, ⟨hholds.version, hholds.encoding, hholds.standalone⟩, ?_⟩
      · exact mem_given_none.2 (mem_given_none.2 (mem_given_some
          (mem_pseudoAttribute hspaces hne hbefore hafter hquote)
          (mem_given_none.1 (mem_given_none.1 hmem))))
      · exact ⟨fun h ↦ (nomatch h), fun h ↦ (nomatch h),
          fun _ ↦ ⟨horder, hdocument, Or.inl hfirst⟩⟩

theorem exists_parts_of_pseudoAttribute {keyword : String} {value : String8}
    (h : part ∈ pseudoAttribute keyword value) :
    ∃ spaces before after q, spaces ≠ [] ∧ (∀ c ∈ spaces, isXmlSpace c = true) ∧
      (∀ c ∈ before, isXmlSpace c = true) ∧ (∀ c ∈ after, isXmlSpace c = true) ∧
      isQuote q = true ∧ part = spaces ++ (str keyword ++
        (before ++ ('=' : Character8) :: (after ++ q :: (value ++ [q])))) := by
  obtain ⟨_, ⟨_, ⟨spaces, hspaces, _, rfl, rfl⟩, _, ⟨_, ⟨before, hbefore, _, rfl, rfl⟩, after,
    hafter, rfl⟩, rfl⟩, _, hquoted, rfl⟩ := h
  obtain ⟨hne, hspaces⟩ := mem_space.1 hspaces
  have hparts {q : Character8} (hquote : isQuote q = true) :
      ∃ spaces' before' after' r, spaces' ≠ [] ∧ (∀ c ∈ spaces', isXmlSpace c = true) ∧
        (∀ c ∈ before', isXmlSpace c = true) ∧ (∀ c ∈ after', isXmlSpace c = true) ∧
        isQuote r = true ∧
        spaces ++ str keyword ++ (before ++ str "=" ++ after) ++ ([q] ++ value ++ [q]) =
          spaces' ++ (str keyword ++
            (before' ++ ('=' : Character8) :: (after' ++ r :: (value ++ [r])))) := by
    refine ⟨spaces, before, after, q, hne, hspaces, mem_optionalSpace.1 hbefore,
      mem_optionalSpace.1 hafter, hquote, ?_⟩
    simp [str]
  rcases hquoted with ⟨_, ⟨_, rfl, _, rfl, rfl⟩, _, rfl, rfl⟩ |
    ⟨_, ⟨_, rfl, _, rfl, rfl⟩, _, rfl, rfl⟩
  · exact hparts (q := 34) (by decide)
  · exact hparts (q := 39) (by decide)

/-- A pseudo attribute in front of others. -/
theorem PseudoAttributes.of_part {keyword : String} {value : String8}
    (hpart : part ∈ pseudoAttribute keyword value) (hvalue : ∀ c ∈ value, isQuote c = false)
    (haccept : d.accept external (str keyword) value = some accepted)
    (hrest : PseudoAttributes external accepted rest final) :
    PseudoAttributes external d (part ++ rest) final := by
  obtain ⟨spaces, before, after, q, hne, hspaces, hbefore, hafter, hquote, rfl⟩ :=
    exists_parts_of_pseudoAttribute hpart
  have htext : spaces ++ (str keyword ++
      (before ++ ('=' : Character8) :: (after ++ q :: (value ++ [q])))) ++ rest =
      spaces ++ (str keyword ++
        (before ++ ('=' : Character8) :: (after ++ q :: (value ++ q :: rest)))) := by
    simp only [List.append_assoc, List.cons_append, List.nil_append]
  rw [htext]
  refine .next hspaces (fun _ ↦ hne) hbefore hafter hquote (fun hmem ↦ ?_) haccept hrest
  rw [hvalue q hmem] at hquote
  cases hquote

theorem not_isQuote_of_versionNumber {value : String8} (h : isValidVersionNumber value = true) :
    ∀ c ∈ value, isQuote c = false := by
  have hdigit : ∀ c : Character8, isDigit c = true → isQuote c = false := by
    apply forall_byte
    decide +kernel
  have hstart : ∀ c ∈ str "1.", isQuote c = false := by decide
  obtain ⟨_, rfl, u, hu, rfl⟩ := mem_versionNum.2 h
  have hall : isValidVersionNumber (str "1." ++ u) = true := h
  unfold isValidVersionNumber at hall
  simp only [Bool.and_eq_true, List.all_eq_true] at hall
  intro c hc
  rcases List.mem_append.1 hc with hc | hc
  · exact hstart c hc
  · exact hdigit c (hall.2 c hc)

theorem not_isQuote_of_encodingName {value : String8} (h : isValidEncodingName value = true) :
    ∀ c ∈ value, isQuote c = false := by
  have hbyte : ∀ c : Character8, (isLatinLetter c.toNat || isDigit c || c == '.' || c == '_' ||
      c == '-') = true → isQuote c = false := by
    apply forall_byte
    decide +kernel
  cases value with
  | nil => cases h
  | cons c u =>
    unfold isValidEncodingName at h
    rw [Bool.and_eq_true, List.all_eq_true] at h
    intro e he
    apply hbyte
    rcases List.mem_cons.1 he with rfl | he
    · have hletter : isLatinLetter e.toNat = true := h.1
      rw [hletter]
      rfl
    · exact h.2 e he

theorem not_isQuote_of_answer (b : Bool) :
    ∀ c ∈ str (if b then "yes" else "no"), isQuote c = false := by
  cases b <;> decide

section

variable {version encoding : Option String8} {standalone : Option Bool}

theorem exists_of_standalone
    (hlast : standalone.isSome = true → external = false ∧ d.previousOrder ≠ 0 ∧
      d.previousOrder < 3 ∧ str "standalone" ∉ d.names)
    (h : text ∈ given sdDecl standalone * optionalSpace) :
    ∃ final, PseudoAttributes external d text final ∧ Holds d none none standalone final := by
  cases standalone with
  | none => exact ⟨d, .done (mem_optionalSpace.1 (mem_given_none.1 h)), rfl, rfl, rfl⟩
  | some b =>
    obtain ⟨hexternal, hfirst, horder, hnames⟩ := hlast rfl
    obtain ⟨part, hpart, rest, hrest, rfl⟩ := h
    have haccept : d.accept external (str "standalone") (str (if b then "yes" else "no")) =
        some { d with
          names := d.names ++ [str "standalone"], standalone := XmlDeclarationData.code (some b),
          previousOrder := 3, needsSpace := true } := by
      unfold XmlDeclarationData.accept
      simp only []
      rw [if_neg (by simpa using hnames), if_neg (by decide), if_neg (by decide), if_pos trivial,
        if_neg (by simp [hexternal, hfirst]; omega)]
      cases b <;> rfl
    exact ⟨_, .of_part hpart (not_isQuote_of_answer b) haccept
      (.done (mem_optionalSpace.1 hrest)), rfl, rfl, rfl⟩

theorem exists_of_encoding
    (hsecond : encoding.isSome = true → (external = true ∨ d.previousOrder ≠ 0) ∧
      d.previousOrder < 2 ∧ str "encoding" ∉ d.names)
    (hlast : standalone.isSome = true → external = false ∧
      (d.previousOrder ≠ 0 ∨ encoding.isSome = true) ∧ d.previousOrder < 3 ∧
        str "standalone" ∉ d.names)
    (h : text ∈ given encodingDecl encoding * (given sdDecl standalone * optionalSpace)) :
    ∃ final, PseudoAttributes external d text final ∧ Holds d none encoding standalone final := by
  cases encoding with
  | none =>
    refine exists_of_standalone (fun hsome ↦ ?_) (mem_given_none.1 h)
    obtain ⟨hexternal, hfirst, horder, hnames⟩ := hlast hsome
    exact ⟨hexternal, hfirst.resolve_right (fun h ↦ nomatch h), horder, hnames⟩
  | some value =>
    obtain ⟨hfirst, horder, hnames⟩ := hsecond rfl
    obtain ⟨part, ⟨hvalue, hpart⟩, rest, hrest, rfl⟩ := h
    have hvalid := mem_encName.1 hvalue
    have haccept : d.accept external (str "encoding") value =
        some { d with
          names := d.names ++ [str "encoding"], encoding := value, previousOrder := 2,
          needsSpace := true } := by
      unfold XmlDeclarationData.accept
      simp only []
      rw [if_neg (by simpa using hnames), if_neg (by decide), if_pos trivial, if_neg]
      rintro (⟨hdocument, hzero⟩ | hlate | hinvalid)
      · rcases hfirst with hfirst | hfirst
        · rw [hfirst] at hdocument
          cases hdocument
        · exact hfirst hzero
      · omega
      · rw [hvalid] at hinvalid
        cases hinvalid
    have hnext : ∃ final, PseudoAttributes external { d with
          names := d.names ++ [str "encoding"], encoding := value, previousOrder := 2,
          needsSpace := true } rest final ∧
        Holds { d with
          names := d.names ++ [str "encoding"], encoding := value, previousOrder := 2,
          needsSpace := true } none none standalone final := by
      refine exists_of_standalone (fun hsome ↦ ?_) hrest
      obtain ⟨hexternal, -, -, hstandalone⟩ := hlast hsome
      refine ⟨hexternal, by show 2 ≠ 0; omega, by show 2 < 3; omega, ?_⟩
      rw [List.mem_append, List.mem_singleton, not_or]
      exact ⟨hstandalone, by decide⟩
    obtain ⟨final, hfinal, hholds⟩ := hnext
    exact ⟨final, .of_part hpart (not_isQuote_of_encodingName hvalid) haccept hfinal,
      hholds.version, hholds.encoding, hholds.standalone⟩

/-- What is written in order is read. -/
theorem exists_attributes (h : text ∈ attributesText version encoding standalone)
    (hin : InOrder external 0 version encoding standalone) :
    ∃ final, PseudoAttributes external {} text final ∧
      Holds {} version encoding standalone final := by
  cases version with
  | none =>
    refine exists_of_encoding (fun hsome ↦ ?_) (fun hsome ↦ ?_) (mem_given_none.1 h)
    · obtain ⟨horder, hfirst⟩ := hin.second hsome
      refine ⟨Or.inl ?_, horder, List.not_mem_nil⟩
      rcases hfirst with hfirst | hfirst | hfirst
      · exact hfirst
      · exact absurd rfl hfirst
      · cases hfirst
    · obtain ⟨horder, hexternal, hfirst⟩ := hin.third hsome
      refine ⟨hexternal, Or.inr ?_, horder, List.not_mem_nil⟩
      rcases hfirst with hfirst | hfirst | hfirst
      · exact absurd rfl hfirst
      · cases hfirst
      · exact hfirst
  | some value =>
    obtain ⟨part, ⟨hvalue, hpart⟩, rest, hrest, rfl⟩ := h
    have hvalid := mem_versionNum.1 hvalue
    have haccept : ({} : XmlDeclarationData).accept external (str "version") value =
        some { names := [str "version"], version := value, previousOrder := 1,
               needsSpace := true } := by
      unfold XmlDeclarationData.accept
      simp only []
      rw [if_neg (by decide), if_pos trivial, if_neg (by simp [hvalid])]
      rfl
    have hnext : ∃ final, PseudoAttributes external
          { names := [str "version"], version := value, previousOrder := 1, needsSpace := true }
          rest final ∧
        Holds { names := [str "version"], version := value, previousOrder := 1, needsSpace := true }
          none encoding standalone final := by
      refine exists_of_encoding (fun hsome ↦ ?_) (fun hsome ↦ ?_) hrest
      · exact ⟨Or.inr (by show 1 ≠ 0; omega), by show 1 < 2; omega,
          by show str "encoding" ∉ [str "version"]; decide⟩
      · exact ⟨(hin.third hsome).2.1, Or.inl (by show 1 ≠ 0; omega), by show 1 < 3; omega,
          by show str "standalone" ∉ [str "version"]; decide⟩
    obtain ⟨final, hfinal, hholds⟩ := hnext
    exact ⟨final, .of_part hpart (not_isQuote_of_versionNumber hvalid) haccept hfinal,
      hholds.version, hholds.encoding, hholds.standalone⟩

end

/-- White space in front of the first pseudo attribute is passed over. -/
theorem PseudoAttributes.spaces_iff {gap : String8} (hgap : ∀ c ∈ gap, isXmlSpace c = true)
    (hneeds : d.needsSpace = false) :
    PseudoAttributes external d (gap ++ text) final ↔ PseudoAttributes external d text final := by
  constructor
  · intro h
    generalize hwhole : gap ++ text = whole at h
    cases h with
    | done hspaces =>
      rw [← hwhole] at hspaces
      exact .done fun c hc ↦ hspaces c (List.mem_append_right gap hc)
    | @next _ accepted _ spaces keyword before after value rest q hspaces _ hbefore hafter hquote
        hvalue haccept hrest =>
      rcases List.append_eq_append_iff.1 hwhole with ⟨more, rfl, rfl⟩ | ⟨more, rfl, hmore⟩
      · refine .next (fun c hc ↦ hspaces c (List.mem_append_right gap hc)) ?_ hbefore hafter hquote
          hvalue haccept hrest
        intro h
        rw [hneeds] at h
        cases h
      · -- The gap ends where the keyword begins, which is no white space.
        have hmoreEmpty : more = [] := by
          obtain ⟨hkeyword, hlatin⟩ := keyword_latin (keyword_cases haccept)
          obtain ⟨e, v, rfl⟩ := List.exists_cons_of_ne_nil hkeyword
          cases more with
          | nil => rfl
          | cons c more =>
            have hspace := hgap c (List.mem_append_right spaces List.mem_cons_self)
            rw [← (List.cons.inj hmore).1, not_isXmlSpace_of_latin (hlatin e List.mem_cons_self)]
              at hspace
            cases hspace
        subst hmoreEmpty
        rw [List.nil_append] at hmore
        rw [← hmore, ← List.nil_append (keyword ++ _)]
        refine .next (fun c hc ↦ nomatch hc) ?_ hbefore hafter hquote hvalue haccept hrest
        intro h
        rw [hneeds] at h
        cases h
  · intro h
    cases h with
    | done hspaces =>
      refine .done fun c hc ↦ ?_
      rcases List.mem_append.1 hc with hc | hc
      · exact hgap c hc
      · exact hspaces c hc
    | @next _ accepted _ spaces keyword before after value rest q hspaces hspace hbefore hafter
        hquote hvalue haccept hrest =>
      rw [← List.append_assoc]
      refine .next (fun c hc ↦ ?_) (fun h ↦ ?_) hbefore hafter hquote hvalue haccept hrest
      · rcases List.mem_append.1 hc with hc | hc
        · exact hgap c hc
        · exact hspaces c hc
      · exact List.append_ne_nil_of_right_ne_nil gap (hspace h)

end

/-! ## What is accepted and reported -/

/-- `text` is the declaration of a document or of an external entity with these values, as the event
reports them. -/
def Declares (external : Bool) (text version encoding : String8) (standalone : Int) : Prop :=
  if external then
    standalone = -1 ∧ ∃ v : Option String8, version = v.getD [] ∧ text ∈ textDecl v encoding
  else
    ∃ (e : Option String8) (s : Option Bool), encoding = e.getD [] ∧
      standalone = XmlDeclarationData.code s ∧ text ∈ xmlDecl version e s

theorem mem_declaration {L : Language Character8} {w : String8} :
    str "<?xml" ++ w ++ str "?>" ∈ text "<?xml" * L * text "?>" ↔ w ∈ L := by
  constructor
  · rintro ⟨_, ⟨_, rfl, u, hu, rfl⟩, _, rfl, h⟩
    have h := List.append_cancel_right h
    rwa [← List.append_cancel_left h]
  · exact fun h ↦ ⟨_, ⟨_, rfl, w, h, rfl⟩, _, rfl, rfl⟩

theorem mem_xmlDecl {w version : String8} {e : Option String8} {s : Option Bool} :
    str "<?xml" ++ w ++ str "?>" ∈ xmlDecl version e s ↔ w ∈ attributesText (some version) e s := by
  refine Iff.trans ?_ mem_declaration
  unfold xmlDecl attributesText given
  simp only [mul_assoc]

theorem mem_textDecl {w encoding : String8} {v : Option String8} :
    str "<?xml" ++ w ++ str "?>" ∈ textDecl v encoding ↔
      w ∈ attributesText v (some encoding) none := by
  refine Iff.trans ?_ mem_declaration
  unfold textDecl attributesText given
  simp only [mul_assoc, one_mul]

theorem getD_code (s : Option Bool) :
    (s.map (XmlDeclarationData.code ∘ some)).getD (-1) = XmlDeclarationData.code s := by
  cases s <;> rfl

theorem ne_nil_of_mem_version {w value : String8} {L : Language Character8}
    (h : w ∈ given versionInfo (some value) * L) : value ≠ [] := by
  obtain ⟨part, ⟨hvalue, -⟩, -⟩ := h
  rintro rfl
  cases mem_versionNum.1 hvalue

theorem ne_nil_of_mem_encoding {w value : String8} {L M : Language Character8}
    (h : w ∈ L * (given encodingDecl (some value) * M)) : value ≠ [] := by
  obtain ⟨-, -, -, ⟨part, ⟨hvalue, -⟩, -⟩, -⟩ := h
  rintro rfl
  cases mem_encName.1 hvalue

/-- What the loop accepts, with the test behind it, is a declaration. -/
theorem declares_iff {external : Bool} {gap data version encoding : String8} {standalone : Int}
    (hgap : gap ∈ space) :
    Declares external (str "<?xml" ++ (gap ++ data) ++ str "?>") version encoding standalone ↔
      ∃ final, PseudoAttributes external {} data final ∧ final.version = version ∧
        final.encoding = encoding ∧ final.standalone = standalone ∧
        ((external && final.encoding.isEmpty) || (!external && final.version.isEmpty)) = false := by
  obtain ⟨hgapNe, hgapSpaces⟩ := mem_space.1 hgap
  have hspaces {final : XmlDeclarationData} : PseudoAttributes external {} (gap ++ data) final ↔
      PseudoAttributes external {} data final := PseudoAttributes.spaces_iff hgapSpaces rfl
  have hnonempty {value : String8} (h : value ≠ []) : value.isEmpty = false :=
    Bool.eq_false_iff.2 fun hempty ↦ h (List.isEmpty_iff.1 hempty)
  constructor
  · intro h
    cases external with
    | true =>
      obtain ⟨rfl, v, rfl, hmem⟩ := h
      rw [mem_textDecl] at hmem
      have hin : InOrder true 0 v (some encoding) none :=
        ⟨fun _ ↦ rfl, fun _ ↦ ⟨by omega, Or.inl rfl⟩, fun h ↦ (nomatch h)⟩
      obtain ⟨final, hfinal, hholds⟩ := exists_attributes hmem hin
      have hencoding : final.encoding = encoding := hholds.encoding
      refine ⟨final, hspaces.1 hfinal, hholds.version, hencoding, hholds.standalone, ?_⟩
      rw [hencoding, hnonempty (ne_nil_of_mem_encoding hmem)]
      rfl
    | false =>
      obtain ⟨e, s, rfl, rfl, hmem⟩ := h
      rw [mem_xmlDecl] at hmem
      have hin : InOrder false 0 (some version) e s :=
        ⟨fun _ ↦ rfl, fun _ ↦ ⟨by omega, Or.inr (Or.inr rfl)⟩,
          fun _ ↦ ⟨by omega, rfl, Or.inr (Or.inl rfl)⟩⟩
      obtain ⟨final, hfinal, hholds⟩ := exists_attributes hmem hin
      have hversion : final.version = version := hholds.version
      refine ⟨final, hspaces.1 hfinal, hversion, hholds.encoding,
        hholds.standalone.trans (getD_code s), ?_⟩
      rw [hversion, hnonempty (ne_nil_of_mem_version hmem)]
      rfl
  · rintro ⟨final, hfinal, rfl, rfl, rfl, hcheck⟩
    obtain ⟨c, u, hcu⟩ := List.exists_cons_of_ne_nil hgapNe
    have hfirst : ∃ c u, gap ++ data = c :: u ∧ isXmlSpace c = true :=
      ⟨c, u ++ data, by rw [hcu, List.cons_append], hgapSpaces c (by rw [hcu]; simp)⟩
    obtain ⟨v, e, s, hmem, hholds, hin⟩ := (hspaces.2 hfinal).exists_values (Or.inr hfirst)
    cases external with
    | true =>
      have hs : s = none := by
        cases s with
        | none => rfl
        | some b => cases (hin.third rfl).2.1
      subst hs
      cases e with
      | none =>
        have hempty : final.encoding = [] := hholds.encoding
        rw [hempty] at hcheck
        cases hcheck
      | some value =>
        have hencoding : final.encoding = value := hholds.encoding
        exact ⟨hholds.standalone, v, hholds.version, mem_textDecl.2 (by rwa [hencoding])⟩
    | false =>
      cases v with
      | none =>
        have hempty : final.version = [] := hholds.version
        rw [hempty] at hcheck
        cases hcheck
      | some value =>
        have hversion : final.version = value := hholds.version
        exact ⟨e, s, hholds.encoding, hholds.standalone.trans (getD_code s),
          mem_xmlDecl.2 (by rwa [hversion])⟩

/-- What becomes of the parser when a declaration with these values is accepted. -/
def Parser.declare (p : Parser) (version encoding : String8) (standalone : Int) : Parser :=
  ((p.updateDeclarations fun d ↦ { d with xmlStandalone := standalone }).emit
    (.xmlDeclaration version encoding standalone)).checkHandlerStop

section

variable {external : Bool} {gap data version encoding : String8} {standalone : Int} {p : Parser}

theorem declare_events :
    (p.declare version encoding standalone).view.events =
      p.view.events ++ [.xmlDeclaration version encoding standalone] := by
  unfold Parser.declare
  rw [Parser.checkHandlerStop_events]
  rfl

/-- What follows the loop. -/
theorem run_parseXmlDeclarationData {d : XmlDeclarationData} {q : Parser}
    (hloop : (loop (isDeclarationRead data) (parseXmlDeclarationAttribute external data)
      (data.length + 2) {}).run Parser.routineMachine p = some (d, q)) :
    (parseXmlDeclarationData external data).run Parser.routineMachine p =
      some ((), if q.core.hasError then q
        else if (external && d.encoding.isEmpty) || (!external && d.version.isEmpty) then
          q.setError "invalid xml declaration"
        else q.declare d.version d.encoding d.standalone) := by
  unfold parseXmlDeclarationData
  rw [run_bind]
  refine (congrArg (fun r ↦ Option.bind r _) hloop).trans ?_
  rw [Option.bind_some, run_bind_of_read run_hasError]
  cases hq : q.core.hasError with
  | true => rfl
  | false =>
    cases hcheck : (external && d.encoding.isEmpty) || (!external && d.version.isEmpty) with
    | true => rfl
    | false => rfl

theorem run_of_declares (hgap : gap ∈ space) (hp : p.core.hasError = false)
    (h : Declares external (str "<?xml" ++ (gap ++ data) ++ str "?>") version encoding standalone) :
    (parseXmlDeclarationData external data).run Parser.routineMachine p =
      some ((), p.declare version encoding standalone) := by
  obtain ⟨final, hfinal, rfl, rfl, rfl, hcheck⟩ := (declares_iff hgap).1 h
  obtain ⟨k, hloop⟩ := run_loop_of_attributes hfinal hp
    (RestAt.of_index (Nat.le_refl 1) (Nat.succ_pos data.length)) (n := data.length + 2) (by omega)
  rw [run_parseXmlDeclarationData hloop, hp, if_neg Bool.false_ne_true, hcheck,
    if_neg Bool.false_ne_true]

variable (external data) in
theorem run_declares_or_fails (hgap : gap ∈ space) (hp : p.core.hasError = false) :
    (∃ version encoding standalone,
      Declares external (str "<?xml" ++ (gap ++ data) ++ str "?>") version encoding standalone ∧
        (parseXmlDeclarationData external data).run Parser.routineMachine p =
          some ((), p.declare version encoding standalone)) ∨
      ∃ message, (parseXmlDeclarationData external data).run Parser.routineMachine p =
        some ((), p.setError message) := by
  obtain ⟨d, q, hloop, hend, hread⟩ := recognizes_loop external p.config data p rfl
  have hrun := run_parseXmlDeclarationData hloop
  rcases hend with rfl | ⟨message, rfl⟩
  · have hnone : ¬ q.core.hasError = true := by
      rw [hp]
      exact Bool.false_ne_true
    rw [if_neg hnone] at hrun
    split at hrun
    · exact Or.inr ⟨_, hrun⟩
    · rename_i hcheck
      refine Or.inl ⟨_, _, _, (declares_iff hgap).2 ⟨_, hread hnone, rfl, rfl, rfl, ?_⟩, hrun⟩
      exact Bool.eq_false_iff.2 hcheck
  · rw [if_pos (Parser.setError_hasError p message)] at hrun
    exact Or.inr ⟨message, hrun⟩

end

/-- The data of a declaration are accepted if and only if they are written as the production for the
kind of entity says, and then exactly the written values are reported; anything else is an error. -/
theorem xmlDeclaration_accepted (external : Bool) {gap : String8} (hgap : gap ∈ space)
    (data : String8) {p : Parser} (hp : p.core.hasError = false) :
    (∀ version encoding standalone,
      (parseXmlDeclarationData external data).run Parser.routineMachine p =
          some ((), p.declare version encoding standalone) ↔
        Declares external (str "<?xml" ++ (gap ++ data) ++ str "?>") version encoding standalone) ∧
      ((¬ ∃ version encoding standalone,
          Declares external (str "<?xml" ++ (gap ++ data) ++ str "?>") version encoding standalone) →
        ∃ message, (parseXmlDeclarationData external data).run Parser.routineMachine p =
          some ((), p.setError message)) := by
  constructor
  · intro version encoding standalone
    refine ⟨fun hrun ↦ ?_, run_of_declares hgap hp⟩
    rcases run_declares_or_fails external data hgap hp with
      ⟨version', encoding', standalone', hdeclares, hrun'⟩ | ⟨message, hrun'⟩
    · have hstates := (Prod.mk.inj (Option.some.inj (hrun.symm.trans hrun'))).2
      have hevents := congrArg (fun q : Parser ↦ q.view.events) hstates
      simp only [declare_events, List.append_cancel_left_eq, List.cons.injEq, and_true,
        Event.xmlDeclaration.injEq] at hevents
      obtain ⟨rfl, rfl, rfl⟩ := hevents
      exact hdeclares
    · have hstates := (Prod.mk.inj (Option.some.inj (hrun.symm.trans hrun'))).2
      have hevents := congrArg (fun q : Parser ↦ q.view.events.length) hstates
      simp only [declare_events, Parser.setError_events, List.length_append,
        List.length_singleton] at hevents
      omega
  · intro hnone
    rcases run_declares_or_fails external data hgap hp with
      ⟨version, encoding, standalone, hdeclares, -⟩ | hfails
    · exact absurd ⟨version, encoding, standalone, hdeclares⟩ hnone
    · exact hfails

theorem xmlDeclaration_accepted_version :
    (parseXmlDeclarationData false (str "version='1.0'")).run Parser.routineMachine
        ((Parser.make {} .null).start .document) =
      some ((), ((Parser.make {} .null).start .document).declare (str "1.0") [] (-1)) := by
  have hspace : str " " ∈ space := mem_space.2 (by decide)
  have hnothing : [] ∈ optionalSpace := mem_optionalSpace.2 (fun c hc ↦ nomatch hc)
  have hversion : str " version='1.0'" ∈ pseudoAttribute "version" (str "1.0") :=
    ⟨_, ⟨_, ⟨_, hspace, _, rfl, rfl⟩, _, ⟨_, ⟨_, hnothing, _, rfl, rfl⟩, _, hnothing, rfl⟩, rfl⟩,
      _, Or.inr ⟨_, ⟨_, rfl, _, rfl, rfl⟩, _, rfl, rfl⟩, by decide⟩
  have hwritten : str " version='1.0'" ++ [] ∈ attributesText (some (str "1.0")) none none :=
    mem_given_some ⟨mem_versionNum.2 (by decide), hversion⟩
      (mem_given_none.2 (mem_given_none.2 (mem_given_none.2 hnothing)))
  exact ((xmlDeclaration_accepted false hspace (str "version='1.0'") rfl).1 _ _ _).2
    ⟨none, none, rfl, rfl, mem_xmlDecl.2 hwritten⟩

end Xpact
