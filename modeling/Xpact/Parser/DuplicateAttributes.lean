import Xpact.Grammar.Names
import Xpact.Parser.AttributeNameSets
import Xpact.Parser.AttributeUniqueness
import Xpact.Parser.Normalization
import Xpact.Parser.Recognizers

/-!
# Duplicate attributes

The event-free path keeps the names that it has read, first in a list and then in a table, and
refuses a start tag that repeats one of them.
-/

namespace Xpact

open Library Program Grammar

/-! ## The grammar of the attributes -/

/-- The bytes of a value that holds no reference.  A carriage return is none of them: the ends of
lines are normalized before a tag is parsed. -/
def isPlainValueCharacter (quote c : Character8) : Bool :=
  c != quote && c != '<' && c != '&' && (32 ≤ c.toNat || c.toNat == 9 || c.toNat == 10)

/-- An attribute with this name, and with a value that holds no reference. -/
def plainAttribute (legacy : Bool) (n : String8) : Language Character8 :=
  {w | n ∈ Grammar.name legacy ∧ ∃ e ∈ equals, ∃ quote value, isQuote quote = true ∧
    (∀ c ∈ value, isPlainValueCharacter quote c = true) ∧
      w = n ++ (e ++ quote :: (value ++ [quote]))}

/-- Attributes with these names, from the first one on: they are separated by white space. -/
inductive PlainAttributeList (legacy : Bool) : String8 → List String8 → Prop
  | nil : PlainAttributeList legacy [] []
  | cons {w s v n : String8} {ns : List String8} :
    w ∈ plainAttribute legacy n → s ∈ optionalSpace → (ns ≠ [] → s ≠ []) →
      PlainAttributeList legacy v ns → PlainAttributeList legacy (w ++ (s ++ v)) (n :: ns)

/-- The end of a start tag. -/
def EndsTag (v : String8) : Prop := v.head? = some '>' ∨ v.head? = some '/'

/-! ## The names that have been read -/

/-- `ns` are the names so far, in order; no two of them are equal. -/
structure SeenNames.Holds (seen : SeenNames) (input : String8) (ns : List String8) : Prop where
  count : seen.count = ns.length
  nodup : ns.Nodup
  kept : match seen.nameSet with
    | none => seen.ranges.map (·.text input) = ns ∧ ns.length ≤ 16
    | some set => set.Valid input ∧ (set.names input).Perm ns

/-- A name is a duplicate when it is one of those that have been read. -/
theorem SeenNames.Holds.add {seen : SeenNames} {input : String8} {ns : List String8}
    (h : seen.Holds input ns) (r : NameRange) :
    ((seen.add input r).2 = true ↔ r.text input ∈ ns) ∧
      (r.text input ∉ ns → (seen.add input r).1.Holds input (ns ++ [r.text input])) := by
  have hcount := h.count
  have hnodup (hnew : r.text input ∉ ns) : (ns ++ [r.text input]).Nodup :=
    (List.perm_append_singleton _ _).nodup_iff.2 (List.nodup_cons.2 ⟨hnew, h.nodup⟩)
  have hlength : (ns ++ [r.text input]).length = ns.length + 1 := List.length_append
  have hkept := h.kept
  -- What the table answers, and that it holds the name afterwards.
  have hset {set : AttributeNameRangeSet} (hvalid : set.Valid input)
      (hperm : (set.names input).Perm ns) :
      ((set.hasOrInsert input r).2 = true ↔ r.text input ∈ ns) ∧
        (r.text input ∉ ns → (set.hasOrInsert input r).1.Valid input ∧
          ((set.hasOrInsert input r).1.names input).Perm (ns ++ [r.text input])) := by
    obtain ⟨hnext, hanswer, hnames⟩ := hvalid.hasOrInsert r
    refine ⟨hanswer.trans hperm.mem_iff, fun hnew ↦ ⟨hnext, ?_⟩⟩
    rw [if_neg fun hmem ↦ hnew (hperm.mem_iff.1 hmem)] at hnames
    exact hnames.trans ((hperm.cons _).trans (List.perm_append_singleton _ _).symm)
  unfold SeenNames.add
  cases hnameSet : seen.nameSet with
  | some set =>
    rw [hnameSet] at hkept
    obtain ⟨hanswer, hnext⟩ := hset hkept.1 hkept.2
    refine ⟨hanswer, fun hnew ↦ ⟨?_, hnodup hnew, hnext hnew⟩⟩
    show seen.count + 1 = _
    omega
  | none =>
    rw [hnameSet] at hkept
    dsimp only
    by_cases hfull : seen.count = 16
    · -- The seventeenth name moves all of them to a table.
      rw [if_pos hfull]
      obtain ⟨hvalid, hperm⟩ := AttributeNameRangeSet.make_names (hkept.1 ▸ h.nodup)
      rw [hkept.1] at hperm
      obtain ⟨hanswer, hnext⟩ := hset hvalid hperm
      refine ⟨hanswer, fun hnew ↦ ⟨?_, hnodup hnew, hnext hnew⟩⟩
      show seen.count + 1 = _
      omega
    · rw [if_neg hfull]
      refine ⟨?_, fun hnew ↦ ⟨?_, hnodup hnew, ?_⟩⟩
      · show (seen.ranges.any _) = true ↔ _
        rw [List.any_eq_true, ← hkept.1, List.mem_map]
        refine exists_congr fun other ↦ and_congr_right fun _ ↦ ?_
        unfold inputRangesSame
        rw [beq_iff_eq]
        exact eq_comm
      · show seen.count + 1 = _
        omega
      · show (seen.ranges ++ [r]).map _ = _ ∧ _
        rw [List.map_append, hkept.1]
        exact ⟨rfl, by omega⟩

/-- What ends the reading of attributes with these names, after others. -/
def attributeVerdict (limit : Nat) (seen : List String8) : List String8 → Option String
  | [] => none
  | n :: rest =>
    if limit ≤ seen.length then some "attribute count exceeds limit"
    else if n ∈ seen then some "duplicate attribute"
    else attributeVerdict limit (seen ++ [n]) rest

/-- A duplicate is found among the names that are read. -/
theorem attributeVerdict_eq_iff (limit : Nat) {seen : List String8} (h : seen.Nodup)
    (rest : List String8) :
    attributeVerdict limit seen rest = some "duplicate attribute" ↔
      ¬ ((seen ++ rest).take limit).Nodup := by
  induction rest generalizing seen with
  | nil =>
    rw [List.append_nil]
    exact iff_of_false (fun hnone ↦ nomatch hnone)
      (fun hnot ↦ hnot (h.sublist (List.take_sublist _ _)))
  | cons n rest ih =>
    unfold attributeVerdict
    by_cases hlimit : limit ≤ seen.length
    · rw [if_pos hlimit, List.take_append_of_le_length hlimit]
      exact iff_of_false (by decide) (fun hnot ↦ hnot (h.sublist (List.take_sublist _ _)))
    rw [if_neg hlimit, List.append_cons seen n rest]
    by_cases hmem : n ∈ seen
    · rw [if_pos hmem]
      refine iff_of_true rfl fun hnodup ↦ ?_
      have hsub : (seen ++ [n]).Sublist ((seen ++ [n] ++ rest).take limit) := by
        refine List.IsPrefix.sublist ?_
        rw [List.prefix_take_iff]
        refine ⟨List.prefix_append _ _, ?_⟩
        rw [List.length_append, List.length_singleton]
        omega
      have hboth := hnodup.sublist hsub
      rw [List.nodup_append] at hboth
      exact hboth.2.2 n hmem n (List.mem_singleton_self n) rfl
    · rw [if_neg hmem]
      exact ih ((List.perm_append_singleton _ _).nodup_iff.2 (List.nodup_cons.2 ⟨hmem, h⟩))

/-! ## One attribute -/

section

variable {p : Parser} {input w s v n value : String8} {quote c : Character8} {i k : Nat}

/-- White space or an equals sign ends a name. -/
theorem endsName_of_space (hat : RestAt input i (c :: v)) (hc : isXmlSpace c = true ∨ c = '=') :
    EndsName input i := by
  have hclass : ∀ n < 256, isXmlSpace (UInt8.ofNat n) = true ∨ UInt8.ofNat n = ('=' : Character8) →
      n < 128 ∧ isAsciiNameCode n = false := by decide +kernel
  have hcode := hat.code_eq
  have hthis := hclass c.toNat c.toNat_lt (by rwa [UInt8.ofNat_toNat])
  rw [← hcode] at hthis
  exact .inr ⟨hat.le, hthis⟩

/-- A quote is none of the bytes that continue a character. -/
theorem not_incomplete (hquote : isQuote quote = true)
    (hat : RestAt input i (c :: (value ++ quote :: v))) :
    isIncompleteUtf8SequenceAt input i = false := by
  unfold isIncompleteUtf8SequenceAt
  rw [hat.drop_eq]
  have hnot : ¬ ((value ++ quote :: v).all fun c ↦ isUtf8ContinuationByte c.toNat) = true := by
    intro hall
    have hlast := List.all_eq_true.1 hall quote (List.mem_append_right _ List.mem_cons_self)
    unfold isQuote at hquote
    unfold isUtf8ContinuationByte at hlast
    simp at hquote hlast
    omega
  rw [Bool.eq_false_iff.2 hnot, Bool.and_false]

/-- A value is scanned up to its quote. -/
theorem plainValueFrom_closed (hquote : isQuote quote = true)
    (hvalue : ∀ c ∈ value, isPlainValueCharacter quote c = true)
    (hat : RestAt input i (value ++ quote :: v)) (hk : value.length < k) :
    plainValueFrom input quote k i = .closed (i + value.length) := by
  induction value generalizing i k with
  | nil =>
    obtain ⟨k, rfl⟩ : ∃ m, k = m + 1 := ⟨k - 1, by rw [List.length_nil] at hk; omega⟩
    rw [List.nil_append] at hat
    have hin := hat.le
    unfold plainValueFrom
    rw [if_neg (by omega), hat.item]
    exact if_pos rfl
  | cons c value ih =>
    rw [List.length_cons] at hk
    obtain ⟨k, rfl⟩ : ∃ m, k = m + 1 := ⟨k - 1, by omega⟩
    have hin := hat.le
    have hplain := hvalue c List.mem_cons_self
    unfold isPlainValueCharacter at hplain
    simp only [Bool.and_eq_true, bne_iff_ne, ne_eq, Bool.or_eq_true, decide_eq_true_eq,
      beq_iff_eq] at hplain
    obtain ⟨⟨⟨hend, hangle⟩, hreference⟩, hcode⟩ := hplain
    have hrest := ih (fun d hd ↦ hvalue d (List.mem_cons_of_mem c hd)) hat.cons
      (show value.length < k by omega)
    rw [show i + 1 + value.length = i + (c :: value).length by rw [List.length_cons]; omega]
      at hrest
    unfold plainValueFrom
    rw [if_neg (by omega)]
    dsimp only
    rw [hat.item, if_neg hend, if_neg hangle, if_neg hreference]
    by_cases hascii : c.toNat < 128
    · rw [if_pos (by omega)]
      exact hrest
    · have hbyte := c.toNat_lt
      have hxml : isXmlCharacterCode c.toNat = true := by
        unfold isXmlCharacterCode
        simp
        omega
      rw [if_neg (by omega), if_neg hascii, not_incomplete hquote hat,
        if_neg Bool.false_ne_true, hxml, if_neg (by decide)]
      exact hrest

/-- An attribute is read to its end, and the range of its name is told. -/
theorem run_parseAttributeNoEvents (herror : p.core.hasError = false)
    (hw : w ∈ plainAttribute p.config.usesLegacyNameCharacterRanges n)
    (hat : RestAt input i (w ++ v)) :
    (parseAttributeNoEvents input i).run Parser.routineMachine p =
      some ((i + w.length, (i, i + n.length - 1)), p) := by
  obtain ⟨hname, e, he, quote, value, hquote, hvalue, rfl⟩ := hw
  obtain ⟨before, hbefore, after, hafter, rfl⟩ := Language.mem_mul.1 he
  obtain ⟨front, hfront, mark, rfl, rfl⟩ := Language.mem_mul.1 hbefore
  rw [mem_optionalSpace] at hfront hafter
  have hmark : str "=" = [('=' : Character8)] := by decide
  rw [hmark] at hat ⊢
  simp only [List.append_assoc, List.cons_append, List.nil_append] at hat
  -- The indices behind the name, at the equals sign and at the quote.
  have hbehind := hat.append
  have hequals := hbehind.append
  have hquoteAt := hequals.cons.append
  have hspace := hbehind.skipSpaces hfront (by
    intro c hc
    obtain rfl := Option.some.inj hc
    decide)
  have hspace' := hequals.cons.skipSpaces hafter (by
    intro c hc
    obtain rfl := Option.some.inj hc
    exact isXmlSpace_of_isQuote hquote)
  have hends : EndsName input (i + n.length) := by
    cases front with
    | nil => exact endsName_of_space hbehind (.inr rfl)
    | cons c front => exact endsName_of_space hbehind (.inl (hfront c List.mem_cons_self))
  have hstart := isNameStartCharacter_name hname hat
  have hscan := scanNameFrom_name hname hat hends
  have hclosed := plainValueFrom_closed (k := input.length + 1) hquote hvalue hquoteAt.cons (by
    have hindex := hquoteAt.index
    rw [List.length_cons, List.length_append] at hindex
    have hpos := hquoteAt.pos
    omega)
  unfold parseAttributeNoEvents
  have hin := hequals.le
  have hinQuote := hquoteAt.le
  rw [hstart, Bool.not_true, if_neg Bool.false_ne_true,
    run_bind_of_read (run_scanName_of_scan hscan)]
  dsimp only
  rw [hspace, hspace', hequals.item, hquoteAt.item, hquote, if_neg (by simpa using hin),
    if_neg (by simpa using hinQuote), run_bind_of_read run_hasError, herror,
    if_neg Bool.false_ne_true, hclosed]
  simp only [run_pure, List.length_append, List.length_cons, List.length_nil, Option.some.injEq,
    Prod.mk.injEq, and_true]
  omega

/-- The range of a name shows the name. -/
theorem text_nameRange (hat : RestAt input i (n ++ v)) :
    NameRange.text input (i, i + n.length - 1) = n := by
  have hpos := hat.pos
  unfold NameRange.text inputRange
  dsimp only
  rw [hat.drop, show i + n.length - 1 + 1 - i = n.length by omega, List.take_left]

/-- White space follows an attribute, or the end of the tag. -/
theorem run_skipSpacesBetweenAttributes (hat : RestAt input i (s ++ v))
    (hs : ∀ c ∈ s, isXmlSpace c = true) (hends : ∀ c ∈ v.head?, isXmlSpace c = false)
    (hseparated : s ≠ [] ∨ EndsTag v) :
    (skipSpacesBetweenAttributes input i).run Parser.routineMachine p =
      some (i + s.length, p) := by
  have hskip := hat.skipSpaces hs hends
  unfold skipSpacesBetweenAttributes
  dsimp only
  rw [hskip, if_neg]
  · rfl
  · intro hglued
    have hnil : s = [] := List.length_eq_zero_iff.1 (by omega)
    rw [hnil, List.nil_append] at hat
    rw [hnil, List.length_nil, Nat.add_zero] at hglued
    rcases hseparated.resolve_left (fun hne ↦ hne hnil) with hend | hend
    · obtain ⟨rest, rfl⟩ := List.head?_eq_some_iff.1 hend
      exact hglued.2.2.1 hat.item
    · obtain ⟨rest, rfl⟩ := List.head?_eq_some_iff.1 hend
      exact hglued.2.2.2 hat.item

variable {a : PlainAttributes} {seen : List String8}

/-- A tag with more attributes than the limit is refused. -/
theorem run_plainAttributeStep_of_limit (hlimit : p.config.maxAttributeCount ≤ a.names.count) :
    (plainAttributeStep input a).run Parser.routineMachine p =
      some ({ a with index := input.length + 1 },
        p.setError "attribute count exceeds limit") := by
  unfold plainAttributeStep
  dsimp only
  rw [run_bind_of_read run_config, if_pos hlimit, run_failAt]

/-- An attribute is read; its name is a duplicate, or it is kept. -/
theorem run_plainAttributeStep (herror : p.core.hasError = false)
    (hlimit : ¬ p.config.maxAttributeCount ≤ a.names.count) (hseen : a.names.Holds input seen)
    (hw : w ∈ plainAttribute p.config.usesLegacyNameCharacterRanges n)
    (hs : ∀ c ∈ s, isXmlSpace c = true) (hends : ∀ c ∈ v.head?, isXmlSpace c = false)
    (hseparated : s ≠ [] ∨ EndsTag v) (hat : RestAt input a.index (w ++ (s ++ v))) :
    if n ∈ seen then
      (plainAttributeStep input a).run Parser.routineMachine p =
        some ({ a with index := input.length + 1 }, p.setError "duplicate attribute")
    else
      ∃ names : SeenNames, names.Holds input (seen ++ [n]) ∧
        (plainAttributeStep input a).run Parser.routineMachine p =
          some (⟨a.index + w.length + s.length, names⟩, p) := by
  have hread := run_parseAttributeNoEvents herror hw hat
  have hpos := hat.pos
  have htext : NameRange.text input (a.index, a.index + n.length - 1) = n := by
    obtain ⟨-, e, -, quote, value, -, -, rfl⟩ := hw
    rw [List.append_assoc] at hat
    exact text_nameRange hat
  obtain ⟨hanswer, hkept⟩ := hseen.add (a.index, a.index + n.length - 1)
  rw [htext] at hanswer hkept
  have hnext : ¬ a.index + w.length = 0 := by omega
  -- The step after the attribute has been read.
  have hrun : (plainAttributeStep input a).run Parser.routineMachine p =
      (if (a.names.add input (a.index, a.index + n.length - 1)).2 = true then
        Routine.failAt "duplicate attribute" { a with index := input.length + 1 }
      else do
        let next ← skipSpacesBetweenAttributes input (a.index + w.length)
        return ⟨next, (a.names.add input (a.index, a.index + n.length - 1)).1⟩ :
          Routine PlainAttributes).run Parser.routineMachine p := by
    unfold plainAttributeStep
    dsimp only
    rw [run_bind_of_read run_config, if_neg hlimit, run_bind_of_read hread]
    dsimp only
    rw [if_neg hnext, run_bind_of_read run_hasError, herror, if_neg Bool.false_ne_true]
  by_cases hmem : n ∈ seen
  · rw [if_pos hmem, hrun, if_pos (hanswer.2 hmem), run_failAt]
  · rw [if_neg hmem, hrun, if_neg (fun hduplicate ↦ hmem (hanswer.1 hduplicate)),
      run_bind_of_read (run_skipSpacesBetweenAttributes hat.append hs hends hseparated)]
    exact ⟨_, hkept hmem, rfl⟩

/-! ## All attributes of a tag -/

/-- The first byte of what is left decides whether the attributes are over. -/
theorem endsAttributes_of_endsTag (hat : RestAt input i v) (hends : EndsTag v) :
    endsAttributes input i = true := by
  unfold endsAttributes
  rcases hends with hend | hend
  · obtain ⟨rest, rfl⟩ := List.head?_eq_some_iff.1 hend
    rw [hat.item, beq_self_eq_true, Bool.or_true, Bool.true_or]
  · obtain ⟨rest, rfl⟩ := List.head?_eq_some_iff.1 hend
    rw [hat.item, beq_self_eq_true, Bool.or_true]

theorem endsAttributes_of_name {legacy : Bool} (hn : n ∈ Grammar.name legacy)
    (hat : RestAt input i (n ++ v)) :
    endsAttributes input i = false ∧ isXmlSpace (input.item i) = false := by
  have hstart := isNameStartCharacter_name hn hat
  have hclass : ∀ c : Character8, isNameStartCharacter c = true →
      (c == ('>' : Character8)) = false ∧ (c == ('/' : Character8)) = false := by
    apply forall_byte
    decide +kernel
  obtain ⟨hclose, hslash⟩ := hclass _ hstart
  have hin : ¬ input.length < i := by
    obtain ⟨a, ⟨code, -, -, rfl⟩, b, -, rfl⟩ := Language.mem_mul.1 hn
    have hindex := hat.index
    have hpositive := List.length_pos_iff.2 (utf8Bytes_ne_nil code)
    rw [List.length_append, List.length_append] at hindex
    omega
  unfold endsAttributes
  rw [hclose, hslash, decide_eq_false hin]
  exact ⟨rfl, isXmlSpace_of_nameStart hstart⟩

/-- The attributes behind the first one begin with a name, or the tag ends. -/
theorem PlainAttributeList.head_not_space {legacy : Bool} {ns : List String8} {tail : String8}
    (h : PlainAttributeList legacy w ns) (htail : EndsTag tail) (hat : RestAt input i (w ++ tail)) :
    ∀ c ∈ (w ++ tail).head?, isXmlSpace c = false := by
  intro c hc
  cases h with
  | nil =>
    rw [List.nil_append] at hc
    rcases htail with hend | hend
    · cases hend.symm.trans hc
      decide
    · cases hend.symm.trans hc
      decide
  | cons hw hs hseparated hrest =>
    obtain ⟨hn, e, -, quote, value, -, -, rfl⟩ := hw
    rw [List.append_assoc, List.append_assoc] at hat
    obtain ⟨rest, hrest⟩ := List.head?_eq_some_iff.1 hc
    rw [← (endsAttributes_of_name hn hat).2]
    rw [List.append_assoc, List.append_assoc] at hrest
    rw [hrest] at hat
    rw [hat.item]

theorem run_isOngoing : Routine.isOngoing.run Parser.routineMachine p =
    some (!p.core.hasError && !p.core.isSuspended, p) := rfl

/-- The test of the loop. -/
def attributesOver (input : String8) (a : PlainAttributes) : Routine Bool :=
  return !(← Routine.isOngoing) || a.index == 0 || endsAttributes input a.index

theorem run_attributesOver (p : Parser) (input : String8) (a : PlainAttributes) :
    (attributesOver input a).run Parser.routineMachine p =
    some (!(!p.core.hasError && !p.core.isSuspended) || a.index == 0 ||
      endsAttributes input a.index, p) := rfl

/-- An error ends the loop. -/
theorem run_plainAttributes_of_error {message : String} {b : PlainAttributes}
    (hover : (attributesOver input a).run Parser.routineMachine p = some (false, p))
    (hstep : (plainAttributeStep input a).run Parser.routineMachine p =
      some (b, p.setError message)) :
    (loop (attributesOver input) (plainAttributeStep input) (k + 2) a).run Parser.routineMachine p =
      some (b, p.setError message) := by
  rw [loop, run_bind_of_read hover, if_neg Bool.false_ne_true, run_bind, hstep, Option.bind_some]
  apply run_loop_of_finished
  rw [run_attributesOver, Parser.setError_hasError]
  rfl

/-- The loop reads the attributes up to the verdict. -/
theorem run_plainAttributes {ns : List String8} {tail : String8} (herror : p.core.hasError = false)
    (hsuspended : p.core.isSuspended = false)
    (hw : PlainAttributeList p.config.usesLegacyNameCharacterRanges w ns) (htail : EndsTag tail)
    (hat : RestAt input a.index (w ++ tail)) (hseen : a.names.Holds input seen)
    (hk : input.length + 2 ≤ a.index + k) :
    ∃ b q, (loop (attributesOver input) (plainAttributeStep input) k a).run
        Parser.routineMachine p = some (b, q) ∧
      match attributeVerdict p.config.maxAttributeCount seen ns with
      | none => b.index = a.index + w.length ∧ q = p
      | some message => b.index = input.length + 1 ∧ q = p.setError message := by
  have hindexNe (hpos : 1 ≤ a.index) : (a.index == 0) = false := beq_false_of_ne (by omega)
  induction hw generalizing a seen k with
  | nil =>
    have hindex := hat.index
    obtain ⟨k, rfl⟩ : ∃ m, k = m + 1 := ⟨k - 1, by omega⟩
    have hends := endsAttributes_of_endsTag hat htail
    have hover := run_attributesOver p input a
    rw [hends, Bool.or_true] at hover
    exact ⟨a, p, run_loop_of_finished hover, rfl, rfl⟩
  | @cons w s v n ns hw hs hseparated hrest ih =>
    rw [mem_optionalSpace] at hs
    rw [List.append_assoc, List.append_assoc] at hat
    have hpos := hat.pos
    have hname :
        ∃ rest, w = n ++ rest ∧ n ∈ Grammar.name p.config.usesLegacyNameCharacterRanges := by
      obtain ⟨hn, e, -, quote, value, -, -, rfl⟩ := hw
      exact ⟨_, rfl, hn⟩
    obtain ⟨rest, hsplit, hn⟩ := hname
    have hopen : endsAttributes input a.index = false := by
      rw [hsplit, List.append_assoc] at hat
      exact (endsAttributes_of_name hn hat).1
    have hin : a.index ≤ input.length := by
      by_contra hout
      unfold endsAttributes at hopen
      rw [decide_eq_true (by omega), Bool.true_or, Bool.true_or] at hopen
      cases hopen
    obtain ⟨k, rfl⟩ : ∃ m, k = m + 2 := ⟨k - 2, by omega⟩
    have hover : (attributesOver input a).run Parser.routineMachine p = some (false, p) := by
      rw [run_attributesOver, herror, hsuspended, hindexNe hpos, hopen]
      rfl
    have hcount := hseen.count
    unfold attributeVerdict
    by_cases hlimit : p.config.maxAttributeCount ≤ seen.length
    · rw [if_pos hlimit]
      exact ⟨_, _, run_plainAttributes_of_error hover
        (run_plainAttributeStep_of_limit (by omega)), rfl, rfl⟩
    rw [if_neg hlimit]
    have hbehind := hat.append.append
    have hhead := hrest.head_not_space htail hbehind
    have hgap : s ≠ [] ∨ EndsTag (v ++ tail) := by
      cases hrest with
      | nil => exact .inr htail
      | cons => exact .inl (hseparated (List.cons_ne_nil _ _))
    have hstep := run_plainAttributeStep herror (by omega) hseen hw hs hhead hgap hat
    by_cases hmem : n ∈ seen
    · rw [if_pos hmem] at hstep ⊢
      exact ⟨_, _, run_plainAttributes_of_error hover hstep, rfl, rfl⟩
    · rw [if_neg hmem] at hstep ⊢
      obtain ⟨names, hnames, hstep⟩ := hstep
      have hwidth : 1 ≤ w.length := by
        rw [hsplit, List.length_append]
        obtain ⟨a, ⟨code, -, -, rfl⟩, b, -, rfl⟩ := Language.mem_mul.1 hn
        have hpositive := List.length_pos_iff.2 (utf8Bytes_ne_nil code)
        rw [List.length_append]
        omega
      obtain ⟨b, q, hrun, hverdict⟩ := ih (a := ⟨a.index + w.length + s.length, names⟩) hbehind
        hnames (k := k + 1) (by dsimp only; omega) (fun hpos ↦ beq_false_of_ne (by omega))
      refine ⟨b, q, (run_loop_of_read hover hstep).trans hrun, ?_⟩
      have hlength : (w ++ (s ++ v)).length = w.length + s.length + v.length := by
        rw [List.length_append, List.length_append, Nat.add_assoc]
      rw [hlength]
      revert hverdict
      dsimp only
      cases attributeVerdict p.config.maxAttributeCount (seen ++ [n]) ns with
      | none =>
        intro hverdict
        exact ⟨hverdict.1.trans (by omega), hverdict.2⟩
      | some message => exact id

end

/-- `parse_attributes_no_events` ends with the error of a duplicate attribute. -/
def ReportsDuplicateAttribute (p : Parser) (input : String8) (start : Nat) : Prop :=
  ∃ i q, (parseAttributesNoEvents input start).run Parser.routineMachine p = some (i, q) ∧
    q.core.hasError = true ∧ q.view.lastError = "duplicate attribute"

theorem parseAttributesNoEvents_eq (input : String8) (start : Nat) :
    parseAttributesNoEvents input start = (do
      let a ← loop (attributesOver input) (plainAttributeStep input) (input.length + 2 - start)
        { index := start }
      if a.index = 0 then return 0
      else if ← Routine.isOngoing then return a.index
      else return input.length + 1) := rfl

theorem holds_nil (input : String8) : SeenNames.Holds {} input [] :=
  ⟨rfl, List.nodup_nil, rfl, Nat.zero_le _⟩

/-- A duplicate is reported when it is among the names up to the limit. -/
theorem reportsDuplicateAttribute_iff {p : Parser} {input w tail : String8} {names : List String8}
    {start : Nat} (herror : p.core.hasError = false) (hsuspended : p.core.isSuspended = false)
    (hw : PlainAttributeList p.config.usesLegacyNameCharacterRanges w names) (htail : EndsTag tail)
    (hat : RestAt input start (w ++ tail)) :
    ReportsDuplicateAttribute p input start ↔
      ¬ (names.take p.config.maxAttributeCount).Nodup := by
  obtain ⟨b, q, hloop, hverdict⟩ := run_plainAttributes (a := { index := start })
    (k := input.length + 2 - start) herror hsuspended hw htail hat (holds_nil input)
    (by dsimp only; omega)
  have hduplicate := attributeVerdict_eq_iff p.config.maxAttributeCount List.nodup_nil names
  rw [List.nil_append] at hduplicate
  rw [← hduplicate]
  have hrun : (parseAttributesNoEvents input start).run Parser.routineMachine p =
      (do
        if b.index = 0 then return 0
        else if ← Routine.isOngoing then return b.index
        else return input.length + 1 : Routine Nat).run Parser.routineMachine q := by
    rw [parseAttributesNoEvents_eq, run_bind, hloop, Option.bind_some]
  have hpos := hat.pos
  unfold ReportsDuplicateAttribute
  rw [hrun]
  cases hresult : attributeVerdict p.config.maxAttributeCount [] names with
  | none =>
    rw [hresult] at hverdict
    obtain ⟨hindex, rfl⟩ := hverdict
    rw [if_neg (by dsimp only at hindex; omega), run_bind_of_read run_isOngoing, herror, hsuspended]
    refine iff_of_false ?_ (fun hnone ↦ nomatch hnone)
    rintro ⟨i, q, hdone, hfailed, -⟩
    cases hdone
    rw [herror] at hfailed
    cases hfailed
  | some message =>
    rw [hresult] at hverdict
    obtain ⟨hindex, rfl⟩ := hverdict
    obtain ⟨hfailed, hmessage⟩ := setError_of_ongoing herror message
    rw [if_neg (by omega), run_bind_of_read run_isOngoing, hfailed]
    constructor
    · rintro ⟨i, q, hdone, -, hlast⟩
      cases hdone
      rw [← hlast, hmessage]
    · intro hsame
      exact ⟨_, _, rfl, hfailed, hmessage.trans (Option.some.inj hsame)⟩

/-- Without references in its values, a start tag is refused for a duplicate attribute when two of
its names up to the limit are equal; and after any calls the set of names serves the names that were
inserted, with hashes that stay in range. -/
theorem duplicateAttributes_correct :
    (∀ (p : Parser) (input w tail : String8) (names : List String8) (start : Nat),
      p.core.hasError = false → p.core.isSuspended = false →
      PlainAttributeList p.config.usesLegacyNameCharacterRanges w names → EndsTag tail →
      RestAt input start (w ++ tail) →
        (ReportsDuplicateAttribute p input start ↔
          ¬ (names.take p.config.maxAttributeCount).Nodup)) ∧
    (∀ (input : String8) (k : Nat) (ranges : List NameRange),
      ((AttributeNameRangeSet.empty k).insertAll input ranges).Serves input ranges) ∧
    (∀ (input : String8) (ranges : List NameRange), ∃ k,
      AttributeNameRangeSet.make input ranges =
        (AttributeNameRangeSet.empty k).insertAll input ranges) ∧
    ∀ (text : String8) (c : Character8), rangeHash text < 2 ^ 32 ∧
      (rangeHash text ^^^ c.toNat) * 16777619 < 2 ^ 64 :=
  ⟨fun _ _ _ _ _ _ herror hsuspended hw htail hat ↦
      reportsDuplicateAttribute_iff herror hsuspended hw htail hat,
    AttributeNameRangeSet.serves_insertAll, AttributeNameRangeSet.make_eq,
    fun text c ↦ ⟨rangeHash_lt text, rangeHash_step_lt text c⟩⟩

/-- The attributes `a="" a=""`. -/
theorem plainAttributeList_twice :
    PlainAttributeList false (str "a=\"\" a=\"\"") [str "a", str "a"] := by
  have hletter : str "a" ∈ character (isNameStartCode false) :=
    ⟨97, by decide, by decide, by decide⟩
  have hname : str "a" ∈ Grammar.name false :=
    Language.append_mem_mul hletter (Language.nil_mem_kstar _)
  have hnone : ([] : String8) ∈ optionalSpace := Or.inl rfl
  have hmark : str "=" ∈ text "=" := Set.mem_singleton _
  have hfront : str "=" ∈ optionalSpace * text "=" := Language.append_mem_mul hnone hmark
  have hequals : str "=" ∈ equals := Language.append_mem_mul hfront hnone
  have hattribute : str "a=\"\"" ∈ plainAttribute false (str "a") :=
    ⟨hname, str "=", hequals, 34, [], by decide, fun c hc ↦ absurd hc List.not_mem_nil, by decide⟩
  have hspace : str " " ∈ optionalSpace := mem_optionalSpace.2 (by decide)
  exact .cons hattribute hspace (fun _ ↦ by decide)
    (.cons hattribute hnone (fun hne ↦ absurd rfl hne) .nil)

theorem restAt_twice :
    RestAt (str "a=\"\" a=\"\"/>") 1 (str "a=\"\" a=\"\"" ++ str "/>") :=
  ⟨Nat.le_refl 1, rfl, rfl⟩

theorem duplicateAttributes_correct_twice :
    (ReportsDuplicateAttribute (Parser.make {} .null) (str "a=\"\" a=\"\"/>") 1 ↔
      ¬ ([str "a", str "a"].take 1024).Nodup) ∧
      ((AttributeNameRangeSet.empty 0).insertAll (str "a=\"\" a=\"\"/>") [(1, 1), (6, 6)]).Serves
        (str "a=\"\" a=\"\"/>") [(1, 1), (6, 6)] :=
  ⟨duplicateAttributes_correct.1 (Parser.make {} .null) _ _ (str "/>") _ 1 rfl rfl
      plainAttributeList_twice (Or.inr rfl) restAt_twice,
    duplicateAttributes_correct.2.1 _ 0 _⟩

/-- A duplicate behind the limit is not reported. -/
theorem duplicateAttributes_limited :
    ¬ ∀ (p : Parser) (input w tail : String8) (names : List String8) (start : Nat),
      p.core.hasError = false → p.core.isSuspended = false →
      PlainAttributeList p.config.usesLegacyNameCharacterRanges w names → EndsTag tail →
      RestAt input start (w ++ tail) →
        (ReportsDuplicateAttribute p input start ↔ ¬ names.Nodup) := by
  intro h
  have hreports := (h (Parser.make { maxAttributeCount := 1 } .null) _ _ (str "/>") _ 1 rfl rfl
    plainAttributeList_twice (Or.inr rfl) restAt_twice).2 (by decide)
  rw [reportsDuplicateAttribute_iff rfl rfl plainAttributeList_twice (Or.inr rfl) restAt_twice]
    at hreports
  exact hreports (by decide)

end Xpact
