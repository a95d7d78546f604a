import Xpact.Text.Searching

/-!
# Waiting for the end of a token

With reparse deferral the native parser keeps the callbacks of an unfinished token back.  It looks
for the end of the token where the last search stopped, with the quote that was open there.
-/

namespace Xpact.Native

/-! ## The search -/

/-- The `deferred_reparse_…` attributes; no open quote is `'%U'` in the source. -/
structure DeferredReparse where
  startIndex : Nat
  endIndex : Nat := 0
  scanIndex : Nat := 0
  quote : Option Character8 := none
  deriving DecidableEq

/-- Does the deferred token look like a normal start tag? -/
def isDeferredStartTagPrefix (input : String8) (start : Nat) : Bool :=
  input.item start == '<' && start + 1 ≤ input.length && input.item (start + 1) != '/' &&
    input.item (start + 1) != '!' && input.item (start + 1) != '?'

/-- What the loop of `incremental_deferred_start_tag_end` leaves behind. -/
structure TagScan where
  close : Nat
  index : Nat
  quote : Option Character8
  deriving DecidableEq

/-- The loop over the bytes that were not checked before. -/
def scanDeferredTag : Option Character8 → String8 → Nat → TagScan
  | quote, [], i => { close := 0, index := i, quote := quote }
  | some q, c :: rest, i => scanDeferredTag (if c = q then none else some q) rest (i + 1)
  | none, c :: rest, i =>
    if isQuote c then scanDeferredTag (some c) rest (i + 1)
    else if c = '>' then { close := i, index := i + 1, quote := none }
    else scanDeferredTag none rest (i + 1)

/-- End index of the deferred start tag, and what is saved for the next call. -/
def incrementalDeferredStartTagEnd (input : String8) (r : DeferredReparse) :
    Nat × DeferredReparse :=
  let r :=
    if r.scanIndex ≤ r.startIndex then { r with scanIndex := r.startIndex + 1, quote := none }
    else r
  let scan := scanDeferredTag r.quote (input.drop (r.scanIndex - 1)) r.scanIndex
  (scan.close, { r with scanIndex := scan.index, quote := scan.quote })

/-- `l_content_start` and `l_terminator`: where the body of the token begins and what ends it. -/
def deferredTerminator (input : String8) (start : Nat) : Option (Nat × String8) :=
  if start + 3 ≤ input.length ∧ input.substring start (start + 3) = str "<!--" then
    some (start + 4, str "-->")
  else if start + 8 ≤ input.length ∧ input.substring start (start + 8) = str "<![CDATA[" then
    some (start + 9, str "]]>")
  else if start + 1 ≤ input.length ∧ input.substring start (start + 1) = str "<?" then
    some (start + 2, str "?>")
  else
    none

/-- End index of the deferred comment, CDATA section or PI, and what is saved. -/
def incrementalDeferredMarkupEnd (input : String8) (r : DeferredReparse) : Nat × DeferredReparse :=
  match deferredTerminator input r.startIndex with
  | some (contentStart, terminator) =>
    let found := findSequence input terminator (max r.scanIndex contentStart)
    if 0 < found then
      (found + terminator.length - 1, r)
    else
      -- A terminator may begin in the last bytes and end in the next chunk.
      (0, { r with scanIndex := max (input.length + 2 - terminator.length) contentStart })
  | none => (markupPrefixEnd input r.startIndex, r)

/-- What `should_defer_reparse_callbacks` does to find the end of the deferred token. -/
def DeferredReparse.findEnd (input : String8) (r : DeferredReparse) : Nat × DeferredReparse :=
  if 0 < r.endIndex then
    (r.endIndex, r)
  else
    let found :=
      if isDeferredStartTagPrefix input r.startIndex then incrementalDeferredStartTagEnd input r
      else incrementalDeferredMarkupEnd input r
    (found.1, { found.2 with endIndex := found.1 })

/-- The ends found after some chunks, each asked when its bytes have been appended. -/
structure DeferredRun where
  input : String8
  reparse : DeferredReparse
  found : Nat := 0

def DeferredRun.feed (r : DeferredRun) (chunk : String8) : DeferredRun :=
  let answer := r.reparse.findEnd (r.input ++ chunk)
  { input := r.input ++ chunk, reparse := answer.2, found := answer.1 }

/-- The token begins right after `before`. -/
def deferredRun (before : String8) (chunks : List String8) : DeferredRun :=
  chunks.foldl (·.feed) { input := before, reparse := { startIndex := before.length + 1 } }

/-! ## The tokens -/

/-- How comments, CDATA sections and processing instructions begin and end. -/
def deferredDelimiters : List (String8 × String8) :=
  [(str "<!--", str "-->"), (str "<![CDATA[", str "]]>"), (str "<?", str "?>")]

/-- The bytes from a deferred token on; the opener itself may still be incomplete. -/
inductive DeferredToken : String8 → Prop
  | startTag {c : Character8} (rest : String8) (hstart : isNameStartCharacter c = true) :
    DeferredToken ('<' :: c :: rest)
  | marked {opener closer bytes : String8} (hmarks : (opener, closer) ∈ deferredDelimiters)
    (hopens : opener <+: bytes ∨ bytes <+: opener) : DeferredToken bytes

/-! ## The bytes from the token on -/

theorem drop_token (before bytes : String8) (k : Nat) :
    (before ++ bytes).drop (before.length + k) = bytes.drop k := by
  rw [List.drop_append, List.drop_eq_nil_of_le (by omega), List.nil_append,
    show before.length + k - before.length = k by omega]

theorem hasAt_token (before bytes marker : String8) :
    hasAt (before ++ bytes) (before.length + 1) marker = marker.isPrefixOf bytes := by
  unfold hasAt
  rw [show before.length + 1 - 1 = before.length + 0 by omega, drop_token, List.drop_zero]

theorem findSequence_token (before bytes marker : String8) (k : Nat) :
    findSequence (before ++ bytes) marker (before.length + 1 + k) =
      findSequenceIn marker (bytes.drop k) (before.length + 1 + k) := by
  unfold findSequence
  rw [show before.length + 1 + k - 1 = before.length + k by omega, drop_token]

theorem item_token (before bytes : String8) (k : Nat) :
    String8.item (before ++ bytes) (before.length + 1 + k) = bytes.getD k 0 := by
  unfold String8.item
  rw [show before.length + 1 + k - 1 = before.length + k by omega, List.getD_eq_getElem?_getD,
    List.getD_eq_getElem?_getD, List.getElem?_append_right (by omega),
    show before.length + k - before.length = k by omega]

/-- The substring test of the source is the test for a marker. -/
theorem substring_eq_iff_isPrefixOf (before bytes : String8) {marker : String8} {k : Nat}
    (hk : marker.length = k + 1) :
    (before.length + 1 + k ≤ (before ++ bytes).length ∧
      String8.substring (before ++ bytes) (before.length + 1) (before.length + 1 + k) = marker) ↔
      marker.isPrefixOf bytes = true := by
  unfold String8.substring
  rw [List.isPrefixOf_iff_prefix, List.length_append,
    show before.length + 1 - 1 = before.length + 0 by omega, drop_token, List.drop_zero,
    show before.length + 1 + k + 1 - (before.length + 1) = marker.length by omega]
  constructor
  · intro h
    rw [if_pos (by omega)] at h
    rw [← h.2]
    exact List.take_prefix _ _
  · intro h
    have hle := h.length_le
    rw [if_pos (by omega)]
    exact ⟨by omega, (List.prefix_iff_eq_take.1 h).symm⟩

theorem markupPrefixEnd_token (before bytes : String8) :
    markupPrefixEnd (before ++ bytes) (before.length + 1) =
      let closing (closer : String8) (k : Nat) : Nat :=
        let close := findSequenceIn closer (bytes.drop k) (before.length + 1 + k)
        if 0 < close then close + (closer.length - 1) else 0
      if (str "<!--").isPrefixOf bytes then closing (str "-->") 4
      else if (str "<![CDATA[").isPrefixOf bytes then closing (str "]]>") 9
      else if (str "<!DOCTYPE").isPrefixOf bytes then
        findDoctypeEnd (before ++ bytes) (before.length + 1)
      else if (str "<?").isPrefixOf bytes then closing (str "?>") 2
      else findMarkupDeclarationEnd (before ++ bytes) (before.length + 1) := by
  unfold markupPrefixEnd
  simp only [hasAt_token, findSequence_token]
  rfl

theorem findMarkupDeclarationEnd_token (before bytes : String8) :
    findMarkupDeclarationEnd (before ++ bytes) (before.length + 1) =
      findMarkupEndIn none (bytes.drop 2)
        (min (before.length + 3) (before.length + bytes.length + 1)) := by
  have hdrop (i : Nat) (hi : before.length < i) :
      (before ++ bytes).drop (i - 1) = bytes.drop (i - (before.length + 1)) := by
    rw [show i - 1 = before.length + (i - (before.length + 1)) by omega, drop_token]
  have hindex : min (before.length + 1 + 2) ((before ++ bytes).length + 1) =
      min (before.length + 3) (before.length + bytes.length + 1) := by
    rw [List.length_append]
  unfold findMarkupDeclarationEnd
  simp only [hindex]
  rw [hdrop _ (by omega)]
  by_cases hlong : 2 ≤ bytes.length
  · rw [show min (before.length + 3) (before.length + bytes.length + 1) - (before.length + 1) = 2
      by omega]
  · -- A prefix may end within the first two bytes; there is nothing to scan then.
    rw [List.drop_eq_nil_of_le (by omega), List.drop_eq_nil_of_le (by omega)]

/-- Text that begins with no other markup is scanned to the first unquoted `>`. -/
theorem markupPrefixEnd_unmarked (before : String8) {bytes : String8}
    (hunmarked : ∀ marker ∈ [str "<!--", str "<![CDATA[", str "<!DOCTYPE", str "<?"],
      ¬ marker <+: bytes) :
    markupPrefixEnd (before ++ bytes) (before.length + 1) =
      findMarkupEndIn none (bytes.drop 2)
        (min (before.length + 3) (before.length + bytes.length + 1)) := by
  simp only [List.forall_mem_cons, ← List.isPrefixOf_iff_prefix] at hunmarked
  rw [markupPrefixEnd_token]
  simp only []
  rw [if_neg hunmarked.1, if_neg hunmarked.2.1, if_neg hunmarked.2.2.1, if_neg hunmarked.2.2.2.1,
    findMarkupDeclarationEnd_token]

theorem deferredTerminator_token (before bytes : String8) :
    deferredTerminator (before ++ bytes) (before.length + 1) =
      if (str "<!--").isPrefixOf bytes then some (before.length + 5, str "-->")
      else if (str "<![CDATA[").isPrefixOf bytes then some (before.length + 10, str "]]>")
      else if (str "<?").isPrefixOf bytes then some (before.length + 3, str "?>")
      else none := by
  unfold deferredTerminator
  simp only [substring_eq_iff_isPrefixOf before bytes (show (str "<!--").length = 3 + 1 from rfl),
    substring_eq_iff_isPrefixOf before bytes (show (str "<![CDATA[").length = 8 + 1 from rfl),
    substring_eq_iff_isPrefixOf before bytes (show (str "<?").length = 1 + 1 from rfl)]

theorem incrementalDeferredMarkupEnd_unmarked (before : String8) {bytes : String8}
    (hunmarked : ∀ marker ∈ [str "<!--", str "<![CDATA[", str "<!DOCTYPE", str "<?"],
      ¬ marker <+: bytes) {r : DeferredReparse} (hstart : r.startIndex = before.length + 1) :
    incrementalDeferredMarkupEnd (before ++ bytes) r =
      (markupPrefixEnd (before ++ bytes) (before.length + 1), r) := by
  simp only [List.forall_mem_cons, ← List.isPrefixOf_iff_prefix] at hunmarked
  unfold incrementalDeferredMarkupEnd
  rw [hstart, deferredTerminator_token, if_neg hunmarked.1, if_neg hunmarked.2.1,
    if_neg hunmarked.2.2.2.1]

theorem isDeferredStartTagPrefix_eq_false (before : String8) {bytes : String8}
    (hmarkup : bytes.length < 2 ∨ bytes.getD 1 0 = '!' ∨ bytes.getD 1 0 = '?') :
    isDeferredStartTagPrefix (before ++ bytes) (before.length + 1) = false := by
  have hsecond : String8.item (before ++ bytes) (before.length + 1 + 1) = bytes.getD 1 0 :=
    item_token before bytes 1
  unfold isDeferredStartTagPrefix
  rw [hsecond, List.length_append]
  rcases hmarkup with hshort | hbang | hquery
  · rw [decide_eq_false (by omega)]
    simp
  · rw [hbang]
    simp
  · rw [hquery]
    simp

/-! ## Start tags -/

theorem scanDeferredTag_close (quote : Option Character8) (text : String8) (i : Nat) :
    (scanDeferredTag quote text i).close = findMarkupEndIn quote text i := by
  induction text generalizing quote i with
  | nil => cases quote <;> rfl
  | cons c rest ih =>
    cases quote with
    | some q => exact ih _ _
    | none =>
      unfold scanDeferredTag findMarkupEndIn
      split
      · exact ih _ _
      split
      · rfl
      · exact ih _ _

theorem scanDeferredTag_cons (c : Character8) (rest : String8) (i : Nat) :
    scanDeferredTag none (c :: rest) i =
      if isQuote c then scanDeferredTag (some c) rest (i + 1)
      else if c = '>' then { close := i, index := i + 1, quote := none }
      else scanDeferredTag none rest (i + 1) := rfl

/-- A scan that found no end has read everything. -/
theorem scanDeferredTag_index {quote : Option Character8} {text : String8} {i : Nat} (hi : 0 < i)
    (h : (scanDeferredTag quote text i).close = 0) :
    (scanDeferredTag quote text i).index = i + text.length := by
  induction text generalizing quote i with
  | nil => cases quote <;> rfl
  | cons c rest ih =>
    have hnext {quote : Option Character8} (h : (scanDeferredTag quote rest (i + 1)).close = 0) :
        (scanDeferredTag quote rest (i + 1)).index = i + (c :: rest).length := by
      rw [ih (by omega) h, List.length_cons]
      omega
    cases quote with
    | some q => exact hnext h
    | none =>
      rw [scanDeferredTag_cons] at h ⊢
      split
      · rename_i hquote
        rw [if_pos hquote] at h
        exact hnext h
      rename_i hquote
      rw [if_neg hquote] at h
      split
      · rename_i hend
        rw [if_pos hend] at h
        exact absurd h (by show i ≠ 0; omega)
      · rename_i hend
        rw [if_neg hend] at h
        exact hnext h

/-- The saved index and quote are all that a later scan needs. -/
theorem scanDeferredTag_append {quote : Option Character8} {text : String8} {i : Nat} (hi : 0 < i)
    (h : (scanDeferredTag quote text i).close = 0) (more : String8) :
    scanDeferredTag quote (text ++ more) i =
      scanDeferredTag (scanDeferredTag quote text i).quote more (i + text.length) := by
  induction text generalizing quote i with
  | nil => cases quote <;> rfl
  | cons c rest ih =>
    have hnext {quote : Option Character8} (h : (scanDeferredTag quote rest (i + 1)).close = 0) :
        scanDeferredTag quote (rest ++ more) (i + 1) =
          scanDeferredTag (scanDeferredTag quote rest (i + 1)).quote more
            (i + (c :: rest).length) := by
      rw [ih (by omega) h, List.length_cons, show i + 1 + rest.length = i + (rest.length + 1) by
        omega]
    rw [List.cons_append]
    cases quote with
    | some q => exact hnext h
    | none =>
      rw [scanDeferredTag_cons] at h
      rw [scanDeferredTag_cons, scanDeferredTag_cons]
      by_cases hquote : isQuote c = true
      · rw [if_pos hquote] at h
        rw [if_pos hquote, if_pos hquote]
        exact hnext h
      rw [if_neg hquote] at h
      rw [if_neg hquote, if_neg hquote]
      by_cases hend : c = '>'
      · rw [if_pos hend] at h
        exact absurd h (by show i ≠ 0; omega)
      · rw [if_neg hend] at h
        rw [if_neg hend, if_neg hend]
        exact hnext h

theorem nameStart_ne {c d : Character8} (hstart : isNameStartCharacter c = true)
    (hd : isNameStartCharacter d = false) : c ≠ d := by
  intro h
  rw [h, hd] at hstart
  cases hstart

theorem markupPrefixEnd_startTag (before rest : String8) {c : Character8}
    (hstart : isNameStartCharacter c = true) :
    markupPrefixEnd (before ++ (('<' : Character8) :: c :: rest)) (before.length + 1) =
      findMarkupEndIn none rest (before.length + 3) := by
  have hbang := nameStart_ne hstart (show isNameStartCharacter '!' = false by decide)
  have hquery := nameStart_ne hstart (show isNameStartCharacter '?' = false by decide)
  rw [markupPrefixEnd_unmarked, List.length_cons, List.length_cons, List.drop_succ_cons,
    List.drop_succ_cons, List.drop_zero,
    show min (before.length + 3) (before.length + (rest.length + 1 + 1) + 1) =
      before.length + 3 by omega]
  -- The second byte of every other opener is `!` or `?`.
  intro marker hmarker hopens
  obtain ⟨tail, htail⟩ := hopens
  simp only [List.mem_cons, List.not_mem_nil, or_false] at hmarker
  rcases hmarker with rfl | rfl | rfl | rfl
  · exact hbang (List.cons.inj (List.cons.inj htail).2).1.symm
  · exact hbang (List.cons.inj (List.cons.inj htail).2).1.symm
  · exact hbang (List.cons.inj (List.cons.inj htail).2).1.symm
  · exact hquery (List.cons.inj (List.cons.inj htail).2).1.symm

theorem isDeferredStartTagPrefix_startTag (before rest : String8) {c : Character8}
    (hstart : isNameStartCharacter c = true) :
    isDeferredStartTagPrefix (before ++ (('<' : Character8) :: c :: rest)) (before.length + 1) = true := by
  have hfirst : String8.item (before ++ (('<' : Character8) :: c :: rest)) (before.length + 1) = '<' :=
    item_token before _ 0
  have hsecond : String8.item (before ++ (('<' : Character8) :: c :: rest)) (before.length + 1 + 1) = c :=
    item_token before _ 1
  have hslash := nameStart_ne hstart (show isNameStartCharacter '/' = false by decide)
  have hbang := nameStart_ne hstart (show isNameStartCharacter '!' = false by decide)
  have hquery := nameStart_ne hstart (show isNameStartCharacter '?' = false by decide)
  have hinside : before.length + 1 < (before ++ (('<' : Character8) :: c :: rest)).length := by
    rw [List.length_append, List.length_cons, List.length_cons]
    omega
  unfold isDeferredStartTagPrefix
  rw [hfirst, hsecond]
  rw [Bool.and_eq_true, Bool.and_eq_true, Bool.and_eq_true, Bool.and_eq_true, bne_iff_ne,
    bne_iff_ne, bne_iff_ne, decide_eq_true_iff]
  exact ⟨⟨⟨⟨beq_self_eq_true _, hinside⟩, hslash⟩, hbang⟩, hquery⟩

theorem unmarked_of_short {bytes : String8} (hshort : bytes.length < 2) :
    ∀ marker ∈ [str "<!--", str "<![CDATA[", str "<!DOCTYPE", str "<?"], ¬ marker <+: bytes := by
  have hlong : ∀ marker ∈ [str "<!--", str "<![CDATA[", str "<!DOCTYPE", str "<?"],
      2 ≤ marker.length := by decide
  intro marker hmarker hopens
  have := hopens.length_le
  have := hlong marker hmarker
  omega

/-- The first byte alone does not show what the token is. -/
theorem markupPrefixEnd_short (before : String8) {bytes : String8} (hshort : bytes.length < 2) :
    markupPrefixEnd (before ++ bytes) (before.length + 1) = 0 := by
  rw [markupPrefixEnd_unmarked before (unmarked_of_short hshort),
    List.drop_eq_nil_of_le (by omega)]
  rfl

theorem findEnd_fst (input : String8) (r : DeferredReparse) :
    (r.findEnd input).1 = (r.findEnd input).2.endIndex := by
  unfold DeferredReparse.findEnd
  split <;> rfl

/-- What is saved of a start tag when the bytes up to now have been scanned. -/
structure SavedTag (before bytes : String8) (r : DeferredReparse) : Prop where
  start : r.startIndex = before.length + 1
  ends : r.endIndex = markupPrefixEnd (before ++ bytes) (before.length + 1)
  /-- Nothing is saved yet, or the scan stopped after the last byte. -/
  unfinished : r.endIndex = 0 → r.scanIndex = 0 ∨
    ∃ (c : Character8) (rest : String8), bytes = ('<' : Character8) :: c :: rest ∧
      r.scanIndex = before.length + 3 + rest.length ∧
      r.quote = (scanDeferredTag none rest (before.length + 3)).quote

/-- Whatever is saved, the search finds what a search of the whole tag finds. -/
theorem incrementalDeferredStartTagEnd_eq {before bytes rest more : String8} {c : Character8}
    (hstart : isNameStartCharacter c = true)
    (hbytes : ('<' : Character8) :: c :: rest = bytes ++ more) {r : DeferredReparse}
    (hsaved : SavedTag before bytes r) (hopen : r.endIndex = 0) :
    let scan := scanDeferredTag none rest (before.length + 3)
    incrementalDeferredStartTagEnd (before ++ (('<' : Character8) :: c :: rest)) r =
      (scan.close, { r with scanIndex := scan.index, quote := scan.quote }) := by
  have hquote : ¬ isQuote c = true := by
    intro h
    unfold isQuote at h
    simp only [Bool.or_eq_true, beq_iff_eq] at h
    rcases h with h | h <;>
    · simp [isNameStartCharacter, h] at hstart
  have hend : c ≠ '>' := nameStart_ne hstart (by decide)
  unfold incrementalDeferredStartTagEnd
  rw [hsaved.start]
  rcases hsaved.unfinished hopen with hnew | ⟨d, seen, hseen, hindex, hkept⟩
  · -- The first scan also reads the name's first character.
    rw [hnew, if_pos (by omega)]
    simp only []
    rw [show before.length + 1 + 1 - 1 = before.length + 1 by omega, drop_token,
      List.drop_succ_cons, List.drop_zero, scanDeferredTag_cons, if_neg hquote, if_neg hend]
  · rw [hseen, List.cons_append, List.cons_append] at hbytes
    obtain ⟨rfl, rfl⟩ := List.cons.inj (List.cons.inj hbytes).2
    have hnone : (scanDeferredTag none seen (before.length + 3)).close = 0 := by
      rw [scanDeferredTag_close, ← markupPrefixEnd_startTag before seen hstart, ← hseen,
        ← hsaved.ends, hopen]
    rw [hindex, if_neg (by omega)]
    simp only []
    rw [hkept, hindex, show before.length + 3 + seen.length - 1 = before.length + (2 + seen.length)
      by omega, drop_token, ← List.drop_drop]
    simp only [List.drop_succ_cons, List.drop_zero, List.drop_left]
    rw [scanDeferredTag_append (by omega) hnone, hsaved.start]

theorem SavedTag.findEnd {before bytes chunk tail : String8} {c : Character8}
    (hstart : isNameStartCharacter c = true)
    (htoken : bytes ++ chunk <+: ('<' : Character8) :: c :: tail) {r : DeferredReparse}
    (hsaved : SavedTag before bytes r) :
    SavedTag before (bytes ++ chunk) (r.findEnd (before ++ (bytes ++ chunk))).2 := by
  have hshape {text : String8} (h : text <+: ('<' : Character8) :: c :: tail) :
      text.length < 2 ∨ ∃ rest, text = ('<' : Character8) :: c :: rest := by
    match text, h with
    | [], _ => exact Or.inl (by simp)
    | [_], _ => exact Or.inl (by simp)
    | a :: b :: rest, h =>
      rw [List.cons_prefix_cons, List.cons_prefix_cons] at h
      exact Or.inr ⟨rest, by rw [h.1, h.2.1]⟩
  by_cases hopen : r.endIndex = 0
  · unfold DeferredReparse.findEnd
    rw [if_neg (by omega)]
    simp only []
    rw [hsaved.start]
    rcases hshape htoken with hshort | ⟨rest, hrest⟩
    · have hnew : r.scanIndex = 0 := by
        rcases hsaved.unfinished hopen with hnew | ⟨d, seen, hseen, -, -⟩
        · exact hnew
        · rw [hseen] at hshort
          exact absurd hshort (by simp)
      rw [isDeferredStartTagPrefix_eq_false before (Or.inl hshort), if_neg Bool.false_ne_true,
        incrementalDeferredMarkupEnd_unmarked before (unmarked_of_short hshort) hsaved.start]
      exact ⟨hsaved.start, rfl, fun _ ↦ Or.inl hnew⟩
    · rw [hrest, isDeferredStartTagPrefix_startTag before rest hstart, if_pos rfl,
        incrementalDeferredStartTagEnd_eq hstart hrest.symm hsaved hopen]
      constructor
      case start => exact hsaved.start
      case ends =>
        rw [markupPrefixEnd_startTag before rest hstart]
        exact scanDeferredTag_close none rest _
      case unfinished =>
        intro hnone
        exact Or.inr ⟨c, rest, rfl, scanDeferredTag_index (by omega) hnone, rfl⟩
  · -- An end that was found stays where it is.
    have hkept : r.endIndex =
        markupPrefixEnd (before ++ (bytes ++ chunk)) (before.length + 1) := by
      rcases hshape ((List.prefix_append bytes chunk).trans htoken) with hshort | ⟨rest, rfl⟩
      · rw [hsaved.ends, markupPrefixEnd_short before hshort] at hopen
        exact absurd rfl hopen
      · have hends := hsaved.ends
        rw [markupPrefixEnd_startTag before rest hstart] at hends
        rw [List.cons_append, List.cons_append, markupPrefixEnd_startTag before _ hstart,
          findMarkupEndIn_append hends.symm hopen]
    unfold DeferredReparse.findEnd
    rw [if_pos (by omega)]
    exact ⟨hsaved.start, hkept, fun h ↦ absurd h hopen⟩

/-! ## Comments, CDATA sections and processing instructions -/

theorem not_prefix_of_incomparable {marker opener bytes : String8}
    (hapart : ¬ marker <+: opener ∧ ¬ opener <+: marker) (hopens : opener <+: bytes) :
    ¬ marker <+: bytes := by
  intro h
  rcases List.prefix_or_prefix_of_prefix h hopens with h | h
  · exact hapart.1 h
  · exact hapart.2 h

theorem markupPrefixEnd_marked (before : String8) {opener closer bytes : String8}
    (hmarks : (opener, closer) ∈ deferredDelimiters) (hopens : opener <+: bytes) :
    markupPrefixEnd (before ++ bytes) (before.length + 1) =
      let close := findSequenceIn closer (bytes.drop opener.length)
        (before.length + 1 + opener.length)
      if 0 < close then close + (closer.length - 1) else 0 := by
  have hother {marker : String8} (hapart : ¬ marker <+: opener ∧ ¬ opener <+: marker) :
      ¬ marker.isPrefixOf bytes = true := by
    rw [List.isPrefixOf_iff_prefix]
    exact not_prefix_of_incomparable hapart hopens
  rw [markupPrefixEnd_token]
  simp only [deferredDelimiters, List.mem_cons, List.not_mem_nil, or_false, Prod.mk.injEq] at hmarks
  rw [← List.isPrefixOf_iff_prefix] at hopens
  rcases hmarks with ⟨rfl, rfl⟩ | ⟨rfl, rfl⟩ | ⟨rfl, rfl⟩ <;> simp only []
  · rw [if_pos hopens]
    rfl
  · rw [if_neg (hother (by decide)), if_pos hopens]
    rfl
  · rw [if_neg (hother (by decide)), if_neg (hother (by decide)), if_neg (hother (by decide)),
      if_pos hopens]
    rfl

theorem deferredTerminator_marked (before : String8) {opener closer bytes : String8}
    (hmarks : (opener, closer) ∈ deferredDelimiters) (hopens : opener <+: bytes) :
    deferredTerminator (before ++ bytes) (before.length + 1) =
      some (before.length + 1 + opener.length, closer) := by
  have hother {marker : String8} (hapart : ¬ marker <+: opener ∧ ¬ opener <+: marker) :
      ¬ marker.isPrefixOf bytes = true := by
    rw [List.isPrefixOf_iff_prefix]
    exact not_prefix_of_incomparable hapart hopens
  rw [deferredTerminator_token]
  simp only [deferredDelimiters, List.mem_cons, List.not_mem_nil, or_false, Prod.mk.injEq] at hmarks
  rw [← List.isPrefixOf_iff_prefix] at hopens
  rcases hmarks with ⟨rfl, rfl⟩ | ⟨rfl, rfl⟩ | ⟨rfl, rfl⟩
  · rw [if_pos hopens]
    rfl
  · rw [if_neg (hother (by decide)), if_pos hopens]
    rfl
  · rw [if_neg (hother (by decide)), if_neg (hother (by decide)), if_pos hopens]
    rfl

/-- An incomplete opener is no opener at all. -/
theorem unmarked_of_incomplete {opener closer bytes : String8}
    (hmarks : (opener, closer) ∈ deferredDelimiters) (hpart : bytes <+: opener)
    (hwhole : ¬ opener <+: bytes) :
    ∀ marker ∈ [str "<!--", str "<![CDATA[", str "<!DOCTYPE", str "<?"], ¬ marker <+: bytes := by
  have hsame : ∀ marks ∈ deferredDelimiters,
      ∀ marker ∈ [str "<!--", str "<![CDATA[", str "<!DOCTYPE", str "<?"],
        marker <+: marks.1 → marker = marks.1 := by decide +kernel
  intro marker hmarker hopens
  have hmarker := hsame _ hmarks marker hmarker (hopens.trans hpart)
  rw [hmarker] at hopens
  exact hwhole hopens

theorem markupPrefixEnd_incomplete (before : String8) {opener closer bytes : String8}
    (hmarks : (opener, closer) ∈ deferredDelimiters) (hpart : bytes <+: opener)
    (hwhole : ¬ opener <+: bytes) :
    markupPrefixEnd (before ++ bytes) (before.length + 1) = 0 := by
  have hplain : ∀ marks ∈ deferredDelimiters, ('>' : Character8) ∉ marks.1 := by decide
  rw [markupPrefixEnd_unmarked before (unmarked_of_incomplete hmarks hpart hwhole)]
  apply findMarkupEndIn_eq_zero
  intro hmem
  exact hplain _ hmarks (hpart.subset (List.mem_of_mem_drop hmem))

theorem second_of_marked {opener closer bytes : String8}
    (hmarks : (opener, closer) ∈ deferredDelimiters)
    (hopens : opener <+: bytes ∨ bytes <+: opener) :
    bytes.length < 2 ∨ bytes.getD 1 0 = '!' ∨ bytes.getD 1 0 = '?' := by
  have hsecond : ∀ marks ∈ deferredDelimiters,
      2 ≤ marks.1.length ∧ (marks.1.getD 1 0 = '!' ∨ marks.1.getD 1 0 = '?') := by decide
  have ⟨hlong, hopener⟩ := hsecond _ hmarks
  by_cases hshort : bytes.length < 2
  · exact Or.inl hshort
  · have hsame : bytes.getD 1 0 = opener.getD 1 0 := by
      rw [List.getD_eq_getElem?_getD, List.getD_eq_getElem?_getD]
      rcases hopens with ⟨tail, rfl⟩ | ⟨tail, rfl⟩
      · rw [List.getElem?_append_left hlong]
      · rw [List.getElem?_append_left (by omega)]
    rw [hsame]
    exact Or.inr hopener

/-- What is saved of a token that a marker opens. -/
structure SavedMark (opener closer before bytes : String8) (r : DeferredReparse) : Prop where
  start : r.startIndex = before.length + 1
  ends : r.endIndex = markupPrefixEnd (before ++ bytes) (before.length + 1)
  /-- Nothing is saved yet, or a closer may begin only in the last bytes. -/
  unfinished : r.endIndex = 0 → r.scanIndex = 0 ∨ opener <+: bytes ∧
    r.scanIndex = max (before.length + bytes.length + 2 - closer.length)
      (before.length + 1 + opener.length)

/-- Whatever is saved, the search finds what a search of the whole body finds. -/
theorem findSequence_saved {opener closer before bytes : String8}
    (hmarks : (opener, closer) ∈ deferredDelimiters) {r : DeferredReparse}
    (hsaved : SavedMark opener closer before bytes r) (hopen : r.endIndex = 0) (more : String8) :
    findSequence (before ++ (bytes ++ more)) closer
        (max r.scanIndex (before.length + 1 + opener.length)) =
      findSequenceIn closer ((bytes ++ more).drop opener.length)
        (before.length + 1 + opener.length) := by
  have hclosers : ∀ marks ∈ deferredDelimiters, marks.2 ≠ [] := by decide
  have hcloser : closer ≠ [] := hclosers _ hmarks
  have hpositive := List.length_pos_iff.2 hcloser
  rcases hsaved.unfinished hopen with hnew | ⟨hopens, hindex⟩
  · rw [hnew, show max 0 (before.length + 1 + opener.length) = before.length + 1 + opener.length
      by omega, findSequence_token]
  · have hle := hopens.length_le
    have hnone : findSequenceIn closer (bytes.drop opener.length)
        (before.length + 1 + opener.length) = 0 := by
      have hends := hsaved.ends
      rw [hopen, markupPrefixEnd_marked before hmarks hopens] at hends
      simp only [] at hends
      split at hends <;> omega
    -- The scan skips `j` positions of the body, at none of which a closer began.
    obtain ⟨j, hj⟩ : ∃ j, r.scanIndex = before.length + 1 + opener.length + j :=
      ⟨r.scanIndex - (before.length + 1 + opener.length), by omega⟩
    have hfits : j = 0 ∨ j + closer.length ≤ (bytes.drop opener.length).length + 1 := by
      rw [List.length_drop]
      omega
    rw [List.drop_append_of_le_length hle, findSequenceIn_resume hcloser (by omega) hnone hfits,
      hj, show max (before.length + 1 + opener.length + j) (before.length + 1 + opener.length) =
        before.length + 1 + (opener.length + j) by omega, findSequence_token, ← List.drop_drop,
      List.drop_append_of_le_length hle,
      show before.length + 1 + (opener.length + j) = before.length + 1 + opener.length + j by omega]

theorem SavedMark.findEnd {opener closer before bytes chunk : String8}
    (hmarks : (opener, closer) ∈ deferredDelimiters)
    (htoken : opener <+: bytes ++ chunk ∨ bytes ++ chunk <+: opener) {r : DeferredReparse}
    (hsaved : SavedMark opener closer before bytes r) :
    SavedMark opener closer before (bytes ++ chunk)
      (r.findEnd (before ++ (bytes ++ chunk))).2 := by
  by_cases hopen : r.endIndex = 0
  · unfold DeferredReparse.findEnd
    rw [if_neg (by omega)]
    simp only []
    rw [hsaved.start, isDeferredStartTagPrefix_eq_false before (second_of_marked hmarks htoken),
      if_neg Bool.false_ne_true]
    by_cases hopens : opener <+: bytes ++ chunk
    · have hends := markupPrefixEnd_marked before hmarks hopens
      have hfound := findSequence_saved hmarks hsaved hopen chunk
      have hclosers : ∀ marks ∈ deferredDelimiters, 1 ≤ marks.2.length := by decide
      have hcloser : 1 ≤ closer.length := hclosers _ hmarks
      unfold incrementalDeferredMarkupEnd
      rw [hsaved.start, deferredTerminator_marked before hmarks hopens]
      simp only []
      rw [hfound]
      simp only [] at hends
      by_cases hclose : 0 < findSequenceIn closer ((bytes ++ chunk).drop opener.length)
          (before.length + 1 + opener.length)
      · rw [if_pos hclose] at hends ⊢
        have hlast := Nat.add_sub_assoc hcloser (findSequenceIn closer
          ((bytes ++ chunk).drop opener.length) (before.length + 1 + opener.length))
        have hfar := Nat.lt_of_lt_of_le hclose (Nat.le_add_right _ (closer.length - 1))
        rw [hlast]
        exact ⟨hsaved.start, hends.symm, fun h ↦ absurd h hfar.ne'⟩
      · rw [if_neg hclose] at hends ⊢
        constructor
        case start => rfl
        case ends => exact hends.symm
        case unfinished =>
          intro _
          refine Or.inr ⟨hopens, ?_⟩
          rw [List.length_append]
    · -- The opener is still incomplete, so nothing was saved before.
      have hpart := htoken.resolve_left hopens
      have hnew : r.scanIndex = 0 := by
        rcases hsaved.unfinished hopen with hnew | ⟨h, -⟩
        · exact hnew
        · exact absurd (h.trans (List.prefix_append bytes chunk)) hopens
      rw [incrementalDeferredMarkupEnd_unmarked before
        (unmarked_of_incomplete hmarks hpart hopens) hsaved.start]
      exact ⟨hsaved.start, rfl, fun _ ↦ Or.inl hnew⟩
  · -- An end that was found stays where it is.
    have hkept : r.endIndex =
        markupPrefixEnd (before ++ (bytes ++ chunk)) (before.length + 1) := by
      have hends := hsaved.ends
      by_cases hopens : opener <+: bytes
      · rw [markupPrefixEnd_marked before hmarks hopens] at hends
        rw [markupPrefixEnd_marked before hmarks (hopens.trans (List.prefix_append bytes chunk)),
          List.drop_append_of_le_length hopens.length_le]
        simp only [] at hends ⊢
        have hfound : findSequenceIn closer (bytes.drop opener.length)
            (before.length + 1 + opener.length) ≠ 0 := by
          intro hnone
          rw [hnone] at hends
          exact hopen hends
        rw [findSequenceIn_append hfound]
        exact hends
      · have hpart : bytes <+: opener := by
          rcases htoken with h | h
          · exact (List.prefix_or_prefix_of_prefix (List.prefix_append bytes chunk) h).resolve_right
              hopens
          · exact (List.prefix_append bytes chunk).trans h
        rw [hends, markupPrefixEnd_incomplete before hmarks hpart hopens] at hopen
        exact absurd rfl hopen
    unfold DeferredReparse.findEnd
    rw [if_pos (by omega)]
    exact ⟨hsaved.start, hkept, fun h ↦ absurd h hopen⟩

/-! ## All chunks -/

theorem deferredRun_append (before : String8) (chunks : List String8) (chunk : String8) :
    deferredRun before (chunks ++ [chunk]) = (deferredRun before chunks).feed chunk := by
  unfold deferredRun
  rw [List.foldl_append]
  rfl

theorem deferredRun_input (before : String8) (chunks : List String8) :
    (deferredRun before chunks).input = before ++ chunks.flatten := by
  induction chunks using List.reverseRecOn with
  | nil =>
    rw [List.flatten_nil, List.append_nil]
    rfl
  | append_singleton chunks chunk ih =>
    rw [deferredRun_append, List.flatten_append, List.flatten_singleton, ← List.append_assoc, ← ih]
    rfl

theorem deferredRun_saved (Saved : String8 → DeferredReparse → Prop) {before token : String8}
    (hnew : Saved [] { startIndex := before.length + 1 })
    (hfind : ∀ {bytes chunk : String8} {r : DeferredReparse}, bytes ++ chunk <+: token →
      Saved bytes r → Saved (bytes ++ chunk) (r.findEnd (before ++ (bytes ++ chunk))).2)
    {chunks : List String8} (hchunks : chunks.flatten <+: token) :
    Saved chunks.flatten (deferredRun before chunks).reparse ∧
      (deferredRun before chunks).found = (deferredRun before chunks).reparse.endIndex := by
  induction chunks using List.reverseRecOn with
  | nil => exact ⟨hnew, rfl⟩
  | append_singleton chunks chunk ih =>
    rw [List.flatten_append, List.flatten_singleton] at hchunks ⊢
    have hsaved := (ih ((List.prefix_append _ _).trans hchunks)).1
    rw [deferredRun_append]
    unfold DeferredRun.feed
    rw [deferredRun_input, List.append_assoc]
    exact ⟨hfind hchunks hsaved, findEnd_fst _ _⟩

/-- After each chunk of a deferred token, the resumed search has found what a search of all the
bytes so far finds. -/
theorem deferredRun_agrees (before : String8) (seen later : List String8)
    (htoken : DeferredToken (seen ++ later).flatten) :
    (deferredRun before seen).found =
      markupPrefixEnd (before ++ seen.flatten) (before.length + 1) := by
  have hempty : 0 = markupPrefixEnd (before ++ []) (before.length + 1) :=
    (markupPrefixEnd_short before (by decide)).symm
  have hseen : seen.flatten <+: (seen ++ later).flatten := by
    rw [List.flatten_append]
    exact List.prefix_append _ _
  generalize (seen ++ later).flatten = token at htoken hseen
  cases htoken with
  | startTag rest hstart =>
    have ⟨hsaved, hfound⟩ := deferredRun_saved (SavedTag before)
      ⟨rfl, hempty, fun _ ↦ Or.inl rfl⟩ (fun h ↦ SavedTag.findEnd hstart h) hseen
    rw [hfound, hsaved.ends]
  | @marked opener closer _ hmarks hopens =>
    have hfind {bytes chunk : String8} {r : DeferredReparse} (h : bytes ++ chunk <+: token)
        (hsaved : SavedMark opener closer before bytes r) :=
      hsaved.findEnd hmarks (hopens.elim
        (fun hopens ↦ List.prefix_or_prefix_of_prefix hopens h)
        (fun hopens ↦ Or.inr (h.trans hopens)))
    have ⟨hsaved, hfound⟩ := deferredRun_saved (SavedMark opener closer before)
      ⟨rfl, hempty, fun _ ↦ Or.inl rfl⟩ hfind hseen
    rw [hfound, hsaved.ends]

/-- A comment whose opener and closer straddle the chunks. -/
theorem deferredRun_agrees_comment :
    (deferredRun (str "<r>") [str "<!-", str "- a --", str ">b"]).found = 13 :=
  (deferredRun_agrees (str "<r>") [str "<!-", str "- a --", str ">b"] []
    (@DeferredToken.marked (str "<!--") (str "-->") _ (by decide) (Or.inl (by decide)))).trans
    (by decide)

end Xpact.Native
