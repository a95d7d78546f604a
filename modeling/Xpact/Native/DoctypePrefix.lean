import Xpact.Library.Resume
import Xpact.Parser.DoctypeEnd

/-!
# Waiting for a document type declaration

While an initial declaration is incomplete, the native parser keeps its bytes back.  It looks for the
end with a scanner of its own, which reads every byte once and keeps its state between calls.
-/

namespace Xpact.Native

open Library Grammar

/-! ## The scanner -/

/-- The `doctype_prefix_…` attributes; no open quote is `'%U'` in the source. -/
structure DoctypePrefix where
  scanIndex : Nat := 0
  depth : Nat := 0
  quote : Option Character8 := none
  inComment : Bool := false
  complete : Bool := false
  deriving DecidableEq

namespace DoctypePrefix

/-- One turn of the loop of `should_wait_for_doctype_prefix`, `none` when the loop ends. -/
def step (input : String8) (s : DoctypePrefix) : Option DoctypePrefix :=
  let i := s.scanIndex
  let c := input.item i
  if input.length < i ∨ s.complete = true then
    none
  else if s.inComment = true then
    if c = '-' then
      -- The two bytes behind a hyphen are needed to decide.
      if input.length < i + 2 then none
      else if hasAt input i (str "-->") then some { s with scanIndex := i + 3, inComment := false }
      else some { s with scanIndex := i + 1 }
    else
      some { s with scanIndex := i + 1 }
  else
    match s.quote with
    | some q => some { s with scanIndex := i + 1, quote := if c = q then none else some q }
    | none =>
      if isQuote c then
        some { s with scanIndex := i + 1, quote := some c }
      else if c = '<' then
        if input.length < i + 3 then none
        else if hasAt input i (str "<!--") then some { s with scanIndex := i + 4, inComment := true }
        else some { s with scanIndex := i + 1 }
      else if c = '[' then
        some { s with scanIndex := i + 1, depth := s.depth + 1 }
      else if c = ']' ∧ 0 < s.depth then
        some { s with scanIndex := i + 1, depth := s.depth - 1 }
      else if c = '>' ∧ s.depth = 0 then
        some { s with scanIndex := i + 1, complete := true }
      else
        some { s with scanIndex := i + 1 }

end DoctypePrefix

/-- Does the byte buffer start with the DOCTYPE opener? -/
def hasInitialDoctype (input : String8) : Bool := (str "<!DOCTYPE").isPrefixOf input

/-- What `can_buffer_doctype_prefix` reads: the callbacks that are registered. -/
structure DtdCallbacks where
  diagnosticEventsEnabled : Bool := false
  default : Bool := false
  startDoctypeDecl : Bool := false
  endDoctypeDecl : Bool := false
  elementDecl : Bool := false
  attlistDecl : Bool := false
  entityDecl : Bool := false
  unparsedEntityDecl : Bool := false
  notationDecl : Bool := false
  externalEntityRef : Bool := false
  skippedEntity : Bool := false
  notStandalone : Bool := false
  comment : Bool := false
  processingInstruction : Bool := false

def canBufferDoctypePrefix (h : DtdCallbacks) : Bool :=
  !h.diagnosticEventsEnabled && !h.default && !h.startDoctypeDecl && !h.endDoctypeDecl &&
    !h.elementDecl && !h.attlistDecl && !h.entityDecl && !h.unparsedEntityDecl &&
    !h.notationDecl && !h.externalEntityRef && !h.skippedEntity && !h.notStandalone &&
    !h.comment && !h.processingInstruction

/-- The loop; `n` bounds the turns. -/
def DoctypePrefix.scanFrom (input : String8) : Nat → DoctypePrefix → DoctypePrefix
  | 0, s => s
  | n + 1, s =>
    match s.step input with
    | none => s
    | some t => scanFrom input n t

/-- Is an initial DOCTYPE incomplete? -/
def shouldWaitForDoctypePrefix (isExternalEntityParser : Bool) (callbacks : DtdCallbacks)
    (input : String8) (s : DoctypePrefix) : Bool × DoctypePrefix :=
  if !s.complete && !isExternalEntityParser && canBufferDoctypePrefix callbacks &&
      hasInitialDoctype input then
    let started := if s.scanIndex = 0 then { s with scanIndex := 10 } else s
    let t := started.scanFrom input (input.length + 1)
    (!t.complete, t)
  else
    (false, s)

/-- The answers to some chunks, each asked when its bytes have been appended to the buffer. -/
structure DoctypeRun where
  buffer : String8 := []
  scanner : DoctypePrefix := {}
  waits : Bool := false

def DoctypeRun.feed (callbacks : DtdCallbacks) (r : DoctypeRun) (chunk : String8) : DoctypeRun :=
  let answer := shouldWaitForDoctypePrefix false callbacks (r.buffer ++ chunk) r.scanner
  { buffer := r.buffer ++ chunk, scanner := answer.2, waits := answer.1 }

def doctypeRun (callbacks : DtdCallbacks) (chunks : List String8) : DoctypeRun :=
  chunks.foldl (·.feed callbacks) {}

/-! ## A scanner that resumes -/

theorem item_append {input : String8} {i : Nat} (hi : 1 ≤ i) (hin : i ≤ input.length)
    (more : String8) : String8.item (input ++ more) i = input.item i := by
  unfold String8.item
  rw [List.getD_eq_getElem?_getD, List.getD_eq_getElem?_getD,
    List.getElem?_append_left (by omega)]

theorem hasAt_append {input marker : String8} {i : Nat} (hin : i - 1 + marker.length ≤ input.length)
    (more : String8) : hasAt (input ++ more) i marker = hasAt input i marker := by
  unfold hasAt
  rw [Bool.eq_iff_iff, List.isPrefixOf_iff_prefix, List.isPrefixOf_iff_prefix,
    List.drop_append_of_le_length (by omega)]
  constructor
  · intro h
    refine List.prefix_of_prefix_length_le h (List.prefix_append _ more) ?_
    rw [List.length_drop]
    omega
  · exact fun h ↦ h.trans (List.prefix_append _ more)

namespace DoctypePrefix

theorem step_index {input : String8} {s t : DoctypePrefix} (h : s.step input = some t) :
    s.scanIndex < t.scanIndex ∧ s.scanIndex ≤ input.length ∧ s.complete = false := by
  unfold step at h
  dsimp only at h
  by_cases hend : input.length < s.scanIndex ∨ s.complete = true
  · rw [if_pos hend] at h
    cases h
  · have hin : s.scanIndex ≤ input.length := by omega
    have hopen : s.complete = false := by
      rw [← Bool.not_eq_true]
      exact fun hcomplete ↦ hend (Or.inr hcomplete)
    refine ⟨?_, hin, hopen⟩
    rw [if_neg hend] at h
    split at h
    · split_ifs at h <;> cases h <;> exact Nat.lt_add_of_pos_right (by omega)
    · split at h
      · cases h
        exact Nat.lt_succ_self _
      · split_ifs at h <;> cases h <;> exact Nat.lt_add_of_pos_right (by omega)

/-- More bytes do not change a step that was possible. -/
theorem step_append {input : String8} {s t : DoctypePrefix} (hs : 0 < s.scanIndex)
    (h : s.step input = some t) (more : String8) : s.step (input ++ more) = some t := by
  obtain ⟨-, hin, hopen⟩ := step_index h
  have hitem := item_append hs hin more
  have hmore : input.length ≤ (input ++ more).length := by
    rw [List.length_append]
    omega
  have hdone : ¬ ((input ++ more).length < s.scanIndex ∨ s.complete = true) := by
    rw [hopen]
    simp only [Bool.false_eq_true, or_false]
    omega
  have hdone' : ¬ (input.length < s.scanIndex ∨ s.complete = true) := by
    rw [hopen]
    simp only [Bool.false_eq_true, or_false]
    omega
  unfold step at h ⊢
  dsimp only at h ⊢
  rw [if_neg hdone'] at h
  rw [if_neg hdone, hitem]
  by_cases hcomment : s.inComment = true
  · rw [if_pos hcomment] at h ⊢
    by_cases hdash : input.item s.scanIndex = ('-' : Character8)
    · rw [if_pos hdash] at h ⊢
      by_cases hwait : input.length < s.scanIndex + 2
      · rw [if_pos hwait] at h
        cases h
      · have hlength : (str "-->").length = 3 := by decide
        rw [if_neg hwait] at h
        rw [if_neg (by omega), hasAt_append (by omega)]
        exact h
    · rw [if_neg hdash] at h ⊢
      exact h
  · rw [if_neg hcomment] at h ⊢
    cases hquote : s.quote with
    | some q =>
      rw [hquote] at h
      exact h
    | none =>
      rw [hquote] at h
      dsimp only at h ⊢
      by_cases hopenQuote : isQuote (input.item s.scanIndex) = true
      · rw [if_pos hopenQuote] at h ⊢
        exact h
      rw [if_neg hopenQuote] at h ⊢
      by_cases hangle : input.item s.scanIndex = ('<' : Character8)
      · rw [if_pos hangle] at h ⊢
        by_cases hwait : input.length < s.scanIndex + 3
        · rw [if_pos hwait] at h
          cases h
        · have hlength : (str "<!--").length = 4 := by decide
          rw [if_neg hwait] at h
          rw [if_neg (by omega), hasAt_append (by omega)]
          exact h
      · rw [if_neg hangle] at h ⊢
        exact h

end DoctypePrefix

def doctypePrefixScanner : ResumingScanner Character8 DoctypePrefix where
  step input s := s.step input
  index := DoctypePrefix.scanIndex
  index_lt h := (DoctypePrefix.step_index h).1
  index_le h := (DoctypePrefix.step_index h).2.1
  step_append hs h more := DoctypePrefix.step_append hs h more

theorem DoctypePrefix.scanFrom_eq (input : String8) (n : Nat) (s : DoctypePrefix) :
    s.scanFrom input n = doctypePrefixScanner.scanFrom input n s := by
  induction n generalizing s with
  | zero => rfl
  | succ n ih =>
    unfold DoctypePrefix.scanFrom ResumingScanner.scanFrom
    have hstep : doctypePrefixScanner.step input s = s.step input := rfl
    rw [hstep]
    cases s.step input with
    | none => rfl
    | some t => exact ih t

/-! ## Where the scanner and the parser agree

The scanner does not know processing instructions, it knows comments outside the brackets too, and it
waits for three bytes behind a left angle bracket.  `Steady` describes the texts in which none of this
shows. -/

/-- Reading `w` by the rules for literals, comments and brackets alone leads from one bracket depth to
another and leaves nothing open. -/
inductive Skims : Nat → String8 → Nat → Prop where
  | nil (d : Nat) : Skims d [] d
  | char {d t r : Nat} {c : Character8} {w : String8} (hquote : isQuote c = false)
      (hangle : c ≠ ('<' : Character8)) (hnext : doctypeDelimiters.next d c = some t)
      (hrest : Skims t w r) : Skims d (c :: w) r
  | angle {d t : Nat} {w : String8} (hlength : 2 ≤ w.length) (hcomment : ¬ str "!--" <+: w)
      (hcut : ¬ w <+: str "!--") (hrest : Skims d w t) : Skims d (('<' : Character8) :: w) t
  | literal {d t : Nat} {q : Character8} {body w : String8} (hquote : isQuote q = true)
      (hbody : q ∉ body) (hrest : Skims d w t) : Skims d (q :: (body ++ q :: w)) t
  | comment {d t : Nat} {body w : String8} (hbody : Delimiters.Hides (str "-->") body)
      (hrest : Skims d w t) : Skims d (str "<!--" ++ (body ++ (str "-->" ++ w))) t

/-- A text that such a reading cannot finish: it is used up, or within a literal, a comment or the
three bytes behind a left angle bracket. -/
inductive Unfinished : String8 → Prop where
  | nil : Unfinished []
  | literal {q : Character8} {body : String8} (hquote : isQuote q = true) (hbody : q ∉ body) :
      Unfinished (q :: body)
  | comment {body : String8} (hbody : ∀ k, k < body.length → ¬ str "-->" <+: body.drop k) :
      Unfinished (str "<!--" ++ body)
  | angle {w : String8} (hlength : w.length < 3) : Unfinished (('<' : Character8) :: w)

/-- The declaration ends with the last bytes of `w`, which is shorter than three bytes. -/
inductive EndsShortly : Nat → String8 → Prop where
  | now (w : String8) : EndsShortly 0 (('>' : Character8) :: w)
  | next {c : Character8} (hquote : isQuote c = false) (hbracket : c ≠ ('[' : Character8)) :
      EndsShortly 0 [c, ('>' : Character8)]
  | bracket : EndsShortly 1 [(']' : Character8), ('>' : Character8)]

/-- The bytes behind `<!DOCTYPE` that have arrived, from a visible byte on, at a bracket depth. -/
inductive Steady : Nat → String8 → Prop where
  | nil (d : Nat) : Steady d []
  | char {d t : Nat} {c : Character8} {w : String8} (hquote : isQuote c = false)
      (hangle : c ≠ ('<' : Character8)) (hnext : doctypeDelimiters.next d c = some t)
      (hrest : Steady t w) : Steady d (c :: w)
  | ends (w : String8) : Steady 0 (('>' : Character8) :: w)
  | literal {d : Nat} {q : Character8} {body w : String8} (hquote : isQuote q = true)
      (hbody : q ∉ body) (hrest : Steady d w) : Steady d (q :: (body ++ q :: w))
  | openLiteral {d : Nat} {q : Character8} {body : String8} (hquote : isQuote q = true)
      (hbody : q ∉ body) : Steady d (q :: body)
  | comment {d : Nat} {body w : String8} (hbody : Delimiters.Hides (str "-->") body)
      (hrest : Steady (d + 1) w) : Steady (d + 1) (str "<!--" ++ (body ++ (str "-->" ++ w)))
  | openComment {d : Nat} {body : String8}
      (hbody : ∀ k, k < body.length → ¬ str "-->" <+: body.drop k) :
      Steady (d + 1) (str "<!--" ++ body)
  | instruction {d : Nat} {body w : String8} (hbody : Delimiters.Hides (str "?>") body)
      (hskims : Skims (d + 1) (str "<?" ++ (body ++ str "?>")) (d + 1))
      (hrest : Steady (d + 1) w) : Steady (d + 1) (str "<?" ++ (body ++ (str "?>" ++ w)))
  | openInstruction {d t : Nat} {body u v : String8}
      (hbody : ∀ k, k < body.length → ¬ str "?>" <+: body.drop k)
      (hskims : Skims (d + 1) u t) (hunfinished : Unfinished v) (hsplit : str "<?" ++ body = u ++ v) :
      Steady (d + 1) (str "<?" ++ body)
  | angle {d : Nat} {w : String8} (hlength : 3 ≤ w.length) (hcomment : ¬ str "!--" <+: w)
      (hinstruction : 0 < d → ¬ str "?" <+: w) (hrest : Steady d w) :
      Steady d (('<' : Character8) :: w)
  | short {d : Nat} {w : String8} (hlength : w.length < 3) (hend : ¬ EndsShortly d w) :
      Steady d (('<' : Character8) :: w)

/-! ## What the scanner does with a text -/

theorem drop_of_cons {input : String8} {i : Nat} {c : Character8} {rest : String8} (hi : 1 ≤ i)
    (h : input.drop (i - 1) = c :: rest) :
    i + rest.length = input.length ∧ input.item i = c ∧ input.drop (i + 1 - 1) = rest := by
  have hlength := congrArg List.length h
  rw [List.length_drop, List.length_cons] at hlength
  have hcons := drop_eq_item_cons hi (show i ≤ input.length by omega)
  rw [h] at hcons
  obtain ⟨hitem, hrest⟩ := List.cons.inj hcons
  exact ⟨by omega, hitem.symm, hrest.symm⟩

theorem hasAt_iff_of_drop {input : String8} {i : Nat} {text : String8}
    (h : input.drop (i - 1) = text) (marker : String8) :
    hasAt input i marker = true ↔ marker <+: text := by
  unfold hasAt
  rw [List.isPrefixOf_iff_prefix, h]

namespace DoctypePrefix

def visibleAt (d i : Nat) : DoctypePrefix := { scanIndex := i, depth := d }

def quotedAt (q : Character8) (d i : Nat) : DoctypePrefix :=
  { scanIndex := i, depth := d, quote := some q }

def commentAt (d i : Nat) : DoctypePrefix := { scanIndex := i, depth := d, inComment := true }

variable {input : String8} {i d : Nat} {c q : Character8} {rest : String8}

theorem step_char {t : Nat} (hi : 1 ≤ i) (h : input.drop (i - 1) = c :: rest)
    (hquote : isQuote c = false) (hangle : c ≠ ('<' : Character8))
    (hnext : doctypeDelimiters.next d c = some t) :
    (visibleAt d i).step input = some (visibleAt t (i + 1)) := by
  obtain ⟨hlength, hitem, -⟩ := drop_of_cons hi h
  have hin : ¬ (input.length < i ∨ false = true) := by
    simp only [Bool.false_eq_true, or_false]
    omega
  unfold step visibleAt
  dsimp only
  rw [if_neg hin, if_neg Bool.false_ne_true, hitem, if_neg (by rw [hquote]; exact Bool.false_ne_true),
    if_neg hangle]
  -- The depth follows the delimiters of the parser.
  have hdepth : (if c = ('[' : Character8) then some (d + 1)
      else if c = (']' : Character8) ∧ 0 < d then some (d - 1)
      else if c = ('>' : Character8) ∧ d = 0 then none else some d) = some t := hnext
  by_cases hopen : c = ('[' : Character8)
  · rw [if_pos hopen] at hdepth ⊢
    rw [← Option.some.inj hdepth]
  rw [if_neg hopen] at hdepth ⊢
  by_cases hclose : c = (']' : Character8) ∧ 0 < d
  · rw [if_pos hclose] at hdepth ⊢
    rw [← Option.some.inj hdepth]
  rw [if_neg hclose] at hdepth ⊢
  by_cases hend : c = ('>' : Character8) ∧ d = 0
  · rw [if_pos hend] at hdepth
    cases hdepth
  · rw [if_neg hend] at hdepth ⊢
    rw [← Option.some.inj hdepth]

theorem step_ends (hi : 1 ≤ i) (h : input.drop (i - 1) = ('>' : Character8) :: rest) :
    (visibleAt 0 i).step input = some { scanIndex := i + 1, complete := true } := by
  obtain ⟨hlength, hitem, -⟩ := drop_of_cons hi h
  have hin : ¬ (input.length < i ∨ false = true) := by
    simp only [Bool.false_eq_true, or_false]
    omega
  unfold step visibleAt
  dsimp only
  rw [if_neg hin, hitem]
  rfl

theorem step_quote (hi : 1 ≤ i) (h : input.drop (i - 1) = c :: rest) (hquote : isQuote c = true) :
    (visibleAt d i).step input = some (quotedAt c d (i + 1)) := by
  obtain ⟨hlength, hitem, -⟩ := drop_of_cons hi h
  have hin : ¬ (input.length < i ∨ false = true) := by
    simp only [Bool.false_eq_true, or_false]
    omega
  unfold step visibleAt
  dsimp only
  rw [if_neg hin, if_neg Bool.false_ne_true, hitem, if_pos hquote]
  rfl

theorem step_quoted (hi : 1 ≤ i) (h : input.drop (i - 1) = c :: rest) :
    (quotedAt q d i).step input =
      some (if c = q then visibleAt d (i + 1) else quotedAt q d (i + 1)) := by
  obtain ⟨hlength, hitem, -⟩ := drop_of_cons hi h
  have hin : ¬ (input.length < i ∨ false = true) := by
    simp only [Bool.false_eq_true, or_false]
    omega
  unfold step quotedAt
  dsimp only
  rw [if_neg hin, if_neg Bool.false_ne_true, hitem]
  by_cases hclose : c = q
  · rw [if_pos hclose, if_pos hclose]
    rfl
  · rw [if_neg hclose, if_neg hclose]

theorem step_angle (hi : 1 ≤ i) (h : input.drop (i - 1) = ('<' : Character8) :: rest) :
    (visibleAt d i).step input =
      if rest.length < 3 then none
      else if str "!--" <+: rest then some (commentAt d (i + 4))
      else some (visibleAt d (i + 1)) := by
  obtain ⟨hlength, hitem, -⟩ := drop_of_cons hi h
  have hin : ¬ (input.length < i ∨ false = true) := by
    simp only [Bool.false_eq_true, or_false]
    omega
  have hquote : ¬ isQuote ('<' : Character8) = true := by decide
  have hmarker : hasAt input i (str "<!--") = true ↔ str "!--" <+: rest := by
    rw [hasAt_iff_of_drop h]
    exact ⟨fun hpre ↦ (List.cons_prefix_cons.1 hpre).2,
      fun hpre ↦ List.cons_prefix_cons.2 ⟨rfl, hpre⟩⟩
  unfold step visibleAt
  dsimp only
  rw [if_neg hin, if_neg Bool.false_ne_true, hitem, if_neg hquote, if_pos rfl]
  by_cases hshort : rest.length < 3
  · rw [if_pos (by omega), if_pos hshort]
  · rw [if_neg (by omega), if_neg hshort]
    by_cases hcomment : str "!--" <+: rest
    · rw [if_pos (hmarker.2 hcomment), if_pos hcomment]
      rfl
    · rw [if_neg fun hat ↦ hcomment (hmarker.1 hat), if_neg hcomment]

/-- Within a comment the scanner looks two bytes ahead of a hyphen only. -/
theorem step_comment (hi : 1 ≤ i) (h : input.drop (i - 1) = c :: rest) :
    (commentAt d i).step input =
      if str "-->" <+: c :: rest then some (visibleAt d (i + 3))
      else if c = ('-' : Character8) ∧ rest.length < 2 then none
      else some (commentAt d (i + 1)) := by
  obtain ⟨hlength, hitem, -⟩ := drop_of_cons hi h
  have hin : ¬ (input.length < i ∨ false = true) := by
    simp only [Bool.false_eq_true, or_false]
    omega
  have hmarker := hasAt_iff_of_drop h (str "-->")
  unfold step commentAt
  dsimp only
  rw [if_neg hin, if_pos rfl, hitem]
  by_cases hclose : str "-->" <+: c :: rest
  · have hdash : c = ('-' : Character8) := (List.cons_prefix_cons.1 hclose).1.symm
    have hle := hclose.length_le
    have hthree : (str "-->").length = 3 := by decide
    rw [List.length_cons] at hle
    rw [if_pos hdash, if_neg (by omega), if_pos (hmarker.2 hclose), if_pos hclose]
    rfl
  · rw [if_neg hclose]
    by_cases hdash : c = ('-' : Character8)
    · rw [if_pos hdash]
      by_cases hshort : rest.length < 2
      · rw [if_pos (by omega), if_pos ⟨hdash, hshort⟩]
      · rw [if_neg (by omega), if_neg fun hat ↦ hclose (hmarker.1 hat),
          if_neg fun hboth ↦ hshort hboth.2]
    · rw [if_neg hdash, if_neg fun hboth ↦ hdash hboth.1]

/-- A scanner that has read everything, or has found the end, stops. -/
theorem step_done {s : DoctypePrefix} (h : input.length < s.scanIndex ∨ s.complete = true) :
    s.step input = none := by
  unfold step
  dsimp only
  rw [if_pos h]

/-- Some turns of the loop. -/
abbrev Leads (input : String8) : DoctypePrefix → DoctypePrefix → Prop :=
  doctypePrefixScanner.Leads input

/-- The scanner stops without having found the end. -/
def Waits (input : String8) (s : DoctypePrefix) : Prop :=
  ∃ t, Leads input s t ∧ t.step input = none ∧ t.complete = false

theorem Waits.of_leads {s t : DoctypePrefix} (h : Leads input s t) (ht : Waits input t) :
    Waits input s := by
  obtain ⟨u, hu, hstop⟩ := ht
  exact ⟨u, Relation.ReflTransGen.trans h hu, hstop⟩

theorem Waits.of_step {s t : DoctypePrefix} (h : s.step input = some t) (ht : Waits input t) :
    Waits input s := ht.of_leads (Relation.ReflTransGen.single h)

theorem Waits.now {s : DoctypePrefix} (h : s.step input = none) (hs : s.complete = false) :
    Waits input s := ⟨s, Relation.ReflTransGen.refl, h, hs⟩

theorem waits_of_drop_nil {s : DoctypePrefix} (hi : 1 ≤ s.scanIndex)
    (h : input.drop (s.scanIndex - 1) = []) (hs : s.complete = false) : Waits input s := by
  have hlength := List.drop_eq_nil_iff.1 h
  exact Waits.now (step_done (Or.inl (by omega))) hs

theorem leads_quoted {body : String8} (hi : 1 ≤ i) (h : input.drop (i - 1) = body ++ rest)
    (hbody : q ∉ body) : Leads input (quotedAt q d i) (quotedAt q d (i + body.length)) := by
  induction body generalizing i with
  | nil => exact Relation.ReflTransGen.refl
  | cons c body ih =>
    have hstep := step_quoted (q := q) (d := d) hi h
    have hne : c ≠ q := fun heq ↦ hbody (heq ▸ List.mem_cons_self)
    rw [if_neg hne] at hstep
    have hrest := ih (show 1 ≤ i + 1 by omega) (drop_of_cons hi h).2.2
      fun hmem ↦ hbody (List.mem_cons_of_mem c hmem)
    rw [show i + 1 + body.length = i + (c :: body).length by rw [List.length_cons]; omega] at hrest
    exact Relation.ReflTransGen.head hstep hrest

theorem leads_literal {body : String8} (hi : 1 ≤ i)
    (h : input.drop (i - 1) = q :: (body ++ q :: rest)) (hquote : isQuote q = true)
    (hbody : q ∉ body) : Leads input (visibleAt d i) (visibleAt d (i + (body.length + 2))) := by
  have hopen := step_quote (d := d) hi h hquote
  have hinside := (drop_of_cons hi h).2.2
  have hclosing : input.drop (i + 1 + body.length - 1) = q :: rest := by
    rw [show i + 1 + body.length - 1 = i + 1 - 1 + body.length by omega, ← List.drop_drop, hinside,
      List.drop_left]
  have hclose := step_quoted (q := q) (d := d) (show 1 ≤ i + 1 + body.length by omega) hclosing
  rw [if_pos rfl, show i + 1 + body.length + 1 = i + (body.length + 2) by omega] at hclose
  exact Relation.ReflTransGen.head hopen
    ((leads_quoted (show 1 ≤ i + 1 by omega) hinside hbody).tail hclose)

theorem waits_literal {body : String8} (hi : 1 ≤ i) (h : input.drop (i - 1) = q :: body)
    (hquote : isQuote q = true) (hbody : q ∉ body) : Waits input (visibleAt d i) := by
  have hopen := step_quote (d := d) hi h hquote
  have hinside := (drop_of_cons hi h).2.2
  have hwhole : input.drop (i + 1 - 1) = body ++ [] := by rw [hinside, List.append_nil]
  have hread := leads_quoted (d := d) (show 1 ≤ i + 1 by omega) hwhole hbody
  refine (Waits.of_leads hread (waits_of_drop_nil ?_ ?_ rfl)).of_step hopen
  · show 1 ≤ i + 1 + body.length
    omega
  · show input.drop (i + 1 + body.length - 1) = []
    rw [show i + 1 + body.length - 1 = i + 1 - 1 + body.length by omega, ← List.drop_drop, hinside,
      List.drop_length]

theorem leads_comment {body : String8} (hi : 1 ≤ i)
    (h : input.drop (i - 1) = body ++ (str "-->" ++ rest))
    (hbody : Delimiters.Hides (str "-->") body) :
    Leads input (commentAt d i) (visibleAt d (i + (body.length + 3))) := by
  induction body generalizing i with
  | nil =>
    have hclose : str "-->" <+: ('-' : Character8) :: (str "->" ++ rest) :=
      List.prefix_append (str "-->") rest
    have htext : input.drop (i - 1) = ('-' : Character8) :: (str "->" ++ rest) := h
    have hstep := step_comment (d := d) hi htext
    rw [if_pos hclose] at hstep
    exact Relation.ReflTransGen.single hstep
  | cons c body ih =>
    rw [List.cons_append] at h
    have hstep := step_comment (d := d) hi h
    have hopen : ¬ str "-->" <+: c :: (body ++ (str "-->" ++ rest)) := by
      intro hpre
      apply hbody 0 (Nat.succ_pos _)
      refine List.prefix_of_prefix_length_le hpre ?_ ?_
      · rw [← List.append_assoc]
        exact List.prefix_append (c :: (body ++ str "-->")) rest
      · show _ ≤ (c :: (body ++ str "-->")).length
        rw [List.length_cons, List.length_append]
        omega
    have hthree : (str "-->").length = 3 := by decide
    have hlong : ¬ (c = ('-' : Character8) ∧ (body ++ (str "-->" ++ rest)).length < 2) := by
      rw [List.length_append, List.length_append]
      omega
    rw [if_neg hopen, if_neg hlong] at hstep
    have hrest := ih (show 1 ≤ i + 1 by omega) (drop_of_cons hi h).2.2 fun k hk hpre ↦
      hbody (k + 1) (Nat.succ_lt_succ hk) hpre
    rw [show i + 1 + (body.length + 3) = i + ((c :: body).length + 3) by
      rw [List.length_cons]
      omega] at hrest
    exact Relation.ReflTransGen.head hstep hrest

theorem waits_comment {body : String8} (hi : 1 ≤ i) (h : input.drop (i - 1) = body)
    (hbody : ∀ k, k < body.length → ¬ str "-->" <+: body.drop k) :
    Waits input (commentAt d i) := by
  induction body generalizing i with
  | nil => exact waits_of_drop_nil hi h rfl
  | cons c body ih =>
    have hstep := step_comment (d := d) hi h
    rw [if_neg (show ¬ str "-->" <+: c :: body from hbody 0 (Nat.succ_pos _))] at hstep
    by_cases hwait : c = ('-' : Character8) ∧ body.length < 2
    · rw [if_pos hwait] at hstep
      exact Waits.now hstep rfl
    · rw [if_neg hwait] at hstep
      exact (ih (show 1 ≤ i + 1 by omega) (drop_of_cons hi h).2.2 fun k hk ↦
        hbody (k + 1) (Nat.succ_lt_succ hk)).of_step hstep

theorem step_commentOpen (hi : 1 ≤ i) (h : input.drop (i - 1) = str "<!--" ++ rest) :
    (visibleAt d i).step input = some (commentAt d (i + 4)) ∧ input.drop (i + 4 - 1) = rest := by
  have htext : input.drop (i - 1) = ('<' : Character8) :: (str "!--" ++ rest) := h
  have hstep := step_angle (d := d) hi htext
  have hthree : (str "!--").length = 3 := by decide
  rw [if_neg (by rw [List.length_append]; omega), if_pos (List.prefix_append _ rest)] at hstep
  refine ⟨hstep, ?_⟩
  rw [show i + 4 - 1 = i - 1 + (str "<!--").length by
    rw [show (str "<!--").length = 4 by decide]
    omega, ← List.drop_drop, h, List.drop_left]

theorem leads_skims {t : Nat} {w : String8} (h : Skims d w t) (hi : 1 ≤ i)
    (hdrop : input.drop (i - 1) = w ++ rest) :
    Leads input (visibleAt d i) (visibleAt t (i + w.length)) ∨
      rest = [] ∧ Waits input (visibleAt d i) := by
  -- One more turn in front of what the induction hypothesis gives.
  have hgo {d e t j k l : Nat} (hfirst : Leads input (visibleAt d j) (visibleAt e k))
      (hrest : Leads input (visibleAt e k) (visibleAt t l) ∨
        rest = [] ∧ Waits input (visibleAt e k)) :
      Leads input (visibleAt d j) (visibleAt t l) ∨ rest = [] ∧ Waits input (visibleAt d j) := by
    cases hrest with
    | inl h => exact Or.inl (Relation.ReflTransGen.trans hfirst h)
    | inr h => exact Or.inr ⟨h.1, h.2.of_leads hfirst⟩
  induction h generalizing i with
  | nil d => exact Or.inl Relation.ReflTransGen.refl
  | @char d t r c w hquote hangle hnext _ ih =>
    have hstep := step_char hi hdrop hquote hangle hnext
    have hrest := ih (show 1 ≤ i + 1 by omega) (drop_of_cons hi hdrop).2.2
    rw [show i + 1 + w.length = i + (c :: w).length by rw [List.length_cons]; omega] at hrest
    exact hgo (Relation.ReflTransGen.single hstep) hrest
  | @angle d t w hlength hcomment hcut _ ih =>
    rw [List.cons_append] at hdrop
    have hstep := step_angle (d := d) hi hdrop
    by_cases hshort : (w ++ rest).length < 3
    · rw [if_pos hshort] at hstep
      rw [List.length_append] at hshort
      exact Or.inr ⟨List.eq_nil_of_length_eq_zero (by omega), Waits.now hstep rfl⟩
    · have hopen : ¬ str "!--" <+: w ++ rest := by
        intro hpre
        by_cases hlong : (str "!--").length ≤ w.length
        · exact hcomment (List.prefix_of_prefix_length_le hpre (List.prefix_append w rest) hlong)
        · exact hcut (List.prefix_of_prefix_length_le (List.prefix_append w rest) hpre (by omega))
      rw [if_neg hshort, if_neg hopen] at hstep
      have hrest := ih (show 1 ≤ i + 1 by omega) (drop_of_cons hi hdrop).2.2
      rw [show i + 1 + w.length = i + (('<' : Character8) :: w).length by
        rw [List.length_cons]
        omega] at hrest
      exact hgo (Relation.ReflTransGen.single hstep) hrest
  | @literal d t q body w hquote hbody _ ih =>
    have htext : input.drop (i - 1) = q :: (body ++ q :: (w ++ rest)) := by
      rw [hdrop, List.cons_append, List.append_assoc, List.cons_append]
    have hfirst := leads_literal (d := d) hi htext hquote hbody
    have hbehind : input.drop (i + (body.length + 2) - 1) = w ++ rest := by
      rw [show i + (body.length + 2) - 1 = i - 1 + (q :: (body ++ [q])).length by
        simp only [List.length_cons, List.length_append, List.length_nil]
        omega, ← List.drop_drop, htext]
      rw [show q :: (body ++ q :: (w ++ rest)) = (q :: (body ++ [q])) ++ (w ++ rest) by simp,
        List.drop_left]
    have hrest := ih (show 1 ≤ i + (body.length + 2) by omega) hbehind
    rw [show i + (body.length + 2) + w.length = i + (q :: (body ++ q :: w)).length by
      simp only [List.length_cons, List.length_append]
      omega] at hrest
    exact hgo hfirst hrest
  | @comment d t body w hbody _ ih =>
    have htext : input.drop (i - 1) = str "<!--" ++ (body ++ (str "-->" ++ (w ++ rest))) := by
      rw [hdrop]
      simp only [List.append_assoc]
    obtain ⟨hopen, hinside⟩ := step_commentOpen (d := d) hi htext
    have hread := leads_comment (d := d) (show 1 ≤ i + 4 by omega) hinside hbody
    have hfour : (str "<!--").length = 4 := by decide
    have hthree : (str "-->").length = 3 := by decide
    have hbehind : input.drop (i + 4 + (body.length + 3) - 1) = w ++ rest := by
      rw [show i + 4 + (body.length + 3) - 1 = i + 4 - 1 + (body ++ str "-->").length by
        rw [List.length_append]
        omega, ← List.drop_drop, hinside, ← List.append_assoc body, List.drop_left]
    have hrest := ih (show 1 ≤ i + 4 + (body.length + 3) by omega) hbehind
    rw [show i + 4 + (body.length + 3) + w.length =
      i + (str "<!--" ++ (body ++ (str "-->" ++ w))).length by
        simp only [List.length_append]
        omega] at hrest
    exact hgo (Relation.ReflTransGen.head hopen hread) hrest

theorem waits_unfinished {w : String8} (h : Unfinished w) (hi : 1 ≤ i)
    (hdrop : input.drop (i - 1) = w) : Waits input (visibleAt d i) := by
  cases h with
  | nil => exact waits_of_drop_nil hi hdrop rfl
  | literal hquote hbody => exact waits_literal hi hdrop hquote hbody
  | comment hbody =>
    obtain ⟨hopen, hinside⟩ := step_commentOpen (d := d) hi hdrop
    exact (waits_comment (show 1 ≤ i + 4 by omega) hinside hbody).of_step hopen
  | angle hlength =>
    have hstep := step_angle (d := d) hi hdrop
    rw [if_pos hlength] at hstep
    exact Waits.now hstep rfl

/-- The scanner stops with the answer that the search for a visible end gives. -/
def Agrees (input : String8) (d i : Nat) (w : String8) : Prop :=
  ∃ t, Leads input (visibleAt d i) t ∧ t.step input = none ∧
    t.complete = (doctypeDelimiters.scan .visible d 0 w i).isSome

theorem Agrees.of_waits {w : String8} (h : Waits input (visibleAt d i))
    (hscan : doctypeDelimiters.scan .visible d 0 w i = none) : Agrees input d i w := by
  obtain ⟨t, hleads, hstop, hcomplete⟩ := h
  exact ⟨t, hleads, hstop, by rw [hcomplete, hscan]; rfl⟩

theorem Agrees.of_leads {e j : Nat} {w v : String8} (h : Agrees input e j v)
    (hleads : Leads input (visibleAt d i) (visibleAt e j))
    (hscan : doctypeDelimiters.scan .visible d 0 w i = doctypeDelimiters.scan .visible e 0 v j) :
    Agrees input d i w := by
  obtain ⟨t, hrest, hstop, hcomplete⟩ := h
  exact ⟨t, Relation.ReflTransGen.trans hleads hrest, hstop, by rw [hcomplete, hscan]⟩

/-- The search for a visible end passes a literal. -/
theorem scan_literal {body : String8} (hquote : isQuote q = true) (hbody : q ∉ body) :
    doctypeDelimiters.scan .visible d 0 (q :: (body ++ q :: rest)) i =
      doctypeDelimiters.scan .visible d 0 rest (i + (body.length + 2)) := by
  have hblock (p : String8) : doctypeDelimiters.blockAt d (q :: p) = none := by
    have hangle : q ≠ ('<' : Character8) := by
      cases isQuote_cases hquote with
      | inl h => rw [h]; decide
      | inr h => rw [h]; decide
    cases d with
    | zero => exact readsText_doctype.blockAt hangle p
    | succ d => exact (readsMarkup_doctype d).blockAt hangle p
  have hcovers : doctypeDelimiters.Covers d (q :: (body ++ [q])) d :=
    Delimiters.Covers.literal hblock hquote hbody
  rw [show q :: (body ++ q :: rest) = (q :: (body ++ [q])) ++ rest by simp, hcovers.reads]
  simp

theorem blockAt_subset (d : Nat) (text : String8) :
    doctypeDelimiters.blockAt (d + 1) text =
      if (str "<!--").isPrefixOf text then some (str "<!--", str "-->")
      else if (str "<?").isPrefixOf text then some (str "<?", str "?>")
      else none := find_subsetBlocks text

/-- A left angle bracket that opens nothing. -/
theorem blockAt_angle {w : String8} (hcomment : ¬ str "!--" <+: w)
    (hinstruction : 0 < d → ¬ str "?" <+: w) :
    doctypeDelimiters.blockAt d (('<' : Character8) :: w) = none := by
  cases d with
  | zero => rfl
  | succ d =>
    rw [blockAt_subset, if_neg, if_neg]
    · rw [List.isPrefixOf_iff_prefix]
      exact fun h ↦ hinstruction (Nat.succ_pos d) (List.cons_prefix_cons.1 h).2
    · rw [List.isPrefixOf_iff_prefix]
      exact fun h ↦ hcomment (List.cons_prefix_cons.1 h).2

theorem scan_angle {w : String8} (hcomment : ¬ str "!--" <+: w)
    (hinstruction : 0 < d → ¬ str "?" <+: w) :
    doctypeDelimiters.scan .visible d 0 (('<' : Character8) :: w) i =
      doctypeDelimiters.scan .visible d 0 w (i + 1) := by
  have hnext : doctypeDelimiters.next d ('<' : Character8) = some d := by
    cases d with
    | zero => rfl
    | succ d => exact (readsMarkup_doctype d).angle _ (by decide)
  exact doctypeDelimiters.scan_visible_step (blockAt_angle hcomment hinstruction) (by decide) hnext i

/-- Two bytes hold no more than the opener of a block. -/
theorem scan_block_short {text : String8} {b : String8 × String8} (hlength : text.length ≤ 2)
    (hblock : doctypeDelimiters.blockAt d text = some b) :
    doctypeDelimiters.scan .visible d 0 text i = none := by
  cases d with
  | zero => cases hblock
  | succ d =>
    have hfour : (str "<!--").length = 4 := by decide
    have htwo : (str "<?").length = 2 := by decide
    have hsome := hblock
    rw [blockAt_subset] at hsome
    by_cases hcomment : (str "<!--").isPrefixOf text = true
    · have hle := (List.isPrefixOf_iff_prefix.1 hcomment).length_le
      omega
    rw [if_neg hcomment] at hsome
    by_cases hinstruction : (str "<?").isPrefixOf text = true
    · rw [if_pos hinstruction] at hsome
      rw [← Option.some.inj hsome] at hblock
      rw [doctypeDelimiters.scan_visible_block hblock (by decide),
        List.drop_eq_nil_of_le (show text.length ≤ (str "<?").length by omega),
        Delimiters.scan_nil]
    · rw [if_neg hinstruction] at hsome
      cases hsome

theorem next_eq_none_iff : doctypeDelimiters.next d c = none ↔ d = 0 ∧ c = ('>' : Character8) := by
  show (if c = ('[' : Character8) then some (d + 1)
    else if c = (']' : Character8) ∧ 0 < d then some (d - 1)
    else if c = ('>' : Character8) ∧ d = 0 then none else some d) = none ↔ _
  by_cases hopen : c = ('[' : Character8)
  · rw [if_pos hopen, hopen]
    constructor
    · intro h
      cases h
    · exact fun h ↦ absurd h.2 (by decide)
  rw [if_neg hopen]
  by_cases hclose : c = (']' : Character8) ∧ 0 < d
  · rw [if_pos hclose]
    constructor
    · intro h
      cases h
    · intro h
      omega
  rw [if_neg hclose]
  by_cases hend : c = ('>' : Character8) ∧ d = 0
  · rw [if_pos hend]
    exact ⟨fun _ ↦ ⟨hend.2, hend.1⟩, fun _ ↦ rfl⟩
  · rw [if_neg hend]
    constructor
    · intro h
      cases h
    · exact fun h ↦ absurd ⟨h.2, h.1⟩ hend

theorem scan_one (hend : ¬ (d = 0 ∧ c = ('>' : Character8))) :
    doctypeDelimiters.scan .visible d 0 [c] i = none := by
  cases hblock : doctypeDelimiters.blockAt d [c] with
  | some b => exact scan_block_short (by simp) hblock
  | none =>
    by_cases hquote : isQuote c = true
    · rw [doctypeDelimiters.scan_visible_quote hblock hquote, Delimiters.scan_nil]
    · cases hnext : doctypeDelimiters.next d c with
      | none => exact absurd (next_eq_none_iff.1 hnext) hend
      | some t =>
        rw [doctypeDelimiters.scan_visible_step hblock (Bool.eq_false_iff.2 hquote) hnext,
          Delimiters.scan_nil]

theorem scan_two {e : Character8} (hend : ¬ EndsShortly d [c, e]) :
    doctypeDelimiters.scan .visible d 0 [c, e] i = none := by
  cases hblock : doctypeDelimiters.blockAt d [c, e] with
  | some b => exact scan_block_short (by simp) hblock
  | none =>
    by_cases hquote : isQuote c = true
    · rw [doctypeDelimiters.scan_visible_quote hblock hquote, Delimiters.scan_quoted_cons,
        Delimiters.scan_nil]
    have hquote := Bool.eq_false_iff.2 hquote
    cases hnext : doctypeDelimiters.next d c with
    | none =>
      obtain ⟨rfl, rfl⟩ := next_eq_none_iff.1 hnext
      exact absurd (EndsShortly.now [e]) hend
    | some t =>
      rw [doctypeDelimiters.scan_visible_step hblock hquote hnext]
      apply scan_one
      rintro ⟨rfl, rfl⟩
      apply hend
      -- The end is at depth 0: there was a closing bracket, or nothing has changed.
      have hdepth : (if c = ('[' : Character8) then some (d + 1)
          else if c = (']' : Character8) ∧ 0 < d then some (d - 1)
          else if c = ('>' : Character8) ∧ d = 0 then none else some d) = some 0 := hnext
      by_cases hopen : c = ('[' : Character8)
      · rw [if_pos hopen] at hdepth
        exact absurd (Option.some.inj hdepth) (Nat.succ_ne_zero d)
      rw [if_neg hopen] at hdepth
      by_cases hclose : c = (']' : Character8) ∧ 0 < d
      · rw [if_pos hclose] at hdepth
        have hone : d = 1 := by
          have hzero := Option.some.inj hdepth
          omega
        rw [hone, hclose.1]
        exact EndsShortly.bracket
      · rw [if_neg hclose] at hdepth
        have hzero : d = 0 := by
          split at hdepth
          · cases hdepth
          · exact Option.some.inj hdepth
        rw [hzero]
        exact EndsShortly.next hquote hopen

/-- Two bytes behind a left angle bracket hold no end unless it follows shortly. -/
theorem scan_short {w : String8} (hlength : w.length < 3) (hend : ¬ EndsShortly d w) :
    doctypeDelimiters.scan .visible d 0 (('<' : Character8) :: w) i = none := by
  have hthree : (str "!--").length = 3 := by decide
  have hcomment : ¬ str "!--" <+: w := fun h ↦ by
    have hle := h.length_le
    omega
  by_cases hinstruction : 0 < d ∧ str "?" <+: w
  · obtain ⟨d, rfl⟩ : ∃ e, d = e + 1 := ⟨d - 1, by omega⟩
    have hblock : doctypeDelimiters.blockAt (d + 1) (('<' : Character8) :: w) =
        some (str "<?", str "?>") := by
      have hfirst : ¬ (str "<!--").isPrefixOf (('<' : Character8) :: w) = true := by
        rw [List.isPrefixOf_iff_prefix]
        exact fun h ↦ hcomment (List.cons_prefix_cons.1 h).2
      have hsecond : (str "<?").isPrefixOf (('<' : Character8) :: w) = true := by
        rw [List.isPrefixOf_iff_prefix]
        exact List.cons_prefix_cons.2 ⟨rfl, hinstruction.2⟩
      rw [blockAt_subset, if_neg hfirst, if_pos hsecond]
    rw [doctypeDelimiters.scan_visible_block hblock (by decide)]
    show doctypeDelimiters.scan (.block (str "?>")) (d + 1) 0
      (List.drop (str "<?").length (('<' : Character8) :: w)) (i + (str "<?").length) = none
    apply doctypeDelimiters.scan_block_open
    -- One byte is left behind the opener, and the closer has two.
    intro k hk hclose
    have htwo : (str "?>").length = 2 := by decide
    have hopener : (str "<?").length = 2 := by decide
    have hle := hclose.length_le
    rw [List.length_drop, List.length_drop, List.length_cons] at hle
    omega
  · rw [scan_angle hcomment fun hd h ↦ hinstruction ⟨hd, h⟩]
    match w with
    | [] => exact Delimiters.scan_nil _ _ _ _ _
    | [c] =>
      apply scan_one
      rintro ⟨rfl, rfl⟩
      exact hend (EndsShortly.now [])
    | [c, e] => exact scan_two hend
    | _ :: _ :: _ :: w =>
      simp only [List.length_cons] at hlength
      omega

theorem agrees_of_steady {w : String8} (h : Steady d w) (hi : 1 ≤ i)
    (hdrop : input.drop (i - 1) = w) : Agrees input d i w := by
  induction h generalizing i with
  | nil d => exact Agrees.of_waits (waits_of_drop_nil hi hdrop rfl) (Delimiters.scan_nil _ _ _ _ _)
  | @char d t c w hquote hangle hnext _ ih =>
    have hblock : doctypeDelimiters.blockAt d (c :: w) = none := by
      cases d with
      | zero => exact readsText_doctype.blockAt hangle w
      | succ d => exact (readsMarkup_doctype d).blockAt hangle w
    exact (ih (show 1 ≤ i + 1 by omega) (drop_of_cons hi hdrop).2.2).of_leads
      (Relation.ReflTransGen.single (step_char hi hdrop hquote hangle hnext))
      (doctypeDelimiters.scan_visible_step hblock hquote hnext i)
  | ends w =>
    refine ⟨_, Relation.ReflTransGen.single (step_ends hi hdrop), step_done (Or.inr rfl), ?_⟩
    rw [doctypeDelimiters.scan_visible_end (readsText_doctype.blockAt (by decide) w) (by decide)
      (by decide)]
    rfl
  | @literal d q body w hquote hbody _ ih =>
    have hbehind : input.drop (i + (body.length + 2) - 1) = w := by
      rw [show i + (body.length + 2) - 1 = i - 1 + (q :: (body ++ [q])).length by
        simp only [List.length_cons, List.length_append, List.length_nil]
        omega, ← List.drop_drop, hdrop]
      rw [show q :: (body ++ q :: w) = (q :: (body ++ [q])) ++ w by simp, List.drop_left]
    exact (ih (show 1 ≤ i + (body.length + 2) by omega) hbehind).of_leads
      (leads_literal hi hdrop hquote hbody) (scan_literal hquote hbody)
  | @openLiteral d q body hquote hbody =>
    refine Agrees.of_waits (waits_literal hi hdrop hquote hbody) ?_
    have hblock : doctypeDelimiters.blockAt d (q :: body) = none := by
      have hangle : q ≠ ('<' : Character8) := by
        cases isQuote_cases hquote with
        | inl h => rw [h]; decide
        | inr h => rw [h]; decide
      cases d with
      | zero => exact readsText_doctype.blockAt hangle body
      | succ d => exact (readsMarkup_doctype d).blockAt hangle body
    have hread := doctypeDelimiters.scan_quoted_body (s := d) hbody [] (i + 1)
    rw [List.append_nil, Delimiters.scan_nil] at hread
    rw [doctypeDelimiters.scan_visible_quote hblock hquote, hread]
  | @comment d body w hbody _ ih =>
    obtain ⟨hopen, hinside⟩ := step_commentOpen (d := d + 1) hi hdrop
    have hread := leads_comment (d := d + 1) (show 1 ≤ i + 4 by omega) hinside hbody
    have hfour : (str "<!--").length = 4 := by decide
    have hthree : (str "-->").length = 3 := by decide
    have hbehind : input.drop (i + 4 + (body.length + 3) - 1) = w := by
      rw [show i + 4 + (body.length + 3) - 1 = i + 4 - 1 + (body ++ str "-->").length by
        rw [List.length_append]
        omega, ← List.drop_drop, hinside, ← List.append_assoc body, List.drop_left]
    refine (ih (show 1 ≤ i + 4 + (body.length + 3) by omega) hbehind).of_leads
      (Relation.ReflTransGen.head hopen hread) ?_
    rw [doctypeDelimiters.scan_visible_block (b := (str "<!--", str "-->")) rfl (by decide)]
    show doctypeDelimiters.scan (.block (str "-->")) (d + 1) 0
      (List.drop (str "<!--").length (str "<!--" ++ (body ++ (str "-->" ++ w))))
      (i + (str "<!--").length) = _
    rw [List.drop_left, ← List.append_assoc body, doctypeDelimiters.scan_block_body hbody,
      doctypeDelimiters.scan_block_close (by decide), hfour, hthree,
      show i + 4 + body.length + 3 = i + 4 + (body.length + 3) by omega]
  | @openComment d body hbody =>
    obtain ⟨hopen, hinside⟩ := step_commentOpen (d := d + 1) hi hdrop
    refine Agrees.of_waits
      ((waits_comment (show 1 ≤ i + 4 by omega) hinside hbody).of_step hopen) ?_
    rw [doctypeDelimiters.scan_visible_block (b := (str "<!--", str "-->")) rfl (by decide)]
    show doctypeDelimiters.scan (.block (str "-->")) (d + 1) 0
      (List.drop (str "<!--").length (str "<!--" ++ body)) (i + (str "<!--").length) = none
    rw [List.drop_left]
    exact doctypeDelimiters.scan_block_open hbody _
  | @instruction d body w hbody hskims _ ih =>
    have htwo : (str "<?").length = 2 := by decide
    have hclose : (str "?>").length = 2 := by decide
    have htext : input.drop (i - 1) = (str "<?" ++ (body ++ str "?>")) ++ w := by
      rw [hdrop]
      simp only [List.append_assoc]
    have hscan : doctypeDelimiters.scan .visible (d + 1) 0 (str "<?" ++ (body ++ (str "?>" ++ w))) i =
        doctypeDelimiters.scan .visible (d + 1) 0 w
          (i + (str "<?" ++ (body ++ str "?>")).length) := by
      rw [doctypeDelimiters.scan_visible_block (b := (str "<?", str "?>")) rfl (by decide)]
      show doctypeDelimiters.scan (.block (str "?>")) (d + 1) 0
        (List.drop (str "<?").length (str "<?" ++ (body ++ (str "?>" ++ w))))
        (i + (str "<?").length) = _
      rw [List.drop_left, ← List.append_assoc body, doctypeDelimiters.scan_block_body hbody,
        doctypeDelimiters.scan_block_close (by decide), List.length_append, List.length_append,
        show i + (str "<?").length + body.length + (str "?>").length =
          i + ((str "<?").length + (body.length + (str "?>").length)) by omega]
    cases leads_skims hskims hi htext with
    | inl hleads =>
      have hbehind : input.drop (i + (str "<?" ++ (body ++ str "?>")).length - 1) = w := by
        rw [show i + (str "<?" ++ (body ++ str "?>")).length - 1 =
          i - 1 + (str "<?" ++ (body ++ str "?>")).length by omega, ← List.drop_drop, htext,
          List.drop_left]
      exact (ih (by omega) hbehind).of_leads hleads hscan
    | inr hwaits =>
      obtain ⟨rfl, hwaits⟩ := hwaits
      refine Agrees.of_waits hwaits ?_
      rw [hscan, Delimiters.scan_nil]
  | @openInstruction d t body u v hbody hskims hunfinished hsplit =>
    have hwaits : Waits input (visibleAt (d + 1) i) := by
      have htext : input.drop (i - 1) = u ++ v := by rw [hdrop, hsplit]
      cases leads_skims hskims hi htext with
      | inl hleads =>
        have hbehind : input.drop (i + u.length - 1) = v := by
          rw [show i + u.length - 1 = i - 1 + u.length by omega, ← List.drop_drop, htext,
            List.drop_left]
        exact (waits_unfinished hunfinished (by omega) hbehind).of_leads hleads
      | inr hwaits => exact hwaits.2
    refine Agrees.of_waits hwaits ?_
    rw [doctypeDelimiters.scan_visible_block (b := (str "<?", str "?>")) rfl (by decide)]
    show doctypeDelimiters.scan (.block (str "?>")) (d + 1) 0
      (List.drop (str "<?").length (str "<?" ++ body)) (i + (str "<?").length) = none
    rw [List.drop_left]
    exact doctypeDelimiters.scan_block_open hbody _
  | @angle d w hlength hcomment hinstruction _ ih =>
    have hstep := step_angle (d := d) hi hdrop
    rw [if_neg (by omega), if_neg hcomment] at hstep
    exact (ih (show 1 ≤ i + 1 by omega) (drop_of_cons hi hdrop).2.2).of_leads
      (Relation.ReflTransGen.single hstep) (scan_angle hcomment hinstruction)
  | @short d w hlength hend =>
    have hstep := step_angle (d := d) hi hdrop
    rw [if_pos hlength] at hstep
    exact Agrees.of_waits (Waits.now hstep rfl) (scan_short hlength hend)

end DoctypePrefix

/-! ## Every way of cutting the input into chunks -/

section

variable {callbacks : DtdCallbacks}

theorem doctypeRun_concat (chunks : List String8) (chunk : String8) :
    doctypeRun callbacks (chunks ++ [chunk]) = (doctypeRun callbacks chunks).feed callbacks chunk := by
  unfold doctypeRun
  rw [List.foldl_append]
  rfl

theorem hasInitialDoctype_iff {input : String8} :
    hasInitialDoctype input = true ↔ str "<!DOCTYPE" <+: input := List.isPrefixOf_iff_prefix

/-- The scanner has read all that has arrived, or has not begun. -/
theorem doctypeRun_eq (hcallbacks : canBufferDoctypePrefix callbacks = true)
    (chunks : List String8) :
    (doctypeRun callbacks chunks).buffer = chunks.flatten ∧
      (doctypeRun callbacks chunks).scanner =
        (if str "<!DOCTYPE" <+: chunks.flatten then
          doctypePrefixScanner.scan chunks.flatten (DoctypePrefix.visibleAt 0 10)
        else {}) ∧
      (doctypeRun callbacks chunks).waits =
        (decide (str "<!DOCTYPE" <+: chunks.flatten) &&
          !(doctypeRun callbacks chunks).scanner.complete) := by
  induction chunks using List.reverseRecOn with
  | nil =>
    refine ⟨rfl, ?_, ?_⟩
    · rw [if_neg (by decide)]
      rfl
    · rw [decide_eq_false (by decide), Bool.false_and]
      rfl
  | append_singleton chunks chunk ih =>
    obtain ⟨hbuffer, hscanner, -⟩ := ih
    have hflatten : (chunks ++ [chunk]).flatten = chunks.flatten ++ chunk := by
      rw [List.flatten_append, List.flatten_singleton]
    rw [doctypeRun_concat, hflatten]
    unfold DoctypeRun.feed shouldWaitForDoctypePrefix
    rw [hbuffer, hscanner]
    by_cases hbefore : str "<!DOCTYPE" <+: chunks.flatten
    · have hnow := hbefore.trans (List.prefix_append chunks.flatten chunk)
      have hresume := doctypePrefixScanner.scan_append chunks.flatten chunk
        (s := DoctypePrefix.visibleAt 0 10) (by decide)
      rw [if_pos hbefore, if_pos hnow, hasInitialDoctype_iff.2 hnow, hcallbacks,
        decide_eq_true hnow]
      simp only [Bool.not_false, Bool.and_true, Bool.true_and]
      by_cases hcomplete : (doctypePrefixScanner.scan chunks.flatten
          (DoctypePrefix.visibleAt 0 10)).complete = true
      · -- The scanner has found the end, and is not asked again.
        rw [if_neg (by rw [hcomplete]; decide), hcomplete]
        refine ⟨trivial, ?_, rfl⟩
        rw [← hresume]
        exact (ResumingScanner.scan_eq Relation.ReflTransGen.refl
          (DoctypePrefix.step_done (Or.inr hcomplete))).symm
      · have hindex : 10 ≤ (doctypePrefixScanner.scan chunks.flatten
            (DoctypePrefix.visibleAt 0 10)).scanIndex :=
          ResumingScanner.Leads.index_le (R := doctypePrefixScanner)
            (s := DoctypePrefix.visibleAt 0 10) ResumingScanner.leads_scan
        rw [if_pos (by rw [Bool.eq_false_iff.2 hcomplete]; rfl), if_neg (by omega),
          DoctypePrefix.scanFrom_eq]
        refine ⟨trivial, ?_, rfl⟩
        exact hresume
    · rw [if_neg hbefore, hcallbacks]
      simp only [Bool.not_false, Bool.and_true, Bool.true_and]
      by_cases hnow : str "<!DOCTYPE" <+: chunks.flatten ++ chunk
      · rw [if_pos hnow, if_pos (hasInitialDoctype_iff.2 hnow), if_pos trivial,
          decide_eq_true hnow, DoctypePrefix.scanFrom_eq]
        exact ⟨trivial, rfl, rfl⟩
      · have hno : ¬ hasInitialDoctype (chunks.flatten ++ chunk) = true :=
          fun h ↦ hnow (hasInitialDoctype_iff.1 h)
        rw [if_neg hnow, if_neg hno, decide_eq_false hnow]
        exact ⟨trivial, rfl, rfl⟩

variable (callbacks) in
/-- However the bytes were cut, the answer is that of `find_doctype_end` on all of them. -/
theorem doctypeRun_agrees (hcallbacks : canBufferDoctypePrefix callbacks = true)
    (chunks : List String8)
    (hstart : str "<!DOCTYPE" <+: chunks.flatten ∨ chunks.flatten <+: str "<!DOCTYPE")
    (hsteady : Steady 0 (chunks.flatten.drop 9)) :
    ((doctypeRun callbacks chunks).scanner.complete = true ↔
      findDoctypeEnd chunks.flatten 1 ≠ 0) ∧
    (str "<!DOCTYPE" <+: chunks.flatten →
      (doctypeRun callbacks chunks).waits = !(doctypeRun callbacks chunks).scanner.complete) ∧
    ∀ others : List String8, others.flatten = chunks.flatten →
      (doctypeRun callbacks others).scanner = (doctypeRun callbacks chunks).scanner ∧
        (doctypeRun callbacks others).waits = (doctypeRun callbacks chunks).waits := by
  obtain ⟨-, hscanner, hwaits⟩ := doctypeRun_eq hcallbacks chunks
  refine ⟨?_, ?_, ?_⟩
  · have hfind := findDoctypeEnd_eq [] chunks.flatten
    rw [List.nil_append] at hfind
    rw [hscanner, show (1 : Nat) = ([] : String8).length + 1 from rfl, hfind]
    by_cases hnow : str "<!DOCTYPE" <+: chunks.flatten
    · rw [if_pos hnow]
      obtain ⟨t, hleads, hstop, hcomplete⟩ :=
        DoctypePrefix.agrees_of_steady hsteady (show 1 ≤ 10 by omega) rfl
      rw [ResumingScanner.scan_eq hleads hstop, hcomplete]
      show _ ↔ (doctypeDelimiters.scan .visible 0 0 (chunks.flatten.drop 9) 10).getD 0 ≠ 0
      cases hscan : doctypeDelimiters.scan .visible 0 0 (chunks.flatten.drop 9) 10 with
      | none => decide
      | some k =>
        have hle := doctypeDelimiters.le_of_scan hscan
        rw [Option.getD_some]
        exact ⟨fun _ ↦ by omega, fun _ ↦ rfl⟩
    · rw [if_neg hnow]
      have hshort := (hstart.resolve_left hnow).length_le
      have hnine : (str "<!DOCTYPE").length = 9 := by decide
      rw [List.drop_eq_nil_of_le (by omega), Delimiters.scan_nil]
      decide
  · intro hnow
    rw [hwaits, decide_eq_true hnow, Bool.true_and]
  · intro others heq
    obtain ⟨-, hscanner', hwaits'⟩ := doctypeRun_eq hcallbacks others
    have hsame : (doctypeRun callbacks others).scanner = (doctypeRun callbacks chunks).scanner := by
      rw [hscanner, hscanner', heq]
    exact ⟨hsame, by rw [hwaits, hwaits', hsame, heq]⟩

theorem doctypeRun_agrees_comment :
    (doctypeRun {} [str "<!DOCTYPE a[<!-", str "-'--", str ">]>"]).waits = false ∧
      findDoctypeEnd (str "<!DOCTYPE a[<!--'-->]>") 1 ≠ 0 := by
  have hsteady : Steady 0 (str " a[<!--'-->]>") := by
    refine .char (c := ' ') (t := 0) (by decide) (by decide) (by decide) ?_
    refine .char (c := 'a') (t := 0) (by decide) (by decide) (by decide) ?_
    refine .char (c := '[') (t := 1) (by decide) (by decide) (by decide) ?_
    show Steady (0 + 1) (str "<!--" ++ (str "'" ++ (str "-->" ++ str "]>")))
    refine .comment ?_ ?_
    · intro k hk
      have hone : (str "'").length = 1 := by decide
      cases k with
      | zero => decide
      | succ k => omega
    · refine .char (c := ']') (t := 0) (by decide) (by decide) (by decide) ?_
      exact .ends []
  have h := doctypeRun_agrees {} (by decide)
    [str "<!DOCTYPE a[<!-", str "-'--", str ">]>"] (Or.inl (by decide)) hsteady
  have hcomplete :
      (doctypeRun {} [str "<!DOCTYPE a[<!-", str "-'--", str ">]>"]).scanner.complete = true := by
    decide
  refine ⟨?_, h.1.1 hcomplete⟩
  rw [h.2.1 (by decide), hcomplete]
  rfl

/-- A quote in a processing instruction opens a literal for the scanner, which never sees the end; and
a bracket there can make it see an end that is none. -/
theorem doctypeRun_misreads_instruction :
    ((doctypeRun {} [str "<!DOCTYPE a [<?p '?>]>"]).scanner.complete = false ∧
      (doctypeRun {} [str "<!DOCTYPE a [<?p '?>]>"]).waits = true ∧
      findDoctypeEnd (str "<!DOCTYPE a [<?p '?>]>") 1 = 22) ∧
    (doctypeRun {} [str "<!DOCTYPE a [<?p ]?>"]).scanner.complete = true ∧
      findDoctypeEnd (str "<!DOCTYPE a [<?p ]?>") 1 = 0 := by
  decide

end

end Xpact.Native
