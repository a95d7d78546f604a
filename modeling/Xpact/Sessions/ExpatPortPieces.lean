import Xpact.Sessions.ExpatPort

/-!
# A document in pieces

What a session makes of a document that arrives in pieces.  `prologRest` is what the prolog leaves of
the bytes that have arrived; a document is torn when a call ends and leaves a part of `<?xml` there.
-/

namespace Xpact

open Library Session

namespace PortState

variable {s t : PortState} {unread : String8} {out out' : List Event} {ok ok' : Bool}

/-! ## How a document ends -/

/-- The outcome of a document of which `unread` is left in `s`. -/
def isComplete (s : PortState) (unread : String8) : Bool :=
  s.processor ≠ .error && unread.isEmpty && s.documentElementCount ≠ 0 && s.elementStack.isEmpty

/-- When all of a document is there, the session reports `out` and ends, successfully or not. -/
def Ends (s : PortState) (unread : String8) (out : List Event) (ok : Bool) : Prop :=
  ∃ t rest, (reader .text).Reads s unread out t rest ∧ (reader .text).Waits t rest ∧
    t.isComplete rest = ok

theorem Ends.unique (h : Ends s unread out ok) (h' : Ends s unread out' ok') :
    out = out' ∧ ok = ok' := by
  obtain ⟨t, rest, hreads, hwaits, rfl⟩ := h
  obtain ⟨t', rest', hreads', hwaits', rfl⟩ := h'
  obtain ⟨rfl, rfl, rfl⟩ := hreads.unique hwaits hreads' hwaits'
  exact ⟨rfl, rfl⟩

theorem Ends.of_reads {rest : String8} (hreads : (reader .text).Reads s unread out t rest)
    (h : Ends t rest out' ok) : Ends s unread (out ++ out') ok := by
  obtain ⟨u, rest', hreads', hwaits, hok⟩ := h
  exact ⟨u, rest', hreads.trans hreads', hwaits, hok⟩

/-- Every document ends: the session `atEnd` would be in that state. -/
theorem ends_exists (s : PortState) (unread : String8) : ∃ out ok, Ends s unread out ok := by
  obtain ⟨out, t, hreads, hwaits, -⟩ := ExpatPortParseSession.follower.advance_reads
    (s := { toPortState := s, handler := .observing, buffer := unread })
    (rank s.processor + unread.length + 1) (fun _ ↦ rfl) (Nat.lt_succ_self _)
  exact ⟨out, _, t.toPortState, t.buffer, hreads, hwaits, rfl⟩

theorem waits_of_error (hs : s.processor = .error) : (reader .text).Waits s unread :=
  step_of_error hs

/-- After an error nothing is reported. -/
theorem ends_of_error (hs : s.processor = .error) : Ends s unread [] false := by
  refine ⟨s, unread, .refl _ _, waits_of_error hs, ?_⟩
  unfold isComplete
  rw [hs]
  rfl

/-- The next step decides the outcome. -/
theorem Ends.of_switch (processor : Processor)
    (hstep : (reader .text).step s unread = some (s.switch processor))
    (h : Ends { s with processor } unread out ok) : Ends s unread out ok :=
  .of_reads (.single hstep) h

/-- What no tag can begin with is refused in content. -/
theorem ends_of_declaration {c : Character8} {rest : String8} (hs : s.processor = .content)
    (hc : c = ('!' : Character8) ∨ c = ('?' : Character8)) :
    Ends s (('<' : Character8) :: c :: rest) [] false := by
  cases hstop : completeMarkupEnd (('<' : Character8) :: c :: rest) with
  | zero =>
    refine ⟨s, _, .refl _ _, ?_, ?_⟩
    · show (reader .text).step s _ = none
      rw [step_content hs, readContent_markup rfl, if_pos hstop]
    · unfold isComplete
      rw [List.isEmpty_cons, Bool.and_false]
      rfl
  | succ n =>
    have hne : completeMarkupEnd (('<' : Character8) :: c :: rest) ≠ 0 := by omega
    apply Ends.of_switch .error
    · rw [step_content hs, readContent_markup rfl, if_neg hne]
      have hitem : String8.item (('<' : Character8) :: c :: rest) 2 = c := rfl
      have hslash : c ≠ ('/' : Character8) := by
        rcases hc with rfl | rfl <;> decide
      unfold readTag
      rw [item_take_completeMarkupEnd hne, hitem, if_neg hslash, if_pos hc]
    · exact ends_of_error rfl

/-! ## The prolog -/

/-- How much the prolog takes off the beginning of the buffer: a white space, or `<?xml` to the next
`?>`. -/
def prologStep : String8 → Option Nat
  | [] => none
  | c :: rest =>
    if startsWith (c :: rest) (str "<?xml") then
      let close := findSequence (c :: rest) (str "?>") 1
      if close = 0 then none else some (close + 1)
    else if isXmlSpace c then
      some 1
    else
      none

def prologRestFrom : Nat → String8 → String8
  | 0, buffer => buffer
  | n + 1, buffer =>
    match prologStep buffer with
    | none => buffer
    | some count => prologRestFrom n (buffer.drop count)

/-- What the prolog leaves of the bytes that have arrived. -/
def prologRest (arrived : String8) : String8 := prologRestFrom arrived.length arrived

theorem prologStep_le {buffer : String8} {count : Nat} (h : prologStep buffer = some count) :
    0 < count ∧ count ≤ buffer.length := by
  cases buffer with
  | nil => exact nomatch h
  | cons c rest =>
    unfold prologStep at h
    dsimp only at h
    split at h
    · split at h
      · exact nomatch h
      · rename_i hclose
        have hend : 1 ≤ findSequenceIn (str "?>") (c :: rest) 1 ∧
            findSequenceIn (str "?>") (c :: rest) 1 + (str "?>").length ≤ 1 + (c :: rest).length :=
          findSequenceIn_le Nat.one_pos hclose
        have hlength : (str "?>").length = 2 := rfl
        obtain rfl := Option.some.inj h
        constructor
        · exact Nat.succ_pos _
        · show findSequenceIn (str "?>") (c :: rest) 1 + 1 ≤ _
          omega
    split at h
    · obtain rfl := Option.some.inj h
      exact ⟨Nat.one_pos, Nat.succ_pos _⟩
    · exact nomatch h

theorem startsWith_append {buffer marker : String8} (h : startsWith buffer marker = true)
    (more : String8) : startsWith (buffer ++ more) marker = true := by
  unfold startsWith at h ⊢
  rw [List.isPrefixOf_iff_prefix] at h ⊢
  exact h.trans (List.prefix_append _ _)

theorem startsWith_cons {c d : Character8} {rest marker : String8}
    (h : startsWith (c :: rest) (d :: marker) = true) : c = d ∧ startsWith rest marker = true := by
  unfold startsWith at h ⊢
  rw [List.isPrefixOf_cons_cons, Bool.and_eq_true, beq_iff_eq] at h
  exact ⟨h.1.symm, h.2⟩

theorem prologStep_append {buffer : String8} {count : Nat} (h : prologStep buffer = some count)
    (more : String8) : prologStep (buffer ++ more) = some count := by
  cases buffer with
  | nil => exact nomatch h
  | cons c rest =>
    rw [← h, List.cons_append]
    unfold prologStep at h ⊢
    dsimp only at h ⊢
    by_cases hxml : startsWith (c :: rest) (str "<?xml") = true
    · rw [if_pos hxml] at h ⊢
      rw [← List.cons_append, if_pos (startsWith_append hxml more)]
      split at h
      · exact nomatch h
      · rename_i hclose
        have happend : findSequence ((c :: rest) ++ more) (str "?>") 1 =
            findSequence (c :: rest) (str "?>") 1 := findSequenceIn_append hclose more
        rw [happend]
    · rw [if_neg hxml] at h
      split at h
      · rename_i hspace
        have hlate : ¬startsWith (c :: (rest ++ more)) (str "<?xml") = true := by
          intro hlate
          have hc : c = ('<' : Character8) := (startsWith_cons hlate).1
          rw [hc] at hspace
          exact absurd hspace (by decide)
        rw [if_neg hxml, if_neg hlate]
      · exact nomatch h

theorem prologRestFrom_of_le {n : Nat} {buffer : String8} (hn : buffer.length ≤ n) :
    prologRestFrom n buffer = prologRest buffer := by
  unfold prologRest
  generalize hm : buffer.length = m
  rw [hm] at hn
  have hle : buffer.length ≤ m := by omega
  clear hm
  induction m generalizing n buffer with
  | zero =>
    obtain rfl : buffer = [] := List.length_eq_zero_iff.1 (by omega)
    cases n <;> rfl
  | succ m ih =>
    cases n with
    | zero => omega
    | succ n =>
      unfold prologRestFrom
      cases hstep : prologStep buffer with
      | none => rfl
      | some count =>
        have hcount := prologStep_le hstep
        apply ih
        · omega
        · rw [List.length_drop]
          omega

theorem prologRest_of_none {buffer : String8} (h : prologStep buffer = none) :
    prologRest buffer = buffer := by
  unfold prologRest
  cases buffer with
  | nil => rfl
  | cons c rest =>
    show prologRestFrom (rest.length + 1) _ = _
    unfold prologRestFrom
    rw [h]

theorem prologRest_of_some {buffer : String8} {count : Nat} (h : prologStep buffer = some count) :
    prologRest buffer = prologRest (buffer.drop count) := by
  have hcount := prologStep_le h
  cases buffer with
  | nil => exact nomatch h
  | cons c rest =>
    show prologRestFrom (rest.length + 1) _ = _
    unfold prologRestFrom
    rw [h]
    apply prologRestFrom_of_le
    rw [List.length_drop, List.length_cons]
    omega

/-- The session that reads the prolog. -/
def inProlog : PortState := { processor := .prolog }

/-- The session that looks for the document element. -/
def inContent : PortState := { processor := .content }

/-- Does a comment or a document type begin here, which the prolog refuses? -/
def isRefusedInProlog (buffer : String8) : Bool :=
  startsWith buffer (str "<!--") || startsWith buffer (str "<!DOCTYPE")

theorem not_startsWith_text {c : Character8} {rest : String8} (hc : c ≠ ('<' : Character8))
    (marker : String8) : ¬startsWith (c :: rest) (('<' : Character8) :: marker) = true :=
  fun hstarts ↦ hc (startsWith_cons hstarts).1

theorem isRefusedInProlog_text {c : Character8} {rest : String8} (hc : c ≠ ('<' : Character8)) :
    (startsWith (c :: rest) (str "<!--") || startsWith (c :: rest) (str "<!DOCTYPE")) = false := by
  rw [Bool.or_eq_false_iff]
  constructor
  · exact Bool.eq_false_iff.2 (not_startsWith_text hc (str "!--"))
  · exact Bool.eq_false_iff.2 (not_startsWith_text hc (str "!DOCTYPE"))

theorem readProlog_of_some (s : PortState) {buffer : String8} {count : Nat}
    (h : prologStep buffer = some count) : s.readProlog buffer = some (s.skip count) := by
  cases buffer with
  | nil => exact nomatch h
  | cons c rest =>
    unfold prologStep at h
    unfold readProlog
    dsimp only at h ⊢
    by_cases hxml : startsWith (c :: rest) (str "<?xml") = true
    · rw [if_pos hxml] at h ⊢
      split at h
      · exact nomatch h
      · rename_i hclose
        rw [if_neg hclose, ← Option.some.inj h]
    · rw [if_neg hxml] at h ⊢
      split at h
      · rename_i hspace
        have hc : c ≠ ('<' : Character8) := by
          rintro rfl
          exact absurd hspace (by decide)
        rw [isRefusedInProlog_text hc, if_neg Bool.false_ne_true, if_neg hc, if_pos hspace,
          Option.some.inj h]
      · exact nomatch h

/-- The prolog waits when nothing has arrived, or the declaration has not ended. -/
theorem readProlog_of_waiting (s : PortState) {buffer : String8} (h : prologStep buffer = none)
    (hwaiting : buffer = [] ∨ startsWith buffer (str "<?xml") = true) :
    s.readProlog buffer = none := by
  cases buffer with
  | nil => rfl
  | cons c rest =>
    have hxml : startsWith (c :: rest) (str "<?xml") = true :=
      hwaiting.resolve_left (List.cons_ne_nil c rest)
    unfold prologStep at h
    unfold readProlog
    dsimp only at h ⊢
    rw [if_pos hxml] at h ⊢
    split at h
    · rename_i hclose
      exact if_pos hclose
    · exact nomatch h

/-- What the prolog refuses begins with `<!`. -/
theorem isRefusedInProlog_markup {rest : String8}
    (h : isRefusedInProlog (('<' : Character8) :: rest) = true) :
    ∃ more, rest = ('!' : Character8) :: more := by
  have hmarker (marker : String8)
      (hstarts : startsWith (('<' : Character8) :: rest) (str "<!" ++ marker) = true) :
      ∃ more, rest = ('!' : Character8) :: more := by
    have hrest : startsWith rest (('!' : Character8) :: marker) = true := (startsWith_cons hstarts).2
    cases rest with
    | nil => exact nomatch hrest
    | cons c more => exact ⟨more, by rw [(startsWith_cons hrest).1]⟩
  unfold isRefusedInProlog at h
  rw [Bool.or_eq_true] at h
  rcases h with h | h
  · exact hmarker (str "--") h
  · exact hmarker (str "DOCTYPE") h

theorem readProlog_markup (s : PortState) {rest : String8}
    (hxml : ¬startsWith (('<' : Character8) :: rest) (str "<?xml") = true) :
    s.readProlog (('<' : Character8) :: rest) =
      some (s.switch (if isRefusedInProlog (('<' : Character8) :: rest) then .error else .content)) := by
  unfold readProlog isRefusedInProlog
  dsimp only
  rw [if_neg hxml, if_pos rfl, apply_ite (fun processor ↦ some (s.switch processor))]

theorem readProlog_text (s : PortState) {c : Character8} {rest : String8}
    (hc : c ≠ ('<' : Character8)) (hspace : isXmlSpace c = false) :
    s.readProlog (c :: rest) = some (s.switch .error) := by
  have hxml : ¬startsWith (c :: rest) (str "<?xml") = true := not_startsWith_text hc (str "?xml")
  unfold readProlog
  dsimp only
  rw [if_neg hxml, isRefusedInProlog_text hc, if_neg hc, hspace, if_neg Bool.false_ne_true]
  exact if_neg Bool.false_ne_true

/-- The prolog takes what it can, whatever arrives behind it. -/
theorem prologRest_spec (arrived : String8) :
    prologStep (prologRest arrived) = none ∧
      (∀ more, (reader .text).Reads inProlog (arrived ++ more) [] inProlog
        (prologRest arrived ++ more)) ∧
      ∀ more, prologRest (arrived ++ more) = prologRest (prologRest arrived ++ more) := by
  generalize hn : arrived.length = n
  induction n using Nat.strong_induction_on generalizing arrived with
  | _ n ih =>
    cases hstep : prologStep arrived with
    | none =>
      rw [prologRest_of_none hstep]
      exact ⟨hstep, fun more ↦ .refl _ _, fun more ↦ rfl⟩
    | some count =>
      have hcount := prologStep_le hstep
      rw [prologRest_of_some hstep]
      obtain ⟨hrest, hreads, happend⟩ := ih (arrived.drop count).length
        (by rw [List.length_drop]; omega) (arrived.drop count) rfl
      refine ⟨hrest, fun more ↦ ?_, fun more ↦ ?_⟩
      · have hread : (reader .text).step inProlog (arrived ++ more) = some (inProlog.skip count) := by
          rw [step_prolog rfl]
          exact readProlog_of_some inProlog (prologStep_append hstep more)
        have hfirst := Reader.Reads.single hread
        show (reader .text).Reads inProlog (arrived ++ more) ([] ++ []) inProlog _
        apply hfirst.trans
        rw [show (inProlog.skip count).count = count from rfl,
          List.drop_append_of_le_length hcount.2]
        exact hreads more
      · rw [prologRest_of_some (prologStep_append hstep more),
          List.drop_append_of_le_length hcount.2]
        exact happend more

/-! ## Torn documents -/

/-- `rest` is a beginning of `<?xml` which `later` goes on with. -/
def isTornAt (rest later : String8) : Bool :=
  !rest.isEmpty && decide (rest.length < 5) && startsWith (rest ++ later) (str "<?xml")

/-- Does one of the calls for `pieces` end and leave such a beginning in the prolog?  `arrived` is what
has arrived before. -/
def isTornFrom (arrived : String8) : List String8 → String8 → Bool
  | [], _ => false
  | piece :: pieces, last =>
    isTornAt (prologRest (arrived ++ piece)) (pieces.flatten ++ last) ||
      isTornFrom (arrived ++ piece) pieces last

theorem isTornAt_of_waiting {rest later : String8}
    (h : rest = [] ∨ startsWith rest (str "<?xml") = true) : isTornAt rest later = false := by
  unfold isTornAt
  rcases h with rfl | hxml
  · rfl
  · unfold startsWith at hxml
    have hlength : 5 ≤ rest.length := (List.isPrefixOf_iff_prefix.1 hxml).length_le
    rw [decide_eq_false (by omega), Bool.and_false]
    rfl

theorem isTornAt_of_later {rest later : String8} (hrest : rest ≠ [])
    (hxml : ¬startsWith rest (str "<?xml") = true)
    (hlater : startsWith (rest ++ later) (str "<?xml") = true) : isTornAt rest later = true := by
  have hlength : rest.length < 5 := by
    by_contra hlong
    apply hxml
    unfold startsWith at hlater ⊢
    rw [List.isPrefixOf_iff_prefix] at hlater ⊢
    exact List.prefix_of_prefix_length_le hlater (List.prefix_append _ _) (Nat.le_of_not_lt hlong)
  unfold isTornAt
  rw [hlater, decide_eq_true hlength, List.isEmpty_eq_false_iff.2 hrest]
  rfl

/-- When the prolog has ended with bytes that are no beginning of `<?xml`, nothing is torn any more. -/
theorem isTornFrom_of_ended {arrived last : String8} {pieces : List String8} {c : Character8}
    {rest : String8} (hrest : prologRest arrived = c :: rest) (hspace : isXmlSpace c = false)
    (hxml : ¬startsWith (c :: rest ++ (pieces.flatten ++ last)) (str "<?xml") = true) :
    isTornFrom arrived pieces last = false := by
  induction pieces generalizing arrived rest with
  | nil => rfl
  | cons piece pieces ih =>
    rw [List.flatten_cons, List.append_assoc, ← List.append_assoc, List.cons_append] at hxml
    have hnext : prologRest (arrived ++ piece) = c :: (rest ++ piece) := by
      rw [(prologRest_spec arrived).2.2 piece, hrest, List.cons_append]
      apply prologRest_of_none
      unfold prologStep
      dsimp only
      rw [if_neg fun hstarts ↦ hxml (startsWith_append hstarts _), hspace]
      exact if_neg Bool.false_ne_true
    unfold isTornFrom isTornAt
    rw [hnext, Bool.eq_false_iff.2 hxml, Bool.and_false, Bool.false_or]
    exact ih hnext hxml

/-! ## Pieces -/

theorem readsChunks_of_error {chunks : List String8} {rest : String8} (hs : s.processor = .error)
    (h : (reader .text).ReadsChunks s unread chunks out t rest) : out = [] ∧ t = s := by
  induction h with
  | nil s unread => exact ⟨rfl, rfl⟩
  | cons hreads _ _ ih =>
    cases hreads with
    | step hstep => exact nomatch (step_of_error hs).symm.trans hstep
    | refl =>
      obtain ⟨rfl, rfl⟩ := ih hs
      exact ⟨rfl, rfl⟩

theorem isComplete_of_error (hs : s.processor = .error) : s.isComplete unread = false := by
  unfold isComplete
  rw [hs]
  rfl

/-- In content the pieces make no difference. -/
theorem content_chunks {chunks : List String8} {rest : String8}
    (hchunks : (reader .text).ReadsChunks inContent [] chunks out t rest)
    (hwaits : (reader .text).Waits t rest) (h : Ends inContent chunks.flatten out' ok') :
    joinText.Same out out' ∧ t.isComplete rest = ok' := by
  obtain ⟨u, rest', hreads, hwaits', rfl⟩ := h
  have hlater : inContent.Later := ⟨Processor.noConfusion, Processor.noConfusion⟩
  obtain ⟨hsame, rfl, rfl⟩ :=
    coarsens_reader.chunks stable_reader hlater hchunks hwaits hreads hwaits'
  exact ⟨hsame, rfl⟩

/-- What begins like a tag ends in the prolog as in content. -/
theorem ends_inProlog_of_inContent {rest : String8}
    (hxml : ¬startsWith (('<' : Character8) :: rest) (str "<?xml") = true)
    (h : Ends inContent (('<' : Character8) :: rest) out ok) :
    Ends inProlog (('<' : Character8) :: rest) out ok := by
  have hstep : (reader .text).step inProlog (('<' : Character8) :: rest) = some (inProlog.switch
      (if isRefusedInProlog (('<' : Character8) :: rest) then .error else .content)) := by
    rw [step_prolog rfl, readProlog_markup _ hxml]
  by_cases hrefused : isRefusedInProlog (('<' : Character8) :: rest) = true
  · rw [if_pos hrefused] at hstep
    obtain ⟨more, rfl⟩ := isRefusedInProlog_markup hrefused
    obtain ⟨rfl, rfl⟩ := h.unique (ends_of_declaration rfl (.inl rfl))
    exact .of_switch _ hstep (ends_of_error rfl)
  · rw [if_neg hrefused] at hstep
    exact .of_switch _ hstep h

/-- What begins with `<?xml` is refused in content. -/
theorem ends_inContent_of_xml {buffer : String8} (h : startsWith buffer (str "<?xml") = true) :
    Ends inContent buffer [] false := by
  cases buffer with
  | nil => exact nomatch h
  | cons c rest =>
    obtain ⟨rfl, hrest⟩ := startsWith_cons h
    cases rest with
    | nil => exact nomatch hrest
    | cons d more =>
      obtain ⟨rfl, -⟩ := startsWith_cons hrest
      exact ends_of_declaration rfl (.inr rfl)

/-- The processor of the beginning leaves at once. -/
theorem ends_of_prologInit (h : Ends {} unread out ok) : Ends inProlog unread out ok := by
  obtain ⟨out', ok', hends⟩ := ends_exists inProlog unread
  obtain ⟨rfl, rfl⟩ := h.unique (.of_switch _ (step_prologInit rfl) hends)
  exact hends

theorem readsChunks_of_prologInit {chunks : List String8} {chunk rest : String8}
    (h : (reader .text).ReadsChunks {} [] (chunks ++ [chunk]) out t rest) :
    (reader .text).ReadsChunks inProlog [] (chunks ++ [chunk]) out t rest := by
  have hstep (unread : String8) :
      (reader .text).step {} unread = some (switch {} .prolog) := step_prologInit rfl
  cases hchunks : chunks ++ [chunk] with
  | nil => exact absurd hchunks (List.append_ne_nil_of_right_ne_nil _ (List.cons_ne_nil _ _))
  | cons first more =>
    rw [hchunks] at h
    cases h with
    | cons hreads hwaits hmore =>
      cases hreads with
      | refl => exact nomatch (hstep _).symm.trans hwaits
      | step htaken hrest =>
        obtain rfl := Option.some.inj ((hstep _).symm.trans htaken)
        exact .cons hrest hwaits hmore

/-- What the prolog does where it takes nothing: it waits, or it leaves with an error or to the
content. -/
theorem prolog_cases {buffer : String8} (h : prologStep buffer = none) :
    (buffer = [] ∨ startsWith buffer (str "<?xml") = true) ∨
      ∃ c rest, buffer = c :: rest ∧ isXmlSpace c = false ∧
        (((reader .text).step inProlog buffer = some (inProlog.switch .error) ∧
            ∀ later, ¬startsWith (buffer ++ later) (str "<?xml") = true ∧
              Ends inProlog (buffer ++ later) [] false) ∨
          (c = '<' ∧ ¬startsWith buffer (str "<?xml") = true ∧
            (reader .text).step inProlog buffer = some (inProlog.switch .content))) := by
  cases buffer with
  | nil => exact .inl (.inl rfl)
  | cons c rest =>
    by_cases hxml : startsWith (c :: rest) (str "<?xml") = true
    · exact .inl (.inr hxml)
    right
    unfold prologStep at h
    dsimp only at h
    rw [if_neg hxml] at h
    have hspace : isXmlSpace c = false := by
      cases hspace : isXmlSpace c with
      | false => rfl
      | true =>
        rw [if_pos hspace] at h
        exact nomatch h
    refine ⟨c, rest, rfl, hspace, ?_⟩
    rw [step_prolog rfl]
    by_cases hc : c = ('<' : Character8)
    · obtain rfl := hc
      rw [readProlog_markup _ hxml]
      by_cases hrefused : isRefusedInProlog (('<' : Character8) :: rest) = true
      · left
        obtain ⟨more, rfl⟩ := isRefusedInProlog_markup hrefused
        refine ⟨by rw [if_pos hrefused], fun later ↦ ?_⟩
        have hlater : ¬startsWith (('<' : Character8) :: '!' :: more ++ later) (str "<?xml") = true :=
          fun hstarts ↦ absurd (startsWith_cons (startsWith_cons hstarts).2).1 (by decide)
        exact ⟨hlater, ends_inProlog_of_inContent hlater (ends_of_declaration rfl (.inl rfl))⟩
      · exact .inr ⟨rfl, hxml, by rw [if_neg hrefused]⟩
    · left
      refine ⟨readProlog_text _ hc hspace, fun later ↦ ?_⟩
      constructor
      · exact not_startsWith_text hc (str "?xml")
      · apply Ends.of_switch .error
        · rw [step_prolog rfl]
          exact readProlog_text _ hc hspace
        · exact ends_of_error rfl

/-- The document is the same in pieces, unless it is torn; then it is refused, and nothing is
reported.  By induction on the pieces, while the session is in the prolog. -/
theorem pieces_ends {pieces : List String8} {last arrived rest : String8}
    (hwaiting : prologRest arrived = [] ∨ startsWith (prologRest arrived) (str "<?xml") = true)
    (hchunks : (reader .text).ReadsChunks inProlog (prologRest arrived) (pieces ++ [last]) out t rest)
    (hwaits : (reader .text).Waits t rest)
    (hwhole : Ends inProlog (prologRest arrived ++ (pieces.flatten ++ last)) out' ok') :
    (isTornFrom arrived pieces last = true → out = [] ∧ t.isComplete rest = false) ∧
      (isTornFrom arrived pieces last = false →
        joinText.Same out out' ∧ t.isComplete rest = ok') := by
  induction pieces generalizing arrived out with
  | nil =>
    cases hchunks with
    | cons hreads hwaits' hnil =>
      cases hnil
      have hlast : Ends inProlog (prologRest arrived ++ last) _ _ := ⟨t, rest, hreads, hwaits, rfl⟩
      obtain ⟨rfl, rfl⟩ := hlast.unique hwhole
      refine ⟨fun h ↦ Bool.noConfusion h, fun _ ↦ ⟨?_, rfl⟩⟩
      rw [List.append_nil]
      exact .refl _
  | cons piece pieces ih =>
    cases hchunks with
    | @cons _ u _ _ _ unread _ _ first more hreads hwaits' hmore =>
    obtain ⟨hstop, hprolog, happend⟩ := prologRest_spec (prologRest arrived ++ piece)
    have hrest : prologRest (arrived ++ piece) = prologRest (prologRest arrived ++ piece) :=
      (prologRest_spec arrived).2.2 piece
    rw [← hrest] at hstop hprolog happend
    have hhere := hprolog []
    rw [List.append_nil, List.append_nil] at hhere
    have hwhole : Ends inProlog (prologRest (arrived ++ piece) ++ (pieces.flatten ++ last)) out' ok' := by
      obtain ⟨o, k, hends⟩ := ends_exists inProlog
        (prologRest (arrived ++ piece) ++ (pieces.flatten ++ last))
      rw [List.flatten_cons, List.append_assoc, ← List.append_assoc] at hwhole
      obtain ⟨rfl, rfl⟩ := hwhole.unique (.of_reads (hprolog _) hends)
      exact hends
    unfold isTornFrom
    generalize hr : prologRest (arrived ++ piece) = r at *
    rcases prolog_cases hstop with hstays | ⟨c, rest', rfl, hspace, hleaves⟩
    · have hwaitsHere : (reader .text).Waits inProlog r := by
        rw [Reader.Waits, step_prolog rfl]
        exact readProlog_of_waiting _ hstop hstays
      obtain ⟨rfl, rfl, rfl⟩ := hhere.unique hwaitsHere hreads hwaits'
      rw [isTornAt_of_waiting hstays, Bool.false_or, List.nil_append]
      rw [← hr] at hmore hwhole hstays
      exact ih hstays hmore hwhole
    have htorn (hxml : ¬startsWith (c :: rest' ++ (pieces.flatten ++ last)) (str "<?xml") = true) :
        (isTornAt (c :: rest') (pieces.flatten ++ last) || isTornFrom (arrived ++ piece) pieces last) =
          false := by
      rw [isTornFrom_of_ended hr hspace hxml, Bool.or_false]
      unfold isTornAt
      rw [Bool.eq_false_iff.2 hxml, Bool.and_false]
    rcases hleaves with ⟨hstep, hrefused⟩ | ⟨rfl, hxml, hstep⟩
    · -- The session refuses the document here, and the whole of it too.
      have herror : (reader .text).Reads inProlog (prologRest arrived ++ piece) [] _ (c :: rest') :=
        hhere.trans (.single hstep)
      obtain ⟨rfl, rfl, rfl⟩ := herror.unique (waits_of_error rfl) hreads hwaits'
      obtain ⟨rfl, rfl⟩ := readsChunks_of_error rfl hmore
      obtain ⟨hxml, hends⟩ := hrefused (pieces.flatten ++ last)
      obtain ⟨rfl, rfl⟩ := hwhole.unique hends
      rw [htorn hxml]
      refine ⟨fun h ↦ Bool.noConfusion h, fun _ ↦ ⟨.refl [], isComplete_of_error rfl⟩⟩
    · -- The session goes to the content, where the pieces make no difference.
      obtain ⟨o, k, t', rest'', hreads', hwaits'', -⟩ :=
        ends_exists inContent (('<' : Character8) :: rest')
      have hcontent : (reader .text).Reads inProlog (prologRest arrived ++ piece) o t' rest'' :=
        hhere.trans (Reader.Reads.trans (.single hstep) hreads')
      obtain ⟨rfl, rfl, rfl⟩ := hreads.unique hwaits' hcontent hwaits''
      have hall : (reader .text).ReadsChunks inContent []
          ((('<' : Character8) :: rest') :: (pieces ++ [last])) (first ++ more) t rest :=
        .cons hreads' hwaits' hmore
      obtain ⟨o', k', hends⟩ := ends_exists inContent
        (('<' : Character8) :: rest' ++ (pieces.flatten ++ last))
      have hsame := content_chunks hall hwaits (by
        rw [List.flatten_cons, List.flatten_append, List.flatten_singleton]
        exact hends)
      by_cases hlater : startsWith (('<' : Character8) :: rest' ++ (pieces.flatten ++ last))
          (str "<?xml") = true
      · obtain ⟨rfl, rfl⟩ := hends.unique (ends_inContent_of_xml hlater)
        rw [isTornAt_of_later (List.cons_ne_nil _ _) hxml hlater, Bool.true_or]
        exact ⟨fun _ ↦ ⟨hsame.1.eq_nil, hsame.2⟩, fun h ↦ Bool.noConfusion h⟩
      · rw [htorn hlater]
        obtain ⟨rfl, rfl⟩ := hwhole.unique (ends_inProlog_of_inContent hlater hends)
        exact ⟨fun h ↦ Bool.noConfusion h, fun _ ↦ hsame⟩

end PortState

namespace PortState

variable {out : List Event} {ok : Bool}

/-! ## What opens a document -/

/-- Does a start tag that can be read follow the prolog? -/
def opensDocument (document : String8) : Bool :=
  let rest := prologRest document
  let stop := completeMarkupEnd rest
  rest.head? == some ('<' : Character8) && stop ≠ 0 && rest.item 2 ≠ '/' &&
    !(rest.item 2 = '!' ∨ rest.item 2 = '?' : Bool) && (readStartTag (rest.take stop)).isOk

theorem isComplete_of_count {s : PortState} (hs : s.documentElementCount = 0) (unread : String8) :
    s.isComplete unread = false := by
  unfold isComplete
  rw [hs]
  cases unread.isEmpty <;> simp

/-- Does the tag at the beginning of `rest` open an element? -/
def OpensElement (rest : String8) : Prop :=
  completeMarkupEnd rest ≠ 0 ∧ rest.item 2 ≠ '/' ∧ ¬(rest.item 2 = '!' ∨ rest.item 2 = '?') ∧
    (readStartTag (rest.take (completeMarkupEnd rest))).isOk = true

theorem opensDocument_iff {document : String8} :
    opensDocument document = true ↔
      ∃ rest, prologRest document = ('<' : Character8) :: rest ∧
        OpensElement (('<' : Character8) :: rest) := by
  unfold opensDocument OpensElement
  simp only [Bool.and_eq_true, beq_iff_eq, Bool.not_eq_true', decide_eq_true_eq,
    decide_eq_false_iff_not]
  cases prologRest document with
  | nil =>
    constructor
    · intro h
      exact nomatch h.1.1.1.1
    · rintro ⟨rest, hrest, -⟩
      exact nomatch hrest
  | cons c rest =>
    constructor
    · rintro ⟨⟨⟨⟨hc, hstop⟩, hslash⟩, hmark⟩, htag⟩
      obtain rfl := Option.some.inj hc
      exact ⟨rest, rfl, hstop, hslash, hmark, htag⟩
    · rintro ⟨rest', hrest, hstop, hslash, hmark, htag⟩
      rw [hrest]
      exact ⟨⟨⟨⟨rfl, hstop⟩, hslash⟩, hmark⟩, htag⟩

theorem readTag_opens {rest : String8} (h : OpensElement rest) :
    (inContent.readTag (rest.take (completeMarkupEnd rest))).out ≠ [] := by
  obtain ⟨hstop, hslash, hmark, htag⟩ := h
  unfold readTag
  rw [item_take_completeMarkupEnd hstop, if_neg hslash, if_neg hmark]
  unfold readStart
  cases htag' : readStartTag (rest.take (completeMarkupEnd rest)) with
  | error message =>
    rw [htag'] at htag
    exact nomatch htag
  | ok tag =>
    dsimp only
    split <;> exact List.cons_ne_nil _ _

/-- There is no element that another tag could end. -/
theorem readTag_refuses {rest : String8} (hstop : completeMarkupEnd rest ≠ 0)
    (h : ¬OpensElement rest) :
    inContent.readTag (rest.take (completeMarkupEnd rest)) = inContent.switch .error := by
  unfold readTag
  rw [item_take_completeMarkupEnd hstop]
  by_cases hslash : rest.item 2 = '/'
  · rw [if_pos hslash]
    unfold readEnd
    split
    · rfl
    · exact if_pos (Option.some_ne_none _).symm
  rw [if_neg hslash]
  by_cases hmark : rest.item 2 = '!' ∨ rest.item 2 = '?'
  · rw [if_pos hmark]
  rw [if_neg hmark]
  unfold readStart
  cases htag : readStartTag (rest.take (completeMarkupEnd rest)) with
  | error message => rfl
  | ok tag => exact absurd ⟨hstop, hslash, hmark, by rw [htag]; rfl⟩ h

/-- A tag is read in content, and the reader goes on or has reported an error. -/
theorem ends_inContent_of_tag {rest : String8}
    (hstop : completeMarkupEnd (('<' : Character8) :: rest) ≠ 0)
    (h : Ends inContent (('<' : Character8) :: rest) out ok) :
    let k := inContent.readTag ((('<' : Character8) :: rest).take
      (completeMarkupEnd (('<' : Character8) :: rest)))
    ∃ more, out = k.out ++ more ∧
      Ends k.next ((('<' : Character8) :: rest).drop k.count) more ok := by
  intro k
  have hstep : (reader .text).step inContent (('<' : Character8) :: rest) = some k := by
    rw [step_content rfl, readContent_markup rfl, if_neg hstop]
  obtain ⟨more, ok', hends⟩ := ends_exists k.next ((('<' : Character8) :: rest).drop k.count)
  obtain ⟨rfl, rfl⟩ := h.unique (.of_reads (.single hstep) hends)
  exact ⟨more, rfl, hends⟩

/-- A document that is not opened is refused, and nothing is reported. -/
theorem ends_of_opensDocument {document : String8} (h : Ends inProlog document out ok) :
    (opensDocument document = true → out ≠ []) ∧
      (opensDocument document = false → out = [] ∧ ok = false) := by
  obtain ⟨hstop, hprolog, -⟩ := prologRest_spec document
  have hhere := hprolog []
  rw [List.append_nil, List.append_nil] at hhere
  obtain ⟨o, k, hends⟩ := ends_exists inProlog (prologRest document)
  obtain ⟨rfl, rfl⟩ := h.unique (.of_reads hhere hends)
  constructor
  · intro hopens
    obtain ⟨rest, hrest, hopens⟩ := opensDocument_iff.1 hopens
    rw [hrest] at hends
    have hxml : ¬startsWith (('<' : Character8) :: rest) (str "<?xml") = true := by
      intro hstarts
      have hrest : startsWith rest (str "?xml") = true := (startsWith_cons hstarts).2
      cases rest with
      | nil => exact nomatch hrest
      | cons c more => exact hopens.2.2.1 (.inr (startsWith_cons hrest).1)
    obtain ⟨o', k', hcontent⟩ := ends_exists inContent (('<' : Character8) :: rest)
    obtain ⟨rfl, rfl⟩ := hends.unique (ends_inProlog_of_inContent hxml hcontent)
    obtain ⟨more, hout, -⟩ := ends_inContent_of_tag hopens.1 hcontent
    rw [hout]
    exact List.append_ne_nil_of_left_ne_nil (readTag_opens hopens) more
  · intro hcloses
    rcases prolog_cases hstop with hstays | ⟨c, rest, hrest, -, hleaves⟩
    · apply hends.unique
      refine ⟨inProlog, _, .refl _ _, ?_, isComplete_of_count rfl _⟩
      rw [Reader.Waits, step_prolog rfl]
      exact readProlog_of_waiting _ hstop hstays
    rcases hleaves with ⟨-, hrefused⟩ | ⟨rfl, hxml, -⟩
    · have hnone := (hrefused []).2
      rw [List.append_nil] at hnone
      exact hends.unique hnone
    · rw [hrest] at hends hxml
      obtain ⟨o', k', hcontent⟩ := ends_exists inContent (('<' : Character8) :: rest)
      obtain ⟨rfl, rfl⟩ := hends.unique (ends_inProlog_of_inContent hxml hcontent)
      by_cases hend : completeMarkupEnd (('<' : Character8) :: rest) = 0
      · apply hcontent.unique
        refine ⟨inContent, _, .refl _ _, ?_, isComplete_of_count rfl _⟩
        rw [Reader.Waits, step_content rfl, readContent_markup rfl, if_pos hend]
      · obtain ⟨more, rfl, hmore⟩ := ends_inContent_of_tag hend hcontent
        rw [readTag_refuses hend fun hopens ↦ Bool.false_ne_true
          (hcloses.symm.trans (opensDocument_iff.2 ⟨rest, hrest, hopens⟩))] at hmore ⊢
        exact hmore.unique (ends_of_error rfl)

end PortState

namespace ExpatPortParseSession

open PortState

variable {s t : ExpatPortParseSession}

/-! ## Calls of the session -/

/-- A call reads what it is given, and stops where the reader waits. -/
theorem parse_reads (hnever : s.handler.NeverStops) (input : String8) (isFinal : Bool) :
    ∃ (out : List Event) (t : ExpatPortParseSession),
      (reader .text).Reads s.toPortState (s.buffer ++ input) out t.toPortState t.buffer ∧
      (reader .text).Waits t.toPortState t.buffer ∧
      t.events = s.events ++ out ∧ t.handler = s.handler ∧ t.finalBuffer = isFinal ∧
      s.parse input isFinal = note t.atEnd := by
  have hrank : rank s.processor ≤ 2 := by
    cases s.processor <;> decide
  obtain ⟨out, t, hreads, hwaits, hevents, hsettings, hparse⟩ := follower.advance_reads
    (s := { s with buffer := s.buffer ++ input, finalBuffer := isFinal })
    ((s.buffer ++ input).length + 3) hnever (by
      show rank s.processor + (s.buffer ++ input).length < _
      omega)
  exact ⟨out, t, hreads, hwaits, hevents, congrArg Prod.fst hsettings, congrArg Prod.snd hsettings,
    congrArg note hparse⟩

/-- The last call. -/
theorem note_atEnd_of_final (h : t.finalBuffer = true) :
    (note t.atEnd).1 = (if t.isComplete t.buffer then .finished else .error) ∧
      (note t.atEnd).2.events = t.events := by
  unfold atEnd finishOrNeedMore isComplete
  rw [h]
  by_cases herror : t.processor = .error
  · rw [if_pos herror, herror]
    exact ⟨rfl, rfl⟩
  rw [if_neg herror, show (t.processor ≠ .error : Bool) = true from decide_eq_true herror]
  cases hbuffer : t.buffer with
  | cons c rest => exact ⟨rfl, rfl⟩
  | nil =>
    dsimp only [List.isEmpty_nil]
    by_cases hcount : t.documentElementCount = 0
    · rw [hcount]
      exact ⟨rfl, rfl⟩
    · rw [if_neg hcount, show (t.documentElementCount ≠ 0 : Bool) = true from decide_eq_true hcount]
      cases t.elementStack.isEmpty <;> exact ⟨rfl, rfl⟩

/-- Another call. -/
theorem note_atEnd_of_not_final (h : t.finalBuffer = false) :
    (t.processor = .error ∧ (note t.atEnd).1 = .error ∧ (note t.atEnd).2.events = t.events) ∨
      note t.atEnd = (.needMore, t) := by
  unfold atEnd finishOrNeedMore
  rw [h]
  by_cases herror : t.processor = .error
  · rw [if_pos herror]
    exact .inl ⟨herror, rfl, rfl⟩
  · rw [if_neg herror]
    right
    cases List.isEmpty t.buffer <;> rfl

theorem readsChunks_of_refused {state : PortState} (hs : state.processor = .error) (unread : String8)
    (chunks : List String8) :
    (reader .text).ReadsChunks state unread chunks [] state (unread ++ chunks.flatten) := by
  induction chunks generalizing unread with
  | nil =>
    rw [List.flatten_nil, List.append_nil]
    exact .nil state unread
  | cons chunk chunks ih =>
    rw [List.flatten_cons, ← List.append_assoc]
    exact .cons (.refl _ _) (waits_of_error hs) (ih _)

/-- A session reads the pieces that it is given. -/
theorem parsePieces_reads (hnever : s.handler.NeverStops) (pieces : List String8) (last : String8) :
    ∃ out state rest,
      (reader .text).ReadsChunks s.toPortState s.buffer (pieces ++ [last]) out state rest ∧
      (reader .text).Waits state rest ∧ (s.parsePieces pieces last).2.events = s.events ++ out ∧
      (s.parsePieces pieces last).1 = if state.isComplete rest then .finished else .error := by
  induction pieces generalizing s with
  | nil =>
    obtain ⟨out, t, hreads, hwaits, hevents, -, hfinal, hparse⟩ := parse_reads hnever last true
    obtain ⟨hstatus, hkept⟩ := note_atEnd_of_final hfinal
    refine ⟨out ++ [], _, _, .cons hreads hwaits (.nil _ _), hwaits, ?_, ?_⟩
    · show (s.parse last true).2.events = _
      rw [hparse, hkept, hevents, List.append_nil]
    · show (s.parse last true).1 = _
      rw [hparse, hstatus]
  | cons piece pieces ih =>
    obtain ⟨out, t, hreads, hwaits, hevents, hhandler, hfinal, hparse⟩ :=
      parse_reads hnever piece false
    unfold parsePieces
    rw [hparse]
    rcases note_atEnd_of_not_final hfinal with ⟨herror, hstatus, hkept⟩ | hmore
    · generalize note t.atEnd = result at hstatus hkept
      obtain ⟨status, u⟩ := result
      obtain rfl : status = .error := hstatus
      refine ⟨out ++ [], _, _, .cons hreads hwaits (readsChunks_of_refused herror _ _),
        waits_of_error herror, ?_, ?_⟩
      · rw [List.append_nil, ← hevents]
        exact hkept
      · rw [isComplete_of_error herror]
        rfl
    · rw [hmore]
      obtain ⟨more, state, rest, hchunks, hstops, hmoreEvents, hmoreStatus⟩ :=
        ih (s := t) (by rw [hhandler]; exact hnever)
      refine ⟨out ++ more, state, rest, .cons hreads hwaits hchunks, hstops, ?_, hmoreStatus⟩
      show (t.parsePieces pieces last).2.events = _
      rw [hmoreEvents, hevents, List.append_assoc]

end ExpatPortParseSession

/-- Does a call that is not the last one end inside of a `<?xml` of the prolog? -/
def isTorn (pieces : List String8) (last : String8) : Bool := PortState.isTornFrom [] pieces last

open ExpatPortParseSession PortState in
/-- A session that is given a document in pieces, of which the last is final, ends as when it is given
the whole document at once, with the same events up to the pieces of text: if and only if the document
is not torn, or has no document element that it could report. -/
theorem expatPortSession_chunk_invariant (handler : Handler) (hnever : handler.NeverStops)
    (pieces : List String8) (last : String8) :
    let split := (ExpatPortParseSession.make handler).parsePieces pieces last
    let whole := (ExpatPortParseSession.make handler).parse (pieces.flatten ++ last) true
    (split.1 = whole.1 ∧ joinText.Same split.2.events whole.2.events) ↔
      ¬(isTorn pieces last = true ∧ opensDocument (pieces.flatten ++ last) = true) := by
  intro split whole
  obtain ⟨out, state, rest, hchunks, hwaits, hevents, hstatus⟩ :=
    parsePieces_reads (s := .make handler) hnever pieces last
  obtain ⟨wholeOut, t, hreads, hwholeWaits, hwholeEvents, -, hfinal, hparse⟩ :=
    parse_reads (s := .make handler) hnever (pieces.flatten ++ last) true
  obtain ⟨hwholeStatus, hkept⟩ := note_atEnd_of_final hfinal
  have hends : Ends inProlog (pieces.flatten ++ last) wholeOut (t.isComplete t.buffer) :=
    ends_of_prologInit ⟨_, _, hreads, hwholeWaits, rfl⟩
  have hpieces : (reader .text).ReadsChunks inProlog (prologRest []) (pieces ++ [last]) out state
      rest := readsChunks_of_prologInit hchunks
  obtain ⟨htorn, hwhole⟩ := pieces_ends (.inl rfl) hpieces hwaits hends
  obtain ⟨hopens, hcloses⟩ := ends_of_opensDocument hends
  have hsplitEvents : split.2.events = out := hevents
  have hwholeEvents : whole.2.events = wholeOut := by
    show (parse _ _ _).2.events = _
    rw [hparse, hkept, hwholeEvents]
    rfl
  have hwholeStatus : whole.1 = if t.isComplete t.buffer then .finished else .error := by
    show (parse _ _ _).1 = _
    rw [hparse, hwholeStatus]
  rw [hsplitEvents, hwholeEvents, hwholeStatus, show split.1 = _ from hstatus]
  show _ ↔ ¬(isTornFrom [] pieces last = true ∧ _)
  cases htears : isTornFrom [] pieces last with
  | false =>
    obtain ⟨hsame, hcomplete⟩ := hwhole htears
    rw [hcomplete]
    exact ⟨fun _ h ↦ Bool.false_ne_true h.1, fun _ ↦ ⟨rfl, hsame⟩⟩
  | true =>
    obtain ⟨rfl, hrefused⟩ := htorn htears
    rw [hrefused]
    cases hopen : opensDocument (pieces.flatten ++ last) with
    | true =>
      constructor
      · intro h
        exact absurd h.2.symm.eq_nil (hopens hopen)
      · intro h
        exact absurd ⟨rfl, rfl⟩ h
    | false =>
      obtain ⟨rfl, hcomplete⟩ := hcloses hopen
      rw [hcomplete]
      exact ⟨fun _ h ↦ Bool.false_ne_true h.2, fun _ ↦ ⟨rfl, .refl []⟩⟩

/-- The document is accepted, but not when the first call ends after its first byte. -/
theorem expatPortSession_torn :
    ¬∀ (handler : Handler), handler.NeverStops → ∀ (pieces : List String8) (last : String8),
      let split := (ExpatPortParseSession.make handler).parsePieces pieces last
      let whole := (ExpatPortParseSession.make handler).parse (pieces.flatten ++ last) true
      split.1 = whole.1 ∧ joinText.Same split.2.events whole.2.events := by
  intro h
  have hstatus := (h .observing (fun _ ↦ rfl) [str "<"] (str "?xml?><a/>")).1
  revert hstatus
  decide

theorem expatPortSession_chunk_invariant_torn :
    let split := (ExpatPortParseSession.make .observing).parsePieces [str "<"] (str "?xml?><a/>")
    let whole := (ExpatPortParseSession.make .observing).parse
      ([str "<"].flatten ++ str "?xml?><a/>") true
    (split.1 = whole.1 ∧ joinText.Same split.2.events whole.2.events) ↔
      ¬(isTorn [str "<"] (str "?xml?><a/>") = true ∧
        PortState.opensDocument ([str "<"].flatten ++ str "?xml?><a/>") = true) :=
  expatPortSession_chunk_invariant .observing (fun _ ↦ rfl) [str "<"] (str "?xml?><a/>")

end Xpact
