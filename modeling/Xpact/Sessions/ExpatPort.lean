import Xpact.Sessions.Markup

/-!
# The session that is modelled on Expat

`XP_EXPAT_PORT_PARSE_SESSION` reads the prolog, the content and the epilog of a document with three
processors.  The processor of the prolog hands the buffer over as soon as it begins with `<` and not
with `<?xml`, although the bytes that follow may complete it to `<?xml`; so the session refuses a
document when a call ends in the middle of `<?xml` (`expatPortSession_chunk_invariant`).
-/

namespace Xpact

open Library Session

inductive Processor where
  | prologInit | prolog | content | epilog | error
  deriving DecidableEq, Repr

/-- What decides how a session goes on. -/
structure PortState where
  processor : Processor := .prologInit
  /-- The open elements, innermost first. -/
  elementStack : List String8 := []
  documentElementCount : Nat := 0
  deriving DecidableEq

/-- `XP_EXPAT_PORT_PARSE_SESSION`. -/
structure ExpatPortParseSession extends PortState where
  handler : Handler
  buffer : String8 := []
  position : Position := {}
  lastError : String := ""
  currentByteCount : Nat := 0
  finalBuffer : Bool := false
  isFinished : Bool := false
  isSuspended : Bool := false
  /-- What the handler has received. -/
  events : List Event := []

/-- `starts_with`. -/
def startsWith (buffer marker : String8) : Bool := marker.isPrefixOf buffer

namespace ExpatPortParseSession

def make (handler : Handler) : ExpatPortParseSession := { handler }

variable (s : ExpatPortParseSession)

def setProcessor (processor : Processor) : ExpatPortParseSession := { s with processor }

def setError (message : String) : ExpatPortParseSession :=
  { s with lastError := message }.setProcessor .error

/-- Call a handler feature. -/
def emit (e : Event) : ExpatPortParseSession := { s with events := s.events ++ [e] }

def consumePrefix (count : Nat) : ExpatPortParseSession :=
  { s with
    position := s.position.update (s.buffer.take count)
    buffer := s.buffer.drop count }

def eventOrSuspended : Status × ExpatPortParseSession :=
  if s.handler.stopRequested s.events then (.suspended, s) else (.event, s)

def finishOrNeedMore : Status × ExpatPortParseSession :=
  if s.finalBuffer then
    if s.documentElementCount = 0 then (.error, s.setError "missing document element")
    else if !s.elementStack.isEmpty then (.error, s.setError "unclosed token")
    else if s.buffer.isEmpty then (.finished, s)
    else (.needMore, s)
  else
    (.needMore, s)

/-- Emit the start tag that ends at `stop`. -/
def processStartTag (stop : Nat) : Status × ExpatPortParseSession :=
  match readStartTag (s.buffer.take stop) with
  | .error message => (.error, s.setError message)
  | .ok tag =>
    let s :=
      if s.elementStack.isEmpty then { s with documentElementCount := s.documentElementCount + 1 }
      else s
    let s := s.emit (.startElement tag.name tag.attributes)
    let s :=
      if tag.isEmpty then
        let s := s.emit (.endElement tag.name)
        if s.elementStack.isEmpty then s.setProcessor .epilog else s
      else
        { s with elementStack := tag.name :: s.elementStack }
    ({ s with currentByteCount := stop }.consumePrefix stop).eventOrSuspended

/-- Emit the end tag that ends at `stop`. -/
def processEndTag (stop : Nat) : Status × ExpatPortParseSession :=
  match readEndTag (s.buffer.take stop) with
  | .error message => (.error, s.setError message)
  | .ok name =>
    if s.elementStack.head? ≠ some name then
      (.error, s.setError "mismatched end tag")
    else
      let s := { s with elementStack := s.elementStack.tail }.emit (.endElement name)
      let s := { s with currentByteCount := stop }.consumePrefix stop
      let s := if s.elementStack.isEmpty then s.setProcessor .epilog else s
      s.eventOrSuspended

def consumeProcessingInstructionLikeMarkup : Status × ExpatPortParseSession :=
  let close := findSequence s.buffer (str "?>") 1
  if close = 0 then
    if s.finalBuffer then (.error, s.setError "unclosed token") else (.needMore, s)
  else
    (.event, s.consumePrefix (close + 1))

def prologInitProcessor : Status × ExpatPortParseSession := (.event, s.setProcessor .prolog)

def prologProcessor : Status × ExpatPortParseSession :=
  match s.buffer with
  | [] => s.finishOrNeedMore
  | c :: _ =>
    if startsWith s.buffer (str "<?xml") then
      s.consumeProcessingInstructionLikeMarkup
    else if startsWith s.buffer (str "<!--") || startsWith s.buffer (str "<!DOCTYPE") then
      (.error, s.setError "unsupported prolog markup")
    else if c = '<' then
      (.event, s.setProcessor .content)
    else if isXmlSpace c then
      (.event, s.consumePrefix 1)
    else
      (.error, s.setError "character data outside document element")

def contentProcessor : Status × ExpatPortParseSession :=
  match s.buffer with
  | [] => s.finishOrNeedMore
  | c :: _ =>
    if c = '<' then
      let stop := completeMarkupEnd s.buffer
      if stop = 0 then
        if s.finalBuffer then (.error, s.setError "unclosed token") else (.needMore, s)
      else if s.buffer.item 2 = '/' then
        s.processEndTag stop
      else if s.buffer.item 2 = '!' ∨ s.buffer.item 2 = '?' then
        (.error, s.setError "unsupported content markup")
      else
        s.processStartTag stop
    else if s.elementStack.isEmpty then
      if isXmlSpace c then (.event, s.consumePrefix 1)
      else (.error, s.setError "character data outside document element")
    else
      let text := leadingText s.buffer
      let s := { s.emit (.characterData text) with currentByteCount := text.length }
      (s.consumePrefix text.length).eventOrSuspended

def epilogProcessor : Status × ExpatPortParseSession :=
  match s.buffer with
  | [] => s.finishOrNeedMore
  | c :: _ =>
    if isXmlSpace c then (.event, s.consumePrefix 1)
    else (.error, s.setError "junk after document element")

/-- Call the active processor. -/
def processOne : Status × ExpatPortParseSession :=
  match s.processor with
  | .prologInit => s.prologInitProcessor
  | .prolog => s.prologProcessor
  | .content => s.contentProcessor
  | .epilog => s.epilogProcessor
  | .error => (.error, s)

/-- Call the active processor until it blocks or stops.  A call that does neither consumes a byte, but
for the two that leave the beginning of the document. -/
def callProcessor : Status × ExpatPortParseSession := advance processOne (s.buffer.length + 3) s

/-- What a status makes of `parsing_status`, which is also that of a parse that goes on. -/
def note : Status × ExpatPortParseSession → Status × ExpatPortParseSession
  | (.finished, s) => (.finished, { s with isFinished := true })
  | (.suspended, s) => (.suspended, { s with isSuspended := true })
  | (.error, s) => (.error, { s with isFinished := true }.setProcessor .error)
  | result => result

def parse (input : String8) (isFinal : Bool) : Status × ExpatPortParseSession :=
  note { s with buffer := s.buffer ++ input, finalBuffer := isFinal }.callProcessor

/-- Parse a document in pieces, none of which is final but the last.  After an error there is no other
call, which `parse` requires. -/
def parsePieces (s : ExpatPortParseSession) : List String8 → String8 → Status × ExpatPortParseSession
  | [], last => s.parse last true
  | piece :: pieces, last =>
    match s.parse piece false with
    | (.error, s) => (.error, s)
    | (_, s) => s.parsePieces pieces last

end ExpatPortParseSession

/-! ## The session as a reader -/

namespace PortState

variable (s : PortState)

/-- Consume `count` bytes without a report. -/
def skip (count : Nat) : Taken PortState Event := ⟨count, [], s⟩

/-- Go on with another processor. -/
def switch (processor : Processor) : Taken PortState Event := ⟨0, [], { s with processor }⟩

/-- The state when a tag has ended: the document ends with its first element. -/
def afterTag : PortState := if s.elementStack.isEmpty then { s with processor := .epilog } else s

def readStart (tag : String8) : Taken PortState Event :=
  match readStartTag tag with
  | .error _ => s.switch .error
  | .ok t =>
    let s :=
      if s.elementStack.isEmpty then { s with documentElementCount := s.documentElementCount + 1 }
      else s
    if t.isEmpty then
      ⟨tag.length, [.startElement t.name t.attributes, .endElement t.name], s.afterTag⟩
    else
      ⟨tag.length, [.startElement t.name t.attributes],
        { s with elementStack := t.name :: s.elementStack }⟩

def readEnd (tag : String8) : Taken PortState Event :=
  match readEndTag tag with
  | .error _ => s.switch .error
  | .ok name =>
    if s.elementStack.head? ≠ some name then s.switch .error
    else ⟨tag.length, [.endElement name], { s with elementStack := s.elementStack.tail }.afterTag⟩

def readTag (tag : String8) : Taken PortState Event :=
  if tag.item 2 = '/' then s.readEnd tag
  else if tag.item 2 = '!' ∨ tag.item 2 = '?' then s.switch .error
  else s.readStart tag

def readProlog : String8 → Option (Taken PortState Event)
  | [] => none
  | c :: rest =>
    let buffer := c :: rest
    if startsWith buffer (str "<?xml") then
      let close := findSequence buffer (str "?>") 1
      if close = 0 then none else some (s.skip (close + 1))
    else if startsWith buffer (str "<!--") || startsWith buffer (str "<!DOCTYPE") then
      some (s.switch .error)
    else if c = '<' then
      some (s.switch .content)
    else if isXmlSpace c then
      some (s.skip 1)
    else
      some (s.switch .error)

def readContent (g : Grain) : String8 → Option (Taken PortState Event)
  | [] => none
  | c :: rest =>
    let buffer := c :: rest
    if c = '<' then
      let stop := completeMarkupEnd buffer
      if stop = 0 then none else some (s.readTag (buffer.take stop))
    else if s.elementStack.isEmpty then
      some (if isXmlSpace c then s.skip 1 else s.switch .error)
    else
      let text := g.take buffer
      some ⟨text.length, [.characterData text], s⟩

def readEpilog : String8 → Option (Taken PortState Event)
  | [] => none
  | c :: _ => some (if isXmlSpace c then s.skip 1 else s.switch .error)

/-- The session as a reader of bytes. -/
def reader (g : Grain) : Reader PortState Character8 Event where
  step s buffer :=
    match s.processor with
    | .prologInit => some (s.switch .prolog)
    | .prolog => s.readProlog buffer
    | .content => s.readContent g buffer
    | .epilog => s.readEpilog buffer
    | .error => none

section

variable {s} {g : Grain} {buffer : String8}

theorem step_prologInit (h : s.processor = .prologInit) :
    (reader g).step s buffer = some (s.switch .prolog) := by
  simp only [reader, h]

theorem step_prolog (h : s.processor = .prolog) :
    (reader g).step s buffer = s.readProlog buffer := by
  simp only [reader, h]

theorem step_content (h : s.processor = .content) :
    (reader g).step s buffer = s.readContent g buffer := by
  simp only [reader, h]

theorem step_epilog (h : s.processor = .epilog) :
    (reader g).step s buffer = s.readEpilog buffer := by
  simp only [reader, h]

theorem step_of_error (h : s.processor = .error) : (reader g).step s buffer = none := by
  simp only [reader, h]

end

section

variable {s} {g : Grain} {c : Character8} {rest : String8}

theorem readContent_markup (hc : c = ('<' : Character8)) :
    s.readContent g (c :: rest) =
      if completeMarkupEnd (c :: rest) = 0 then none
      else some (s.readTag ((c :: rest).take (completeMarkupEnd (c :: rest)))) := if_pos hc

theorem readContent_outside (hc : c ≠ ('<' : Character8)) (h : s.elementStack.isEmpty = true) :
    s.readContent g (c :: rest) = some (if isXmlSpace c then s.skip 1 else s.switch .error) := by
  simp only [readContent, if_neg hc, if_pos h]

theorem readContent_text (hc : c ≠ ('<' : Character8)) (h : s.elementStack.isEmpty = false) :
    s.readContent g (c :: rest) =
      some ⟨(g.take (c :: rest)).length, [.characterData (g.take (c :: rest))], s⟩ := by
  simp only [readContent, if_neg hc, h, Bool.false_eq_true, if_false]

end

/-- A tag is consumed with its `>`, or it is an error. -/
theorem readTag_cases (tag : String8) (hs : s.processor = .content) :
    ((s.readTag tag).count = tag.length ∧
        ((s.readTag tag).next.processor = .content ∨ (s.readTag tag).next.processor = .epilog)) ∨
      s.readTag tag = s.switch .error := by
  have hafter {t : PortState} (ht : t.processor = .content) :
      t.afterTag.processor = .content ∨ t.afterTag.processor = .epilog := by
    unfold afterTag
    split
    · exact .inr rfl
    · exact .inl ht
  unfold readTag
  split
  · unfold readEnd
    split
    · exact .inr rfl
    split
    · exact .inr rfl
    · exact .inl ⟨rfl, hafter hs⟩
  split
  · exact .inr rfl
  · unfold readStart
    split
    · exact .inr rfl
    · left
      dsimp only
      by_cases hroot : s.elementStack.isEmpty = true
      · rw [if_pos hroot]
        split
        · exact ⟨rfl, hafter hs⟩
        · exact ⟨rfl, .inl hs⟩
      · rw [if_neg hroot]
        split
        · exact ⟨rfl, hafter hs⟩
        · exact ⟨rfl, .inl hs⟩

/-- The processors that are still ahead before anything is consumed. -/
def rank : Processor → Nat
  | .prologInit => 2
  | .prolog => 1
  | _ => 0

/-- What a step leaves is less, unless it is an error; `s` has `k` taken from `buffer`. -/
def Progresses (s : PortState) (buffer : String8) (k : Taken PortState Event) : Prop :=
  k.count ≤ buffer.length ∧ (k.next.processor ≠ .error →
    rank k.next.processor + (buffer.length - k.count) < rank s.processor + buffer.length)

theorem progresses_error (s : PortState) (buffer : String8) : s.Progresses buffer (s.switch .error) :=
  ⟨Nat.zero_le _, fun h ↦ absurd rfl h⟩

theorem progresses_skip (s : PortState) {buffer : String8} {count : Nat} (hpos : 0 < count)
    (hle : count ≤ buffer.length) : s.Progresses buffer (s.skip count) := by
  refine ⟨hle, fun _ ↦ ?_⟩
  show rank s.processor + (buffer.length - count) < rank s.processor + buffer.length
  omega

theorem progresses_of_step {s : PortState} {g : Grain} {buffer : String8}
    {k : Taken PortState Event} (hstep : (reader g).step s buffer = some k) :
    s.Progresses buffer k := by
  cases hs : s.processor with
  | prologInit =>
    rw [step_prologInit hs] at hstep
    obtain rfl := Option.some.inj hstep
    refine ⟨Nat.zero_le _, fun _ ↦ ?_⟩
    rw [hs]
    exact Nat.add_lt_add_right (Nat.lt_succ_self 1) _
  | error => exact nomatch (step_of_error hs).symm.trans hstep
  | prolog =>
    rw [step_prolog hs] at hstep
    cases buffer with
    | nil => exact nomatch hstep
    | cons c rest =>
      unfold readProlog at hstep
      dsimp only at hstep
      split at hstep
      · split at hstep
        · exact nomatch hstep
        · rename_i hclose
          obtain rfl := Option.some.inj hstep
          have hend : 1 ≤ findSequenceIn (str "?>") (c :: rest) 1 ∧
              findSequenceIn (str "?>") (c :: rest) 1 + (str "?>").length ≤ 1 + (c :: rest).length :=
            findSequenceIn_le Nat.one_pos hclose
          apply progresses_skip
          · exact Nat.succ_pos _
          · have : (str "?>").length = 2 := rfl
            show findSequenceIn (str "?>") (c :: rest) 1 + 1 ≤ _
            omega
      split at hstep
      · obtain rfl := Option.some.inj hstep
        exact s.progresses_error _
      split at hstep
      · obtain rfl := Option.some.inj hstep
        refine ⟨Nat.zero_le _, fun _ ↦ ?_⟩
        rw [hs]
        exact Nat.add_lt_add_right (Nat.lt_succ_self 0) _
      split at hstep
      · obtain rfl := Option.some.inj hstep
        exact s.progresses_skip Nat.one_pos (Nat.succ_pos _)
      · obtain rfl := Option.some.inj hstep
        exact s.progresses_error _
  | content =>
    rw [step_content hs] at hstep
    cases buffer with
    | nil => exact nomatch hstep
    | cons c rest =>
      by_cases hc : c = ('<' : Character8)
      · rw [readContent_markup hc] at hstep
        split at hstep
        · exact nomatch hstep
        · rename_i hstop
          have hend := completeMarkupEnd_le hstop
          obtain rfl := Option.some.inj hstep
          rcases s.readTag_cases ((c :: rest).take (completeMarkupEnd (c :: rest))) hs with
            ⟨hcount, hnext⟩ | herror
          · rw [List.length_take_of_le hend.2] at hcount
            refine ⟨by omega, fun _ ↦ ?_⟩
            have hrank : rank (s.readTag ((c :: rest).take (completeMarkupEnd (c :: rest)))
                ).next.processor = 0 := by
              rcases hnext with h | h <;> rw [h] <;> rfl
            omega
          · rw [herror]
            exact s.progresses_error _
      · cases hopen : s.elementStack.isEmpty with
        | true =>
          rw [readContent_outside hc hopen] at hstep
          obtain rfl := Option.some.inj hstep
          split
          · exact s.progresses_skip Nat.one_pos (Nat.succ_pos _)
          · exact s.progresses_error _
        | false =>
          have htake := g.take_length hc rest
          rw [readContent_text hc hopen] at hstep
          obtain rfl := Option.some.inj hstep
          refine ⟨htake.2, fun _ ↦ ?_⟩
          show rank s.processor + ((c :: rest).length - (g.take (c :: rest)).length) < _
          omega
  | epilog =>
    rw [step_epilog hs] at hstep
    cases buffer with
    | nil => exact nomatch hstep
    | cons c rest =>
      obtain rfl := Option.some.inj hstep
      split
      · exact s.progresses_skip Nat.one_pos (Nat.succ_pos _)
      · exact s.progresses_error _

/-! ## Where the pieces make no difference -/

/-- The session has left the prolog. -/
def Later (s : PortState) : Prop := s.processor ≠ .prologInit ∧ s.processor ≠ .prolog

theorem later_switch (s : PortState) {processor : Processor} (h : processor ≠ .prologInit)
    (h' : processor ≠ .prolog) : (s.switch processor).next.Later := ⟨h, h'⟩

theorem later_of_step {g : Grain} {buffer : String8} {k : Taken PortState Event}
    (hs : s.Later) (hstep : (reader g).step s buffer = some k) : k.next.Later := by
  have herror : (s.switch .error).next.Later := later_switch s Processor.noConfusion
    Processor.noConfusion
  cases hprocessor : s.processor with
  | prologInit => exact absurd hprocessor hs.1
  | prolog => exact absurd hprocessor hs.2
  | error => exact nomatch (step_of_error hprocessor).symm.trans hstep
  | content =>
    rw [step_content hprocessor] at hstep
    cases buffer with
    | nil => exact nomatch hstep
    | cons c rest =>
      by_cases hc : c = ('<' : Character8)
      · rw [readContent_markup hc] at hstep
        split at hstep
        · exact nomatch hstep
        · obtain rfl := Option.some.inj hstep
          rcases s.readTag_cases ((c :: rest).take (completeMarkupEnd (c :: rest))) hprocessor with
            ⟨-, hnext⟩ | hfails
          · unfold Later
            rcases hnext with h | h <;> rw [h] <;> exact ⟨Processor.noConfusion, Processor.noConfusion⟩
          · rw [hfails]
            exact herror
      · cases hopen : s.elementStack.isEmpty with
        | true =>
          rw [readContent_outside hc hopen] at hstep
          obtain rfl := Option.some.inj hstep
          split
          · exact hs
          · exact herror
        | false =>
          rw [readContent_text hc hopen] at hstep
          obtain rfl := Option.some.inj hstep
          exact hs
  | epilog =>
    rw [step_epilog hprocessor] at hstep
    cases buffer with
    | nil => exact nomatch hstep
    | cons c rest =>
      obtain rfl := Option.some.inj hstep
      split
      · exact hs
      · exact herror

/-- Taken byte by byte, what is decided behind the prolog does not depend on what has not arrived. -/
theorem stable_reader : (reader .byte).Stable Later where
  count_le := fun _ hstep ↦ (progresses_of_step hstep).1
  next := later_of_step _
  step_append := by
    intro s buffer k hlater hstep more
    cases hs : s.processor with
    | prologInit => exact absurd hs hlater.1
    | prolog => exact absurd hs hlater.2
    | error => exact nomatch (step_of_error hs).symm.trans hstep
    | content =>
      rw [step_content hs] at hstep ⊢
      cases buffer with
      | nil => exact nomatch hstep
      | cons c rest =>
        rw [← hstep, List.cons_append]
        by_cases hc : c = ('<' : Character8)
        · rw [readContent_markup hc] at hstep
          rw [readContent_markup hc, readContent_markup hc]
          split at hstep
          · exact nomatch hstep
          · rename_i hstop
            rw [← List.cons_append, completeMarkupEnd_append hstop, if_neg hstop, if_neg hstop,
              List.take_append_of_le_length (completeMarkupEnd_le hstop).2]
        · cases hopen : s.elementStack.isEmpty with
          | true => rw [readContent_outside hc hopen, readContent_outside hc hopen]
          | false =>
            rw [readContent_text hc hopen, readContent_text hc hopen]
            rfl
    | epilog =>
      rw [step_epilog hs] at hstep ⊢
      cases buffer with
      | nil => exact nomatch hstep
      | cons c rest => exact hstep

/-- A text is read byte by byte. -/
theorem reads_bytes (text rest : String8) (htext : ∀ c ∈ text, c ≠ ('<' : Character8))
    (hs : s.processor = .content) (hopen : s.elementStack.isEmpty = false) :
    (reader .byte).Reads s (text ++ rest) (text.map fun c ↦ .characterData [c]) s rest := by
  induction text with
  | nil => exact .refl s rest
  | cons c text ih =>
    have hc : c ≠ ('<' : Character8) := htext c List.mem_cons_self
    have hstep : (reader .byte).step s (c :: (text ++ rest)) =
        some ⟨1, [.characterData [c]], s⟩ := by
      rw [step_content hs, readContent_text hc hopen]
      rfl
    exact .step hstep (ih fun d hd ↦ htext d (List.mem_cons_of_mem c hd))

/-- The two readers differ in texts only. -/
theorem step_eq_or (s : PortState) (buffer : String8) :
    (reader .text).step s buffer = (reader .byte).step s buffer ∨
      ∃ c rest, buffer = c :: rest ∧ c ≠ ('<' : Character8) ∧ s.processor = .content ∧
        s.elementStack.isEmpty = false := by
  cases hs : s.processor with
  | content =>
    cases buffer with
    | nil => exact .inl (by rw [step_content hs, step_content hs]; rfl)
    | cons c rest =>
      by_cases hc : c = ('<' : Character8)
      · left
        rw [step_content hs, step_content hs, readContent_markup hc, readContent_markup hc]
      · cases hopen : s.elementStack.isEmpty with
        | true =>
          left
          rw [step_content hs, step_content hs, readContent_outside hc hopen,
            readContent_outside hc hopen]
        | false => exact .inr ⟨c, rest, rfl, hc, rfl, rfl⟩
  | prologInit => exact .inl (by rw [step_prologInit hs, step_prologInit hs])
  | prolog => exact .inl (by rw [step_prolog hs, step_prolog hs])
  | epilog => exact .inl (by rw [step_epilog hs, step_epilog hs])
  | error => exact .inl (by rw [step_of_error hs, step_of_error hs])

theorem coarsens_reader : Reader.Coarsens joinText (reader .text) (reader .byte) where
  reads := by
    intro s buffer k hstep
    rcases s.step_eq_or buffer with hsame | ⟨c, rest, rfl, hc, hs, hopen⟩
    · rw [hsame] at hstep
      exact ⟨k.out, .single hstep, .refl _⟩
    · rw [step_content hs, readContent_text hc hopen] at hstep
      obtain rfl := Option.some.inj hstep
      have hreads := s.reads_bytes (leadingText (c :: rest))
        ((c :: rest).drop (leadingText (c :: rest)).length)
        (fun _ hd ↦ ne_of_mem_leadingText hd) hs hopen
      rw [leadingText_append_drop] at hreads
      exact ⟨_, hreads, same_text_bytes _ (leadingText_ne_nil hc rest)⟩
  waits := by
    intro s buffer hwaits
    rcases s.step_eq_or buffer with hsame | ⟨c, rest, rfl, hc, hs, hopen⟩
    · exact hsame.symm.trans hwaits
    · rw [Reader.Waits, step_content hs, readContent_text hc hopen] at hwaits
      exact nomatch hwaits

end PortState

namespace ExpatPortParseSession

open PortState

/-! ## The session follows the reader -/

/-- What the reader sees of a session.  No token changes its handler. -/
def view : Projection ExpatPortParseSession PortState (Handler × Bool) where
  state := toPortState
  buffer := buffer
  events := events
  settings s := (s.handler, s.finalBuffer)

/-- The outcome of a session that waits. -/
def atEnd (s : ExpatPortParseSession) : Status × ExpatPortParseSession :=
  if s.processor = .error then (.error, s)
  else if s.buffer.isEmpty then s.finishOrNeedMore
  else if s.finalBuffer then (.error, s.setError "unclosed token")
  else (.needMore, s)

/-- The status after a token. -/
def statusAfter (state : PortState) : Status := if state.processor = .error then .error else .event

variable {s t : ExpatPortParseSession}

/-- `result` is what becomes of `s` when the reader takes `k`. -/
def Follows (s : ExpatPortParseSession) (k : Taken PortState Event)
    (result : Status × ExpatPortParseSession) : Prop :=
  result.1 = statusAfter k.next ∧ view.Moves s k result.2

theorem eventOrSuspended_of_neverStops (h : s.handler.NeverStops) :
    s.eventOrSuspended = (.event, s) := by
  unfold eventOrSuspended
  rw [if_neg (by rw [h s.events]; exact Bool.false_ne_true)]

theorem follows_setError (s : ExpatPortParseSession) (message : String) :
    s.Follows (s.toPortState.switch .error) (.error, s.setError message) :=
  ⟨rfl, rfl, rfl, (List.append_nil _).symm, rfl⟩

/-- A step that is no error. -/
theorem follows_event {k : Taken PortState Event} (hk : k.next.processor ≠ .error)
    (ht : view.Moves s k t) : s.Follows k (.event, t) :=
  ⟨(if_neg hk).symm, ht⟩

theorem follows_eventOrSuspended {k : Taken PortState Event} (hk : k.next.processor ≠ .error)
    (hnever : t.handler.NeverStops) (ht : view.Moves s k t) : s.Follows k t.eventOrSuspended := by
  rw [eventOrSuspended_of_neverStops hnever]
  exact follows_event hk ht

theorem moves_consumePrefix (s : ExpatPortParseSession) (count : Nat) :
    view.Moves s (s.toPortState.skip count) (s.consumePrefix count) :=
  ⟨rfl, rfl, (List.append_nil _).symm, rfl⟩

/-- Outside of the document element there is white space only. -/
theorem follows_space (s : ExpatPortParseSession) (hs : s.processor ≠ .error) (c : Character8)
    (message : String) :
    s.Follows (if isXmlSpace c then s.toPortState.skip 1 else s.toPortState.switch .error)
      (if isXmlSpace c then (.event, s.consumePrefix 1) else (.error, s.setError message)) := by
  split
  · exact follows_event hs (s.moves_consumePrefix 1)
  · exact s.follows_setError message

theorem ne_error_of_content {state : PortState} (h : state.processor = .content) :
    state.processor ≠ .error := by
  rw [h]
  exact Processor.noConfusion

theorem afterTag_ne_error {state : PortState} (h : state.processor = .content) :
    state.afterTag.processor ≠ .error := by
  unfold afterTag
  split
  · exact Processor.noConfusion
  · exact ne_error_of_content h

section

variable (hs : s.processor = .content) (hnever : s.handler.NeverStops)
include hs hnever

theorem follows_processStartTag {stop : Nat} (hstop : stop ≤ s.buffer.length) :
    s.Follows (s.toPortState.readStart (s.buffer.take stop)) (s.processStartTag stop) := by
  have hlength : (s.buffer.take stop).length = stop := List.length_take_of_le hstop
  unfold processStartTag readStart
  cases readStartTag (s.buffer.take stop) with
  | error message => exact s.follows_setError message
  | ok tag =>
    rw [hlength]
    dsimp only
    -- Is the tag that of the document element, and is it empty?
    by_cases hroot : s.elementStack.isEmpty = true
    · rw [if_pos hroot, if_pos hroot]
      by_cases hempty : tag.isEmpty = true
      · rw [if_pos hempty, if_pos hempty]
        apply follows_eventOrSuspended
        · exact afterTag_ne_error hs
        · split <;> exact hnever
        · unfold afterTag
          rw [if_pos hroot, if_pos (by exact hroot)]
          exact ⟨rfl, rfl, List.append_assoc .., rfl⟩
      · rw [if_neg hempty, if_neg hempty]
        apply follows_eventOrSuspended
        · exact ne_error_of_content hs
        · exact hnever
        · exact ⟨rfl, rfl, rfl, rfl⟩
    · rw [if_neg hroot, if_neg hroot]
      by_cases hempty : tag.isEmpty = true
      · rw [if_pos hempty, if_pos hempty]
        apply follows_eventOrSuspended
        · exact afterTag_ne_error hs
        · split <;> exact hnever
        · unfold afterTag
          rw [if_neg hroot, if_neg (by exact hroot)]
          exact ⟨rfl, rfl, List.append_assoc .., rfl⟩
      · rw [if_neg hempty, if_neg hempty]
        apply follows_eventOrSuspended
        · exact ne_error_of_content hs
        · exact hnever
        · exact ⟨rfl, rfl, rfl, rfl⟩

theorem follows_processEndTag {stop : Nat} (hstop : stop ≤ s.buffer.length) :
    s.Follows (s.toPortState.readEnd (s.buffer.take stop)) (s.processEndTag stop) := by
  have hlength : (s.buffer.take stop).length = stop := List.length_take_of_le hstop
  unfold processEndTag readEnd
  cases readEndTag (s.buffer.take stop) with
  | error message => exact s.follows_setError message
  | ok name =>
    rw [hlength]
    dsimp only
    by_cases hname : s.elementStack.head? ≠ some name
    · rw [if_pos hname, if_pos hname]
      exact s.follows_setError _
    · rw [if_neg hname, if_neg hname]
      apply follows_eventOrSuspended
      · exact afterTag_ne_error hs
      · split <;> exact hnever
      · unfold afterTag
        by_cases hlast : s.elementStack.tail.isEmpty = true
        · rw [if_pos hlast, if_pos (by exact hlast)]
          exact ⟨rfl, rfl, rfl, rfl⟩
        · rw [if_neg hlast, if_neg (by exact hlast)]
          exact ⟨rfl, rfl, rfl, rfl⟩

theorem follows_contentProcessor {k : Taken PortState Event}
    (hstep : s.toPortState.readContent .text s.buffer = some k) :
    s.Follows k s.contentProcessor := by
  have hne := ne_error_of_content hs
  unfold contentProcessor
  cases hbuffer : s.buffer with
  | nil =>
    rw [hbuffer] at hstep
    exact nomatch hstep
  | cons c rest =>
    rw [hbuffer] at hstep
    dsimp only
    by_cases hc : c = ('<' : Character8)
    · rw [readContent_markup hc, ← hbuffer] at hstep
      rw [if_pos hc, ← hbuffer]
      split at hstep
      · exact nomatch hstep
      rename_i hstop
      have hend := completeMarkupEnd_le hstop
      obtain rfl := Option.some.inj hstep
      unfold readTag
      rw [if_neg hstop, item_take_completeMarkupEnd hstop]
      split
      · exact follows_processEndTag hs hnever hend.2
      split
      · exact s.follows_setError _
      · exact follows_processStartTag hs hnever hend.2
    · rw [if_neg hc]
      cases hopen : s.elementStack.isEmpty with
      | true =>
        rw [readContent_outside hc hopen] at hstep
        obtain rfl := Option.some.inj hstep
        exact s.follows_space hne c _
      | false =>
        rw [readContent_text hc hopen, ← hbuffer] at hstep
        rw [← hbuffer]
        obtain rfl := Option.some.inj hstep
        rw [if_neg Bool.false_ne_true]
        apply follows_eventOrSuspended
        · exact hne
        · exact hnever
        · exact ⟨rfl, rfl, rfl, rfl⟩

end

theorem follows_prologProcessor {k : Taken PortState Event} (hs : s.processor = .prolog)
    (hstep : s.toPortState.readProlog s.buffer = some k) : s.Follows k s.prologProcessor := by
  have hne : s.processor ≠ .error := by
    rw [hs]
    exact Processor.noConfusion
  unfold prologProcessor
  cases hbuffer : s.buffer with
  | nil =>
    rw [hbuffer] at hstep
    exact nomatch hstep
  | cons c rest =>
    rw [hbuffer] at hstep
    unfold readProlog at hstep
    dsimp only at hstep ⊢
    by_cases hxml : startsWith (c :: rest) (str "<?xml") = true
    · rw [if_pos hxml] at hstep ⊢
      unfold consumeProcessingInstructionLikeMarkup
      rw [hbuffer]
      dsimp only
      split at hstep
      · exact nomatch hstep
      · rename_i hclose
        obtain rfl := Option.some.inj hstep
        rw [if_neg hclose]
        exact follows_event hne (s.moves_consumePrefix _)
    rw [if_neg hxml] at hstep ⊢
    split at hstep
    · rename_i hdeclaration
      obtain rfl := Option.some.inj hstep
      rw [if_pos hdeclaration]
      exact s.follows_setError _
    rename_i hdeclaration
    rw [if_neg hdeclaration]
    split at hstep
    · rename_i hc
      obtain rfl := Option.some.inj hstep
      rw [if_pos hc]
      apply follows_event
      · exact Processor.noConfusion
      · exact ⟨rfl, rfl, (List.append_nil _).symm, rfl⟩
    · rename_i hc
      rw [← apply_ite] at hstep
      obtain rfl := Option.some.inj hstep
      rw [if_neg hc]
      exact s.follows_space hne c _

/-- A step of the session is a step of the reader. -/
theorem follows_processOne {k : Taken PortState Event} (hnever : s.handler.NeverStops)
    (hstep : (reader .text).step s.toPortState s.buffer = some k) : s.Follows k s.processOne := by
  unfold processOne
  cases hs : s.processor with
  | prologInit =>
    rw [step_prologInit hs] at hstep
    obtain rfl := Option.some.inj hstep
    apply follows_event
    · exact Processor.noConfusion
    · exact ⟨rfl, rfl, (List.append_nil _).symm, rfl⟩
  | prolog =>
    rw [step_prolog hs] at hstep
    exact follows_prologProcessor hs hstep
  | content =>
    rw [step_content hs] at hstep
    exact follows_contentProcessor hs hnever hstep
  | epilog =>
    rw [step_epilog hs] at hstep
    dsimp only
    unfold epilogProcessor
    cases hbuffer : s.buffer with
    | nil =>
      rw [hbuffer] at hstep
      exact nomatch hstep
    | cons c rest =>
      rw [hbuffer] at hstep
      obtain rfl := Option.some.inj hstep
      apply follows_space
      rw [hs]
      exact Processor.noConfusion
  | error => exact nomatch (step_of_error hs).symm.trans hstep

theorem atEnd_of_nil (hs : s.processor ≠ .error) (hbuffer : s.buffer = []) :
    s.atEnd = s.finishOrNeedMore := by
  unfold atEnd
  rw [if_neg hs, hbuffer]
  exact if_pos rfl

theorem atEnd_of_cons (hs : s.processor ≠ .error) {c : Character8} {rest : String8}
    (hbuffer : s.buffer = c :: rest) :
    s.atEnd = if s.finalBuffer then (.error, s.setError "unclosed token") else (.needMore, s) := by
  unfold atEnd
  rw [if_neg hs, hbuffer]
  exact if_neg Bool.false_ne_true

/-- Where the reader waits, the session stops. -/
theorem processOne_of_waits (hwaits : (reader .text).Waits s.toPortState s.buffer) :
    s.processOne = s.atEnd := by
  unfold Reader.Waits at hwaits
  unfold processOne
  cases hs : s.processor with
  | prologInit => exact nomatch (step_prologInit hs).symm.trans hwaits
  | prolog =>
    rw [step_prolog hs] at hwaits
    have hne : s.processor ≠ .error := by
      rw [hs]
      exact Processor.noConfusion
    show s.prologProcessor = s.atEnd
    unfold prologProcessor
    cases hbuffer : s.buffer with
    | nil => exact (atEnd_of_nil hne hbuffer).symm
    | cons c rest =>
      rw [hbuffer] at hwaits
      unfold readProlog at hwaits
      dsimp only at hwaits ⊢
      by_cases hxml : startsWith (c :: rest) (str "<?xml") = true
      · rw [if_pos hxml] at hwaits ⊢
        unfold consumeProcessingInstructionLikeMarkup
        rw [hbuffer]
        dsimp only
        split at hwaits
        · rename_i hclose
          rw [if_pos hclose]
          exact (atEnd_of_cons hne hbuffer).symm
        · exact nomatch hwaits
      · rw [if_neg hxml, ← apply_ite, ← apply_ite, ← apply_ite] at hwaits
        exact nomatch hwaits
  | content =>
    rw [step_content hs] at hwaits
    show s.contentProcessor = s.atEnd
    unfold contentProcessor
    cases hbuffer : s.buffer with
    | nil => exact (atEnd_of_nil (ne_error_of_content hs) hbuffer).symm
    | cons c rest =>
      rw [hbuffer] at hwaits
      dsimp only
      by_cases hc : c = ('<' : Character8)
      · rw [readContent_markup hc] at hwaits
        rw [if_pos hc]
        split at hwaits
        · rename_i hstop
          rw [if_pos hstop]
          exact (atEnd_of_cons (ne_error_of_content hs) hbuffer).symm
        · exact nomatch hwaits
      · cases hopen : s.elementStack.isEmpty with
        | true =>
          rw [readContent_outside hc hopen] at hwaits
          exact nomatch hwaits
        | false =>
          rw [readContent_text hc hopen] at hwaits
          exact nomatch hwaits
  | epilog =>
    rw [step_epilog hs] at hwaits
    show s.epilogProcessor = s.atEnd
    unfold epilogProcessor
    cases hbuffer : s.buffer with
    | nil =>
      apply Eq.symm
      apply atEnd_of_nil _ hbuffer
      rw [hs]
      exact Processor.noConfusion
    | cons c rest =>
      rw [hbuffer] at hwaits
      exact nomatch hwaits
  | error =>
    unfold atEnd
    rw [if_pos hs]

/-- The session follows its reader while its handler lets it. -/
def follower : Follower (reader .text) ExpatPortParseSession (Handler × Bool) where
  toProjection := view
  one := processOne
  atEnd := atEnd
  Good settings := settings.1.NeverStops
  isError state := decide (state.processor = .error)
  measure s := rank s.processor + s.buffer.length
  step := by
    intro s k hgood hstep
    obtain ⟨hstatus, hmoves⟩ := follows_processOne hgood hstep
    refine ⟨?_, hmoves, fun hne ↦ ?_⟩
    · rw [hstatus]
      unfold statusAfter
      simp only [decide_eq_true_eq]
    · have hless := (progresses_of_step hstep).2 (of_decide_eq_false hne)
      have hstate : s.processOne.2.toPortState = k.next := hmoves.state
      have hbuffer : s.processOne.2.buffer = s.buffer.drop k.count := hmoves.buffer
      rw [hbuffer, List.length_drop, hstate]
      exact hless
  wait := fun _ hwaits ↦ processOne_of_waits hwaits
  waits_of_error := fun h ↦ step_of_error (of_decide_eq_true h)
  atEnd_of_error := fun h ↦ if_pos (of_decide_eq_true h)
  atEnd_ne_event := by
    intro s
    unfold atEnd finishOrNeedMore
    repeat' split
    all_goals exact Status.noConfusion

end ExpatPortParseSession

end Xpact
