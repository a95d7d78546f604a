import Xpact.Sessions.Markup

/-!
# The incremental session

`XP_INCREMENTAL_PARSE_SESSION` is fed pieces of a document.  It consumes complete tags, and text as
soon as it has arrived.  As a reader of its input it coarsens one that takes the text byte by byte,
which is stable; so the pieces make no difference (`incrementalSession_chunk_invariant`).
-/

namespace Xpact

open Library Session

/-- What a session remembers of the input that it has consumed. -/
structure IncrementalState where
  /-- The open elements, innermost first. -/
  elementStack : List String8 := []
  documentElementCount : Nat := 0
  position : Position := {}
  /-- The message of the error, once there is one. -/
  lastError : Option String := none

/-- `XP_INCREMENTAL_PARSE_SESSION`. -/
structure IncrementalParseSession extends IncrementalState where
  handler : Handler
  bufferWindow : String8 := []
  currentByteCount : Nat := 0
  finalBuffer : Bool := false
  isFinished : Bool := false
  isSuspended : Bool := false
  /-- What the handler has received. -/
  events : List Event := []

namespace IncrementalParseSession

def make (handler : Handler) : IncrementalParseSession := { handler }

variable (s : IncrementalParseSession)

def setError (message : String) : IncrementalParseSession := { s with lastError := some message }

/-- Call a handler feature. -/
def emit (e : Event) : IncrementalParseSession := { s with events := s.events ++ [e] }

def emitCharacterData (text : String8) : IncrementalParseSession :=
  { s with currentByteCount := text.length }.emit (.characterData text)

def consumePrefix (count : Nat) : IncrementalParseSession :=
  { s with
    position := s.position.update (s.bufferWindow.take count)
    bufferWindow := s.bufferWindow.drop count }

def eventOrSuspended : Status × IncrementalParseSession :=
  if s.handler.stopRequested s.events then (.suspended, { s with isSuspended := true })
  else (.event, s)

def finishOrNeedMore : Status × IncrementalParseSession :=
  if s.finalBuffer then
    if s.documentElementCount = 0 then (.error, s.setError "missing document element")
    else if !s.elementStack.isEmpty then (.error, s.setError "unclosed token")
    else (.finished, { s with isFinished := true })
  else
    (.needMore, s)

/-- Emit the start tag that ends at `stop`. -/
def advanceStartTag (stop : Nat) : Status × IncrementalParseSession :=
  match readStartTag (s.bufferWindow.take stop) with
  | .error message => (.error, s.setError message)
  | .ok tag =>
    let s :=
      if s.elementStack.isEmpty then { s with documentElementCount := s.documentElementCount + 1 }
      else s
    let s := s.emit (.startElement tag.name tag.attributes)
    let s :=
      if tag.isEmpty then s.emit (.endElement tag.name)
      else { s with elementStack := tag.name :: s.elementStack }
    (s.consumePrefix stop).eventOrSuspended

/-- Emit the end tag that ends at `stop`. -/
def advanceEndTag (stop : Nat) : Status × IncrementalParseSession :=
  match readEndTag (s.bufferWindow.take stop) with
  | .error message => (.error, s.setError message)
  | .ok name =>
    if s.elementStack.head? ≠ some name then
      (.error, s.setError "mismatched end tag")
    else
      let s := { s with elementStack := s.elementStack.tail }
      ((s.emit (.endElement name)).consumePrefix stop).eventOrSuspended

def advanceMarkup : Status × IncrementalParseSession :=
  let stop := completeMarkupEnd s.bufferWindow
  if stop = 0 then
    if s.finalBuffer then (.error, s.setError "unclosed token") else (.needMore, s)
  else if s.bufferWindow.item 2 = '/' then
    s.advanceEndTag stop
  else if s.bufferWindow.item 2 = '!' ∨ s.bufferWindow.item 2 = '?' then
    (.error, s.setError "unsupported incremental markup")
  else
    s.advanceStartTag stop

/-- Advance by at most one token. -/
def advanceOne : Status × IncrementalParseSession :=
  if s.lastError.isSome then
    (.error, s)
  else if s.isSuspended then
    (.suspended, s)
  else
    match s.bufferWindow with
    | [] => s.finishOrNeedMore
    | c :: _ =>
      if c = '<' then
        s.advanceMarkup
      else
        let text := leadingText s.bufferWindow
        ((s.emitCharacterData text).consumePrefix text.length).eventOrSuspended

/-- Advance through the complete tokens; each consumes a byte. -/
def advanceAvailable : Status × IncrementalParseSession :=
  advance advanceOne (s.bufferWindow.length + 1) s

def feed (input : String8) (isFinal : Bool) : Status × IncrementalParseSession :=
  { s with bufferWindow := s.bufferWindow ++ input, finalBuffer := isFinal }.advanceAvailable

/-- Feed pieces none of which is final. -/
def feeds (pieces : List String8) : IncrementalParseSession :=
  pieces.foldl (fun s piece ↦ (s.feed piece false).2) s

end IncrementalParseSession

/-! ## The session as a reader -/

namespace IncrementalState

variable (s : IncrementalState)

/-- An error: nothing is consumed. -/
def fail (message : String) : Taken IncrementalState Event := ⟨0, [], { s with lastError := some message }⟩

/-- The state behind `text`. -/
def behind (text : String8) : IncrementalState := { s with position := s.position.update text }

def readStart (tag : String8) : Taken IncrementalState Event :=
  match readStartTag tag with
  | .error message => s.fail message
  | .ok t =>
    let s :=
      if s.elementStack.isEmpty then { s with documentElementCount := s.documentElementCount + 1 }
      else s
    if t.isEmpty then
      ⟨tag.length, [.startElement t.name t.attributes, .endElement t.name], s.behind tag⟩
    else
      ⟨tag.length, [.startElement t.name t.attributes],
        { s with elementStack := t.name :: s.elementStack }.behind tag⟩

def readEnd (tag : String8) : Taken IncrementalState Event :=
  match readEndTag tag with
  | .error message => s.fail message
  | .ok name =>
    if s.elementStack.head? ≠ some name then
      s.fail "mismatched end tag"
    else
      ⟨tag.length, [.endElement name], { s with elementStack := s.elementStack.tail }.behind tag⟩

def readTag (tag : String8) : Taken IncrementalState Event :=
  if tag.item 2 = '/' then s.readEnd tag
  else if tag.item 2 = '!' ∨ tag.item 2 = '?' then s.fail "unsupported incremental markup"
  else s.readStart tag

/-- The session as a reader of bytes. -/
def reader (g : Grain) : Reader IncrementalState Character8 Event where
  step s buffer :=
    if s.lastError.isSome then
      none
    else
      match buffer with
      | [] => none
      | c :: _ =>
        if c = '<' then
          let stop := completeMarkupEnd buffer
          if stop = 0 then none else some (s.readTag (buffer.take stop))
        else
          let text := g.take buffer
          some ⟨text.length, [.characterData text], s.behind text⟩

theorem readTag_cases (tag : String8) (hs : s.lastError = none) :
    ((s.readTag tag).count = tag.length ∧ (s.readTag tag).next.lastError = none) ∨
      ((s.readTag tag).count = 0 ∧ (s.readTag tag).next.lastError.isSome = true) := by
  have hfail (message : String) : (s.fail message).count = 0 ∧
      (s.fail message).next.lastError.isSome = true := ⟨rfl, rfl⟩
  unfold readTag
  split
  · unfold readEnd
    split
    · exact .inr (hfail _)
    split
    · exact .inr (hfail _)
    · exact .inl ⟨rfl, hs⟩
  split
  · exact .inr (hfail _)
  · unfold readStart
    split
    · exact .inr (hfail _)
    · dsimp only
      split <;> split <;> exact .inl ⟨rfl, hs⟩

section

variable {s} {g : Grain} {buffer : String8} {c : Character8} {rest : String8}

theorem step_of_error (h : s.lastError.isSome = true) : (reader g).step s buffer = none := if_pos h

theorem step_nil : (reader g).step s [] = none := ite_self _

theorem step_markup (hs : s.lastError = none) (hc : c = ('<' : Character8)) :
    (reader g).step s (c :: rest) =
      if completeMarkupEnd (c :: rest) = 0 then none
      else some (s.readTag ((c :: rest).take (completeMarkupEnd (c :: rest)))) := by
  simp only [reader, hs, Option.isSome_none, Bool.false_eq_true, if_false]
  rw [if_pos hc]

theorem step_text (hs : s.lastError = none) (hc : c ≠ ('<' : Character8)) :
    (reader g).step s (c :: rest) =
      some ⟨(g.take (c :: rest)).length, [.characterData (g.take (c :: rest))],
        s.behind (g.take (c :: rest))⟩ := by
  simp only [reader, hs, Option.isSome_none, Bool.false_eq_true, if_false]
  rw [if_neg hc]

end

/-- Taken byte by byte, a decision does not depend on what has not arrived. -/
theorem stable_reader : (reader .byte).Stable fun _ ↦ True where
  count_le := by
    intro s buffer k _ hstep
    cases hs : s.lastError with
    | some message => exact nomatch (step_of_error (by rw [hs]; rfl)).symm.trans hstep
    | none =>
      cases buffer with
      | nil => exact nomatch step_nil.symm.trans hstep
      | cons c rest =>
        by_cases hc : c = ('<' : Character8)
        · rw [step_markup hs hc] at hstep
          split at hstep
          · exact nomatch hstep
          · obtain rfl := Option.some.inj hstep
            have hlength : ((c :: rest).take (completeMarkupEnd (c :: rest))).length ≤
                (c :: rest).length := List.length_take_le' ..
            cases s.readTag_cases ((c :: rest).take (completeMarkupEnd (c :: rest))) hs with
            | inl h => omega
            | inr h => omega
        · rw [step_text hs hc] at hstep
          obtain rfl := Option.some.inj hstep
          exact List.length_take_le' ..
  step_append := by
    intro s buffer k _ hstep more
    cases hs : s.lastError with
    | some message => exact nomatch (step_of_error (by rw [hs]; rfl)).symm.trans hstep
    | none =>
      cases buffer with
      | nil => exact nomatch step_nil.symm.trans hstep
      | cons c rest =>
        by_cases hc : c = ('<' : Character8)
        · rw [step_markup hs hc] at hstep
          split at hstep
          · exact nomatch hstep
          · rename_i hstop
            rw [← hstep, List.cons_append, step_markup hs hc, ← List.cons_append,
              completeMarkupEnd_append hstop, if_neg hstop,
              List.take_append_of_le_length (completeMarkupEnd_le hstop).2]
        · rw [step_text hs hc] at hstep
          rw [← hstep, List.cons_append, step_text hs hc]
          rfl
  next := fun _ _ ↦ trivial

/-- A text is read byte by byte. -/
theorem reads_bytes (text rest : String8) (htext : ∀ c ∈ text, c ≠ ('<' : Character8))
    (hs : s.lastError = none) :
    (reader .byte).Reads s (text ++ rest) (text.map fun c ↦ .characterData [c]) (s.behind text)
      rest := by
  induction text generalizing s with
  | nil => exact .refl s rest
  | cons c text ih =>
    have hc : c ≠ ('<' : Character8) := htext c List.mem_cons_self
    have hstep : (reader .byte).step s (c :: (text ++ rest)) =
        some ⟨1, [.characterData [c]], s.behind [c]⟩ := step_text hs hc
    have hrest := ih (s.behind [c]) (fun d hd ↦ htext d (List.mem_cons_of_mem c hd)) hs
    have hbehind : (s.behind [c]).behind text = s.behind (c :: text) := by
      show { s with position := (s.position.update [c]).update text } = _
      rw [← Position.update_append]
      rfl
    rw [hbehind] at hrest
    exact .step hstep hrest

theorem coarsens_reader : Reader.Coarsens joinText (reader .text) (reader .byte) where
  reads := by
    intro s buffer k hstep
    cases hs : s.lastError with
    | some message => exact nomatch (step_of_error (by rw [hs]; rfl)).symm.trans hstep
    | none =>
      cases buffer with
      | nil => exact nomatch step_nil.symm.trans hstep
      | cons c rest =>
        by_cases hc : c = ('<' : Character8)
        · rw [step_markup hs hc, ← step_markup hs hc] at hstep
          exact ⟨k.out, .single hstep, .refl _⟩
        · rw [step_text hs hc] at hstep
          obtain rfl := Option.some.inj hstep
          have hreads := s.reads_bytes (leadingText (c :: rest))
            ((c :: rest).drop (leadingText (c :: rest)).length)
            (fun _ hd ↦ ne_of_mem_leadingText hd) hs
          rw [leadingText_append_drop] at hreads
          exact ⟨_, hreads, same_text_bytes _ (leadingText_ne_nil hc rest)⟩
  waits := by
    intro s buffer hwaits
    cases hs : s.lastError with
    | some message => exact step_of_error (by rw [hs]; rfl)
    | none =>
      cases buffer with
      | nil => exact step_nil
      | cons c rest =>
        by_cases hc : c = ('<' : Character8)
        · rwa [Reader.Waits, step_markup hs hc, ← step_markup hs hc] at hwaits
        · exact nomatch (step_text hs hc).symm.trans hwaits

end IncrementalState

namespace IncrementalParseSession

open IncrementalState

/-! ## The session follows the reader -/

/-- What the reader sees of a session.  No token changes its handler, or that it is not suspended. -/
def view : Projection IncrementalParseSession IncrementalState (Handler × Bool × Bool) where
  state := toIncrementalState
  buffer := bufferWindow
  events := events
  settings s := (s.handler, s.finalBuffer, s.isSuspended)

variable {s t : IncrementalParseSession} {out : List Event}

/-- An error that is set before anything is consumed. -/
theorem moves_setError (s : IncrementalParseSession) (message : String) :
    view.Moves s (s.toIncrementalState.fail message) (s.setError message) :=
  ⟨rfl, rfl, (List.append_nil _).symm, rfl⟩

theorem eventOrSuspended_of_neverStops (h : s.handler.NeverStops) :
    s.eventOrSuspended = (.event, s) := by
  unfold eventOrSuspended
  rw [if_neg (by rw [h s.events]; exact Bool.false_ne_true)]

/-- The status of a session that waits. -/
def atEnd (s : IncrementalParseSession) : Status × IncrementalParseSession :=
  if s.lastError.isSome then (.error, s)
  else if s.bufferWindow.isEmpty then s.finishOrNeedMore
  else if s.finalBuffer then (.error, s.setError "unclosed token")
  else (.needMore, s)

/-- The status after a token. -/
def statusAfter (state : IncrementalState) : Status :=
  if state.lastError.isSome then .error else .event

/-- `result` is what becomes of `s` when the reader takes `k`. -/
def Follows (s : IncrementalParseSession) (k : Taken IncrementalState Event)
    (result : Status × IncrementalParseSession) : Prop :=
  result.1 = statusAfter k.next ∧ view.Moves s k result.2

/-- A token that `t` has reported is consumed. -/
theorem follows_consumePrefix (count : Nat) (hnever : s.handler.NeverStops)
    (ht : view.Moves s ⟨0, out, t.toIncrementalState⟩ t) (hnone : t.lastError = none) :
    s.Follows ⟨count, out, t.toIncrementalState.behind (s.bufferWindow.take count)⟩
      (t.consumePrefix count).eventOrSuspended := by
  have hbuffer : t.bufferWindow = s.bufferWindow := ht.buffer
  have hhandler : (t.consumePrefix count).handler.NeverStops := by
    show t.handler.NeverStops
    rw [show t.handler = s.handler from congrArg Prod.fst ht.settings]
    exact hnever
  rw [eventOrSuspended_of_neverStops hhandler]
  constructor
  · show Status.event = if t.lastError.isSome then Status.error else Status.event
    rw [hnone]
    rfl
  · constructor
    · show { t.toIncrementalState with position := t.position.update (t.bufferWindow.take count) } = _
      rw [hbuffer]
      rfl
    · show t.bufferWindow.drop count = s.bufferWindow.drop count
      rw [hbuffer]
    · exact ht.events
    · exact ht.settings

section

variable (hs : s.lastError = none) (hnever : s.handler.NeverStops)
include hs hnever

theorem follows_advanceStartTag {stop : Nat} (hstop : stop ≤ s.bufferWindow.length) :
    s.Follows (s.toIncrementalState.readStart (s.bufferWindow.take stop))
      (s.advanceStartTag stop) := by
  have hlength : (s.bufferWindow.take stop).length = stop := List.length_take_of_le hstop
  unfold advanceStartTag readStart
  cases readStartTag (s.bufferWindow.take stop) with
  | error message => exact ⟨rfl, s.moves_setError message⟩
  | ok tag =>
    rw [hlength]
    dsimp only
    -- Is the tag that of a document element, and is it empty?
    by_cases hroot : s.elementStack.isEmpty = true
    · rw [if_pos hroot, if_pos hroot]
      by_cases hempty : tag.isEmpty = true
      · rw [if_pos hempty, if_pos hempty]
        apply follows_consumePrefix _ hnever
        · exact ⟨rfl, rfl, List.append_assoc .., rfl⟩
        · exact hs
      · rw [if_neg hempty, if_neg hempty]
        apply follows_consumePrefix _ hnever
        · exact ⟨rfl, rfl, rfl, rfl⟩
        · exact hs
    · rw [if_neg hroot, if_neg hroot]
      by_cases hempty : tag.isEmpty = true
      · rw [if_pos hempty, if_pos hempty]
        apply follows_consumePrefix _ hnever
        · exact ⟨rfl, rfl, List.append_assoc .., rfl⟩
        · exact hs
      · rw [if_neg hempty, if_neg hempty]
        apply follows_consumePrefix _ hnever
        · exact ⟨rfl, rfl, rfl, rfl⟩
        · exact hs

theorem follows_advanceEndTag {stop : Nat} (hstop : stop ≤ s.bufferWindow.length) :
    s.Follows (s.toIncrementalState.readEnd (s.bufferWindow.take stop))
      (s.advanceEndTag stop) := by
  have hlength : (s.bufferWindow.take stop).length = stop := List.length_take_of_le hstop
  unfold advanceEndTag readEnd
  cases readEndTag (s.bufferWindow.take stop) with
  | error message => exact ⟨rfl, s.moves_setError message⟩
  | ok name =>
    rw [hlength]
    dsimp only
    by_cases hname : s.elementStack.head? ≠ some name
    · rw [if_pos hname, if_pos hname]
      exact ⟨rfl, s.moves_setError _⟩
    · rw [if_neg hname, if_neg hname]
      apply follows_consumePrefix _ hnever
      · exact ⟨rfl, rfl, rfl, rfl⟩
      · exact hs

theorem follows_advanceMarkup (hstop : completeMarkupEnd s.bufferWindow ≠ 0) :
    s.Follows
      (s.toIncrementalState.readTag (s.bufferWindow.take (completeMarkupEnd s.bufferWindow)))
      s.advanceMarkup := by
  have hend := completeMarkupEnd_le hstop
  unfold advanceMarkup readTag
  dsimp only
  rw [if_neg hstop, item_take_completeMarkupEnd hstop]
  split
  · exact follows_advanceEndTag hs hnever hend.2
  split
  · exact ⟨rfl, s.moves_setError _⟩
  · exact follows_advanceStartTag hs hnever hend.2

end

section

variable (hnever : s.handler.NeverStops) (hsuspended : s.isSuspended = false)
include hsuspended

include hnever in
/-- A step of the session is a step of the reader. -/
theorem follows_advanceOne {k : Taken IncrementalState Event}
    (hstep : (reader .text).step s.toIncrementalState s.bufferWindow = some k) :
    s.Follows k s.advanceOne := by
  unfold advanceOne
  cases hs : s.lastError with
  | some message => exact nomatch (step_of_error (by rw [hs]; rfl)).symm.trans hstep
  | none =>
    rw [if_neg (by exact Bool.false_ne_true), if_neg (by rw [hsuspended]; exact Bool.false_ne_true)]
    cases hbuffer : s.bufferWindow with
    | nil =>
      rw [hbuffer] at hstep
      exact nomatch step_nil.symm.trans hstep
    | cons c rest =>
      rw [hbuffer] at hstep
      dsimp only
      by_cases hc : c = ('<' : Character8)
      · rw [step_markup hs hc, ← hbuffer] at hstep
        rw [if_pos hc]
        split at hstep
        · exact nomatch hstep
        · rename_i hstop
          obtain rfl := Option.some.inj hstep
          exact follows_advanceMarkup hs hnever hstop
      · rw [step_text hs hc, ← hbuffer] at hstep
        rw [if_neg hc, ← hbuffer]
        obtain rfl := Option.some.inj hstep
        have htake : s.bufferWindow.take (leadingText s.bufferWindow).length =
            leadingText s.bufferWindow :=
          (List.prefix_iff_eq_take.1 (List.takeWhile_prefix _)).symm
        have hfollows := follows_consumePrefix (s := s)
          (t := s.emitCharacterData (leadingText s.bufferWindow))
          (leadingText s.bufferWindow).length hnever ⟨rfl, rfl, rfl, rfl⟩ hs
        rw [htake] at hfollows
        exact hfollows

/-- Where the reader waits, the session stops. -/
theorem advanceOne_of_waits
    (hwaits : (reader .text).Waits s.toIncrementalState s.bufferWindow) :
    s.advanceOne = s.atEnd := by
  unfold advanceOne atEnd
  cases hs : s.lastError with
  | some message => rfl
  | none =>
    rw [if_neg (by exact Bool.false_ne_true), if_neg (by rw [hsuspended]; exact Bool.false_ne_true),
      if_neg (by exact Bool.false_ne_true)]
    cases hbuffer : s.bufferWindow with
    | nil => rfl
    | cons c rest =>
      rw [hbuffer, Reader.Waits] at hwaits
      dsimp only
      by_cases hc : c = ('<' : Character8)
      · rw [step_markup hs hc, ← hbuffer] at hwaits
        rw [if_pos hc]
        unfold advanceMarkup
        dsimp only
        split at hwaits
        · rename_i hstop
          rw [if_pos hstop]
          rfl
        · exact nomatch hwaits
      · exact nomatch (step_text hs hc).symm.trans hwaits

end

/-! ## Runs of the session -/

/-- A step that is no error consumes something that has arrived. -/
theorem count_of_step {state : IncrementalState} {buffer : String8}
    {k : Taken IncrementalState Event} (hstep : (reader .text).step state buffer = some k)
    (hk : k.next.lastError = none) : 0 < k.count ∧ k.count ≤ buffer.length := by
  cases hs : state.lastError with
  | some message => exact nomatch (step_of_error (by rw [hs]; rfl)).symm.trans hstep
  | none =>
    cases buffer with
    | nil => exact nomatch step_nil.symm.trans hstep
    | cons c rest =>
      by_cases hc : c = ('<' : Character8)
      · rw [step_markup hs hc] at hstep
        split at hstep
        · exact nomatch hstep
        · rename_i hstop
          have hend := completeMarkupEnd_le hstop
          obtain rfl := Option.some.inj hstep
          rcases state.readTag_cases ((c :: rest).take (completeMarkupEnd (c :: rest))) hs with
            ⟨hcount, -⟩ | ⟨-, herror⟩
          · rw [hcount, List.length_take_of_le hend.2]
            omega
          · rw [hk] at herror
            exact nomatch herror
      · rw [step_text hs hc] at hstep
        obtain rfl := Option.some.inj hstep
        exact Grain.text.take_length hc rest

theorem atEnd_ne_event (s : IncrementalParseSession) : s.atEnd.1 ≠ .event := by
  unfold atEnd finishOrNeedMore
  repeat' split
  all_goals exact Status.noConfusion

theorem atEnd_of_error (h : s.lastError.isSome = true) : s.atEnd = (.error, s) := if_pos h

/-- The session follows its reader while its handler lets it. -/
def follower :
    Follower (reader .text) IncrementalParseSession (Handler × Bool × Bool) where
  toProjection := view
  one := advanceOne
  atEnd := atEnd
  Good settings := settings.1.NeverStops ∧ settings.2.2 = false
  isError state := state.lastError.isSome
  measure s := s.bufferWindow.length
  step := by
    intro s k hgood hstep
    obtain ⟨hstatus, hmoves⟩ := follows_advanceOne hgood.1 hgood.2 hstep
    refine ⟨hstatus, hmoves, fun hnone ↦ ?_⟩
    rw [Option.isSome_eq_false_iff, Option.isNone_iff_eq_none] at hnone
    have hcount := count_of_step hstep hnone
    have hbuffer : s.advanceOne.2.bufferWindow = s.bufferWindow.drop k.count := hmoves.buffer
    rw [hbuffer, List.length_drop]
    have : k.count ≤ s.bufferWindow.length := hcount.2
    omega
  wait := fun hgood hwaits ↦ advanceOne_of_waits hgood.2 hwaits
  waits_of_error := step_of_error
  atEnd_of_error := atEnd_of_error
  atEnd_ne_event := atEnd_ne_event

/-! ## Feeding pieces -/

/-- The session reads what it is fed. -/
theorem feed_reads (hnever : s.handler.NeverStops) (hsuspended : s.isSuspended = false)
    (input : String8) (isFinal : Bool) :
    ∃ (out : List Event) (t : IncrementalParseSession),
      (reader .text).Reads s.toIncrementalState (s.bufferWindow ++ input) out
        t.toIncrementalState t.bufferWindow ∧
      (reader .text).Waits t.toIncrementalState t.bufferWindow ∧
      t.events = s.events ++ out ∧ t.handler = s.handler ∧ t.isSuspended = false ∧
      t.finalBuffer = isFinal ∧ s.feed input isFinal = t.atEnd := by
  obtain ⟨out, t, hreads, hwaits, hevents, hsettings, hfeed⟩ := follower.advance_reads
    (s := { s with bufferWindow := s.bufferWindow ++ input, finalBuffer := isFinal })
    ((s.bufferWindow ++ input).length + 1) ⟨hnever, hsuspended⟩ (Nat.lt_succ_self _)
  have hsuspended' : t.isSuspended = s.isSuspended := congrArg (·.2.2) hsettings
  exact ⟨out, t, hreads, hwaits, hevents, congrArg Prod.fst hsettings,
    hsuspended'.trans hsuspended, congrArg (·.2.1) hsettings, hfeed⟩

/-- A session that waits for more keeps its state. -/
theorem atEnd_of_not_final (h : s.finalBuffer = false) : s.atEnd.2 = s := by
  unfold atEnd finishOrNeedMore
  rw [h]
  repeat' split
  all_goals first | rfl | contradiction

/-- The session reads the pieces that it is fed. -/
theorem feeds_reads (hnever : s.handler.NeverStops) (hsuspended : s.isSuspended = false)
    (pieces : List String8) :
    ∃ out, (reader .text).ReadsChunks s.toIncrementalState s.bufferWindow pieces out
        (s.feeds pieces).toIncrementalState (s.feeds pieces).bufferWindow ∧
      (s.feeds pieces).events = s.events ++ out ∧ (s.feeds pieces).handler = s.handler ∧
      (s.feeds pieces).isSuspended = false := by
  induction pieces generalizing s with
  | nil => exact ⟨[], .nil _ _, (List.append_nil _).symm, rfl, hsuspended⟩
  | cons piece pieces ih =>
    obtain ⟨out, t, hreads, hwaits, hevents, hhandler, hongoing, hfinal, hfeed⟩ :=
      feed_reads hnever hsuspended piece false
    have hfeeds : s.feeds (piece :: pieces) = t.feeds pieces := by
      show (s.feed piece false).2.feeds pieces = t.feeds pieces
      rw [hfeed, atEnd_of_not_final hfinal]
    obtain ⟨more, hmore, hmoreEvents, hmoreHandler, hmoreOngoing⟩ :=
      ih (s := t) (by rw [hhandler]; exact hnever) hongoing
    rw [hfeeds]
    refine ⟨out ++ more, .cons hreads hwaits hmore, ?_, hmoreHandler.trans hhandler, hmoreOngoing⟩
    rw [hmoreEvents, hevents, List.append_assoc]

/-- The outcome of a session that waits depends on what it has read. -/
theorem atEnd_congr (hstate : s.toIncrementalState = t.toIncrementalState)
    (hbuffer : s.bufferWindow = t.bufferWindow) (hfinal : s.finalBuffer = t.finalBuffer) :
    s.atEnd.1 = t.atEnd.1 ∧ s.atEnd.2.toIncrementalState = t.atEnd.2.toIncrementalState := by
  obtain ⟨state, handler, buffer, count, final, finished, suspended, events⟩ := s
  obtain ⟨state', handler', buffer', count', final', finished', suspended', events'⟩ := t
  obtain rfl : state = state' := hstate
  obtain rfl : buffer = buffer' := hbuffer
  obtain rfl : final = final' := hfinal
  unfold atEnd finishOrNeedMore
  dsimp only
  repeat' split
  all_goals exact ⟨rfl, rfl⟩

theorem atEnd_events (s : IncrementalParseSession) : s.atEnd.2.events = s.events := by
  unfold atEnd finishOrNeedMore
  repeat' split
  all_goals rfl

end IncrementalParseSession

open IncrementalParseSession IncrementalState in
/-- A session that is fed a document in pieces, of which the last is final, ends as when it is fed the
whole document at once: with the same status and message, the same events up to the pieces of text,
and at the same position. -/
theorem incrementalSession_chunk_invariant (handler : Handler) (hnever : handler.NeverStops)
    (pieces : List String8) (last : String8) :
    let split := ((IncrementalParseSession.make handler).feeds pieces).feed last true
    let whole := (IncrementalParseSession.make handler).feed (pieces.flatten ++ last) true
    split.1 = whole.1 ∧ split.2.lastError = whole.2.lastError ∧
      joinText.Same split.2.events whole.2.events ∧ split.2.position = whole.2.position := by
  intro split whole
  obtain ⟨out, hpieces, hevents, hhandler, hongoing⟩ :=
    feeds_reads (s := .make handler) hnever rfl pieces
  obtain ⟨out', t, hlast, hwaits, htEvents, -, -, htFinal, hsplit⟩ :=
    feed_reads (by rw [hhandler]; exact hnever) hongoing last true
  obtain ⟨wholeOut, u, hwhole, hwholeWaits, huEvents, -, -, huFinal, hwholeFeed⟩ :=
    feed_reads (s := .make handler) hnever rfl (pieces.flatten ++ last) true
  have hjoined : (pieces ++ [last]).flatten = pieces.flatten ++ last := by
    rw [List.flatten_append, List.flatten_singleton]
  have hsame := coarsens_reader.chunks stable_reader trivial (hpieces.concat hlast hwaits) hwaits
    (by rw [hjoined]; exact hwhole) hwholeWaits
  obtain ⟨hout, hstate, hbuffer⟩ := hsame
  obtain ⟨hstatus, hend⟩ := atEnd_congr hstate hbuffer (htFinal.trans huFinal.symm)
  show (feed _ _ _).1 = (feed _ _ _).1 ∧ (feed _ _ _).2.lastError = (feed _ _ _).2.lastError ∧
    joinText.Same (feed _ _ _).2.events (feed _ _ _).2.events ∧
    (feed _ _ _).2.position = (feed _ _ _).2.position
  rw [hsplit, hwholeFeed, atEnd_events, atEnd_events, htEvents, huEvents, hevents]
  refine ⟨hstatus, congrArg (·.lastError) hend, ?_, congrArg (·.position) hend⟩
  exact hout

/-- The pieces cut a name, an attribute value and a text; the session tells the element and its text
all the same, and ends behind its last tag. -/
theorem incrementalSession_chunk_invariant_value :
    let split := ((IncrementalParseSession.make .observing).feeds
      [str "<a", str "b x='1", str ">'>te"]).feed (str "xt</ab>") true
    split.1 = .finished ∧ split.2.lastError = none ∧
      joinText.Same split.2.events
        [.startElement (str "ab") (Attributes.make.put (str "x") (str "1>")),
          .characterData (str "text"), .endElement (str "ab")] ∧
      split.2.position = { byteIndex := 20, column := 20 } := by
  intro split
  let whole := (IncrementalParseSession.make .observing).feed (str "<ab x='1>'>text</ab>") true
  have hwhole : whole.1 = .finished ∧ whole.2.lastError = none ∧
      whole.2.events = [.startElement (str "ab") (Attributes.make.put (str "x") (str "1>")),
        .characterData (str "text"), .endElement (str "ab")] ∧
      whole.2.position = { byteIndex := 20, column := 20 } :=
    ⟨rfl, rfl, rfl, rfl⟩
  obtain ⟨hstatus, herror, hevents, hposition⟩ := hwhole
  obtain ⟨hstatus', herror', hevents', hposition'⟩ :=
    incrementalSession_chunk_invariant .observing (fun _ ↦ rfl)
      [str "<a", str "b x='1", str ">'>te"] (str "xt</ab>")
  exact ⟨hstatus'.trans hstatus, herror'.trans herror, hevents ▸ hevents',
    hposition'.trans hposition⟩

end Xpact
