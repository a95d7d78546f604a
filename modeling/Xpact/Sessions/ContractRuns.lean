import Xpact.Sessions.Contracts

/-!
# Runs of the sessions under their contracts

A call of a session advances until it blocks; the checked session stops at the first violation.  It
violates a contract where a complete tag is too short for the routine that reads it, or where
something stray stands directly behind the name of a start tag or behind one of its attributes, and
nowhere else.
-/

namespace Xpact

open Library Checked

namespace Session

/-! ## Markup -/

/-- `buffer.count >= 2 and then p (buffer.item (2))`. -/
def secondHolds (buffer : String8) (p : Character8 → Bool) : Checked Bool :=
  if 2 ≤ buffer.length then do return p (← itemAt buffer 2) else .ok false

/-- The part of `advance_markup` and `content_processor` that reads markup: `waiting` stands for an
incomplete tag and `unsupported` for other markup. -/
def checkedMarkup {α : Type} (buffer : String8) (waiting unsupported : α)
    (endTag startTag : Nat → Checked α) : Checked α := do
  let stop ← checkedCompleteMarkupEnd buffer
  if stop = 0 then
    return waiting
  else if ← secondHolds buffer (· == '/') then
    endTag stop
  else if ← secondHolds buffer (fun c ↦ c == '!' || c == '?') then
    return unsupported
  else
    startTag stop

/-- The first text of the buffer, up to the next `<`. -/
def checkedLeadingText (buffer : String8) : Checked String8 :=
  let next := buffer.indexOf '<' 1
  if next = 0 then .ok buffer else substringAt buffer 1 (next - 1)

/-- The tag at the beginning of the buffer breaks a contract: it is too short, or it is a start tag
in which something stray stands directly behind the name or behind an attribute. -/
def BreaksContract (buffer : String8) : Prop :=
  str "<>" <+: buffer ∨ str "</>" <+: buffer ∨
    buffer.head? = some '<' ∧ HasStray (buffer.take (completeMarkupEnd buffer))

section

variable {rest : String8} {c d : Character8}

/-- What `complete_markup_end` comes to by the second character. -/
theorem completeMarkupEnd_cons (c d : Character8) (rest : String8) :
    completeMarkupEnd (c :: d :: rest) =
      if isQuote d then findMarkupEndIn (some d) rest 3
      else if d = '>' then 2
      else findMarkupEndIn none rest 3 := rfl

theorem completeMarkupEnd_lt_three (h : completeMarkupEnd (c :: d :: rest) ≠ 0) :
    completeMarkupEnd (c :: d :: rest) < 3 ↔ d = '>' := by
  rw [completeMarkupEnd_cons] at h ⊢
  by_cases hquote : isQuote d = true
  · rw [if_pos hquote] at h ⊢
    have hle := findMarkupEndIn_le (by omega) h
    constructor
    · intro hlt
      omega
    · intro hd
      rw [hd] at hquote
      exact absurd hquote (by decide)
  rw [if_neg hquote] at h ⊢
  by_cases hd : d = '>'
  · rw [if_pos hd]
    exact ⟨fun _ ↦ hd, fun _ ↦ by omega⟩
  · rw [if_neg hd] at h ⊢
    have hle := findMarkupEndIn_le (by omega) h
    constructor
    · intro hlt
      omega
    · exact fun heq ↦ absurd heq hd

theorem completeMarkupEnd_lt_four (h : completeMarkupEnd (c :: '/' :: rest) ≠ 0) :
    completeMarkupEnd (c :: '/' :: rest) < 4 ↔ rest.head? = some '>' := by
  have hrest : completeMarkupEnd (c :: '/' :: rest) = findMarkupEndIn none rest 3 := rfl
  rw [hrest] at h ⊢
  cases rest with
  | nil => exact absurd rfl h
  | cons e rest =>
    rw [findMarkupEndIn] at h ⊢
    have hnext {quote : Option Character8} (h : findMarkupEndIn quote rest 4 ≠ 0)
        (he : e ≠ '>') : findMarkupEndIn quote rest 4 < 4 ↔ some e = some '>' := by
      have hle := findMarkupEndIn_le (by omega) h
      constructor
      · intro hlt
        omega
      · exact fun heq ↦ absurd (Option.some.inj heq) he
    by_cases hquote : isQuote e = true
    · rw [if_pos hquote] at h ⊢
      apply hnext h
      intro he
      rw [he] at hquote
      exact absurd hquote (by decide)
    rw [if_neg hquote] at h ⊢
    by_cases he : e = '>'
    · rw [if_pos he, he]
      exact ⟨fun _ ↦ rfl, fun _ ↦ by omega⟩
    · rw [if_neg he] at h ⊢
      exact hnext h he

theorem startTag_begins : str "<>" <+: ('<' : Character8) :: d :: rest ↔ d = '>' := by
  have htext : str "<>" = [('<' : Character8), '>'] := rfl
  rw [htext, List.cons_prefix_cons, List.cons_prefix_cons]
  constructor
  · exact fun h ↦ h.2.1.symm
  · exact fun h ↦ ⟨rfl, h.symm, List.nil_prefix⟩

theorem endTag_begins :
    str "</>" <+: ('<' : Character8) :: d :: rest ↔ d = '/' ∧ rest.head? = some '>' := by
  have htext : str "</>" = [('<' : Character8), '/', '>'] := rfl
  rw [htext, List.cons_prefix_cons, List.cons_prefix_cons]
  cases rest with
  | nil =>
    constructor
    · intro h
      exact absurd h.2.2.length_le (by decide)
    · rintro ⟨-, h⟩
      cases h
  | cons e rest =>
    rw [List.cons_prefix_cons]
    constructor
    · rintro ⟨-, hd, he, -⟩
      exact ⟨hd.symm, congrArg some he.symm⟩
    · rintro ⟨hd, he⟩
      exact ⟨rfl, hd.symm, (Option.some.inj he).symm, List.nil_prefix⟩

/-- Only a tag that begins with a name start is a start tag. -/
theorem HasStray.second {stop : Nat} (h : HasStray ((c :: d :: rest).take stop)) :
    isNameStartCharacter d = true := by
  obtain ⟨e, v, hbody, he, -⟩ := h
  unfold tagBody at hbody
  match stop with
  | 0 => cases hbody
  | 1 => cases hbody
  | 2 => cases hbody
  | stop + 3 =>
    rw [List.take_succ_cons, List.take_succ_cons, List.drop_succ_cons, List.drop_zero] at hbody
    cases hrest : rest.take (stop + 1) with
    | nil =>
      rw [hrest] at hbody
      cases hbody
    | cons f w =>
      rw [hrest, List.dropLast_cons_cons] at hbody
      rw [(List.cons.inj hbody).1]
      exact he

theorem secondHolds_cons (p : Character8 → Bool) :
    secondHolds (c :: d :: rest) p = .ok (p d) := by
  have hat : RestAt (c :: d :: rest) 2 (d :: rest) := by
    refine ⟨by omega, ?_, rfl⟩
    rw [List.length_cons (a := c)]
    omega
  unfold secondHolds
  rw [if_pos hat.le, itemAt_of_restAt hat]
  rfl

theorem not_breaksContract_of_incomplete (h : completeMarkupEnd (('<' : Character8) :: rest) = 0) :
    ¬ BreaksContract ('<' :: rest) := by
  rintro (hbegins | hbegins | ⟨-, hstray⟩)
  · cases rest with
    | nil => exact absurd hbegins.length_le (by decide)
    | cons d rest =>
      rw [startTag_begins.1 hbegins] at h
      cases h
  · cases rest with
    | nil => exact absurd hbegins.length_le (by decide)
    | cons d rest =>
      obtain ⟨rfl, hclose⟩ := endTag_begins.1 hbegins
      cases rest with
      | nil => cases hclose
      | cons e rest =>
        rw [Option.some.inj hclose] at h
        cases h
  · rw [h] at hstray
    obtain ⟨c, v, hbody, -⟩ := hstray
    cases hbody

/-- Where markup breaks a contract. -/
theorem checkedMarkup_comesTo {α : Type} (waiting unsupported : α)
    {endTag startTag : Nat → Checked α} {ended started : Nat → α} {buffer : String8}
    (hbuffer : buffer = ('<' : Character8) :: rest)
    (hend : ∀ stop, 3 ≤ stop → stop ≤ buffer.length →
      ComesTo (endTag stop) (ended stop) (stop < 4))
    (hstart : ∀ stop, 2 ≤ stop → stop ≤ buffer.length →
      ComesTo (startTag stop) (started stop) (stop < 3 ∨ HasStray (buffer.take stop))) :
    ComesTo (checkedMarkup buffer waiting unsupported endTag startTag)
      (if completeMarkupEnd buffer = 0 then waiting
        else if buffer.item 2 = '/' then ended (completeMarkupEnd buffer)
        else if buffer.item 2 = '!' ∨ buffer.item 2 = '?' then unsupported
        else started (completeMarkupEnd buffer))
      (BreaksContract buffer) := by
  unfold checkedMarkup
  rw [checkedCompleteMarkupEnd_eq (by rw [hbuffer]; exact List.cons_ne_nil _ _), ok_bind]
  by_cases hzero : completeMarkupEnd buffer = 0
  · rw [if_pos hzero, if_pos hzero]
    refine .of_ok rfl ?_
    rw [hbuffer] at hzero ⊢
    exact not_breaksContract_of_incomplete hzero
  rw [if_neg hzero, if_neg hzero]
  obtain ⟨hleast, hin⟩ := completeMarkupEnd_le hzero
  cases rest with
  | nil =>
    rw [hbuffer] at hzero
    exact absurd rfl hzero
  | cons d rest =>
    have hitem : buffer.item 2 = d := by
      rw [hbuffer]
      rfl
    have hsecond (p : Character8 → Bool) : secondHolds buffer p = .ok (p d) := by
      rw [hbuffer]
      exact secondHolds_cons p
    rw [hsecond, ok_bind, hitem]
    by_cases hslash : d = '/'
    · rw [if_pos (beq_iff_eq.2 hslash), if_pos hslash]
      have hthree : 3 ≤ completeMarkupEnd buffer := by
        apply Nat.le_of_not_lt
        intro hlt
        rw [hbuffer] at hlt hzero
        rw [(completeMarkupEnd_lt_three hzero).1 hlt] at hslash
        exact absurd hslash (by decide)
      have hbroken : BreaksContract buffer ↔ completeMarkupEnd buffer < 4 := by
        rw [hbuffer, hslash] at hzero ⊢
        rw [completeMarkupEnd_lt_four hzero]
        constructor
        · rintro (hbegins | hbegins | ⟨-, hstray⟩)
          · exact absurd (startTag_begins.1 hbegins) (by decide)
          · exact (endTag_begins.1 hbegins).2
          · exact absurd hstray.second (by decide)
        · exact fun h ↦ .inr (.inl (endTag_begins.2 ⟨rfl, h⟩))
      have hcomes := hend _ hthree hin
      exact ⟨fun h ↦ hcomes.ok (hbroken.not.1 h), fun h ↦ hcomes.error (hbroken.1 h)⟩
    rw [if_neg (fun heq ↦ hslash (beq_iff_eq.1 heq)), if_neg hslash, hsecond, ok_bind]
    by_cases hother : d = '!' ∨ d = '?'
    · rw [if_pos (by rw [Bool.or_eq_true, beq_iff_eq, beq_iff_eq]; exact hother), if_pos hother]
      refine .of_ok rfl ?_
      rw [hbuffer]
      rintro (hbegins | hbegins | ⟨-, hstray⟩)
      · rw [startTag_begins.1 hbegins] at hother
        exact absurd hother (by decide)
      · exact hslash (endTag_begins.1 hbegins).1
      · have hname := hstray.second
        rcases hother with rfl | rfl
        · exact absurd hname (by decide)
        · exact absurd hname (by decide)
    · rw [if_neg (by rw [Bool.or_eq_true, beq_iff_eq, beq_iff_eq]; exact hother), if_neg hother]
      have hbroken : BreaksContract buffer ↔
          completeMarkupEnd buffer < 3 ∨ HasStray (buffer.take (completeMarkupEnd buffer)) := by
        unfold BreaksContract
        rw [hbuffer] at hzero ⊢
        rw [completeMarkupEnd_lt_three hzero, startTag_begins, endTag_begins]
        constructor
        · rintro (hd | ⟨hd, -⟩ | ⟨-, hstray⟩)
          · exact .inl hd
          · exact absurd hd hslash
          · exact .inr hstray
        · rintro (hd | hstray)
          · exact .inl hd
          · exact .inr (.inr ⟨rfl, hstray⟩)
      have hcomes := hstart _ hleast hin
      exact ⟨fun h ↦ hcomes.ok (hbroken.not.1 h), fun h ↦ hcomes.error (hbroken.1 h)⟩

/-- The text in front of the next `<`. -/
theorem checkedLeadingText_eq (buffer : String8) :
    checkedLeadingText buffer = .ok (leadingText buffer) := by
  have hat : RestAt buffer 1 buffer := ⟨Nat.le_refl 1, Nat.add_comm 1 _, rfl⟩
  have hsplit := List.takeWhile_append_dropWhile (p := (· != ('<' : Character8))) (l := buffer)
  have hnone : ('<' : Character8) ∉ leadingText buffer :=
    fun hmem ↦ ne_of_mem_leadingText hmem rfl
  unfold checkedLeadingText
  cases hrest : buffer.dropWhile (· != ('<' : Character8)) with
  | nil =>
    rw [hrest, List.append_nil] at hsplit
    have hwhole : leadingText buffer = buffer := hsplit
    rw [hwhole] at hnone ⊢
    exact if_pos (hat.findCharacter_eq_zero hnone)
  | cons e rest =>
    have he : e = '<' := by
      have hhead := List.head?_dropWhile_not (· != ('<' : Character8)) buffer
      rw [hrest] at hhead
      exact of_not_not fun hne ↦ absurd (bne_iff_ne.2 hne) (by rw [hhead]; decide)
    rw [hrest, he] at hsplit
    have hat' : RestAt buffer 1 (leadingText buffer ++ ('<' : Character8) :: rest) := by
      rw [show leadingText buffer ++ ('<' : Character8) :: rest = buffer from hsplit]
      exact hat
    have hfound : buffer.indexOf '<' 1 = 1 + (leadingText buffer).length :=
      hat'.findCharacter hnone
    dsimp only
    rw [hfound, if_neg (by omega)]
    exact substringAt_of_restAt hat'

end

/-! ## Runs -/

/-- What a client does with a session. -/
inductive Call where
  | feed (input : String8) (isFinal : Bool)
  | resume

/-- A session with and without checks: how a call begins, when its precondition holds, how many
rounds it advances at most, and how it ends. -/
structure Driver (S : Type) where
  one : S → Status × S
  checkedOne : S → Checked (Status × S)
  begin : Call → S → Option S
  rounds : S → Nat
  settle : Status × S → Status × S

section

variable {S : Type} (D : Driver S)

/-- The states in which `advance` takes a step. -/
def steps (one : S → Status × S) : Nat → S → List S
  | 0, _ => []
  | n + 1, s =>
    s :: match one s with
      | (.event, t) => steps one n t
      | _ => []

/-- The loop of a session, with checks. -/
def checkedAdvance (one : S → Checked (Status × S)) : Nat → S → Checked (Status × S)
  | 0, s => .ok (.event, s)
  | n + 1, s => do
    match ← one s with
    | (.event, t) => checkedAdvance one n t
    | result => return result

/-- The calls of a client, as long as their preconditions hold. -/
def Driver.run : List Call → S → S
  | [], s => s
  | call :: calls, s =>
    match D.begin call s with
    | none => s
    | some t => Driver.run calls (D.settle (advance D.one (D.rounds t) t)).2

def Driver.checkedRun : List Call → S → Checked S
  | [], s => .ok s
  | call :: calls, s =>
    match D.begin call s with
    | none => .ok s
    | some t => do
      let result ← checkedAdvance D.checkedOne (D.rounds t) t
      Driver.checkedRun calls (D.settle result).2

/-- The states in which the calls of a client take a step. -/
def Driver.runSteps : List Call → S → List S
  | [], _ => []
  | call :: calls, s =>
    match D.begin call s with
    | none => []
    | some t => steps D.one (D.rounds t) t ++
        Driver.runSteps calls (D.settle (advance D.one (D.rounds t) t)).2

variable {one : S → Status × S} {checkedOne : S → Checked (Status × S)} {Breaks : S → Prop}

theorem checkedAdvance_comesTo (hone : ∀ s, ComesTo (checkedOne s) (one s) (Breaks s)) (n : Nat)
    (s : S) :
    ComesTo (checkedAdvance checkedOne n s) (advance one n s) (∃ t ∈ steps one n s, Breaks t) := by
  induction n generalizing s with
  | zero => exact .of_ok rfl (by rintro ⟨t, ht, -⟩; cases ht)
  | succ n ih =>
    rw [checkedAdvance, steps, advance]
    generalize hresult : one s = result
    have hfirst := hone s
    rw [hresult] at hfirst
    obtain ⟨status, t⟩ := result
    have hlast (h : status ≠ .event) :
        ComesTo (return (status, t) : Checked (Status × S)) (status, t) False :=
      .of_ok rfl id
    by_cases hevent : status = .event
    · subst hevent
      apply hfirst.bind (fun _ ↦ ih t)
      constructor
      · rintro ⟨u, hu, hbroken⟩
        by_cases hs : Breaks s
        · exact .inl hs
        rcases List.mem_cons.1 hu with rfl | hu
        · exact absurd hbroken hs
        · exact .inr ⟨hs, u, hu, hbroken⟩
      · rintro (hs | ⟨-, u, hu, hbroken⟩)
        · exact ⟨s, List.mem_cons_self, hs⟩
        · exact ⟨u, List.mem_cons_of_mem s hu, hbroken⟩
    · have hrest : ComesTo (match (status, t) with
          | (.event, t) => checkedAdvance checkedOne n t
          | result => return result) (match (status, t) with
          | (.event, t) => advance one n t
          | result => result) False := by
        cases status <;> first | exact absurd rfl hevent | exact .of_ok rfl id
      have hnone : (match (status, t) with
          | (.event, t) => steps one n t
          | _ => []) = [] := by
        cases status <;> first | exact absurd rfl hevent | rfl
      apply hfirst.bind (fun _ ↦ hrest)
      rw [hnone]
      constructor
      · rintro ⟨u, hu, hbroken⟩
        rw [List.mem_singleton.1 hu] at hbroken
        exact .inl hbroken
      · rintro (hs | ⟨-, hfalse⟩)
        · exact ⟨s, List.mem_cons_self, hs⟩
        · exact hfalse.elim

/-- The calls go through without a violation unless one of their steps breaks a contract. -/
theorem Driver.checkedRun_comesTo (hone : ∀ s, ComesTo (D.checkedOne s) (D.one s) (Breaks s))
    (calls : List Call) (s : S) :
    ComesTo (D.checkedRun calls s) (D.run calls s) (∃ t ∈ D.runSteps calls s, Breaks t) := by
  induction calls generalizing s with
  | nil => exact .of_ok rfl (by rintro ⟨t, ht, -⟩; cases ht)
  | cons call calls ih =>
    rw [checkedRun, run, runSteps]
    cases D.begin call s with
    | none => exact .of_ok rfl (by rintro ⟨t, ht, -⟩; cases ht)
    | some t =>
      apply (checkedAdvance_comesTo hone (D.rounds t) t).bind (fun _ ↦ ih _)
      simp only [List.mem_append, or_and_right, exists_or]
      constructor
      · rintro (hfirst | hrest)
        · exact .inl hfirst
        · by_cases hfirst : ∃ u ∈ steps D.one (D.rounds t) t, Breaks u
          · exact .inl hfirst
          · exact .inr ⟨hfirst, hrest⟩
      · rintro (hfirst | ⟨-, hrest⟩)
        · exact .inl hfirst
        · exact .inr hrest

end

/-- `consume_prefix`: the position and what is left of the buffer. -/
def checkedConsume (position : Position) (buffer : String8) (count : Nat) :
    Checked (Position × String8) := do
  require (0 < count ∧ count ≤ buffer.length)
  let position ← checkedUpdatePosition position (← substringAt buffer 1 count)
  if count = buffer.length then
    return (position, [])
  else
    return (position, ← substringAt buffer (count + 1) buffer.length)

theorem checkedConsume_eq (position : Position) {buffer : String8} {count : Nat}
    (hpos : 0 < count) (hcount : count ≤ buffer.length) :
    checkedConsume position buffer count =
      .ok (position.update (buffer.take count), buffer.drop count) := by
  have hlength : (buffer.take count).length = count := by
    rw [List.length_take]
    omega
  have hat : RestAt buffer 1 (buffer.take count ++ buffer.drop count) := by
    rw [List.take_append_drop]
    exact ⟨Nat.le_refl 1, Nat.add_comm 1 _, rfl⟩
  have hfirst := substringAt_of_restAt hat
  rw [hlength, show 1 + count - 1 = count by omega] at hfirst
  unfold checkedConsume
  rw [require_of ⟨hpos, hcount⟩, ok_bind, hfirst, ok_bind, checkedUpdatePosition_eq, ok_bind]
  by_cases hall : count = buffer.length
  · rw [if_pos hall, hall, List.drop_length]
    rfl
  · have hrest : RestAt buffer (count + 1) (buffer.drop count ++ []) := by
      rw [List.append_nil]
      exact .of_index (by omega) (by omega)
    have hlast := substringAt_of_restAt hrest
    rw [List.length_drop, show count + 1 + (buffer.length - count) - 1 = buffer.length by omega]
      at hlast
    rw [if_neg hall, hlast]
    rfl

end Session

open Session

/-! ## The incremental session -/

namespace IncrementalParseSession

variable (s : IncrementalParseSession)

def checkedConsumePrefix (count : Nat) : Checked IncrementalParseSession := do
  let (position, bufferWindow) ← checkedConsume s.position s.bufferWindow count
  return { s with position, bufferWindow }

/-- `advance_start_tag`. -/
def checkedAdvanceStartTag (stop : Nat) : Checked (Status × IncrementalParseSession) := do
  match ← checkedReadStartTag true s.bufferWindow stop with
  | .error message => return (.error, s.setError message)
  | .ok tag =>
    let s :=
      if s.elementStack.isEmpty then { s with documentElementCount := s.documentElementCount + 1 }
      else s
    let s := s.emit (.startElement tag.name tag.attributes)
    let s :=
      if tag.isEmpty then s.emit (.endElement tag.name)
      else { s with elementStack := tag.name :: s.elementStack }
    return (← s.checkedConsumePrefix stop).eventOrSuspended

/-- `advance_end_tag`. -/
def checkedAdvanceEndTag (stop : Nat) : Checked (Status × IncrementalParseSession) := do
  match ← checkedReadEndTag true s.bufferWindow stop with
  | .error message => return (.error, s.setError message)
  | .ok name =>
    if s.elementStack.head? ≠ some name then
      return (.error, s.setError "mismatched end tag")
    else
      let s := { s with elementStack := s.elementStack.tail }
      return (← (s.emit (.endElement name)).checkedConsumePrefix stop).eventOrSuspended

/-- `advance_markup`. -/
def checkedAdvanceMarkup : Checked (Status × IncrementalParseSession) :=
  checkedMarkup s.bufferWindow
    (if s.finalBuffer then (.error, s.setError "unclosed token") else (.needMore, s))
    (.error, s.setError "unsupported incremental markup") s.checkedAdvanceEndTag
    s.checkedAdvanceStartTag

/-- `advance_one`. -/
def checkedAdvanceOne : Checked (Status × IncrementalParseSession) := do
  if s.lastError.isSome then
    return (.error, s)
  else if s.isSuspended then
    return (.suspended, s)
  else if s.bufferWindow.isEmpty then
    return s.finishOrNeedMore
  else if (← itemAt s.bufferWindow 1) = '<' then
    s.checkedAdvanceMarkup
  else do
    let text ← checkedLeadingText s.bufferWindow
    return (← (s.emitCharacterData text).checkedConsumePrefix text.length).eventOrSuspended

/-- The next step of the session reads a tag that breaks a contract. -/
def Breaks : Prop :=
  s.lastError.isSome = false ∧ s.isSuspended = false ∧ BreaksContract s.bufferWindow

/-- The calls of a client: `feed` while the session is neither finished nor suspended, and `resume`
when it is suspended. -/
def driver : Driver IncrementalParseSession where
  one := advanceOne
  checkedOne := checkedAdvanceOne
  begin
    | .feed input isFinal, s =>
      if s.isFinished || s.isSuspended then none
      else some { s with bufferWindow := s.bufferWindow ++ input, finalBuffer := isFinal }
    | .resume, s => if s.isSuspended then some { s with isSuspended := false } else none
  rounds s := s.bufferWindow.length + 1
  settle := id

variable {s} {count stop : Nat}

theorem checkedConsumePrefix_eq (hpos : 0 < count) (hcount : count ≤ s.bufferWindow.length) :
    s.checkedConsumePrefix count = .ok (s.consumePrefix count) := by
  unfold checkedConsumePrefix
  rw [checkedConsume_eq s.position hpos hcount]
  rfl

theorem checkedAdvanceStartTag_comesTo (hleast : 2 ≤ stop) (hstop : stop ≤ s.bufferWindow.length) :
    ComesTo (s.checkedAdvanceStartTag stop) (s.advanceStartTag stop)
      (stop < 3 ∨ HasStray (s.bufferWindow.take stop)) := by
  unfold checkedAdvanceStartTag advanceStartTag
  apply (checkedReadStartTag_comesTo true hleast hstop).bind_ok
  cases readStartTag (s.bufferWindow.take stop) with
  | error message => rfl
  | ok tag =>
    dsimp only
    rw [checkedConsumePrefix_eq (by omega)]
    · rfl
    · split <;> split <;> exact hstop

theorem checkedAdvanceEndTag_comesTo (hleast : 3 ≤ stop) (hstop : stop ≤ s.bufferWindow.length) :
    ComesTo (s.checkedAdvanceEndTag stop) (s.advanceEndTag stop) (stop < 4) := by
  unfold checkedAdvanceEndTag advanceEndTag
  apply (checkedReadEndTag_comesTo true hleast hstop).bind_ok
  cases readEndTag (s.bufferWindow.take stop) with
  | error message => rfl
  | ok name =>
    dsimp only
    by_cases hopen : s.elementStack.head? ≠ some name
    · rw [if_pos hopen, if_pos hopen]
      rfl
    · rw [if_neg hopen, if_neg hopen, checkedConsumePrefix_eq (by omega)]
      · rfl
      · exact hstop

/-- A step comes to what it comes to without checks, unless it breaks a contract. -/
theorem checkedAdvanceOne_comesTo (s : IncrementalParseSession) :
    ComesTo s.checkedAdvanceOne s.advanceOne s.Breaks := by
  unfold checkedAdvanceOne advanceOne Breaks
  by_cases herror : s.lastError.isSome = true
  · rw [if_pos herror, if_pos herror]
    exact .of_ok rfl fun h ↦ absurd (herror.symm.trans h.1) (by decide)
  rw [if_neg herror, if_neg herror]
  by_cases hsuspended : s.isSuspended = true
  · rw [if_pos hsuspended, if_pos hsuspended]
    exact .of_ok rfl fun h ↦ absurd (hsuspended.symm.trans h.2.1) (by decide)
  rw [if_neg hsuspended, if_neg hsuspended]
  rw [Bool.not_eq_true] at herror hsuspended
  cases hbuffer : s.bufferWindow with
  | nil =>
    refine .of_ok rfl ?_
    rintro ⟨-, -, hbegins | hbegins | ⟨hhead, -⟩⟩
    · exact absurd hbegins.length_le (by decide)
    · exact absurd hbegins.length_le (by decide)
    · cases hhead
  | cons c rest =>
    have hat : RestAt (c :: rest) 1 (c :: rest) := ⟨Nat.le_refl 1, Nat.add_comm 1 _, rfl⟩
    rw [if_neg (by exact Bool.false_ne_true), itemAt_of_restAt hat, ok_bind]
    dsimp only
    by_cases hc : c = '<'
    · rw [if_pos hc, if_pos hc]
      rw [hc] at hbuffer
      have hmarkup := checkedMarkup_comesTo
        (if s.finalBuffer then (.error, s.setError "unclosed token") else (.needMore, s))
        (.error, s.setError "unsupported incremental markup") hbuffer
        (fun _ hleast hstop ↦ checkedAdvanceEndTag_comesTo hleast hstop)
        (fun _ hleast hstop ↦ checkedAdvanceStartTag_comesTo hleast hstop)
      rw [hc, ← hbuffer]
      constructor
      · exact fun h ↦ hmarkup.ok fun hbroken ↦ h ⟨herror, hsuspended, hbroken⟩
      · exact fun h ↦ hmarkup.error h.2.2
    · rw [if_neg hc, if_neg hc, ← hbuffer, checkedLeadingText_eq, ok_bind]
      have hlength : (leadingText s.bufferWindow).length ≤ s.bufferWindow.length :=
        (List.takeWhile_prefix _).length_le
      have hpos : 0 < (leadingText s.bufferWindow).length := by
        rw [hbuffer]
        exact List.length_pos_iff.2 (leadingText_ne_nil hc rest)
      refine .of_ok ?_ ?_
      · rw [checkedConsumePrefix_eq hpos]
        · rfl
        · exact hlength
      · rw [hbuffer]
        rintro ⟨-, -, hbegins | hbegins | ⟨hhead, -⟩⟩
        · exact hc (List.cons_prefix_cons.1 hbegins).1.symm
        · exact hc (List.cons_prefix_cons.1 hbegins).1.symm
        · exact hc (Option.some.inj hhead)

end IncrementalParseSession

/-! ## The session that is modelled on Expat -/

namespace ExpatPortParseSession

variable (s : ExpatPortParseSession)

def checkedConsumePrefix (count : Nat) : Checked ExpatPortParseSession := do
  let (position, buffer) ← checkedConsume s.position s.buffer count
  return { s with position, buffer }

/-- `process_start_tag`. -/
def checkedProcessStartTag (stop : Nat) : Checked (Status × ExpatPortParseSession) := do
  match ← checkedReadStartTag false s.buffer stop with
  | .error message => return (.error, s.setError message)
  | .ok tag =>
    let s :=
      if s.elementStack.isEmpty then { s with documentElementCount := s.documentElementCount + 1 }
      else s
    let s := s.emit (.startElement tag.name tag.attributes)
    let s :=
      if tag.isEmpty then
        let s := s.emit (.endElement tag.name)
        if s.elementStack.isEmpty then s.setProcessor .epilog else s
      else
        { s with elementStack := tag.name :: s.elementStack }
    return (← { s with currentByteCount := stop }.checkedConsumePrefix stop).eventOrSuspended

/-- `process_end_tag`. -/
def checkedProcessEndTag (stop : Nat) : Checked (Status × ExpatPortParseSession) := do
  match ← checkedReadEndTag false s.buffer stop with
  | .error message => return (.error, s.setError message)
  | .ok name =>
    if s.elementStack.head? ≠ some name then
      return (.error, s.setError "mismatched end tag")
    else do
      let s := { s with elementStack := s.elementStack.tail }.emit (.endElement name)
      let s ← { s with currentByteCount := stop }.checkedConsumePrefix stop
      let s := if s.elementStack.isEmpty then s.setProcessor .epilog else s
      return s.eventOrSuspended

def checkedConsumeProcessingInstructionLikeMarkup : Checked (Status × ExpatPortParseSession) := do
  let close := findSequence s.buffer (str "?>") 1
  if close = 0 then
    return if s.finalBuffer then (.error, s.setError "unclosed token") else (.needMore, s)
  else
    return (.event, ← s.checkedConsumePrefix (close + 1))

def checkedPrologProcessor : Checked (Status × ExpatPortParseSession) := do
  if s.buffer.isEmpty then
    return s.finishOrNeedMore
  else if startsWith s.buffer (str "<?xml") then
    s.checkedConsumeProcessingInstructionLikeMarkup
  else if startsWith s.buffer (str "<!--") || startsWith s.buffer (str "<!DOCTYPE") then
    return (.error, s.setError "unsupported prolog markup")
  else if (← itemAt s.buffer 1) = '<' then
    return (.event, s.setProcessor .content)
  else if isXmlSpace (← itemAt s.buffer 1) then
    return (.event, ← s.checkedConsumePrefix 1)
  else
    return (.error, s.setError "character data outside document element")

def checkedContentProcessor : Checked (Status × ExpatPortParseSession) := do
  if s.buffer.isEmpty then
    return s.finishOrNeedMore
  else if (← itemAt s.buffer 1) = '<' then
    checkedMarkup s.buffer
      (if s.finalBuffer then (.error, s.setError "unclosed token") else (.needMore, s))
      (.error, s.setError "unsupported content markup") s.checkedProcessEndTag
      s.checkedProcessStartTag
  else if s.elementStack.isEmpty then
    if isXmlSpace (← itemAt s.buffer 1) then
      return (.event, ← s.checkedConsumePrefix 1)
    else
      return (.error, s.setError "character data outside document element")
  else do
    let text ← checkedLeadingText s.buffer
    let s := { s.emit (.characterData text) with currentByteCount := text.length }
    return (← s.checkedConsumePrefix text.length).eventOrSuspended

def checkedEpilogProcessor : Checked (Status × ExpatPortParseSession) := do
  if s.buffer.isEmpty then
    return s.finishOrNeedMore
  else if isXmlSpace (← itemAt s.buffer 1) then
    return (.event, ← s.checkedConsumePrefix 1)
  else
    return (.error, s.setError "junk after document element")

/-- Call the active processor. -/
def checkedProcessOne : Checked (Status × ExpatPortParseSession) :=
  match s.processor with
  | .prologInit => .ok s.prologInitProcessor
  | .prolog => s.checkedPrologProcessor
  | .content => s.checkedContentProcessor
  | .epilog => s.checkedEpilogProcessor
  | .error => .ok (.error, s)

/-- The next step of the session reads a tag that breaks a contract. -/
def Breaks : Prop := s.processor = .content ∧ BreaksContract s.buffer

/-- The calls of a client: `parse` while the session is neither finished nor suspended, and `resume`
when it is suspended. -/
def driver : Driver ExpatPortParseSession where
  one := processOne
  checkedOne := checkedProcessOne
  begin
    | .feed input isFinal, s =>
      if s.isFinished || s.isSuspended then none
      else some { s with buffer := s.buffer ++ input, finalBuffer := isFinal }
    | .resume, s => if s.isSuspended then some { s with isSuspended := false } else none
  rounds s := s.buffer.length + 3
  settle := note

variable {s} {count stop : Nat}

theorem checkedConsumePrefix_eq (hpos : 0 < count) (hcount : count ≤ s.buffer.length) :
    s.checkedConsumePrefix count = .ok (s.consumePrefix count) := by
  unfold checkedConsumePrefix
  rw [checkedConsume_eq s.position hpos hcount]
  rfl

theorem checkedProcessStartTag_comesTo (hleast : 2 ≤ stop) (hstop : stop ≤ s.buffer.length) :
    ComesTo (s.checkedProcessStartTag stop) (s.processStartTag stop)
      (stop < 3 ∨ HasStray (s.buffer.take stop)) := by
  unfold checkedProcessStartTag processStartTag
  apply (checkedReadStartTag_comesTo false hleast hstop).bind_ok
  cases readStartTag (s.buffer.take stop) with
  | error message => rfl
  | ok tag =>
    dsimp only
    rw [checkedConsumePrefix_eq (by omega)]
    · rfl
    · dsimp only
      repeat' split
      all_goals exact hstop

theorem checkedProcessEndTag_comesTo (hleast : 3 ≤ stop) (hstop : stop ≤ s.buffer.length) :
    ComesTo (s.checkedProcessEndTag stop) (s.processEndTag stop) (stop < 4) := by
  unfold checkedProcessEndTag processEndTag
  apply (checkedReadEndTag_comesTo false hleast hstop).bind_ok
  cases readEndTag (s.buffer.take stop) with
  | error message => rfl
  | ok name =>
    dsimp only
    by_cases hopen : s.elementStack.head? ≠ some name
    · rw [if_pos hopen, if_pos hopen]
      rfl
    · rw [if_neg hopen, if_neg hopen, checkedConsumePrefix_eq (by omega)]
      · rfl
      · exact hstop

theorem checkedConsumeProcessingInstructionLikeMarkup_eq (s : ExpatPortParseSession) :
    s.checkedConsumeProcessingInstructionLikeMarkup =
      .ok s.consumeProcessingInstructionLikeMarkup := by
  unfold checkedConsumeProcessingInstructionLikeMarkup consumeProcessingInstructionLikeMarkup
  dsimp only
  by_cases hclose : findSequence s.buffer (str "?>") 1 = 0
  · rw [if_pos hclose, if_pos hclose]
    rfl
  · have hfound : 1 ≤ findSequence s.buffer (str "?>") 1 ∧
        findSequence s.buffer (str "?>") 1 + (str "?>").length ≤ 1 + s.buffer.length :=
      findSequenceIn_le Nat.one_pos hclose
    have htwo : (str "?>").length = 2 := rfl
    rw [if_neg hclose, if_neg hclose, checkedConsumePrefix_eq (by omega) (by omega)]
    rfl

section

variable {c : Character8} {rest : String8}

theorem itemAt_first (h : s.buffer = c :: rest) : itemAt s.buffer 1 = .ok c := by
  rw [h]
  exact itemAt_of_restAt ⟨Nat.le_refl 1, Nat.add_comm 1 _, rfl⟩

theorem checkedConsumePrefix_one (h : s.buffer = c :: rest) :
    s.checkedConsumePrefix 1 = .ok (s.consumePrefix 1) := by
  apply checkedConsumePrefix_eq Nat.one_pos
  rw [h]
  exact Nat.succ_pos _

end

theorem checkedPrologProcessor_eq (s : ExpatPortParseSession) :
    s.checkedPrologProcessor = .ok s.prologProcessor := by
  cases hbuffer : s.buffer with
  | nil =>
    unfold checkedPrologProcessor prologProcessor
    rw [hbuffer]
    rfl
  | cons c rest =>
    unfold prologProcessor
    rw [hbuffer]
    dsimp only
    rw [← hbuffer]
    unfold checkedPrologProcessor
    rw [itemAt_first hbuffer, ok_bind, ok_bind,
      checkedConsumeProcessingInstructionLikeMarkup_eq, checkedConsumePrefix_one hbuffer, ok_bind]
    have hsome : ¬ s.buffer.isEmpty = true := by
      rw [hbuffer]
      exact Bool.false_ne_true
    rw [if_neg hsome]
    by_cases hdeclaration : startsWith s.buffer (str "<?xml") = true
    · rw [if_pos hdeclaration, if_pos hdeclaration]
    rw [if_neg hdeclaration, if_neg hdeclaration]
    by_cases hother : (startsWith s.buffer (str "<!--") ||
        startsWith s.buffer (str "<!DOCTYPE")) = true
    · rw [if_pos hother, if_pos hother]
      rfl
    rw [if_neg hother, if_neg hother]
    by_cases hc : c = '<'
    · rw [if_pos hc, if_pos hc]
      rfl
    rw [if_neg hc, if_neg hc]
    by_cases hspace : isXmlSpace c = true
    · rw [if_pos hspace, if_pos hspace]
      rfl
    · rw [if_neg hspace, if_neg hspace]
      rfl

theorem checkedEpilogProcessor_eq (s : ExpatPortParseSession) :
    s.checkedEpilogProcessor = .ok s.epilogProcessor := by
  cases hbuffer : s.buffer with
  | nil =>
    unfold checkedEpilogProcessor epilogProcessor
    rw [hbuffer]
    rfl
  | cons c rest =>
    unfold epilogProcessor
    rw [hbuffer]
    dsimp only
    unfold checkedEpilogProcessor
    rw [itemAt_first hbuffer, ok_bind, checkedConsumePrefix_one hbuffer, ok_bind]
    have hsome : ¬ s.buffer.isEmpty = true := by
      rw [hbuffer]
      exact Bool.false_ne_true
    rw [if_neg hsome]
    by_cases hspace : isXmlSpace c = true
    · rw [if_pos hspace, if_pos hspace]
      rfl
    · rw [if_neg hspace, if_neg hspace]
      rfl

theorem checkedContentProcessor_comesTo (s : ExpatPortParseSession) :
    ComesTo s.checkedContentProcessor s.contentProcessor (BreaksContract s.buffer) := by
  cases hbuffer : s.buffer with
  | nil =>
    unfold checkedContentProcessor contentProcessor
    rw [hbuffer]
    refine .of_ok rfl ?_
    rintro (hbegins | hbegins | ⟨hhead, -⟩)
    · exact absurd hbegins.length_le (by decide)
    · exact absurd hbegins.length_le (by decide)
    · cases hhead
  | cons c rest =>
    unfold contentProcessor
    rw [hbuffer]
    dsimp only
    rw [← hbuffer]
    unfold checkedContentProcessor
    rw [itemAt_first hbuffer, ok_bind, ok_bind, checkedConsumePrefix_one hbuffer, ok_bind]
    have hsome : ¬ s.buffer.isEmpty = true := by
      rw [hbuffer]
      exact Bool.false_ne_true
    rw [if_neg hsome]
    by_cases hc : c = '<'
    · rw [if_pos hc, if_pos hc]
      rw [hc] at hbuffer
      exact checkedMarkup_comesTo
        (if s.finalBuffer then (.error, s.setError "unclosed token") else (.needMore, s))
        (.error, s.setError "unsupported content markup") hbuffer
        (fun _ hleast hstop ↦ checkedProcessEndTag_comesTo hleast hstop)
        (fun _ hleast hstop ↦ checkedProcessStartTag_comesTo hleast hstop)
    rw [if_neg hc, if_neg hc]
    have hnot : ¬ BreaksContract s.buffer := by
      rw [hbuffer]
      rintro (hbegins | hbegins | ⟨hhead, -⟩)
      · exact hc (List.cons_prefix_cons.1 hbegins).1.symm
      · exact hc (List.cons_prefix_cons.1 hbegins).1.symm
      · exact hc (Option.some.inj hhead)
    refine .of_ok ?_ hnot
    by_cases hopen : s.elementStack.isEmpty = true
    · rw [if_pos hopen, if_pos hopen]
      by_cases hspace : isXmlSpace c = true
      · rw [if_pos hspace, if_pos hspace]
        rfl
      · rw [if_neg hspace, if_neg hspace]
        rfl
    · have hlength : (leadingText s.buffer).length ≤ s.buffer.length :=
        (List.takeWhile_prefix _).length_le
      have hpos : 0 < (leadingText s.buffer).length := by
        rw [hbuffer]
        exact List.length_pos_iff.2 (leadingText_ne_nil hc rest)
      rw [if_neg hopen, if_neg hopen, checkedLeadingText_eq, ok_bind]
      dsimp only
      rw [checkedConsumePrefix_eq hpos]
      · rfl
      · exact hlength

/-- A step comes to what it comes to without checks, unless it breaks a contract. -/
theorem checkedProcessOne_comesTo (s : ExpatPortParseSession) :
    ComesTo s.checkedProcessOne s.processOne s.Breaks := by
  unfold checkedProcessOne processOne Breaks
  cases s.processor with
  | prologInit => exact .of_ok rfl fun h ↦ Processor.noConfusion h.1
  | prolog => exact .of_ok s.checkedPrologProcessor_eq fun h ↦ Processor.noConfusion h.1
  | content =>
    have hcontent := s.checkedContentProcessor_comesTo
    exact ⟨fun h ↦ hcontent.ok fun hbroken ↦ h ⟨rfl, hbroken⟩, fun h ↦ hcontent.error h.2⟩
  | epilog => exact .of_ok s.checkedEpilogProcessor_eq fun h ↦ Processor.noConfusion h.1
  | error => exact .of_ok rfl fun h ↦ Processor.noConfusion h.1

end ExpatPortParseSession

/-! ## Both sessions -/

/-- The calls of a client go through both sessions without a violation, to the same state as without
checks, if and only if no step reads a tag that is too short or that has something stray directly
behind its name or behind an attribute. -/
theorem sessions_contracts (handler : Handler) (calls : List Call) :
    (IncrementalParseSession.driver.checkedRun calls (.make handler) =
        .ok (IncrementalParseSession.driver.run calls (.make handler)) ↔
      ∀ s ∈ IncrementalParseSession.driver.runSteps calls (.make handler), ¬ s.Breaks) ∧
    (ExpatPortParseSession.driver.checkedRun calls (.make handler) =
        .ok (ExpatPortParseSession.driver.run calls (.make handler)) ↔
      ∀ s ∈ ExpatPortParseSession.driver.runSteps calls (.make handler), ¬ s.Breaks) := by
  have hincremental := IncrementalParseSession.driver.checkedRun_comesTo
    IncrementalParseSession.checkedAdvanceOne_comesTo calls (.make handler)
  have hport := ExpatPortParseSession.driver.checkedRun_comesTo
    ExpatPortParseSession.checkedProcessOne_comesTo calls (.make handler)
  rw [hincremental.eq_ok_iff, hport.eq_ok_iff]
  simp only [not_exists, not_and, and_self]

/-- The tags `<>` and `</>` are too short for the routines that read them, and in `<a=b>` the loop
over the attributes does not get on. -/
theorem sessions_break_contracts :
    ([str "<>", str "</>", str "<a=b>"].map fun document ↦
      (IncrementalParseSession.driver.checkedRun [.feed document true] (.make .observing)).map
        fun _ ↦ ()) = [.error .precondition, .error .precondition, .error .variant] ∧
    ([str "<>", str "</>", str "<a=b>"].map fun document ↦
      (ExpatPortParseSession.driver.checkedRun [.feed document true] (.make .observing)).map
        fun _ ↦ ()) = [.error .precondition, .error .precondition, .error .variant] := by
  decide +kernel

end Xpact
