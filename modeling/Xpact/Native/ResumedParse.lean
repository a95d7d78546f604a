import Xpact.Native.CallbackDelivery
import Xpact.Parser.Interruptions
import Xpact.Parser.Reuse

/-!
# Parses that are suspended and resumed

`XML_ResumeParser` reads all of the input again with the parser that has read it before, and the
callback handler leaves out what the application has received.  However often an application suspends
the parse, and wherever, it receives what it would have received without that, and it can suspend it
only as often as it has callbacks (`resumed_parse_exactly_once`).
-/

namespace Xpact.Native

open Library Program

/-! ## The end of the input -/

def rawEpilogStartFrom (input : String8) : Nat → Nat
  | 0 => 0
  | i + 1 =>
    if input.item (i + 1) = '>' then
      if i + 1 < input.length then i + 2 else 0
    else
      rawEpilogStartFrom input i

/-- The index after the last markup, or 0 when nothing follows it. -/
def rawEpilogStart (input : String8) : Nat := rawEpilogStartFrom input input.length

/-- Only white space follows the last markup, with a carriage return in it. -/
def hasRawCrEpilog (input : String8) : Bool :=
  let start := rawEpilogStart input
  let epilog := input.drop (start - 1)
  0 < start && epilog.all isXmlSpace && String8.has epilog '\r'

/-! ## Listeners -/

/-- The callbacks of an application that answers nothing. -/
structure Listener extends CallbackHandler where
  listens : isRegistered .externalEntityRef = false ∧ isRegistered .notStandalone = false ∧
    isRegistered .skippedEntity = false

/-- What is resolved without a callback. -/
def silentResolution (isParameter : Bool) : Resolution :=
  ⟨⟨some [], false, none, 0⟩, none, isParameter⟩

namespace Listener

variable (l : Listener) {app : Application} {d : Dispatch}

/-- The parser of a listener, before anything stops it. -/
def parser (config : Config) (inputIsUtf8 : Bool) : Parser :=
  Parser.fresh config (l.handler true (fun _ ↦ false) fun _ ↦ false) inputIsUtf8
    (some fun _ reference ↦ silentResolution reference.isParameter)

end Listener

/-! ## The native parser -/

structure ReplayingParser where
  parser : Parser
  replay : NativeReplay

namespace ReplayingParser

section

variable (app : Application) (structSize bound : Nat) (input : String8)

/-- The signals of a call that has ended. -/
def reports (ok : Bool) (p : Parser) : List Signal :=
  p.view.events.map Signal.event ++
    if ok && hasRawCrEpilog input then [.event (.default (str "\r"))] else []

/-- The parser of a call: it stops when the application has asked for it in a callback. -/
def began (n : ReplayingParser) : Parser :=
  let after (events : List Event) : Shim :=
    (n.replay.prepared.signals app structSize (events.map Signal.event)).shim
  n.parser.withStops (fun events ↦ (after events).stopRequested)
    fun events ↦ (after events).stopResumable

/-- The status of a call after which the handler is `d`. -/
def statusAfter (ok : Bool) (p : Parser) (d : Dispatch) : Status :=
  if ok then
    if hasRawCrEpilog input && d.shim.stopRequested then
      if d.shim.stopResumable then .suspended else .error
    else
      .ok
  else if p.core.isSuspended then
    .suspended
  else
    .error

/-- A final call, with all of the input in the buffer; `XML_ResumeParser` makes the same call. -/
def parse (n : ReplayingParser) : Option (Status × ReplayingParser) := do
  let (ok, p) ← (n.began app structSize).parse bound input
  let signals := reports input ok p
  let status := statusAfter input ok p (n.replay.prepared.signals app structSize signals)
  return (status, ⟨p, n.replay.pass app structSize signals status true⟩)

/-- A final call, and the calls that resume it while it is suspended.  Each call honours a stop at
once. -/
inductive Session (n : ReplayingParser) : Nat → Status → ReplayingParser → Prop where
  | parse {status : Status} {m : ReplayingParser}
      (hhonours : Parser.HonoursStop (Entry.document.program bound input)
        ((n.began app structSize).start .document))
      (hparse : n.parse app structSize bound input = some (status, m)) : Session n 1 status m
  | resume {calls : Nat} {status : Status} {m m' : ReplayingParser}
      (h : Session n calls .suspended m)
      (hhonours : Parser.HonoursStop (Entry.document.program bound input)
        ((m.began app structSize).start .document))
      (hparse : m.parse app structSize bound input = some (status, m')) :
      Session n (calls + 1) status m'

end

end ReplayingParser

/-- The native parser of a listener, before its first call. -/
def Listener.replayingParser (l : Listener) (config : Config) (inputIsUtf8 : Bool) (shim : Shim) :
    ReplayingParser where
  parser := l.parser config inputIsUtf8
  replay := { dispatch := { handler := l.toCallbackHandler, shim } }

/-! ## One call -/

section

variable {app : Application} {structSize bound : Nat} {input : String8} {base q : Parser} {ok : Bool}

namespace ReplayingParser

/-- The parser of the calls is `base`, apart from what stops it and what it has read. -/
def Continues (n : ReplayingParser) (base : Parser) : Prop := n.parser.still.setup = base.setup

/-- Nothing stops the parser, it has asked nothing, and its resolver forgets. -/
structure IsWhole (base : Parser) : Prop where
  still : base.still = base
  outside : base.core.parsingExternalEntity = false
  memoryless : base.IsMemoryless

variable {n m : ReplayingParser} {status : Status}

theorem Continues.isStill (h : n.Continues base) (hbase : IsWhole base) (entry : Entry) :
    Parser.IsStill ((n.began app structSize).start entry) (base.start entry) := by
  have hresolver : n.parser.externalEntityResolver = base.externalEntityResolver :=
    congrArg Parser.Setup.externalEntityResolver h
  refine ⟨?_, ?_, ?_⟩
  · have hstart := Parser.start_eq_of_setup entry h
    have hrequests : { base with requests := n.parser.still.requests } = base := by
      rw [← hbase.still]
      rfl
    rw [hrequests] at hstart
    show (n.parser.still.start entry).still = (base.start entry).still
    rw [hstart]
  · intro events
    rw [← hbase.still]
    rfl
  · intro f hf
    exact hbase.memoryless f (hresolver.symm.trans hf)

/-- What a call that honours its stop tells the handler, beside the same call when nothing stops it,
and what its status says. -/
structure Tells (app : Application) (structSize : Nat) (n : ReplayingParser) (whole : List Signal)
    (ok : Bool) (error : String) (signals : List Signal) (status : Status) (p : Parser) : Prop where
  isPrefix : signals <+: whole
  suspended : status = .suspended →
    (n.replay.prepared.signals app structSize signals).shim.stopRequested = true ∧
      (n.replay.prepared.signals app structSize signals).shim.stopResumable = true
  succeeded : status = .ok → ok = true ∧ signals = whole
  unstopped : (n.replay.prepared.signals app structSize signals).shim.stopRequested = false →
    signals = whole ∧ status = (if ok then .ok else .error) ∧ p.view.lastError = error

theorem reports_of_not_ok (p : Parser) :
    reports input false p = p.view.events.map Signal.event := by
  unfold reports
  rw [Bool.false_and, if_neg Bool.false_ne_true, List.append_nil]

theorem statusAfter_of_not_ok {p : Parser} {d : Dispatch} :
    statusAfter input false p d = if p.core.isSuspended then .suspended else .error := rfl

theorem tells {ok' : Bool} {p : Parser} (h : n.Continues base) (hbase : IsWhole base)
    (hhonours : Parser.HonoursStop (Entry.document.program bound input)
      ((n.began app structSize).start .document))
    (hcall : (n.began app structSize).parse bound input = some (ok', p))
    (hwhole : base.parse bound input = some (ok, q)) :
    n.Tells app structSize (reports input ok q) ok q.view.lastError (reports input ok' p)
      (statusAfter input ok' p
        (n.replay.prepared.signals app structSize (reports input ok' p))) p := by
  obtain ⟨hshown, hend⟩ :=
    Parser.call_interrupted (h.isStill hbase .document) hhonours hcall hwhole
  -- A parse that fails and is suspended was asked for it at its last event.
  have hasked (hok : ok' = false) (hsuspended : p.core.isSuspended = true) :
      (n.replay.prepared.signals app structSize (reports input ok' p)).shim.stopRequested = true ∧
        (n.replay.prepared.signals app structSize
          (reports input ok' p)).shim.stopResumable = true := by
    rw [hok, reports_of_not_ok]
    exact Parser.call_isAsked hhonours hcall hsuspended
  rcases hend with hstops | ⟨rfl, hstill⟩
  · obtain rfl := Parser.call_of_stopsIn hstops hcall
    rw [statusAfter_of_not_ok]
    refine ⟨?_, ?_, ?_, ?_⟩
    · rw [reports_of_not_ok]
      exact (hshown.map Signal.event).trans (List.prefix_append _ _)
    · intro hstatus
      split at hstatus
      · next hsuspended => exact hasked rfl hsuspended
      · cases hstatus
    · intro hstatus
      split at hstatus <;> cases hstatus
    · intro hnot
      have hrequested := Parser.call_stopRequested hhonours hstops hcall
      rw [reports_of_not_ok] at hnot
      exact absurd (hnot.symm.trans hrequested) Bool.false_ne_true
  · have hview : p.view = q.view := by
      have hview := congrArg Parser.view hstill
      exact hview
    have hreports : reports input ok' p = reports input ok' q := by
      rw [reports, reports, hview]
    rw [← hreports]
    cases ok' with
    | false =>
      rw [statusAfter_of_not_ok]
      refine ⟨List.prefix_refl _, ?_, ?_, ?_⟩
      · intro hstatus
        split at hstatus
        · next hsuspended => exact hasked rfl hsuspended
        · cases hstatus
      · intro hstatus
        split at hstatus <;> cases hstatus
      · intro hnot
        have hsuspended : ¬p.core.isSuspended = true := fun hsuspended ↦
          absurd (hnot.symm.trans (hasked rfl hsuspended).1) Bool.false_ne_true
        rw [if_neg hsuspended, hview]
        exact ⟨rfl, rfl, rfl⟩
    | true =>
      simp only [statusAfter, if_true]
      refine ⟨List.prefix_refl _, ?_, fun _ ↦ ⟨rfl, rfl⟩, ?_⟩
      · intro hstatus
        split at hstatus
        · next hrequested =>
          rw [Bool.and_eq_true] at hrequested
          split at hstatus
          · next hresumable => exact ⟨hrequested.2, hresumable⟩
          · cases hstatus
        · cases hstatus
      · intro hnot
        rw [hnot, Bool.and_false, if_neg Bool.false_ne_true, hview]
        exact ⟨rfl, rfl, rfl⟩

theorem Continues.of_call {p : Parser} {ok' : Bool} (h : n.Continues base) (hbase : IsWhole base)
    (hcall : (n.began app structSize).parse bound input = some (ok', p)) :
    p.still.setup = base.setup := by
  have houtside : (n.began app structSize).core.parsingExternalEntity = false := by
    have hinside := congrArg (fun s : Parser.Setup ↦ s.parsingExternalEntity) h
    exact hinside.trans hbase.outside
  have hsetup := congrArg
    (fun s : Parser.Setup ↦ { s with handler := s.handler.unstopped })
    (Parser.setup_call houtside hcall)
  exact hsetup.trans h

/-- What the application has received after a call, beside the callbacks of the uninterrupted one. -/
structure Received (m : ReplayingParser) (stream : List CallbackMessage) (ok : Bool) (error : String)
    (status : Status) (d : List CallbackMessage) : Prop where
  isPrefix : d <+: stream
  same : Message.joinTexts.Same m.replay.dispatch.delivered d
  succeeded : status = .ok → ok = true ∧ d = stream
  unstopped : m.replay.dispatch.shim.stopRequested = false →
    d = stream ∧ status = (if ok then .ok else .error) ∧ m.parser.view.lastError = error

/-- The longer one of two beginnings is all of the stream when one of them is. -/
theorem eq_of_longer {stream p c d : List CallbackMessage} (hp : p = stream) (hc : c <+: stream)
    (hd : d = p ∧ Cut c d ∨ d = c ∧ Cut p d) : d = stream := by
  subst hp
  rcases hd with ⟨rfl, -⟩ | ⟨rfl, hcut⟩
  · rfl
  · exact hc.eq_of_length_le hcut.length_le

theorem parse_received {isRegistered : CallbackKind → Bool} {c : List CallbackMessage}
    (h : n.Continues base) (hbase : IsWhole base)
    (hregistered : n.replay.dispatch.handler.isRegistered = isRegistered)
    (hdelivered : n.replay.HasDelivered c)
    (hc : c <+: Signal.messages isRegistered (reports input ok q))
    (hfits : ∀ s ∈ reports input ok q, s.Allocates app structSize)
    (hhonours : Parser.HonoursStop (Entry.document.program bound input)
      ((n.began app structSize).start .document))
    (hwhole : base.parse bound input = some (ok, q))
    (hparse : n.parse app structSize bound input = some (status, m)) :
    m.Continues base ∧ m.replay.dispatch.handler.isRegistered = isRegistered ∧
      ∃ d, m.Received (Signal.messages isRegistered (reports input ok q)) ok q.view.lastError
          status d ∧
        (status = .suspended → m.replay.HasDelivered d ∧ c.length < d.length) := by
  obtain ⟨⟨ok', p⟩, hcall, hm⟩ := Option.bind_eq_some_iff.1 hparse
  obtain ⟨rfl, rfl⟩ := Prod.mk.inj (Option.some.inj hm)
  have htells := tells h hbase hhonours hcall hwhole
  generalize reports input ok' p = signals at htells
  generalize reports input ok q = whole at htells hc hfits
  generalize statusAfter input ok' p _ = status at htells
  subst hregistered
  have hmessages : Signal.messages n.replay.dispatch.handler.isRegistered signals <+:
      Signal.messages n.replay.dispatch.handler.isRegistered whole :=
    (htells.isPrefix.filterMap _).map _
  have hsignals : ∀ s ∈ signals, s.Allocates app structSize :=
    fun s hs ↦ hfits s (htells.isPrefix.subset hs)
  refine ⟨h.of_call hbase hcall, NativeReplay.registered_pass hsignals true, ?_⟩
  have hcut := Cut.of_isPrefix hmessages
  have hshim : (n.replay.pass app structSize signals status true).dispatch.shim =
      (n.replay.prepared.signals app structSize signals).shim := NativeReplay.finishPass_shim _ _
  have hreceived {d : List CallbackMessage}
      (hd : d = Signal.messages n.replay.dispatch.handler.isRegistered signals ∧ Cut c d ∨
        d = c ∧ Cut (Signal.messages n.replay.dispatch.handler.isRegistered signals) d)
      (hsame : Message.joinTexts.Same
        (n.replay.pass app structSize signals status true).dispatch.delivered d) :
      Received ⟨p, n.replay.pass app structSize signals status true⟩
        (Signal.messages n.replay.dispatch.handler.isRegistered whole) ok q.view.lastError status d := by
    have hall (heq : signals = whole) :
        d = Signal.messages n.replay.dispatch.handler.isRegistered whole :=
      eq_of_longer (congrArg _ heq) hc hd
    refine ⟨?_, hsame, fun hok ↦ ?_, fun hnot ↦ ?_⟩
    · rcases hd with ⟨rfl, -⟩ | ⟨rfl, -⟩
      · exact hmessages
      · exact hc
    · obtain ⟨hok', heq⟩ := htells.succeeded hok
      exact ⟨hok', hall heq⟩
    · change (n.replay.pass app structSize signals status true).dispatch.shim.stopRequested = false
        at hnot
      rw [hshim] at hnot
      obtain ⟨heq, hstatus⟩ := htells.unstopped hnot
      exact ⟨hall heq, hstatus⟩
  by_cases hstatus : status = .suspended
  · have hgoes : n.replay.GoesOn app structSize signals status true :=
      .inr ⟨hstatus, htells.suspended hstatus⟩
    obtain ⟨d, hd, hnew, hpass⟩ := hdelivered.pass (Cut.of_isPrefix hc) hcut hsignals hgoes
    refine ⟨d, hreceived hd hpass.same, fun _ ↦ ⟨hpass, ?_⟩⟩
    obtain ⟨rfl, hne⟩ := hnew hstatus
    by_contra hlength
    rw [Nat.not_lt] at hlength
    rcases hd with ⟨-, hcd⟩ | ⟨heq, -⟩
    · have hbefore := List.prefix_of_prefix_length_le hmessages hc hlength
      exact hne (hbefore.eq_of_length_le hcd.length_le)
    · exact hne heq
  · obtain ⟨d, hd, hsame⟩ := hdelivered.exists_pass (Cut.of_isPrefix hc) hcut hsignals status true
    exact ⟨d, hreceived hd.longer_cut hsame, fun h ↦ absurd h hstatus⟩

end ReplayingParser

/-! ## Sessions -/

/-- What the application has received after a session. -/
theorem ReplayingParser.Session.received {isRegistered : CallbackKind → Bool} {n m : ReplayingParser}
    {calls : Nat} {status : Status}
    (h : ReplayingParser.Session app structSize bound input n calls status m)
    (hbase : ReplayingParser.IsWhole base) (hcontinues : n.Continues base)
    (hregistered : n.replay.dispatch.handler.isRegistered = isRegistered)
    (hnew : n.replay.HasDelivered [])
    (hwhole : base.parse bound input = some (ok, q))
    (hfits : ∀ s ∈ ReplayingParser.reports input ok q, s.Allocates app structSize) :
    m.Continues base ∧ m.replay.dispatch.handler.isRegistered = isRegistered ∧
      calls ≤ (Signal.messages isRegistered (ReplayingParser.reports input ok q)).length + 1 ∧
      ∃ d, m.Received (Signal.messages isRegistered (ReplayingParser.reports input ok q)) ok
          q.view.lastError status d ∧
        (status = .suspended → m.replay.HasDelivered d ∧ calls ≤ d.length) := by
  induction h with
  | parse hhonours hparse =>
    obtain ⟨hm, hsame, d, hreceived, hsuspended⟩ := ReplayingParser.parse_received hcontinues hbase
      hregistered hnew List.nil_prefix hfits hhonours hwhole hparse
    exact ⟨hm, hsame, Nat.le_add_left 1 _, d, hreceived, hsuspended⟩
  | resume _ hhonours hparse ih =>
    obtain ⟨hm, hsame, -, c, hc, hdelivered⟩ := ih
    obtain ⟨hdelivered, hcalls⟩ := hdelivered rfl
    have hlength := hc.isPrefix.length_le
    obtain ⟨hm', hsame', d, hreceived, hsuspended⟩ := ReplayingParser.parse_received hm hbase hsame
      hdelivered hc.isPrefix hfits hhonours hwhole hparse
    refine ⟨hm', hsame', by omega, d, hreceived, fun hstatus ↦ ?_⟩
    obtain ⟨hpass, hmore⟩ := hsuspended hstatus
    exact ⟨hpass, by omega⟩

theorem Listener.isWhole_parser (l : Listener) (config : Config) (inputIsUtf8 : Bool) :
    ReplayingParser.IsWhole (l.parser config inputIsUtf8) where
  still := rfl
  outside := rfl
  memoryless f hf := by
    obtain rfl := Option.some.inj hf
    exact fun _ _ _ ↦ rfl

end

/-- However often an application suspends a final parse and resumes it, and whatever it does when it is
called: the callbacks that it has received are a beginning of those of the uninterrupted parse, each
once and in order.  A suspended call has brought a new one, and a call that is not stopped brings the
rest and ends as the uninterrupted parse does. -/
theorem resumed_parse_exactly_once (app : Application) (structSize bound : Nat) (input : String8)
    (l : Listener) (config : Config) (inputIsUtf8 : Bool) (shim : Shim) {ok : Bool} {q : Parser}
    {calls : Nat} {status : Status} {n : ReplayingParser}
    (hwhole : (l.parser config inputIsUtf8).parse bound input = some (ok, q))
    (hfits : ∀ s ∈ ReplayingParser.reports input ok q, s.Allocates app structSize)
    (hsession : ReplayingParser.Session app structSize bound input
      (l.replayingParser config inputIsUtf8 shim) calls status n) :
    let stream := Signal.messages l.isRegistered (ReplayingParser.reports input ok q)
    ∃ d, d <+: stream ∧ Message.joinTexts.Same n.replay.dispatch.delivered d ∧
      (status = .suspended → calls ≤ d.length) ∧ calls ≤ stream.length + 1 ∧
      (status = .ok → ok = true ∧ d = stream) ∧
      (n.replay.dispatch.shim.stopRequested = false →
        d = stream ∧ status = (if ok then .ok else .error) ∧
          n.parser.view.lastError = q.view.lastError) := by
  have hnew : (l.replayingParser config inputIsUtf8 shim).replay.HasDelivered [] :=
    ⟨rfl, trivial, .refl []⟩
  obtain ⟨-, -, hcalls, d, hreceived, hsuspended⟩ :=
    hsession.received (l.isWhole_parser config inputIsUtf8) rfl rfl hnew hwhole hfits
  exact ⟨d, hreceived.isPrefix, hreceived.same, fun h ↦ (hsuspended h).2, hcalls,
    hreceived.succeeded, hreceived.unstopped⟩

/-- An application that suspends the parse in its first callback. -/
def pausingApplication : Application :=
  { patientApplication with stops := fun received ↦ if received.length = 1 then some true else none }

/-- A listener for tags. -/
def tagListener : Listener where
  isRegistered kind := kind = .startElement || kind = .endElement
  listens := ⟨rfl, rfl, rfl⟩

/-- The parser of an empty element. -/
def tagParser : ReplayingParser := tagListener.replayingParser {} true {}

theorem isSome_whole : ((tagListener.parser {} true).parse 2 (str "<a/>")).isSome = true := by
  decide +kernel

def wholeCall : Bool × Parser := ((tagListener.parser {} true).parse 2 (str "<a/>")).get isSome_whole

theorem isSome_paused : (tagParser.parse pausingApplication 0 2 (str "<a/>")).isSome = true := by
  decide +kernel

/-- The call that is suspended in the start tag. -/
def pausedCall : Status × ReplayingParser :=
  (tagParser.parse pausingApplication 0 2 (str "<a/>")).get isSome_paused

theorem isSome_resumed :
    (pausedCall.2.parse pausingApplication 0 2 (str "<a/>")).isSome = true := by
  decide +kernel

def resumedCall : Status × ReplayingParser :=
  (pausedCall.2.parse pausingApplication 0 2 (str "<a/>")).get isSome_resumed

/-- The application receives both tags in two calls. -/
theorem resumed_parse_exactly_once_paused :
    let stream := Signal.messages tagListener.isRegistered
      (ReplayingParser.reports (str "<a/>") wholeCall.1 wholeCall.2)
    ∃ d, d <+: stream ∧ Message.joinTexts.Same resumedCall.2.replay.dispatch.delivered d ∧
      (resumedCall.1 = .suspended → 2 ≤ d.length) ∧ 2 ≤ stream.length + 1 ∧
      (resumedCall.1 = .ok → wholeCall.1 = true ∧ d = stream) ∧
      (resumedCall.2.replay.dispatch.shim.stopRequested = false →
        d = stream ∧ resumedCall.1 = (if wholeCall.1 then .ok else .error) ∧
          resumedCall.2.parser.view.lastError = wholeCall.2.view.lastError) := by
  have hpaused : tagParser.parse pausingApplication 0 2 (str "<a/>") =
      some (.suspended, pausedCall.2) := by
    rw [show (.suspended, pausedCall.2) = pausedCall from
      Prod.ext (show Status.suspended = pausedCall.1 by decide +kernel) rfl]
    exact (Option.some_get isSome_paused).symm
  have hsession : ReplayingParser.Session pausingApplication 0 2 (str "<a/>") tagParser 2
      resumedCall.1 resumedCall.2 :=
    .resume (.parse (by decide +kernel) hpaused) (by decide +kernel)
      (Option.some_get isSome_resumed).symm
  exact resumed_parse_exactly_once pausingApplication 0 2 (str "<a/>") tagListener {} true {}
    (Option.some_get isSome_whole).symm (by decide +kernel) hsession

end Xpact.Native
