import Xpact.Library.Redelivery
import Xpact.Native.CallbackHandler

/-!
# Callbacks over many passes

The native parser reads all of its input in every call, and keeps of a call only how many callbacks
the application has received.  The callback handler is a `Sender` of the library, so over passes that
are cuts of one stream the application receives every callback once and in order
(`callbacks_exactly_once`), whichever of the passes it suspends.
-/

namespace Xpact.Native

open Library

/-! ## Signals -/

/-- What a parser tells its handler, and asks it. -/
inductive Signal where
  | event (e : Event)
  | resolve (request : Request)

/-- The texts that are delivered in pieces. -/
inductive TextKind where
  | characterData | default
  deriving DecidableEq

abbrev CallbackMessage := Message Invocation TextKind Character8

/-- A call of the application, as a message. -/
def Invocation.message : Invocation → CallbackMessage
  | .event (.characterData text) => .text .characterData text
  | .event (.default text) => .text .default text
  | c => .whole c

/-- The callback for an event. -/
def CallbackKind.ofEvent : Event → CallbackKind
  | .startElement .. => .startElement
  | .endElement _ => .endElement
  | .startNamespaceDecl .. => .startNamespaceDecl
  | .endNamespaceDecl _ => .endNamespaceDecl
  | .characterData _ => .characterData
  | .processingInstruction .. => .processingInstruction
  | .xmlDeclaration .. => .xmlDecl
  | .comment _ => .comment
  | .startCdataSection => .startCdataSection
  | .endCdataSection => .endCdataSection
  | .startDoctypeDecl .. => .startDoctypeDecl
  | .endDoctypeDecl => .endDoctypeDecl
  | .elementDecl .. => .elementDecl
  | .notationDecl .. => .notationDecl
  | .attlistDecl .. => .attlistDecl
  | .entityDecl .. => .entityDecl
  | .unparsedEntityDecl .. => .unparsedEntityDecl
  | .skippedEntity .. => .skippedEntity
  | .notStandalone => .notStandalone
  | .default _ => .default

/-- The handler ignores an empty text. -/
def isEmptyText : Event → Bool
  | .characterData text | .default text => text.isEmpty
  | _ => false

namespace Signal

/-- The call that a signal stands for when its callback is registered. -/
def invocation (isRegistered : CallbackKind → Bool) : Signal → Option Invocation
  | .event e =>
    if isRegistered (.ofEvent e) && !isEmptyText e then some (.event e) else none
  | .resolve request =>
    if isRegistered .externalEntityRef then
      some (.externalEntityRef request.name request.publicId request.systemId request.isParameter
        request.isParameterLiteral)
    else if isRegistered .skippedEntity then
      some (.event (.skippedEntity request.name request.isParameter))
    else
      none

/-- The signals of a pass that count, as messages. -/
def messages (isRegistered : CallbackKind → Bool) (signals : List Signal) : List CallbackMessage :=
  (signals.filterMap (invocation isRegistered)).map Invocation.message

/-- The application can be given the content models of the signals. -/
def Allocates (app : Application) (structSize : Nat) : Signal → Bool
  | .event (.elementDecl _ model) => (contentModelArray app.malloc structSize model).isSome
  | _ => true

end Signal

namespace Dispatch

variable (app : Application) (structSize : Nat)

/-- A signal to the handler. -/
def signal : Signal → Dispatch → Dispatch
  | .event e, d => d.onEvent app structSize e
  | .resolve request, d => (d.resolveExternalEntity app request).2

def signals (ss : List Signal) (d : Dispatch) : Dispatch :=
  ss.foldl (fun d s ↦ d.signal app structSize s) d

/-! ## The handler as a sender -/

def sender (d : Dispatch) : Sender TextKind where
  seen := d.handler.callbackSequenceCount
  skip := d.handler.callbacksToSuppress
  sent
    | .characterData, i => (d.handler.deliveredCharacterDataLengths.lookup i).getD 0
    | .default, i => (d.handler.deliveredDefaultLengths.lookup i).getD 0

/-- The calls of the application, as messages. -/
def delivered (d : Dispatch) : List CallbackMessage := d.received.map Invocation.message

/-- What happens at a call that counts: the handler steps as a sender, the application is called with
what the sender delivers, and the stop request is looked at when it is called. -/
structure Sends (x : CallbackMessage) (d e : Dispatch) : Prop where
  registered : e.handler.isRegistered = d.handler.isRegistered
  sender : e.sender = (d.sender.send x).1
  delivered : e.delivered = d.delivered ++ (d.sender.send x).2
  silent : (d.sender.send x).2 = [] → e.shim = d.shim
  recorded : (d.sender.send x).2 ≠ [] → e.shim.stopRequested = true → e.shim.stopResumable = true →
    e.handler.lastSuspendingCallbackIndex = d.sender.seen + 1

section

variable {app structSize} {d : Dispatch} {c : Invocation} {kind : CallbackKind}

@[simp] theorem recordCallbackStop_shim (d : Dispatch) :
    d.recordCallbackStopIfRequested.shim = d.shim := by
  unfold recordCallbackStopIfRequested
  split <;> rfl

@[simp] theorem recordCallbackStop_sender (d : Dispatch) :
    d.recordCallbackStopIfRequested.sender = d.sender := by
  unfold recordCallbackStopIfRequested
  split <;> rfl

@[simp] theorem recordCallbackStop_delivered (d : Dispatch) :
    d.recordCallbackStopIfRequested.delivered = d.delivered := by
  unfold recordCallbackStopIfRequested
  split <;> rfl

@[simp] theorem recordCallbackStop_isRegistered (d : Dispatch) :
    d.recordCallbackStopIfRequested.handler.isRegistered = d.handler.isRegistered := by
  unfold recordCallbackStopIfRequested
  split <;> rfl

/-- A requested stop is recorded with the number of the callback. -/
theorem recordCallbackStop_last {d : Dispatch} (hrequested : d.shim.stopRequested = true)
    (hresumable : d.shim.stopResumable = true) :
    d.recordCallbackStopIfRequested.handler.lastSuspendingCallbackIndex =
      d.handler.callbackSequenceCount := by
  unfold recordCallbackStopIfRequested
  rw [hrequested, hresumable]
  rfl

@[simp] theorem call_delivered (c : Invocation) (d : Dispatch) :
    (d.call app c).delivered = d.delivered ++ [c.message] := by
  simp only [delivered, call, List.map_append, List.map_singleton]

/-! ## Callbacks that are made at once -/

theorem report_of_not (h : d.handler.isRegistered kind = false) : d.report app kind c = d := by
  unfold report
  rw [h]
  rfl

/-- The handler after it has counted a callback. -/
def counted (d : Dispatch) : Dispatch := { d with handler := d.handler.suppressNextCallback.2 }

theorem counted_delivered (d : Dispatch) : d.counted.delivered = d.delivered := rfl

theorem suppressNextCallback_of_le
    (h : d.handler.callbackSequenceCount + 1 ≤ d.handler.callbacksToSuppress) :
    d.handler.suppressNextCallback = (true, d.counted.handler) :=
  Prod.ext (decide_eq_true h) rfl

theorem suppressNextCallback_of_lt
    (h : ¬d.handler.callbackSequenceCount + 1 ≤ d.handler.callbacksToSuppress) :
    d.handler.suppressNextCallback = (false, d.counted.handler) :=
  Prod.ext (decide_eq_false h) rfl

/-- A callback that is counted and not made. -/
theorem sends_counted {x : CallbackMessage} (h : d.sender.send x = (d.counted.sender, [])) :
    Sends x d d.counted where
  registered := rfl
  sender := by rw [h]
  delivered := by rw [h, List.append_nil, counted_delivered]
  silent _ := rfl
  recorded hout := absurd (congrArg Prod.snd h) hout

/-- A callback that is made; `e` is the handler after the call. -/
theorem sends_called {x : CallbackMessage} {e : Dispatch}
    (_ : e.shim = (d.counted.call app c).shim)
    (hdelivered : e.delivered = (d.counted.call app c).delivered)
    (hregistered : e.handler.isRegistered = d.handler.isRegistered)
    (hcount : e.handler.callbackSequenceCount = d.sender.seen + 1)
    (h : d.sender.send x = (e.sender, [c.message])) :
    Sends x d e.recordCallbackStopIfRequested where
  registered := by rw [recordCallbackStop_isRegistered, hregistered]
  sender := by rw [recordCallbackStop_sender, h]
  delivered := by
    rw [recordCallbackStop_delivered, hdelivered, call_delivered, h, counted_delivered]
  silent hnone := absurd ((congrArg Prod.snd h).symm.trans hnone) (List.cons_ne_nil _ _)
  recorded _ hrequested hresumable := by
    rw [recordCallbackStop_shim] at hrequested hresumable
    rw [recordCallbackStop_last hrequested hresumable, hcount]

theorem sends_report (hkind : d.handler.isRegistered kind = true) (hc : c.message = .whole c) :
    Sends (.whole c) d (d.report app kind c) := by
  unfold report
  rw [if_pos hkind]
  by_cases hold : d.handler.callbackSequenceCount + 1 ≤ d.handler.callbacksToSuppress
  · rw [suppressNextCallback_of_le hold]
    exact sends_counted (Prod.ext rfl (if_pos hold))
  · rw [suppressNextCallback_of_lt hold]
    refine sends_called rfl rfl rfl rfl (Prod.ext rfl ((if_neg hold).trans ?_))
    rw [hc]

theorem sends_onElementDecl {name : String8} {model : ContentModel}
    (hkind : d.handler.isRegistered .elementDecl = true)
    (hfits : (contentModelArray app.malloc structSize model).isSome = true) :
    Sends (.whole (.event (.elementDecl name model))) d
      (d.onElementDecl app structSize name model) := by
  unfold onElementDecl
  rw [if_pos hkind]
  by_cases hold : d.handler.callbackSequenceCount + 1 ≤ d.handler.callbacksToSuppress
  · rw [suppressNextCallback_of_le hold]
    exact sends_counted (Prod.ext rfl (if_pos hold))
  · rw [suppressNextCallback_of_lt hold]
    simp only [hfits, if_true]
    exact sends_called rfl rfl rfl rfl (Prod.ext rfl (if_neg hold))

theorem sends_onNotStandalone (hkind : d.handler.isRegistered .notStandalone = true) :
    Sends (.whole (.event .notStandalone)) d (d.onNotStandalone app).2 := by
  unfold onNotStandalone
  rw [if_pos hkind]
  by_cases hold : d.handler.callbackSequenceCount + 1 ≤ d.handler.callbacksToSuppress
  · rw [suppressNextCallback_of_le hold]
    exact sends_counted (Prod.ext rfl (if_pos hold))
  · rw [suppressNextCallback_of_lt hold]
    exact sends_called rfl rfl rfl rfl (Prod.ext rfl (if_neg hold))

theorem Sends.recordByteCount {x : CallbackMessage} {e : Dispatch} (h : Sends x d e) (i : Nat)
    (count : Int) : Sends x d (recordByteCount i count e) :=
  ⟨h.registered, h.sender, h.delivered, h.silent, h.recorded⟩

theorem sends_resolveExternalEntity {request : Request}
    (hkind : d.handler.isRegistered .externalEntityRef = true) :
    Sends (.whole (.externalEntityRef request.name request.publicId request.systemId
      request.isParameter request.isParameterLiteral)) d (d.resolveExternalEntity app request).2 := by
  unfold resolveExternalEntity
  rw [if_pos hkind]
  by_cases hold : d.handler.callbackSequenceCount + 1 ≤ d.handler.callbacksToSuppress
  · rw [suppressNextCallback_of_le hold]
    exact sends_counted (Prod.ext rfl (if_pos hold))
  · rw [suppressNextCallback_of_lt hold]
    have hcalled (child : ChildParse) :
        Sends (.whole (.externalEntityRef request.name request.publicId request.systemId
          request.isParameter request.isParameterLiteral)) d
          (recordChild d.counted.handler.callbackSequenceCount child
            ((forgetExternalEntity d.counted.handler.callbackSequenceCount d.counted).call app
              (.externalEntityRef request.name request.publicId request.systemId
                request.isParameter request.isParameterLiteral))).recordCallbackStopIfRequested :=
      sends_called rfl rfl rfl rfl (Prod.ext rfl (if_neg hold))
    dsimp only
    split
    · exact (hcalled _).recordByteCount _ _
    · exact hcalled _

/-! ## Texts -/

theorem substring_rest {text : String8} {n : Nat} (h : n < text.length) :
    text.substring (n + 1) text.length = text.drop n := by
  unfold String8.substring
  rw [if_pos ⟨by omega, by omega, Nat.le_refl _⟩, Nat.add_sub_cancel, List.take_of_length_le]
  rw [List.length_drop]
  omega

theorem lookup_insert_getD (lengths : Table Nat Nat) (i count j : Nat) :
    ((lengths.insert i count).lookup j).getD 0 =
      if j = i then count else (lengths.lookup j).getD 0 := by
  split
  · next h => rw [h, AList.lookup_insert, Option.getD_some]
  · next h => rw [AList.lookup_insert_ne h]

theorem sender_recordCharacterData (i count : Nat) (d : Dispatch) :
    (recordDeliveredCharacterDataLength i count d).sender =
      d.sender.record .characterData i count := by
  simp only [sender, recordDeliveredCharacterDataLength, Sender.record, Sender.mk.injEq, true_and]
  funext kind j
  cases kind with
  | characterData => simp only [lookup_insert_getD, true_and]
  | default => simp only [reduceCtorEq, false_and, if_false]

theorem sender_recordDefault (i count : Nat) (d : Dispatch) :
    (recordDeliveredDefaultLength i count d).sender = d.sender.record .default i count := by
  simp only [sender, recordDeliveredDefaultLength, Sender.record, Sender.mk.injEq, true_and]
  funext kind j
  cases kind with
  | characterData => simp only [reduceCtorEq, false_and, if_false]
  | default => simp only [lookup_insert_getD, true_and]

theorem sends_onCharacterData {text : String8} (htext : text.isEmpty = false)
    (hkind : d.handler.isRegistered .characterData = true) :
    Sends (.text .characterData text) d (d.onCharacterData app text) := by
  unfold onCharacterData
  rw [if_neg (Bool.eq_false_iff.1 htext), if_pos hkind]
  by_cases hold : d.handler.callbackSequenceCount + 1 ≤ d.handler.callbacksToSuppress
  · rw [suppressNextCallback_of_le hold]
    dsimp only
    split
    · next hmore =>
      rw [substring_rest hmore]
      refine sends_called rfl rfl rfl rfl ?_
      rw [sender_recordCharacterData, Sender.send_text_more hold hmore]
      rfl
    · next hless => exact sends_counted (Sender.send_text_less hold hless)
  · rw [suppressNextCallback_of_lt hold]
    refine sends_called rfl rfl rfl rfl ?_
    rw [sender_recordCharacterData, Sender.send_text_new hold]
    rfl

theorem sends_onDefault {text : String8} (htext : text.isEmpty = false)
    (hkind : d.handler.isRegistered .default = true) :
    Sends (.text .default text) d (d.onDefault app text) := by
  unfold onDefault
  rw [if_pos (by rw [hkind, htext]; rfl)]
  by_cases hold : d.handler.callbackSequenceCount + 1 ≤ d.handler.callbacksToSuppress
  · rw [suppressNextCallback_of_le hold]
    simp only [if_true, Bool.not_true, Bool.false_or, decide_eq_true_eq]
    split
    · next hmore =>
      refine sends_called rfl rfl rfl rfl ?_
      rw [sender_recordDefault, Sender.send_text_more hold hmore]
      split
      · rw [substring_rest hmore]
        rfl
      · next hnone =>
        have hzero : d.sender.sent .default (d.sender.seen + 1) = 0 := Nat.eq_zero_of_not_pos hnone
        rw [hzero]
        rfl
    · next hless => exact sends_counted (Sender.send_text_less hold hless)
  · rw [suppressNextCallback_of_lt hold]
    refine sends_called rfl rfl rfl rfl ?_
    rw [sender_recordDefault, Sender.send_text_new hold]
    rfl

/-! ## Passes -/

/-- An event is counted when its callback is registered and it is not an empty text. -/
theorem sends_onEvent {e : Event} (hfits : Signal.Allocates app structSize (.event e))
    (hkind : d.handler.isRegistered (.ofEvent e) = true) (htext : isEmptyText e = false) :
    Sends (Invocation.event e).message d (d.onEvent app structSize e) := by
  cases e with
  | characterData text => exact sends_onCharacterData htext hkind
  | default text => exact sends_onDefault htext hkind
  | elementDecl name model => exact sends_onElementDecl hkind hfits
  | notStandalone => exact sends_onNotStandalone hkind
  | _ => exact sends_report hkind rfl

theorem onEvent_of_not {e : Event}
    (h : ¬(d.handler.isRegistered (.ofEvent e) && !isEmptyText e) = true) :
    d.onEvent app structSize e = d := by
  rw [Bool.and_eq_true, Bool.not_eq_true'] at h
  cases e with
  | characterData text =>
    simp only [onEvent, onCharacterData]
    split
    · rfl
    · next htext => exact if_neg fun hkind ↦ h ⟨hkind, Bool.eq_false_iff.2 htext⟩
  | default text =>
    simp only [onEvent, onDefault]
    rw [if_neg]
    rw [Bool.and_eq_true, Bool.not_eq_true']
    exact h
  | notStandalone =>
    have hkind : ¬d.handler.isRegistered .notStandalone = true := fun hkind ↦ h ⟨hkind, rfl⟩
    simp only [onEvent, onNotStandalone, if_neg hkind]
  | _ => exact if_neg fun hkind ↦ h ⟨hkind, rfl⟩

/-- A signal without a call changes nothing. -/
theorem signal_of_none {s : Signal} (h : s.invocation d.handler.isRegistered = none) :
    d.signal app structSize s = d := by
  cases s with
  | event e =>
    simp only [Signal.invocation, ite_eq_right_iff, reduceCtorEq, imp_false] at h
    exact onEvent_of_not h
  | resolve request =>
    simp only [Signal.invocation] at h
    split at h
    · cases h
    · next hexternal =>
      split at h
      · cases h
      · next hskipped =>
        simp only [signal, resolveExternalEntity, if_neg hexternal]
        exact report_of_not (Bool.eq_false_iff.2 hskipped)

theorem sends_signal {s : Signal} (hfits : s.Allocates app structSize)
    (h : s.invocation d.handler.isRegistered = some c) :
    Sends c.message d (d.signal app structSize s) := by
  cases s with
  | event e =>
    simp only [Signal.invocation] at h
    split at h
    · next hcounts =>
      rw [Bool.and_eq_true, Bool.not_eq_true'] at hcounts
      obtain rfl := Option.some.inj h
      exact sends_onEvent hfits hcounts.1 hcounts.2
    · cases h
  | resolve request =>
    simp only [Signal.invocation] at h
    split at h
    · next hkind =>
      obtain rfl := Option.some.inj h
      exact sends_resolveExternalEntity hkind
    · next hexternal =>
      split at h
      · next hskipped =>
        obtain rfl := Option.some.inj h
        simp only [signal, resolveExternalEntity, if_neg hexternal]
        exact sends_report hskipped rfl
      · cases h

end

section

variable {app structSize}

theorem signals_append (ss ts : List Signal) (d : Dispatch) :
    d.signals app structSize (ss ++ ts) =
      (d.signals app structSize ss).signals app structSize ts := List.foldl_append ..

/-- Over the signals of a pass the handler runs as a sender. -/
structure Runs (ms : List CallbackMessage) (d e : Dispatch) : Prop where
  registered : e.handler.isRegistered = d.handler.isRegistered
  sender : e.sender = (d.sender.run ms).1
  delivered : e.delivered = d.delivered ++ (d.sender.run ms).2

theorem runs_signals (ss : List Signal) (hfits : ∀ s ∈ ss, s.Allocates app structSize)
    (d : Dispatch) :
    Runs (Signal.messages d.handler.isRegistered ss) d (d.signals app structSize ss) := by
  induction ss generalizing d with
  | nil => exact ⟨rfl, rfl, (List.append_nil _).symm⟩
  | cons s ss ih =>
    have hrest := ih (fun t ht ↦ hfits t (List.mem_cons_of_mem s ht)) (d.signal app structSize s)
    cases h : s.invocation d.handler.isRegistered with
    | none =>
      rw [signal_of_none h] at hrest
      have hmessages : Signal.messages d.handler.isRegistered (s :: ss) =
          Signal.messages d.handler.isRegistered ss := by
        simp only [Signal.messages, List.filterMap_cons, h]
      rw [hmessages, show d.signals app structSize (s :: ss) =
        (d.signal app structSize s).signals app structSize ss from rfl, signal_of_none h]
      exact hrest
    | some c =>
      have hsends := sends_signal (hfits s List.mem_cons_self) h
      have hmessages : Signal.messages d.handler.isRegistered (s :: ss) =
          c.message :: Signal.messages d.handler.isRegistered ss := by
        simp only [Signal.messages, List.filterMap_cons, h, List.map_cons]
      rw [hsends.registered] at hrest
      rw [hmessages]
      refine ⟨hrest.registered.trans hsends.registered, ?_, ?_⟩
      · rw [Sender.run_cons, ← hsends.sender]
        exact hrest.sender
      · rw [Sender.run_cons, ← hsends.sender, ← List.append_assoc, ← hsends.delivered]
        exact hrest.delivered

theorem messages_append_singleton (isRegistered : CallbackKind → Bool) (ss : List Signal)
    (s : Signal) : Signal.messages isRegistered (ss ++ [s]) =
      Signal.messages isRegistered ss ++
        ((s.invocation isRegistered).map Invocation.message).toList := by
  unfold Signal.messages
  rw [List.filterMap_append, List.map_append]
  cases h : s.invocation isRegistered with
  | none => simp only [List.filterMap_cons, h, List.filterMap_nil]; rfl
  | some c => simp only [List.filterMap_cons, h, List.filterMap_nil]; rfl

/-- In a pass that asks for a suspension, the last callback is one that was made, and the stop is
recorded with its number. -/
theorem last_of_stop {stream c : List CallbackMessage} (ss : List Signal)
    (hfits : ∀ s ∈ ss, s.Allocates app structSize) (d : Dispatch)
    (hgoing : d.shim.stopRequested = false)
    (hp : Cut (Signal.messages d.handler.isRegistered ss) stream) (hc : Cut c stream)
    (hskip : d.sender.skip - d.sender.seen = c.length)
    (hrem : Sender.Remembers d.sender.sent d.sender.seen c)
    (hrequested : (d.signals app structSize ss).shim.stopRequested = true)
    (hresumable : (d.signals app structSize ss).shim.stopResumable = true) :
    (d.sender.run (Signal.messages d.handler.isRegistered ss)).2 ≠ [] ∧
      (d.signals app structSize ss).handler.lastSuspendingCallbackIndex =
        d.sender.seen + (Signal.messages d.handler.isRegistered ss).length := by
  induction ss using List.reverseRecOn with
  | nil => exact absurd (hgoing.symm.trans hrequested) Bool.false_ne_true
  | append_singleton ss s ih =>
    have hfront : ∀ t ∈ ss, t.Allocates app structSize :=
      fun t ht ↦ hfits t (List.mem_append_left [s] ht)
    have hruns := runs_signals ss hfront d
    rw [messages_append_singleton] at hp ⊢
    rw [signals_append] at hrequested hresumable ⊢
    generalize d.signals app structSize ss = e at hruns ih hrequested hresumable ⊢
    change (e.signal app structSize s).shim.stopRequested = true at hrequested
    change (e.signal app structSize s).shim.stopResumable = true at hresumable
    show _ ∧ (e.signal app structSize s).handler.lastSuspendingCallbackIndex = _
    cases h : s.invocation d.handler.isRegistered with
    | none =>
      rw [h, Option.map_none, Option.toList_none, List.append_nil] at hp
      rw [Option.map_none, Option.toList_none, List.append_nil]
      rw [← hruns.registered] at h
      rw [signal_of_none h] at hrequested hresumable ⊢
      exact ih hfront hp hrequested hresumable
    | some i =>
      rw [h, Option.map_some, Option.toList_some] at hp
      rw [Option.map_some, Option.toList_some]
      rw [← hruns.registered] at h
      have hsends := sends_signal (hfits s (List.mem_append_right ss (List.mem_singleton_self s))) h
      by_cases hout : (e.sender.send i.message).2 = []
      · -- Nothing is called, so the stop was asked for before; then the last message is called.
        rw [hsends.silent hout] at hrequested hresumable
        have hbefore := (ih hfront (hp.of_append) hrequested hresumable).1
        have hlast := Sender.send_last_ne_nil hp hc d.sender hskip hrem (by
          rw [Sender.run_append]
          exact List.append_ne_nil_of_left_ne_nil hbefore _)
        rw [← hruns.sender] at hlast
        exact absurd hout hlast
      · refine ⟨?_, ?_⟩
        · rw [Sender.run_append, Sender.run_cons, Sender.run_nil, List.append_nil, ← hruns.sender]
          exact List.append_ne_nil_of_right_ne_nil _ hout
        · rw [hsends.recorded hout hrequested hresumable, hruns.sender, Sender.run_seen,
            List.length_append, List.length_singleton]
          rfl

end

end Dispatch

/-! ## The native parser -/

/-- What the native parser keeps for the passes to come: the handler, and how many callbacks have been
delivered. -/
structure NativeReplay where
  dispatch : Dispatch
  deliveredCallbackCount : Nat := 0

namespace NativeReplay

variable (app : Application) (structSize : Nat)

/-- The handler at the beginning of a pass. -/
def prepared (r : NativeReplay) : Dispatch :=
  { r.dispatch with
    handler := r.dispatch.handler.prepareCallbackReplay r.deliveredCallbackCount
    shim := r.dispatch.shim.beginParse }

/-- The end of a pass that has come to `d`. -/
def finishPass (status : Status) (isFinal : Bool) (r : NativeReplay) (d : Dispatch) :
    NativeReplay :=
  if status = .suspended then
    { dispatch := d
      deliveredCallbackCount := d.handler.lastSuspendingCallbackIndex }
  else if status = .ok ∧ !isFinal then
    -- A call may read less than an earlier one, of which the callbacks stay delivered.
    { dispatch := d
      deliveredCallbackCount := max r.deliveredCallbackCount d.handler.callbackSequenceCount }
  else
    { dispatch := { d with handler := d.handler.finishSuccessfulParseCallbacks }
      deliveredCallbackCount := 0 }

/-- A pass over the input, in which the parser sends `signals`. -/
def pass (signals : List Signal) (status : Status) (isFinal : Bool) (r : NativeReplay) :
    NativeReplay :=
  r.finishPass status isFinal (r.prepared.signals app structSize signals)

/-- The application has received `c`, and the native parser knows it. -/
structure HasDelivered (r : NativeReplay) (c : List CallbackMessage) : Prop where
  count : r.deliveredCallbackCount = c.length
  remembers : Sender.Remembers r.dispatch.sender.sent 0 c
  same : Message.joinTexts.Same r.dispatch.delivered c

/-- Another pass comes: this one is not final, or it is suspended at a stop that can be resumed. -/
def GoesOn (signals : List Signal) (status : Status) (isFinal : Bool) (r : NativeReplay) : Prop :=
  let d := r.prepared.signals app structSize signals
  status = .ok ∧ isFinal = false ∨
    status = .suspended ∧ d.shim.stopRequested = true ∧ d.shim.stopResumable = true

section

variable {app structSize} {r : NativeReplay} {c stream : List CallbackMessage}
  {signals : List Signal} {status : Status}

theorem finishPass_delivered (isFinal : Bool) (d : Dispatch) :
    (r.finishPass status isFinal d).dispatch.delivered = d.delivered := by
  unfold finishPass
  split
  · rfl
  · split <;> rfl

theorem finishPass_shim (isFinal : Bool) (d : Dispatch) :
    (r.finishPass status isFinal d).dispatch.shim = d.shim := by
  unfold finishPass
  split
  · rfl
  · split <;> rfl

/-- Of what was delivered before and the messages of the pass, the application has received the longer
one, whatever ends the pass. -/
theorem HasDelivered.exists_pass (h : r.HasDelivered c) (hc : Cut c stream)
    (hp : Cut (Signal.messages r.dispatch.handler.isRegistered signals) stream)
    (hfits : ∀ s ∈ signals, s.Allocates app structSize) (status : Status) (isFinal : Bool) :
    ∃ d, r.prepared.sender.Delivers (Signal.messages r.dispatch.handler.isRegistered signals) c d ∧
      Message.joinTexts.Same (r.pass app structSize signals status isFinal).dispatch.delivered d := by
  obtain ⟨d, hd⟩ := Sender.exists_delivers hp hc r.prepared.sender h.count h.remembers
  refine ⟨d, hd, ?_⟩
  have hruns := Dispatch.runs_signals signals hfits r.prepared
  rw [pass, finishPass_delivered, hruns.delivered]
  exact (h.same.append (.refl _)).trans hd.same

/-- After a pass that goes on, the native parser knows what the application has received. -/
theorem HasDelivered.pass (h : r.HasDelivered c) (hc : Cut c stream)
    (hp : Cut (Signal.messages r.dispatch.handler.isRegistered signals) stream)
    (hfits : ∀ s ∈ signals, s.Allocates app structSize)
    {isFinal : Bool} (hgoes : r.GoesOn app structSize signals status isFinal) :
    ∃ d, (d = Signal.messages r.dispatch.handler.isRegistered signals ∧ Cut c d ∨
        d = c ∧ Cut (Signal.messages r.dispatch.handler.isRegistered signals) d) ∧
      (status = .suspended →
        d = Signal.messages r.dispatch.handler.isRegistered signals ∧ d ≠ c) ∧
      (r.pass app structSize signals status isFinal).HasDelivered d := by
  obtain ⟨d, hd, hsame⟩ := h.exists_pass hc hp hfits status isFinal
  have hruns := Dispatch.runs_signals signals hfits r.prepared
  have hlonger := hd.longer_cut
  have hremembers : Sender.Remembers (r.prepared.signals app structSize signals).sender.sent 0 d := by
    rw [hruns.sender]
    exact hd.remembers
  rcases hgoes with ⟨rfl, rfl⟩ | ⟨rfl, hrequested, hresumable⟩
  · refine ⟨d, hlonger, nofun, ?_, hremembers, hsame⟩
    have hseen : (r.prepared.signals app structSize signals).handler.callbackSequenceCount =
        (Signal.messages r.dispatch.handler.isRegistered signals).length := by
      have h := congrArg Sender.seen hruns.sender
      rw [Sender.run_seen] at h
      exact h.trans (Nat.zero_add _)
    show max r.deliveredCallbackCount _ = d.length
    rw [hseen, h.count]
    rcases hd.longer with ⟨rfl, hcut⟩ | ⟨rfl, hcut⟩
    · exact Nat.max_eq_right hcut.length_le
    · exact Nat.max_eq_left hcut.length_le
  · -- A pass that delivers anything has come further than all before it.
    obtain ⟨hout, hindex⟩ := Dispatch.last_of_stop signals hfits r.prepared rfl hp hc h.count
      h.remembers hrequested hresumable
    have hnew {e : List CallbackMessage}
        (hcut : Cut (Signal.messages r.dispatch.handler.isRegistered signals) e) : e ≠ c := by
      intro hsame
      subst hsame
      exact hout (Sender.run_of_cut hcut r.prepared.sender h.count h.remembers)
    rcases hd.longer with ⟨rfl, hcut⟩ | ⟨rfl, hcut⟩
    · refine ⟨_, hlonger, fun _ ↦ ⟨rfl, hnew (.refl _)⟩, ?_, hremembers, hsame⟩
      exact hindex.trans (Nat.zero_add _)
    · exact absurd rfl (hnew hcut)

/-! ## Many passes -/

theorem registered_pass (hfits : ∀ s ∈ signals, s.Allocates app structSize) (isFinal : Bool) :
    (r.pass app structSize signals status isFinal).dispatch.handler.isRegistered =
      r.dispatch.handler.isRegistered := by
  have hruns := (Dispatch.runs_signals signals hfits r.prepared).registered
  unfold NativeReplay.pass finishPass
  split
  · exact hruns
  · split
    · exact hruns
    · exact hruns

end

/-- Passes with these signals, each followed by another one. -/
inductive Passes (r : NativeReplay) : List (List Signal) → NativeReplay → Prop where
  | nil : Passes r [] r
  | pass {ps : List (List Signal)} {q : NativeReplay} {signals : List Signal} {status : Status}
      {isFinal : Bool} (h : Passes r ps q) (hgoes : q.GoesOn app structSize signals status isFinal) :
      Passes r (ps ++ [signals]) (q.pass app structSize signals status isFinal)

section

variable {app structSize} {r q : NativeReplay} {ps : List (List Signal)}
  {stream : List CallbackMessage}

theorem Passes.registered (h : r.Passes app structSize ps q)
    (hfits : ∀ signals ∈ ps, ∀ s ∈ signals, s.Allocates app structSize) :
    q.dispatch.handler.isRegistered = r.dispatch.handler.isRegistered := by
  induction h with
  | nil => rfl
  | pass h hgoes ih =>
    rw [registered_pass (hfits _ (List.mem_append_right _ (List.mem_singleton_self _)))]
    exact ih fun signals hsignals ↦ hfits signals (List.mem_append_left _ hsignals)

/-- Over passes that are cuts of one stream, the longest of them has been delivered. -/
theorem Passes.exists_delivered (h : r.Passes app structSize ps q) (hr : r.HasDelivered [])
    (hcuts : ∀ signals ∈ ps, Cut (Signal.messages r.dispatch.handler.isRegistered signals) stream)
    (hfits : ∀ signals ∈ ps, ∀ s ∈ signals, s.Allocates app structSize) :
    ∃ d ∈ [] :: ps.map (Signal.messages r.dispatch.handler.isRegistered),
      (∀ signals ∈ ps, Cut (Signal.messages r.dispatch.handler.isRegistered signals) d) ∧
        Cut d stream ∧ q.HasDelivered d := by
  induction h with
  | nil => exact ⟨[], List.mem_singleton_self _, nofun, .nil stream, hr⟩
  | @pass ps q signals status isFinal h hgoes ih =>
    have hfront {P : List Signal → Prop} (hP : ∀ signals' ∈ ps ++ [signals], P signals') :
        ∀ signals' ∈ ps, P signals' := fun signals' hsignals ↦ hP signals' (List.mem_append_left _ hsignals)
    have hlast := List.mem_append_right ps (List.mem_singleton_self signals)
    obtain ⟨c, hc, hlongest, hcut, hdelivered⟩ := ih (hfront hcuts) (hfront hfits)
    have hregistered := h.registered (hfront hfits)
    have hp := hcuts signals hlast
    rw [← hregistered] at hp
    obtain ⟨d, hd, -, hpass⟩ := hdelivered.pass hcut hp (hfits signals hlast) hgoes
    rw [hregistered] at hd
    refine ⟨d, ?_, ?_, ?_, hpass⟩
    · rw [List.map_append, ← List.cons_append, List.mem_append]
      rcases hd with ⟨rfl, -⟩ | ⟨rfl, -⟩
      · exact .inr (List.mem_singleton_self _)
      · exact .inl hc
    · intro signals' hsignals
      rw [List.mem_append, List.mem_singleton] at hsignals
      rcases hsignals with hold | rfl
      · rcases hd with ⟨rfl, hcd⟩ | ⟨rfl, -⟩
        · exact (hlongest signals' hold).trans hcd
        · exact hlongest signals' hold
      · rcases hd with ⟨rfl, -⟩ | ⟨rfl, hpd⟩
        · exact .refl _
        · exact hpd
    · rcases hd with ⟨rfl, -⟩ | ⟨rfl, -⟩
      · exact hcuts signals hlast
      · exact hcut

end

end NativeReplay

open NativeReplay in
/-- Whatever the application suspends and resumes, and whatever pieces its input comes in: after any
number of passes over cuts of one stream of callbacks, and a last one that ends in any way, it has
received the longest of them, each callback once and each text in consecutive pieces. -/
theorem callbacks_exactly_once {app : Application} {structSize : Nat} {r q : NativeReplay}
    {ps : List (List Signal)} {signals : List Signal} {status : Status} {isFinal : Bool}
    (stream : List CallbackMessage) (h : r.Passes app structSize ps q)
    (hnew : r.deliveredCallbackCount = 0 ∧ r.dispatch.received = [])
    (hcuts : ∀ p ∈ ps ++ [signals],
      Cut (Signal.messages r.dispatch.handler.isRegistered p) stream)
    (hfits : ∀ p ∈ ps ++ [signals], ∀ s ∈ p, s.Allocates app structSize) :
    ∃ d ∈ (ps ++ [signals]).map (Signal.messages r.dispatch.handler.isRegistered),
      (∀ p ∈ ps ++ [signals], Cut (Signal.messages r.dispatch.handler.isRegistered p) d) ∧
        Message.joinTexts.Same (q.pass app structSize signals status isFinal).dispatch.delivered d := by
  have hr : r.HasDelivered [] := by
    refine ⟨hnew.1, trivial, ?_⟩
    rw [Dispatch.delivered, hnew.2]
    exact .refl []
  have hlast : signals ∈ ps ++ [signals] := List.mem_append_right ps (List.mem_singleton_self _)
  obtain ⟨c, hc, hlongest, hcut, hdelivered⟩ := h.exists_delivered hr
    (fun p hp ↦ hcuts p (List.mem_append_left _ hp)) fun p hp ↦ hfits p (List.mem_append_left _ hp)
  have hregistered := h.registered fun p hp ↦ hfits p (List.mem_append_left _ hp)
  have hp := hcuts signals hlast
  rw [← hregistered] at hp
  obtain ⟨d, hd, hsame⟩ := hdelivered.exists_pass hcut hp (hfits signals hlast) status isFinal
  have hlonger := hd.longer_cut
  rw [hregistered] at hlonger
  refine ⟨d, ?_, ?_, hsame⟩
  · rcases hlonger with ⟨rfl, -⟩ | ⟨rfl, hpd⟩
    · exact List.mem_map_of_mem hlast
    · cases hc with
      | head => rw [← hpd.eq_nil]; exact List.mem_map_of_mem hlast
      | tail _ hc => rw [List.map_append]; exact List.mem_append_left _ hc
  · intro p hpass
    rw [List.mem_append, List.mem_singleton] at hpass
    rcases hpass with hold | rfl
    · rcases hlonger with ⟨rfl, hcd⟩ | ⟨rfl, -⟩
      · exact (hlongest p hold).trans hcd
      · exact hlongest p hold
    · rcases hlonger with ⟨rfl, -⟩ | ⟨rfl, hpd⟩
      · exact .refl _
      · exact hpd

/-- An application that never stops the parser, and has memory. -/
def patientApplication : Application where
  stops _ := none
  acceptsNotStandalone _ := true
  parsesChild _ := ⟨1, false, 0, 0, none, none, false⟩
  malloc _ := some ⟨fun _ ↦ ⟨0, 0, none, 0, 0⟩, fun _ ↦ 0⟩

/-- The content model of an element declaration. -/
def declarationModel : ContentModel :=
  .node .sequence .none none [.node .name .plus (some (str "b")) []]

def declarationSignal : Signal := .event (.elementDecl (str "a") declarationModel)

/-- A text that arrives in part. -/
def textPass : List Signal := [declarationSignal, .event (.characterData (str "ab"))]

/-- The whole text, and the end of its element. -/
def longerTextPass : List Signal :=
  [declarationSignal, .event (.characterData (str "abc")), .event (.endElement (str "a"))]

def textReplay : NativeReplay where
  dispatch := { handler := { isRegistered := fun _ ↦ true }, shim := {} }

/-- The second pass delivers the rest of the text and the end of the element, and the content model
not again. -/
theorem callbacks_exactly_once_text :
    ∃ d ∈ [textPass, longerTextPass].map (Signal.messages fun _ ↦ true),
      (∀ p ∈ [textPass, longerTextPass], Cut (Signal.messages (fun _ ↦ true) p) d) ∧
        Message.joinTexts.Same ((textReplay.pass patientApplication 32 textPass .ok false).pass
          patientApplication 32 longerTextPass .ok true).dispatch.delivered d := by
  have hpass : textReplay.Passes patientApplication 32 [textPass]
      (textReplay.pass patientApplication 32 textPass .ok false) := .pass .nil (.inl ⟨rfl, rfl⟩)
  have hcut : Cut [(.whole (.event (.elementDecl (str "a") declarationModel))), (.text .characterData (str "ab") : CallbackMessage)]
      [(.whole (.event (.elementDecl (str "a") declarationModel))), .text .characterData (str "ab" ++ str "c"),
        .whole (.event (.endElement (str "a")))] :=
    .cons _ (.text TextKind.characterData (str "ab") (str "c") _)
  refine callbacks_exactly_once (Signal.messages (fun _ ↦ true) longerTextPass) hpass ⟨rfl, rfl⟩
    ?_ ?_
  · intro p hp
    rw [List.mem_append, List.mem_singleton, List.mem_singleton] at hp
    rcases hp with rfl | rfl
    · exact hcut
    · exact .refl _
  · have hfits : declarationSignal.Allocates patientApplication 32 = true := by decide +kernel
    intro p hp s hs
    rw [List.mem_append, List.mem_singleton, List.mem_singleton] at hp
    rcases hp with rfl | rfl
    · rw [textPass, List.mem_cons, List.mem_singleton] at hs
      rcases hs with rfl | rfl
      · exact hfits
      · rfl
    · rw [longerTextPass, List.mem_cons, List.mem_cons, List.mem_singleton] at hs
      rcases hs with rfl | rfl | rfl
      · exact hfits
      · rfl
      · rfl

end Xpact.Native
