import Xpact.Native.Shim

/-!
# The parsing status

The guards of the exported functions, over every sequence of calls: when the engine is entered, what a
refused call leaves as it was, and what stays after the final call.
-/

namespace Xpact.Native

open Library

/-- A call of the application.  `allocates` is what the allocator answers during the call. -/
inductive Call where
  | parse (allocates : Int → Bool) (s : Option String8) (len : Int) (isFinal : Bool)
  | getBuffer (allocates : Int → Bool) (len : Int)
  | parseBuffer (allocates : Int → Bool) (written : String8) (len : Int) (isFinal : Bool)
  | stopParser (resumable : Bool)
  | resumeParser

namespace Call

/-- The calls that read input, and so need an engine. -/
def readsInput : Call → Bool
  | .parse .. | .parseBuffer .. | .resumeParser => true
  | .getBuffer .. | .stopParser _ => false

def isResume : Call → Bool
  | .resumeParser => true
  | _ => false

end Call

namespace XmlParser

variable {ε : Type}

def call (x : XmlParser ε) : Call → Option (Outcome (XmlParser ε))
  | .parse allocates s len isFinal => x.parse allocates s len isFinal
  | .getBuffer allocates len => some (x.getBuffer allocates len)
  | .parseBuffer allocates written len isFinal => x.parseBuffer allocates written len isFinal
  | .stopParser resumable => some (x.stopParser resumable)
  | .resumeParser => x.resumeParser

/-- Does this call read the end of the input? -/
def callIsFinal (x : XmlParser ε) : Call → Bool
  | .parse _ _ _ isFinal | .parseBuffer _ _ _ isFinal => isFinal
  | .resumeParser => x.shim.finalBuffer
  | .getBuffer .. | .stopParser _ => false

/-- The parser after some calls, if each of them returns. -/
def calls (x : XmlParser ε) : List Call → Option (XmlParser ε)
  | [] => some x
  | c :: cs => do (← x.call c).parser.calls cs

end XmlParser

/-! ## What a call does -/

/-- A refused call reports an error, and only the error code changes. -/
structure Refuses (x : Shim) (o : Outcome Shim) : Prop where
  effect : o.effect = .refused
  isError : o.reply.isError = true
  bufferedBytes : o.parser.bufferedBytes = x.bufferedBytes
  parsing : o.parser.parsing = x.parsing
  parseErrorCode : o.parser.parseErrorCode = x.parseErrorCode

/-- Without an engine the first call for input is refused, and the last. -/
structure FinishesWithoutEngine (x : Shim) (o : Outcome Shim) : Prop where
  effect : o.effect = .refused
  isError : o.reply.isError = true
  bufferedBytes : o.parser.bufferedBytes = x.bufferedBytes
  parsing : o.parser.parsing = .finished
  parseErrorCode : o.parser.parseErrorCode = x.parseErrorCode

/-- An accepted call is not made on a finished parser. -/
structure Accepts (x : Shim) (o : Outcome Shim) : Prop where
  effect : o.effect = .accepted
  parsing : x.parsing ≠ .finished
  parseErrorCode : o.parser.parseErrorCode = x.parseErrorCode

/-- A call that enters the engine, with what is noted of the status that it returns. -/
structure Enters (x : Shim) (isResume isFinal : Bool) (o : Outcome Shim) : Prop where
  effect : o.effect = .entered
  notFinished : x.parsing ≠ .finished
  notSuspended : isResume = false → x.parsing ≠ .suspended
  noError : isResume = false → x.parseErrorCode = .none
  ofError : o.reply = .status .error → o.parser.parseErrorCode ≠ .none
  ofOk : o.reply = .status .ok → isFinal = true → o.parser.parsing = .finished
  parseErrorCode : x.parseErrorCode ≠ .none → o.parser.parseErrorCode ≠ .none

namespace Shim

theorem refuses_refuse (x : Shim) (code : Error) : Refuses x (x.refuse code) :=
  ⟨rfl, rfl, rfl, rfl, rfl⟩

/-- When there is no room, only the error code changes. -/
theorem inputBuffer_eq_false {x y : Shim} {allocates : Int → Bool} {len : Int}
    {commit : Option String8} (h : x.inputBuffer allocates len commit = (false, y)) :
    y = x.setError .noMemory := by
  unfold inputBuffer at h
  dsimp only at h
  split at h
  · exact (Prod.mk.inj h).2.symm
  split at h
  · exact (Prod.mk.inj h).2.symm
  · exact absurd (Prod.mk.inj h).1.symm Bool.false_ne_true

theorem inputBuffer_parseErrorCode {x y : Shim} {allocates : Int → Bool} {len : Int}
    {commit : Option String8} {ok : Bool} (h : x.inputBuffer allocates len commit = (ok, y)) :
    y.parseErrorCode = x.parseErrorCode := by
  unfold inputBuffer at h
  dsimp only at h
  split at h
  · rw [← (Prod.mk.inj h).2]
    rfl
  split at h
  · rw [← (Prod.mk.inj h).2]
    rfl
  · rw [← (Prod.mk.inj h).2]

theorem stopParser_cases (x : Shim) (resumable : Bool) :
    Refuses x (x.stopParser resumable) ∨ Accepts x (x.stopParser resumable) := by
  have hrefuse (code : Error) : Refuses x (x.refuse code) ∨ Accepts x (x.refuse code) :=
    .inl (x.refuses_refuse code)
  unfold stopParser
  split
  · exact hrefuse _
  split
  · exact hrefuse _
  rename_i hfinished
  split
  · split
    · exact hrefuse _
    · exact .inr ⟨rfl, hfinished, rfl⟩
  split
  · exact hrefuse _
  split
  · exact hrefuse _
  split
  · exact hrefuse _
  · exact .inr ⟨rfl, hfinished, rfl⟩

theorem consumeInputPrefix_parseErrorCode (x : Shim) (pendingBytes : Int) :
    (x.consumeInputPrefix pendingBytes).parseErrorCode = x.parseErrorCode := by
  unfold consumeInputPrefix
  split
  · rfl
  split <;> rfl

end Shim

/-- A parse error stays recorded while the engine runs. -/
theorem callbackMachine_parseErrorCode (c : Callback) (x : Shim) :
    (callbackMachine.step c x).parseErrorCode = x.parseErrorCode := by
  cases c with
  | stopParser resumable =>
    rcases x.stopParser_cases resumable with hrefuses | haccepts
    · exact hrefuses.parseErrorCode
    · exact haccepts.parseErrorCode
  | consumeInputPrefix pendingBytes => exact x.consumeInputPrefix_parseErrorCode pendingBytes

namespace XmlParser

variable {ε : Type} {x y : XmlParser ε}

theorem parseError_ne_none (x : XmlParser ε) : x.parseError ≠ .none := by
  unfold parseError
  dsimp only
  generalize (if x.engineError = .none then x.shim.errorCode else x.engineError) = error
  by_cases herror : error = .none
  · rw [if_neg (not_not_intro herror)]
    exact Error.noConfusion
  · rw [if_pos herror]
    exact herror

theorem finishExternalChildParse_parseErrorCode (x : XmlParser ε) (status : Status) (len : Int)
    (isFinal : Bool) :
    (x.finishExternalChildParse status len isFinal).2.shim.parseErrorCode =
      x.shim.parseErrorCode := by
  unfold finishExternalChildParse
  split
  · rfl
  split
  · split <;> rfl
  · rfl

theorem noteStatus_cases (x : XmlParser ε) (status : Status) (isFinal : Bool) :
    (status = .error → (x.noteStatus status isFinal).shim.parseErrorCode ≠ .none) ∧
      (status = .ok → isFinal = true → (x.noteStatus status isFinal).shim.parsing = .finished) ∧
      (x.shim.parseErrorCode ≠ .none →
        (x.noteStatus status isFinal).shim.parseErrorCode ≠ .none) := by
  cases status with
  | error => exact ⟨fun _ ↦ x.parseError_ne_none, nofun, fun _ ↦ x.parseError_ne_none⟩
  | ok => exact ⟨nofun, fun _ hfinal ↦ if_pos hfinal, id⟩
  | suspended => exact ⟨nofun, nofun, id⟩

theorem enter_cases {parse : ε → String8 → Bool → Program Callback Shim (Status × ε)} {e : ε}
    {input : String8} {len : Int} {isFinal : Bool} {status : Status}
    (h : x.enter parse e input len isFinal = some (status, y)) :
    (status = .error → y.shim.parseErrorCode ≠ .none) ∧
      (status = .ok → isFinal = true → y.shim.parsing = .finished) ∧
      (x.shim.parseErrorCode ≠ .none → y.shim.parseErrorCode ≠ .none) := by
  obtain ⟨⟨⟨returned, e'⟩, shim⟩, hrun, hy⟩ := Option.map_eq_some_iff.1 h
  have hkept : shim.parseErrorCode = x.shim.beginParse.parseErrorCode :=
    Program.run_unchanged Shim.parseErrorCode callbackMachine_parseErrorCode hrun
  obtain ⟨rfl, rfl⟩ := Prod.mk.inj hy
  have hcases := noteStatus_cases
    ({ x with shim, eiffelParser := some e' }.finishExternalChildParse returned len isFinal).2
    ({ x with shim, eiffelParser := some e' }.finishExternalChildParse returned len isFinal).1 isFinal
  rw [finishExternalChildParse_parseErrorCode, hkept] at hcases
  exact hcases

/-! ## The exported functions -/

/-- What a call does, told by the status of the parser before and after it. -/
def Serves (x : XmlParser ε) (c : Call) (o : Outcome (XmlParser ε)) : Prop :=
  Refuses x.shim (o.map (·.shim)) ∨
    (x.engine.isNone = true ∧ c.readsInput = true ∧
      FinishesWithoutEngine x.shim (o.map (·.shim))) ∨
    Enters x.shim c.isResume (x.callIsFinal c) (o.map (·.shim)) ∨
    Accepts x.shim (o.map (·.shim))

theorem serves_refuse (c : Call) (code : Error) : x.Serves c (x.refuse code) :=
  .inl ⟨rfl, rfl, rfl, rfl, rfl⟩

theorem serves_parse {c : Call} {allocates : Int → Bool} {s : Option String8} {len : Int}
    {isFinal : Bool} {o : Outcome (XmlParser ε)} (hreads : c.readsInput = true)
    (hfinal : x.callIsFinal c = isFinal) (h : x.parse allocates s len isFinal = some o) :
    x.Serves c o := by
  have hrefuse {code : Error} (h : some (x.refuse code) = some o) : x.Serves c o :=
    Option.some.inj h ▸ serves_refuse c code
  unfold parse at h
  split at h
  · exact hrefuse h
  split at h
  · exact hrefuse h
  rename_i hsuspended
  split at h
  · exact hrefuse h
  rename_i hfinished
  split at h
  · exact hrefuse h
  rename_i herror
  have hnone : x.shim.parseErrorCode = .none := Decidable.of_not_not herror
  split at h
  · rename_i hengine
    obtain rfl := Option.some.inj h
    exact .inr (.inl ⟨by rw [hengine]; rfl, hreads, rfl, rfl, rfl, rfl, rfl⟩)
  · dsimp only at h
    split at h
    · rename_i hbuffer
      obtain rfl := Option.some.inj h
      rw [Shim.inputBuffer_eq_false hbuffer]
      exact .inl ⟨rfl, rfl, rfl, rfl, rfl⟩
    · rename_i shim hbuffer
      obtain ⟨⟨status, y⟩, henter, ho⟩ := Option.bind_eq_some_iff.1 h
      obtain rfl := Option.some.inj ho
      obtain ⟨hofError, hofOk, hkept⟩ := enter_cases henter
      refine .inr (.inr (.inl ⟨rfl, hfinished, fun _ ↦ hsuspended, fun _ ↦ hnone, ?_, ?_, ?_⟩))
      · exact fun hreply ↦ hofError (Reply.status.inj hreply)
      · exact fun hreply hc ↦ hofOk (Reply.status.inj hreply) (hfinal.symm.trans hc)
      · exact fun hx ↦ absurd hnone hx

theorem serves_getBuffer (allocates : Int → Bool) (len : Int) :
    x.Serves (.getBuffer allocates len) (x.getBuffer allocates len) := by
  unfold getBuffer
  dsimp only
  split
  · exact .inl ⟨rfl, rfl, rfl, rfl, rfl⟩
  split
  · exact .inl ⟨rfl, rfl, rfl, rfl, rfl⟩
  rename_i hparsing
  split
  · rename_i hbuffer
    rw [Shim.inputBuffer_eq_false hbuffer]
    exact .inl ⟨rfl, rfl, rfl, rfl, rfl⟩
  · rename_i hbuffer
    refine .inr (.inr (.inr ⟨rfl, fun h ↦ hparsing (.inr h), ?_⟩))
    exact Shim.inputBuffer_parseErrorCode hbuffer

theorem serves_parseBuffer {allocates : Int → Bool} {written : String8} {len : Int}
    {isFinal : Bool} {o : Outcome (XmlParser ε)}
    (h : x.parseBuffer allocates written len isFinal = some o) :
    x.Serves (.parseBuffer allocates written len isFinal) o := by
  have hrefuse {code : Error} (h : some (x.refuse code) = some o) :
      x.Serves (.parseBuffer allocates written len isFinal) o :=
    Option.some.inj h ▸ serves_refuse _ code
  unfold parseBuffer at h
  split at h
  · exact hrefuse h
  split at h
  · exact hrefuse h
  split at h
  · exact hrefuse h
  split at h
  · split at h
    · exact serves_parse rfl rfl h
    · exact hrefuse h
  split at h
  · exact hrefuse h
  · exact serves_parse rfl rfl h

theorem serves_stopParser (resumable : Bool) :
    x.Serves (.stopParser resumable) (x.stopParser resumable) := by
  rcases x.shim.stopParser_cases resumable with hrefuses | haccepts
  · exact .inl ⟨hrefuses.effect, hrefuses.isError, hrefuses.bufferedBytes, hrefuses.parsing,
      hrefuses.parseErrorCode⟩
  · exact .inr (.inr (.inr ⟨haccepts.effect, haccepts.parsing, haccepts.parseErrorCode⟩))

theorem serves_resumeParser {o : Outcome (XmlParser ε)} (h : x.resumeParser = some o) :
    x.Serves .resumeParser o := by
  unfold resumeParser at h
  split at h
  · obtain rfl := Option.some.inj h
    exact serves_refuse _ _
  rename_i hparsing
  have hsuspended : x.shim.parsing = .suspended := Decidable.of_not_not hparsing
  split at h
  · rename_i hengine
    obtain rfl := Option.some.inj h
    exact .inr (.inl ⟨by rw [hengine]; rfl, rfl, rfl, rfl, rfl, rfl, rfl⟩)
  · obtain ⟨⟨status, y⟩, henter, ho⟩ := Option.bind_eq_some_iff.1 h
    obtain rfl := Option.some.inj ho
    obtain ⟨hofError, hofOk, hkept⟩ := enter_cases henter
    refine .inr (.inr (.inl ⟨rfl, ?_, nofun, nofun, ?_, ?_, hkept⟩))
    · rw [hsuspended]
      exact nofun
    · exact fun hreply ↦ hofError (Reply.status.inj hreply)
    · exact fun hreply hc ↦ hofOk (Reply.status.inj hreply) hc

theorem serves_call {c : Call} {o : Outcome (XmlParser ε)} (h : x.call c = some o) :
    x.Serves c o := by
  cases c with
  | parse allocates s len isFinal => exact serves_parse rfl rfl h
  | getBuffer allocates len => exact Option.some.inj h ▸ serves_getBuffer allocates len
  | parseBuffer allocates written len isFinal => exact serves_parseBuffer h
  | stopParser resumable => exact Option.some.inj h ▸ serves_stopParser resumable
  | resumeParser => exact serves_resumeParser h

/-! ## Sequences of calls -/

theorem finished_of_call {c : Call} {o : Outcome (XmlParser ε)} (h : x.call c = some o)
    (hx : x.shim.parsing = .finished) : o.parser.shim.parsing = .finished := by
  rcases serves_call h with hrefuses | ⟨-, -, hfinishes⟩ | henters | haccepts
  · exact hrefuses.parsing.trans hx
  · exact hfinishes.parsing
  · exact absurd hx henters.notFinished
  · exact absurd hx haccepts.parsing

theorem parseErrorCode_of_call {c : Call} {o : Outcome (XmlParser ε)} (h : x.call c = some o)
    (hx : x.shim.parseErrorCode ≠ .none) : o.parser.shim.parseErrorCode ≠ .none := by
  rcases serves_call h with hrefuses | ⟨-, -, hfinishes⟩ | henters | haccepts
  · exact fun ho ↦ hx (hrefuses.parseErrorCode.symm.trans ho)
  · exact fun ho ↦ hx (hfinishes.parseErrorCode.symm.trans ho)
  · exact henters.parseErrorCode hx
  · exact fun ho ↦ hx (haccepts.parseErrorCode.symm.trans ho)

/-- What every call keeps, a sequence of calls keeps. -/
theorem calls_invariant {I : XmlParser ε → Prop}
    (hcall : ∀ x c o, x.call c = some o → I x → I o.parser) {cs : List Call}
    (h : x.calls cs = some y) (hx : I x) : I y := by
  induction cs generalizing x with
  | nil => exact Option.some.inj h ▸ hx
  | cons c cs ih =>
    obtain ⟨o, ho, hrest⟩ := Option.bind_eq_some_iff.1 h
    exact ih hrest (hcall x c o ho hx)

end XmlParser

/-- The exported functions, in any state and over any further calls.  The parse function of the engine
is not entered on a finished parser, and except by `XML_ResumeParser` neither on a suspended one nor
once a parse error is recorded; an error that the engine returns is recorded for good.  A refused call,
also of `XML_StopParser` in a callback, reports an error and leaves the buffered bytes and the status as
they were, unless it needs an engine that is missing.  After a successful final call the parser stays
finished. -/
theorem parsingStatus_guarded {ε : Type} {x : XmlParser ε} {c : Call} {o : Outcome (XmlParser ε)}
    (ho : x.call c = some o) :
    (o.effect = .entered →
      x.shim.parsing ≠ .finished ∧
        (c.isResume = false → x.shim.parsing ≠ .suspended ∧ x.shim.parseErrorCode = .none) ∧
        (o.reply = .status .error → ∀ cs y, o.parser.calls cs = some y →
          y.shim.parseErrorCode ≠ .none)) ∧
      (o.effect = .refused →
        o.reply.isError = true ∧ o.parser.shim.bufferedBytes = x.shim.bufferedBytes ∧
          (o.parser.shim.parsing = x.shim.parsing ∨
            x.engine.isNone = true ∧ c.readsInput = true ∧ o.parser.shim.parsing = .finished)) ∧
      (∀ (shim : Shim) (resumable : Bool), (shim.stopParser resumable).effect = .refused →
        Refuses shim (shim.stopParser resumable)) ∧
      (o.effect = .entered → o.reply = .status .ok → x.callIsFinal c = true →
        ∀ cs y, o.parser.calls cs = some y → y.shim.parsing = .finished) := by
  have hserves := XmlParser.serves_call ho
  refine ⟨fun heffect ↦ ?_, fun heffect ↦ ?_, fun shim resumable heffect ↦ ?_, fun heffect ↦ ?_⟩
  · rcases hserves with hrefuses | ⟨-, -, hfinishes⟩ | henters | haccepts
    · exact absurd (hrefuses.effect.symm.trans heffect) (by decide)
    · exact absurd (hfinishes.effect.symm.trans heffect) (by decide)
    · refine ⟨henters.notFinished, fun hc ↦ ⟨henters.notSuspended hc, henters.noError hc⟩, ?_⟩
      exact fun hreply cs y hy ↦ XmlParser.calls_invariant
        (I := fun x ↦ x.shim.parseErrorCode ≠ .none)
        (fun _ _ _ h hx ↦ XmlParser.parseErrorCode_of_call h hx) hy (henters.ofError hreply)
    · exact absurd (haccepts.effect.symm.trans heffect) (by decide)
  · rcases hserves with hrefuses | ⟨hengine, hreads, hfinishes⟩ | henters | haccepts
    · exact ⟨hrefuses.isError, hrefuses.bufferedBytes, .inl hrefuses.parsing⟩
    · exact ⟨hfinishes.isError, hfinishes.bufferedBytes, .inr ⟨hengine, hreads, hfinishes.parsing⟩⟩
    · exact absurd (henters.effect.symm.trans heffect) (by decide)
    · exact absurd (haccepts.effect.symm.trans heffect) (by decide)
  · rcases shim.stopParser_cases resumable with hrefuses | haccepts
    · exact hrefuses
    · exact absurd (haccepts.effect.symm.trans heffect) (by decide)
  · rcases hserves with hrefuses | ⟨-, -, hfinishes⟩ | henters | haccepts
    · exact absurd (hrefuses.effect.symm.trans heffect) (by decide)
    · exact absurd (hfinishes.effect.symm.trans heffect) (by decide)
    · exact fun hreply hfinal cs y hy ↦ XmlParser.calls_invariant
        (I := fun x ↦ x.shim.parsing = .finished)
        (fun _ _ _ h hx ↦ XmlParser.finished_of_call h hx) hy (henters.ofOk hreply hfinal)
    · exact absurd (haccepts.effect.symm.trans heffect) (by decide)

/-- An engine that returns `status` at once. -/
def constantBridge (status : Status) : Bridge Unit where
  parse := some fun e _ _ ↦ .done (status, e)
  getErrorCode := some fun _ ↦ .none
  getAccountingDirectCount := none
  getAccountingIndirectCount := none
  mergeAccounting := none
  mergeExternalEntityContext := none

theorem parsingStatus_guarded_final :
    ∃ o, (XmlParser.create (some (constantBridge .ok)) (some ()) none false).call
        (.parse (fun _ ↦ true) (some (str "<a/>")) 4 true) = some o ∧
      o.effect = .entered ∧ ∀ cs y, o.parser.calls cs = some y → y.shim.parsing = .finished := by
  obtain ⟨o, ho, heffect, hreply⟩ :
      ∃ o, (XmlParser.create (some (constantBridge .ok)) (some ()) none false).call
          (.parse (fun _ ↦ true) (some (str "<a/>")) 4 true) = some o ∧
        o.effect = .entered ∧ o.reply = .status .ok := ⟨_, rfl, rfl, rfl⟩
  exact ⟨o, ho, heffect, (parsingStatus_guarded ho).2.2.2 heffect hreply rfl⟩

/-- Without an engine a refused call changes the status; and a resumable stop after a parse error lets
`XML_ResumeParser` enter the engine again. -/
theorem parsingStatus_unguarded :
    (∃ o, (XmlParser.create (none : Option (Bridge Unit)) none none false).call
        (.parse (fun _ ↦ true) (some (str "<a/>")) 4 true) = some o ∧
      o.effect = .refused ∧ o.parser.shim.parsing = .finished) ∧
    (XmlParser.create (none : Option (Bridge Unit)) none none false).shim.parsing = .initialized ∧
    ∃ x o, (XmlParser.create (some (constantBridge .error)) (some ()) none false).calls
        [.parse (fun _ ↦ true) (some (str "<")) 1 false, .stopParser true] = some x ∧
      x.shim.parseErrorCode ≠ .none ∧ x.call .resumeParser = some o ∧ o.effect = .entered :=
  ⟨⟨_, rfl, rfl, rfl⟩, rfl, ⟨_, _, rfl, by decide, rfl, rfl⟩⟩

end Xpact.Native
