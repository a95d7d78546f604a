import Xpact.Library.Program
import Xpact.Text.Characters

/-!
# The exported C functions

The C layer keeps the input buffer and the parsing status, and hands the bytes to the Eiffel parser
behind the bridge.  The Eiffel parser is an engine here: a call of its parse function is a program
that may stop the parser from its callbacks and consume buffered input, and that sees the C parser
meanwhile.
-/

namespace Xpact.Native

open Library

/-! ## The parser -/

/-- `enum XML_Status`. -/
inductive Status where
  | error | ok | suspended
  deriving DecidableEq, Repr

/-- `enum XML_Parsing`. -/
inductive Parsing where
  | initialized | parsing | finished | suspended
  deriving DecidableEq, Repr

/-- `enum XML_Error`. -/
inductive Error where
  | none | noMemory | syntaxError | noElements | invalidToken | unclosedToken | partialChar
  | tagMismatch
  | duplicateAttribute | junkAfterDocElement | paramEntityRef | undefinedEntity | recursiveEntityRef
  | asyncEntity | badCharRef | binaryEntityRef | attributeExternalEntityRef | misplacedXmlPi
  | unknownEncoding | incorrectEncoding | unclosedCdataSection | externalEntityHandling
  | notStandalone | unexpectedState | entityDeclaredInPe | featureRequiresXmlDtd
  | cantChangeFeatureOnceParsing | unboundPrefix | undeclaringPrefix | incompletePe | xmlDecl
  | textDecl | publicid | suspended | notSuspended | aborted | finished | suspendPe
  | reservedPrefixXml | reservedPrefixXmlns | reservedNamespaceUri | invalidArgument | noBuffer
  | amplificationLimitBreach | notStarted
  deriving DecidableEq, Repr

/-- The part of `struct XML_ParserStruct` that holds the input and the status. -/
structure Shim where
  /-- The buffered bytes, once a buffer is allocated. -/
  buffer : Option String8 := none
  bufferCapacity : Int := 0
  errorCode : Error := .none
  parseErrorCode : Error := .none
  parsing : Parsing := .initialized
  finalBuffer : Bool := false
  externalEntityIsParameter : Bool := false
  stopRequested : Bool := false
  stopResumable : Bool := false
  deriving DecidableEq

namespace Shim

/-- The bytes that the parser has buffered. -/
def bufferedBytes (x : Shim) : String8 := x.buffer.getD []

def bufferLength (x : Shim) : Int := x.bufferedBytes.length

def setError (x : Shim) (code : Error) : Shim := { x with errorCode := code }

def clearStopState (x : Shim) : Shim := { x with stopRequested := false, stopResumable := false }

/-- The parser right before the engine is called. -/
def beginParse (x : Shim) : Shim :=
  { x.clearStopState with errorCode := .none, parsing := .parsing }

/-! ## The input buffer -/

def maximumCapacity : Int := 2147483647 / 2 + 1

/-- Double `capacity` until it suffices; an `int` allows 31 rounds. -/
def grownCapacity : Nat → Int → Int → Int
  | 0, capacity, _ => capacity
  | rounds + 1, capacity, required =>
    if capacity < required then grownCapacity rounds (capacity * 2) required else capacity

/-- The capacity for `required` bytes; the first buffer has room for 1024. -/
def capacityFor (x : Shim) (required : Int) : Int :=
  grownCapacity 31 (if 0 < x.bufferCapacity then x.bufferCapacity else 1024) required

/-- `xp_input_buffer`: room for `len` bytes, and `commit` in it when it is given.  `allocates` is what
the allocator answers to a request. -/
def inputBuffer (x : Shim) (allocates : Int → Bool) (len : Int) (commit : Option String8) :
    Bool × Shim :=
  if len < 0 ∨ maximumCapacity - x.bufferLength < len then
    (false, x.setError .noMemory)
  else
    let required := x.bufferLength + len
    let capacity := x.capacityFor required
    let grows : Bool := x.buffer.isNone || x.bufferCapacity < required
    if grows && !allocates capacity then
      (false, x.setError .noMemory)
    else
      (true,
        { x with
          buffer := some (x.bufferedBytes ++ commit.getD [])
          bufferCapacity := if grows then capacity else x.bufferCapacity })

/-- How many bytes stay buffered: the pending ones, and at most 1024 consumed ones. -/
def keptLength (x : Shim) (pendingBytes : Int) : Int :=
  let consumed := x.bufferLength - pendingBytes
  (if consumed < 1024 then consumed else 1024) + pendingBytes

/-- `xp_consume_input_prefix`. -/
def consumeInputPrefix (x : Shim) (pendingBytes : Int) : Shim :=
  if x.buffer.isNone ∨ pendingBytes < 0 ∨ x.bufferLength < pendingBytes then
    x
  else if x.keptLength pendingBytes < x.bufferLength then
    { x with buffer := x.buffer.map fun bytes ↦
      bytes.drop (x.bufferLength - x.keptLength pendingBytes).toNat }
  else
    x

end Shim

/-! ## Replies -/

/-- What a call returns. -/
inductive Reply where
  | status (s : Status)
  | pointer (isNull : Bool)
  deriving DecidableEq, Repr

/-- What a call has done: it is refused by a guard, it enters the parse function of the engine, or it
is accepted without that. -/
inductive Effect where
  | refused | entered | accepted
  deriving DecidableEq, Repr

/-- The end of a call. -/
structure Outcome (σ : Type) where
  reply : Reply
  effect : Effect
  parser : σ

/-- A refused call reports an error. -/
def Reply.isError : Reply → Bool
  | .status s => s == .error
  | .pointer isNull => isNull

def Outcome.map {σ τ : Type} (f : σ → τ) (o : Outcome σ) : Outcome τ :=
  ⟨o.reply, o.effect, f o.parser⟩

namespace Shim

def refuse (x : Shim) (code : Error) : Outcome Shim :=
  ⟨.status .error, .refused, x.setError code⟩

/-- `XML_StopParser`. -/
def stopParser (x : Shim) (resumable : Bool) : Outcome Shim :=
  if x.parsing = .initialized then
    x.refuse .notStarted
  else if x.parsing = .finished then
    x.refuse .finished
  else if x.parsing = .suspended then
    if resumable then
      x.refuse .suspended
    else
      ⟨.status .ok, .accepted,
        { x with
          stopRequested := true
          stopResumable := false
          parsing := .finished
          errorCode := .aborted }⟩
  else if x.stopRequested ∧ !x.stopResumable then
    x.refuse .finished
  else if x.stopRequested ∧ x.stopResumable ∧ resumable then
    x.refuse .suspended
  else if resumable ∧ x.externalEntityIsParameter then
    x.refuse .suspendPe
  else
    ⟨.status .ok, .accepted,
      { x with
        stopRequested := true
        stopResumable := resumable
        parsing := if resumable then .suspended else .finished
        errorCode := if resumable then .none else .aborted }⟩

end Shim

/-! ## The engine -/

/-- What happens to the C parser while the engine parses. -/
inductive Callback where
  /-- A callback of the application calls `XML_StopParser`. -/
  | stopParser (resumable : Bool)
  | consumeInputPrefix (pendingBytes : Int)

def callbackMachine : Program.Machine Callback Shim Shim where
  see x := x
  step
    | .stopParser resumable, x => (x.stopParser resumable).parser
    | .consumeInputPrefix pendingBytes, x => x.consumeInputPrefix pendingBytes

/-- `XPACT_EiffelBridge`, as far as parse calls use it.  A feature that is absent is `none`. -/
structure Bridge (ε : Type) where
  parse : Option (ε → String8 → Bool → Program Callback Shim (Status × ε))
  getErrorCode : Option (ε → Error)
  getAccountingDirectCount : Option (ε → Nat)
  getAccountingIndirectCount : Option (ε → Nat)
  /-- Merge into the parser of a parent what a child has read. -/
  mergeAccounting : Option (ε → ε → Bool × ε)
  mergeExternalEntityContext : Option (ε → ε → Bool × ε)

/-- The parent of a parser for an external entity. -/
structure Parent (ε : Type) where
  eiffelParser : Option ε
  externalChildParseCount : Nat := 0
  lastExternalChildDirectCount : Nat := 0
  lastExternalChildIndirectCount : Nat := 0

/-- `XML_Parser`. -/
structure XmlParser (ε : Type) where
  shim : Shim
  bridge : Option (Bridge ε)
  eiffelParser : Option ε
  parent : Option (Parent ε)

namespace XmlParser

variable {ε : Type}

/-- A parser as `XML_ParserCreate` or `XML_ExternalEntityParserCreate` leaves it. -/
def create (bridge : Option (Bridge ε)) (eiffelParser : Option ε) (parent : Option (Parent ε))
    (externalEntityIsParameter : Bool) : XmlParser ε where
  shim :=
    { errorCode := if bridge.isSome then .none else .notStarted
      externalEntityIsParameter }
  bridge := bridge
  eiffelParser := eiffelParser
  parent := parent

/-- The parse function and the parser that it is called on. -/
def engine (x : XmlParser ε) :
    Option ((ε → String8 → Bool → Program Callback Shim (Status × ε)) × ε) :=
  match x.bridge.bind (·.parse), x.eiffelParser with
  | some parse, some e => some (parse, e)
  | _, _ => none

/-- The error that the engine reports. -/
def engineError (x : XmlParser ε) : Error :=
  match x.bridge.bind (·.getErrorCode), x.eiffelParser with
  | some getErrorCode, some e => getErrorCode e
  | _, _ => .none

/-- `xp_parse_error`. -/
def parseError (x : XmlParser ε) : Error :=
  let error := if x.engineError = .none then x.shim.errorCode else x.engineError
  if error ≠ .none then error else .unexpectedState

/-- Merge with one feature of the bridge; without it nothing is merged. -/
def mergeInto (x : XmlParser ε) (merge : Bridge ε → Option (ε → ε → Bool × ε))
    (parent : Parent ε) : Bool × Parent ε :=
  match x.bridge.bind merge, x.eiffelParser, parent.eiffelParser with
  | some merge, some child, some e =>
    let (merged, e) := merge e child
    (merged, { parent with eiffelParser := some e })
  | _, _, _ => (true, parent)

/-- What the engine counts for this parser: direct and indirect bytes. -/
def accountingCounts (x : XmlParser ε) : Nat × Nat :=
  match x.bridge.bind (·.getAccountingDirectCount), x.bridge.bind (·.getAccountingIndirectCount),
      x.eiffelParser with
  | some direct, some indirect, some e => (direct e, indirect e)
  | _, _, _ => (0, 0)

/-- Merge the accounting of a child, and the declarations when its entity is a parameter entity. -/
def mergeChild (x : XmlParser ε) (parent : Parent ε) : Bool × Parent ε :=
  let (merged, parent) := x.mergeInto (·.mergeAccounting) parent
  if merged && x.shim.externalEntityIsParameter then
    x.mergeInto (·.mergeExternalEntityContext) parent
  else
    (merged, parent)

/-- `xp_finish_external_child_parse`. -/
def finishExternalChildParse (x : XmlParser ε) (status : Status) (len : Int) (isFinal : Bool) :
    Status × XmlParser ε :=
  match x.parent with
  | none => (status, x)
  | some parent =>
    if status = .ok ∧ isFinal ∧ 0 < len then
      match x.mergeChild parent with
      | (false, parent) =>
        (.error, { x with
          shim := x.shim.setError .externalEntityHandling
          parent := some parent })
      | (true, parent) =>
        (status, { x with
          parent := some { parent with
            externalChildParseCount := parent.externalChildParseCount + 1
            lastExternalChildDirectCount := x.accountingCounts.1
            lastExternalChildIndirectCount := x.accountingCounts.2 } })
    else
      (status, x)

/-- The status after the engine has returned. -/
def noteStatus (x : XmlParser ε) (status : Status) (isFinal : Bool) : XmlParser ε :=
  match status with
  | .suspended => { x with shim := { x.shim with errorCode := .none, parsing := .suspended } }
  | .error =>
    let error := x.parseError
    { x with shim := { x.shim with parseErrorCode := error, errorCode := error } }
  | .ok =>
    { x with shim :=
      { x.shim with errorCode := .none, parsing := if isFinal then .finished else .parsing } }

/-- Call the parse function of the engine with `len` bytes. -/
def enter (x : XmlParser ε) (parse : ε → String8 → Bool → Program Callback Shim (Status × ε)) (e : ε)
    (input : String8) (len : Int) (isFinal : Bool) : Option (Status × XmlParser ε) :=
  (parse e input isFinal).run callbackMachine x.shim.beginParse |>.map fun ((status, e), shim) ↦
    let (status, y) :=
      { x with shim, eiffelParser := some e }.finishExternalChildParse status len isFinal
    (status, y.noteStatus status isFinal)

/-! ## Exported functions -/

def refuse (x : XmlParser ε) (code : Error) : Outcome (XmlParser ε) :=
  ⟨.status .error, .refused, { x with shim := x.shim.setError code }⟩

/-- `XML_Parse`; `s` is the memory at the pointer. -/
def parse (x : XmlParser ε) (allocates : Int → Bool) (s : Option String8) (len : Int)
    (isFinal : Bool) : Option (Outcome (XmlParser ε)) :=
  if len < 0 ∨ (s.isNone ∧ 0 < len) then
    some (x.refuse .invalidArgument)
  else if x.shim.parsing = .suspended then
    some (x.refuse .suspended)
  else if x.shim.parsing = .finished then
    some (x.refuse .finished)
  else if x.shim.parseErrorCode ≠ .none then
    some (x.refuse x.shim.parseErrorCode)
  else
    match x.engine with
    | none =>
      some ⟨.status .error, .refused,
        { x with shim :=
          { x.shim with errorCode := .notStarted, parsing := .finished, finalBuffer := isFinal } }⟩
    | some (parse, e) =>
      let input := (s.getD []).take len.toNat
      match x.shim.inputBuffer allocates len (some input) with
      | (false, shim) => some ⟨.status .error, .refused, { x with shim }⟩
      | (true, shim) => do
        let (status, y) ← { x with shim }.enter parse e input len isFinal
        return ⟨.status status, .entered, { y with shim := { y.shim with finalBuffer := isFinal } }⟩

/-- `XML_GetBuffer`. -/
def getBuffer (x : XmlParser ε) (allocates : Int → Bool) (len : Int) : Outcome (XmlParser ε) :=
  let refuse (shim : Shim) : Outcome (XmlParser ε) := ⟨.pointer true, .refused, { x with shim }⟩
  if len < 0 then
    refuse (x.shim.setError .noMemory)
  else if x.shim.parsing = .suspended ∨ x.shim.parsing = .finished then
    refuse (x.shim.setError (if x.shim.parsing = .suspended then .suspended else .finished))
  else
    match x.shim.inputBuffer allocates len none with
    | (false, shim) => refuse shim
    | (true, shim) => ⟨.pointer false, .accepted, { x with shim }⟩

/-- `XML_ParseBuffer`; `written` is what the application has written behind the buffered bytes. -/
def parseBuffer (x : XmlParser ε) (allocates : Int → Bool) (written : String8) (len : Int)
    (isFinal : Bool) : Option (Outcome (XmlParser ε)) :=
  if len < 0 then
    some (x.refuse .invalidArgument)
  else if x.shim.parsing = .suspended then
    some (x.refuse .suspended)
  else if x.shim.parsing = .finished then
    some (x.refuse .finished)
  else if x.shim.buffer.isNone then
    -- A call without bytes can finish what `XML_Parse` has read.
    if len = 0 ∧ x.shim.parsing = .parsing then
      x.parse allocates (some []) 0 isFinal
    else
      some (x.refuse .noBuffer)
  else if x.shim.bufferCapacity - x.shim.bufferLength < len then
    some (x.refuse .invalidArgument)
  else
    x.parse allocates (some written) len isFinal

/-- `XML_StopParser`. -/
def stopParser (x : XmlParser ε) (resumable : Bool) : Outcome (XmlParser ε) :=
  (x.shim.stopParser resumable).map fun shim ↦ { x with shim }

/-- `XML_ResumeParser`. -/
def resumeParser (x : XmlParser ε) : Option (Outcome (XmlParser ε)) :=
  if x.shim.parsing ≠ .suspended then
    some (x.refuse .notSuspended)
  else
    match x.engine with
    | none =>
      some ⟨.status .error, .refused,
        { x with shim := { x.shim with parsing := .finished, errorCode := .notStarted } }⟩
    | some (parse, e) => do
      let (status, y) ← x.enter parse e [] 0 x.shim.finalBuffer
      return ⟨.status status, .entered, y⟩

end XmlParser

end Xpact.Native
