import Mathlib.Algebra.Ring.Int.Defs
import Mathlib.Algebra.Ring.Nat
import Xpact.Library.CMemory
import Xpact.Native.Shim

/-!
# The input buffer in memory

The C layer keeps the bytes of the application in a block that it replaces when more room is
needed.  The bytes of a call may come from that block, and the application may write behind the
buffered bytes.
-/

namespace Xpact.Native

open Library

/-! ## The parser -/

/-- The status fields of `struct XML_ParserStruct` that calls with input look at and set. -/
structure ParseStatus where
  errorCode : Error := .none
  parseErrorCode : Error := .none
  parsing : Parsing := .initialized
  finalBuffer : Bool := false
  stopRequested : Bool := false
  stopResumable : Bool := false
  /-- Are the bridge, its parse function and the Eiffel parser there? -/
  hasEngine : Bool := true
  deriving DecidableEq

/-- The part of `struct XML_ParserStruct` that describes the input. -/
structure InputParser where
  /-- The block of the buffer, or a null pointer. -/
  buffer : Option Nat := none
  bufferCapacity : Int := 0
  bufferLength : Int := 0
  status : ParseStatus := {}
  deriving DecidableEq

namespace InputParser

def setError (x : InputParser) (code : Error) : InputParser :=
  { x with status := { x.status with errorCode := code } }

/-- The parser right before the engine is called. -/
def beginParse (x : InputParser) : InputParser :=
  { x with status :=
    { x.status with
      errorCode := .none, stopRequested := false, stopResumable := false, parsing := .parsing } }

end InputParser

/-! ## `xp_input_buffer` -/

/-- `while (capacity < required) capacity *= 2`, which has to end within `rounds`. -/
def grownCapacity : Nat → Int → Int → Option Int
  | 0, _, _ => none
  | rounds + 1, capacity, required =>
    if capacity < required then do
      grownCapacity rounds (← int (capacity * 2)) required
    else
      some capacity

/-- The old contents are copied to a new block. -/
def copyStored (m : Memory) (x : InputParser) (resized : Nat) : Option Memory :=
  if 0 < x.bufferLength then do
    m.memcpy ⟨resized, 0⟩ ⟨← x.buffer, 0⟩ x.bufferLength
  else
    some m

/-- The bytes at `input` are stored behind the buffered ones in `block`. -/
def commitInput (m : Memory) (x : InputParser) (block : Nat) (len : Int) (input : Option Pointer)
    (commit : Bool) : Option Memory :=
  if commit = true ∧ 0 < len then do
    m.memmove ⟨block, x.bufferLength⟩ (← input) len
  else
    some m

/-- `xp_input_buffer`: the address of room for `len` bytes, or a null pointer; with `commit` the
bytes at `input` are stored there. -/
def inputBuffer (A : Allocator) (m : Memory) (x : InputParser) (len : Int) (input : Option Pointer)
    (commit : Bool) : Option (Option Pointer × Memory × InputParser) := do
  let room ← int (Shim.maximumCapacity - x.bufferLength)
  if len < 0 ∨ room < len then
    some (none, m, x.setError .noMemory)
  else do
    let required ← int (x.bufferLength + len)
    let length := if commit then required else x.bufferLength
    if x.buffer = none ∨ x.bufferCapacity < required then do
      let capacity ←
        grownCapacity 32 (if 0 < x.bufferCapacity then x.bufferCapacity else 1024) required
      match m.malloc A capacity with
      | (none, m) => some (none, m, x.setError .noMemory)
      | (some resized, m) => do
        let m ← copyStored m x resized
        let m ← commitInput m x resized len input commit
        let m ← m.free x.buffer
        some (some ⟨resized, x.bufferLength⟩, m,
          { x with buffer := some resized, bufferCapacity := capacity, bufferLength := length })
    else do
      let buffer ← x.buffer
      let m ← commitInput m x buffer len input commit
      some (some ⟨buffer, x.bufferLength⟩, m, { x with bufferLength := length })

/-- `xp_consume_input_prefix`. -/
def consumeInputPrefix (m : Memory) (x : InputParser) (pendingBytes : Int) :
    Option (Memory × InputParser) :=
  match x.buffer with
  | none => some (m, x)
  | some buffer =>
    if pendingBytes < 0 ∨ x.bufferLength < pendingBytes then
      some (m, x)
    else do
      let consumed ← int (x.bufferLength - pendingBytes)
      let keep ← int ((if consumed < 1024 then consumed else 1024) + pendingBytes)
      if keep < x.bufferLength then do
        let m ← m.memmove ⟨buffer, 0⟩ ⟨buffer, x.bufferLength - keep⟩ keep
        some (m, { x with bufferLength := keep })
      else
        some (m, x)

/-! ## The exported functions, up to the call of the engine -/

/-- How a call ends, with the memory and the parser that it leaves. -/
abbrev InputOutcome := Effect × Memory × InputParser

/-- `XML_Parse`. -/
def parse (A : Allocator) (m : Memory) (x : InputParser) (s : Option Pointer) (len : Int)
    (isFinal : Bool) : Option InputOutcome :=
  if len < 0 ∨ (s = none ∧ 0 < len) then
    some (.refused, m, x.setError .invalidArgument)
  else if x.status.parsing = .suspended then
    some (.refused, m, x.setError .suspended)
  else if x.status.parsing = .finished then
    some (.refused, m, x.setError .finished)
  else if x.status.parseErrorCode ≠ .none then
    some (.refused, m, x.setError x.status.parseErrorCode)
  else if !x.status.hasEngine then
    some (.refused, m, { x with status :=
      { x.status with errorCode := .notStarted, parsing := .finished, finalBuffer := isFinal } })
  else do
    match ← inputBuffer A m x len s true with
    | (none, m, x) => some (.refused, m, x)
    | (some _, m, x) => some (.entered, m, x.beginParse)

/-- `XML_GetBuffer`. -/
def getBuffer (A : Allocator) (m : Memory) (x : InputParser) (len : Int) : Option InputOutcome :=
  if len < 0 then
    some (.refused, m, x.setError .noMemory)
  else if x.status.parsing = .suspended ∨ x.status.parsing = .finished then
    some (.refused, m,
      x.setError (if x.status.parsing = .suspended then .suspended else .finished))
  else do
    match ← inputBuffer A m x len none false with
    | (none, m, x) => some (.refused, m, x)
    | (some _, m, x) => some (.accepted, m, x)

/-- `XML_ParseBuffer`; `emptyInput` is the empty string of the function. -/
def parseBuffer (A : Allocator) (m : Memory) (x : InputParser) (emptyInput : Pointer) (len : Int)
    (isFinal : Bool) : Option InputOutcome :=
  if len < 0 then
    some (.refused, m, x.setError .invalidArgument)
  else if x.status.parsing = .suspended then
    some (.refused, m, x.setError .suspended)
  else if x.status.parsing = .finished then
    some (.refused, m, x.setError .finished)
  else
    match x.buffer with
    | none =>
      if len = 0 ∧ x.status.parsing = .parsing then
        parse A m x (some emptyInput) 0 isFinal
      else
        some (.refused, m, x.setError .noBuffer)
    | some buffer => do
      if (← int (x.bufferCapacity - x.bufferLength)) < len then
        some (.refused, m, x.setError .invalidArgument)
      else
        parse A m x (some ⟨buffer, x.bufferLength⟩) len isFinal

/-! ## Runs -/

/-- The memory, a parser in it, and the concatenation of all bytes that calls have committed. -/
structure InputState where
  memory : Memory
  parser : InputParser
  committed : String8 := []

/-- What happens to the parser and to the memory. -/
inductive InputEvent where
  | parse (s : Option Pointer) (len : Int) (isFinal : Bool)
  | getBuffer (len : Int)
  | parseBuffer (emptyInput : Pointer) (len : Int) (isFinal : Bool)
  /-- The engine has consumed input. -/
  | consumeInputPrefix (pendingBytes : Int)
  /-- The engine, or a call without input, has set the status. -/
  | setStatus (status : ParseStatus)
  /-- The application stores bytes. -/
  | write (p : Pointer) (data : String8)
  /-- The application allocates or frees memory of its own. -/
  | malloc (size : Int)
  | free (block : Option Nat)

/-- The number of bytes that a call is said to pass. -/
def InputEvent.byteCount : InputEvent → Int
  | .parse _ len _ | .parseBuffer _ len _ => len
  | _ => 0

namespace InputState

/-- The bytes at an address before a call. -/
def bytesAt (st : InputState) (s : Option Pointer) (len : Int) : String8 :=
  match s with
  | none => []
  | some p => (st.memory.load p len).getD []

/-- A call has ended; the bytes of one that has entered the engine are committed. -/
def after (st : InputState) (data : String8) : InputOutcome → Effect × InputState
  | (.entered, m, x) => (.entered, ⟨m, x, st.committed ++ data⟩)
  | (effect, m, x) => (effect, ⟨m, x, st.committed⟩)

/-- One event; `none` is a step that C does not define. -/
def step (A : Allocator) (st : InputState) : InputEvent → Option (Effect × InputState)
  | .parse s len isFinal =>
    (Native.parse A st.memory st.parser s len isFinal).map (st.after (st.bytesAt s len))
  | .getBuffer len => (Native.getBuffer A st.memory st.parser len).map (st.after [])
  | .parseBuffer emptyInput len isFinal =>
    (Native.parseBuffer A st.memory st.parser emptyInput len isFinal).map (st.after
      (st.bytesAt (st.parser.buffer.map fun b ↦ ⟨b, st.parser.bufferLength⟩) len))
  | .consumeInputPrefix pendingBytes => do
    let (m, x) ← Native.consumeInputPrefix st.memory st.parser pendingBytes
    some (.accepted, { st with memory := m, parser := x })
  | .setStatus status => some (.accepted, { st with parser := { st.parser with status } })
  | .write p data => do
    some (.accepted, { st with memory := ← st.memory.store p data })
  | .malloc size => some (.accepted, { st with memory := (st.memory.malloc A size).2 })
  | .free block => do
    some (.accepted, { st with memory := ← st.memory.free block })

/-- What the application promises: the bytes it passes can be read, in the buffer it writes behind
what is buffered only, and it does not free the buffer. -/
def allows (st : InputState) : InputEvent → Bool
  | .parse (some p) len _ => len ≤ 0 || (st.memory.load p len).isSome
  | .write p data => (st.memory.store p data).isSome &&
      (st.parser.buffer ≠ some p.block || st.parser.bufferLength ≤ p.offset)
  | .free (some b) => (st.memory.block b).isSome && st.parser.buffer ≠ some b
  | _ => true

def run (A : Allocator) (st : InputState) : List InputEvent → Option InputState
  | [] => some st
  | event :: events => do
    let (_, next) ← st.step A event
    next.run A events

def allowsAll (A : Allocator) (st : InputState) : List InputEvent → Bool
  | [] => true
  | event :: events =>
    st.allows event && (st.step A event).all fun (_, next) ↦ next.allowsAll A events

/-- The bytes that a call passes to the engine. -/
def passedBytes (st : InputState) : InputEvent → String8
  | .parse s len _ => st.bytesAt s len
  | .parseBuffer _ len _ =>
    st.bytesAt (st.parser.buffer.map fun b ↦ ⟨b, st.parser.bufferLength⟩) len
  | _ => []

/-- The first `bufferLength` bytes of the buffer. -/
def bufferedBytes (st : InputState) : Option String8 :=
  match st.parser.buffer with
  | none => some []
  | some b => st.memory.load ⟨b, 0⟩ st.parser.bufferLength

end InputState

/-! ## What the buffer holds -/

/-- The buffer begins with `stored`, in a block whose size is a power of two. -/
structure Stored (m : Memory) (x : InputParser) (stored : String8) : Prop where
  length : x.bufferLength = stored.length
  block : x.buffer = none ∧ x.bufferCapacity = 0 ∧ stored = [] ∨
    ∃ b bytes k, x.buffer = some b ∧ m.block b = some bytes ∧
      (bytes.length : Int) = x.bufferCapacity ∧ bytes.length = 2 ^ (k + 10) ∧ k ≤ 20 ∧
      stored.length ≤ bytes.length ∧ bytes.take stored.length = stored

section

variable {A : Allocator} {m : Memory} {x : InputParser} {stored data : String8}

theorem pow_le_maximumCapacity {k : Nat} (hk : k ≤ 20) : 2 ^ (k + 10) ≤ 1073741824 :=
  Nat.pow_le_pow_right (by omega) (show k + 10 ≤ 30 by omega)

theorem Stored.bounds (h : Stored m x stored) :
    0 ≤ x.bufferLength ∧ x.bufferLength ≤ x.bufferCapacity ∧ x.bufferCapacity ≤ 1073741824 := by
  have hlength := h.length
  rcases h.block with ⟨-, hcapacity, rfl⟩ | ⟨b, bytes, k, -, -, hcapacity, hpower, hk, hle, -⟩
  · rw [List.length_nil] at hlength
    omega
  · have hmaximum := pow_le_maximumCapacity hk
    omega

theorem Stored.lt_next {b : Nat} (h : Stored m x stored) (hb : x.buffer = some b) : b < m.next := by
  rcases h.block with ⟨hbuffer, -⟩ | ⟨c, bytes, k, hbuffer, hblock, -⟩
  · cases hbuffer.symm.trans hb
  · cases hbuffer.symm.trans hb
    exact Memory.lt_next hblock

/-- The status is not looked at. -/
theorem Stored.congr {y : InputParser} (h : Stored m x stored) (hbuffer : y.buffer = x.buffer)
    (hcapacity : y.bufferCapacity = x.bufferCapacity) (hlength : y.bufferLength = x.bufferLength) :
    Stored m y stored := by
  refine ⟨hlength.trans h.length, ?_⟩
  rw [hbuffer, hcapacity]
  exact h.block

/-- What is stored in a block and what follows it there. -/
theorem Stored.of_block {b k : Nat} {bytes : String8} (hbuffer : x.buffer = some b)
    (hblock : m.block b = some bytes) (hcapacity : (bytes.length : Int) = x.bufferCapacity)
    (hpower : bytes.length = 2 ^ (k + 10)) (hk : k ≤ 20)
    (hlength : x.bufferLength = stored.length + data.length)
    (hle : stored.length + data.length ≤ bytes.length)
    (htake : bytes.take (stored.length + data.length) = stored ++ data) :
    Stored m x (stored ++ data) := by
  rw [← List.length_append] at hle htake
  refine ⟨?_, .inr ⟨b, bytes, k, hbuffer, hblock, hcapacity, hpower, hk, hle, htake⟩⟩
  rw [hlength, List.length_append, Int.natCast_add]

/-- What a call of `xp_input_buffer` is given to store is `data`. -/
structure Given (m : Memory) (len : Int) (input : Option Pointer) (commit : Bool)
    (data : String8) : Prop where
  load : commit = true → 0 < len → ∃ p, input = some p ∧ m.load p len = some data
  nothing : ¬ (commit = true ∧ 0 < len) → data = []

/-- What is stored stands in blocks that are there. -/
theorem Given.congr {m' : Memory} {len : Int} {input : Option Pointer} {commit : Bool}
    (h : Given m len input commit data) (hsame : ∀ c, c < m.next → m'.block c = m.block c) :
    Given m' len input commit data := by
  refine ⟨fun hcommit hlen ↦ ?_, h.nothing⟩
  obtain ⟨p, hinput, hload⟩ := h.load hcommit hlen
  obtain ⟨bytes, hblock, -⟩ := Memory.exists_of_load hload
  exact ⟨p, hinput, (Memory.load_congr (hsame _ (Memory.lt_next hblock)) len).trans hload⟩

/-! ## Growing -/

/-- Doubling a power of two ends before an `int` overflows. -/
theorem grownCapacity_spec {rounds k : Nat} {required : Int} (hk : k ≤ 20)
    (hrounds : 20 < rounds + k) (hrequired : required ≤ 1073741824) :
    ∃ j, grownCapacity rounds ((2 ^ (k + 10) : Nat) : Int) required =
        some ((2 ^ (j + 10) : Nat) : Int) ∧
      required ≤ ((2 ^ (j + 10) : Nat) : Int) ∧ j ≤ 20 := by
  induction rounds generalizing k with
  | zero => omega
  | succ rounds ih =>
    have hmaximum := pow_le_maximumCapacity hk
    unfold grownCapacity
    by_cases hgrows : ((2 ^ (k + 10) : Nat) : Int) < required
    swap
    · rw [if_neg hgrows]
      exact ⟨k, rfl, by omega, hk⟩
    have hsmall : k < 20 := by
      have hlt : 2 ^ (k + 10) < 2 ^ 30 := by
        have hthirty : 2 ^ 30 = 1073741824 := by decide
        omega
      have := (Nat.pow_lt_pow_iff_right (show 1 < 2 by omega)).1 hlt
      omega
    have hdouble : ((2 ^ (k + 10) : Nat) : Int) * 2 = ((2 ^ (k + 1 + 10) : Nat) : Int) := by
      rw [show k + 1 + 10 = k + 10 + 1 by omega, Nat.pow_succ, Int.natCast_mul]
      rfl
    have hpositive : (0 : Int) ≤ ((2 ^ (k + 10) : Nat) : Int) := Int.natCast_nonneg _
    rw [if_pos hgrows, bind_of_eq_some (int_eq (by omega) (by omega)), hdouble]
    exact ih hsmall (by omega)

/-- The first buffer has room for 1024 bytes. -/
theorem Stored.exists_grownCapacity {required : Int} (h : Stored m x stored)
    (hrequired : required ≤ 1073741824) :
    ∃ j, grownCapacity 32 (if 0 < x.bufferCapacity then x.bufferCapacity else 1024) required =
        some ((2 ^ (j + 10) : Nat) : Int) ∧
      required ≤ ((2 ^ (j + 10) : Nat) : Int) ∧ j ≤ 20 := by
  rcases h.block with ⟨-, hcapacity, -⟩ | ⟨b, bytes, k, -, -, hcapacity, hpower, hk, -, -⟩
  · rw [hcapacity, if_neg (by omega)]
    exact grownCapacity_spec (k := 0) (by omega) (by omega) hrequired
  · have hpositive : 0 < 2 ^ (k + 10) := Nat.two_pow_pos _
    rw [if_pos (by omega), ← hcapacity, hpower]
    exact grownCapacity_spec hk (by omega) hrequired

/-- The new block begins with what was stored. -/
theorem copyStored_spec {m old : Memory} {resized : Nat} {fresh : String8}
    (h : Stored old x stored) (hold : old.next = resized)
    (hsame : ∀ c, c < resized → m.block c = old.block c) (hblock : m.block resized = some fresh)
    (hfits : stored.length ≤ fresh.length) :
    ∃ m' bytes, copyStored m x resized = some m' ∧ m'.block resized = some bytes ∧
      bytes.length = fresh.length ∧ bytes.take stored.length = stored ∧
      ∀ c, c < resized → m'.block c = old.block c := by
  have hlength := h.length
  unfold copyStored
  by_cases hempty : 0 < x.bufferLength
  swap
  · have hnil : stored = [] := List.length_eq_zero_iff.1 (by omega)
    rw [if_neg hempty, hnil]
    exact ⟨m, fresh, rfl, hblock, rfl, rfl, hsame⟩
  rcases h.block with ⟨-, -, rfl⟩ | ⟨b, bytes, k, hbuffer, hbytes, -, -, -, hle, htake⟩
  · rw [List.length_nil] at hlength
    omega
  have hb : b < resized := hold ▸ Memory.lt_next hbytes
  have hload : m.load ⟨b, 0⟩ x.bufferLength = some stored := by
    rw [Memory.load_eq ((hsame b hb).trans hbytes) (Int.le_refl 0) (by omega) (by omega), hlength,
      Int.toNat_zero, List.drop_zero, Int.toNat_natCast, htake]
  obtain ⟨m', bytes', hstore, hblock', hlength', htake', hother⟩ :=
    Memory.exists_store_first hblock hfits
  rw [if_pos hempty, bind_of_eq_some hbuffer]
  unfold Memory.memcpy Memory.memmove
  rw [if_neg (fun hoverlap ↦ absurd hoverlap.1 (show resized ≠ b by omega)), bind_of_eq_some hload]
  refine ⟨m', bytes', hstore, hblock', hlength', ?_, fun c hc ↦ ?_⟩
  · exact htake'
  · rw [hother c (by omega), hsame c hc]

/-- What a call with `commit` stores behind the buffered bytes; `data` is what stands at `input`. -/
theorem commitInput_spec {m : Memory} {block : Nat} {bytes : String8} {len : Int}
    {input : Option Pointer} {commit : Bool} (hlength : x.bufferLength = stored.length)
    (hblock : m.block block = some bytes) (htake : bytes.take stored.length = stored)
    (hfits : stored.length + data.length ≤ bytes.length)
    (hgiven : Given m len input commit data) :
    ∃ m' bytes', commitInput m x block len input commit = some m' ∧
      m'.block block = some bytes' ∧ bytes'.length = bytes.length ∧
      bytes'.take (stored.length + data.length) = stored ++ data ∧
      ∀ c, block ≠ c → m'.block c = m.block c := by
  unfold commitInput
  by_cases hstores : commit = true ∧ 0 < len
  swap
  · rw [if_neg hstores, hgiven.nothing hstores, List.length_nil, List.append_nil]
    exact ⟨m, bytes, rfl, hblock, rfl, htake, fun c _ ↦ rfl⟩
  obtain ⟨p, rfl, hload⟩ := hgiven.load hstores.1 hstores.2
  rw [if_pos hstores, bind_of_eq_some rfl]
  unfold Memory.memmove
  rw [bind_of_eq_some hload, hlength]
  exact Memory.exists_store_behind hblock htake hfits

/-! ## `xp_input_buffer` -/

/-- The old block is freed, the new one stays. -/
theorem Stored.free_spec {m' : Memory} {resized : Nat} {bytes : String8} (h : Stored m x stored)
    (hsame : ∀ c, c < m.next → m'.block c = m.block c) (hblock : m'.block resized = some bytes)
    (hnew : m.next ≤ resized) :
    ∃ m'', m'.free x.buffer = some m'' ∧ m''.block resized = some bytes := by
  rcases h.block with ⟨hbuffer, -⟩ | ⟨b, old, k, hbuffer, hold, -⟩
  · rw [hbuffer]
    exact ⟨m', rfl, hblock⟩
  · have hb := Memory.lt_next hold
    rw [hbuffer, Memory.free_eq ((hsame b hb).trans hold)]
    refine ⟨_, rfl, ?_⟩
    rw [Memory.block_put_of_ne (by omega), hblock]

/-- The length after a call is that of what is stored then. -/
theorem Given.length {len : Int} {input : Option Pointer} {commit : Bool}
    (hgiven : Given m len input commit data) (hlen : 0 ≤ len) :
    (if commit = true then x.bufferLength + len else x.bufferLength) =
      x.bufferLength + data.length ∧ (data.length : Int) ≤ len := by
  by_cases hstores : commit = true ∧ 0 < len
  · obtain ⟨p, -, hload⟩ := hgiven.load hstores.1 hstores.2
    have hdata := (Memory.length_load hload).2
    rw [if_pos hstores.1]
    omega
  · rw [hgiven.nothing hstores, List.length_nil]
    cases commit with
    | false => exact ⟨(Int.add_zero _).symm, by omega⟩
    | true =>
      have : ¬ 0 < len := fun hpositive ↦ hstores ⟨rfl, hpositive⟩
      rw [if_pos rfl]
      omega

/-- There is room, or the call leaves everything but the error code. -/
theorem inputBuffer_spec {len : Int} {input : Option Pointer} {commit : Bool}
    (h : Stored m x stored) (hgiven : Given m len input commit data) :
    (inputBuffer A m x len input commit = some (none, m, x.setError .noMemory)) ∨
      ∃ p m' x', inputBuffer A m x len input commit = some (some p, m', x') ∧
        Stored m' x' (stored ++ data) ∧ x'.status = x.status := by
  have hbounds := h.bounds
  have hlength := h.length
  have hmaximum : Shim.maximumCapacity = 1073741824 := by decide
  unfold inputBuffer
  rw [bind_of_eq_some (int_eq (by omega) (by omega))]
  by_cases hrefused : len < 0 ∨ Shim.maximumCapacity - x.bufferLength < len
  · rw [if_pos hrefused]
    exact .inl rfl
  have hdata := hgiven.length (x := x) (by omega)
  rw [if_neg hrefused, bind_of_eq_some (int_eq (by omega) (by omega)), hdata.1]
  by_cases hgrows : x.buffer = none ∨ x.bufferCapacity < x.bufferLength + len
  · -- A new block replaces the old one.
    obtain ⟨j, hcapacity, hroom, hj⟩ :=
      h.exists_grownCapacity (show x.bufferLength + len ≤ 1073741824 by omega)
    rw [if_pos hgrows, bind_of_eq_some hcapacity]
    unfold Memory.malloc
    by_cases hallocates : A.allocates m.next ((2 ^ (j + 10) : Nat) : Int) = true
    swap
    · rw [if_neg hallocates]
      exact .inl rfl
    rw [if_pos hallocates]
    dsimp only
    obtain ⟨m₁, bytes₁, hcopied, hblock₁, hlength₁, htake₁, hsame₁⟩ :=
      copyStored_spec h rfl (fun c hc ↦ Memory.block_allocate (A := A) hc _ [])
        (Memory.block_allocate_next (2 ^ (j + 10) : Nat) [])
        (by
          rw [List.length_append, List.length_map, List.length_range, List.length_nil]
          omega)
    rw [List.length_append, List.length_map, List.length_range, List.take_nil, List.length_nil,
      Int.toNat_natCast] at hlength₁
    have hgiven₁ : Given m₁ len input commit data := hgiven.congr hsame₁
    obtain ⟨m₂, bytes₂, hcommitted, hblock₂, hlength₂, htake₂, hother⟩ :=
      commitInput_spec hlength hblock₁ htake₁ (by omega) hgiven₁
    have hsame₂ (c : Nat) (hc : c < m.next) : m₂.block c = m.block c := by
      rw [hother c (by omega), hsame₁ c hc]
    obtain ⟨m₃, hfreed, hblock₃⟩ := h.free_spec hsame₂ hblock₂ (Nat.le_refl _)
    rw [bind_of_eq_some hcopied, bind_of_eq_some hcommitted, bind_of_eq_some hfreed]
    have hsize : bytes₂.length = 2 ^ (j + 10) := by omega
    exact .inr ⟨_, _, _, rfl,
      Stored.of_block rfl hblock₃ (by rw [hsize]) hsize hj (by rw [hlength]) (by omega) htake₂, rfl⟩
  · -- The bytes fit in the buffer.
    rw [if_neg hgrows]
    rcases h.block with
      ⟨hbuffer, -⟩ | ⟨b, bytes, k, hbuffer, hblock, hcapacity, hpower, hk, hle, htake⟩
    · exact absurd (.inl hbuffer) hgrows
    have hroom : ¬ x.bufferCapacity < x.bufferLength + len := fun hlt ↦ hgrows (.inr hlt)
    obtain ⟨m', bytes', hcommitted, hblock', hlength', htake', -⟩ :=
      commitInput_spec hlength hblock htake (by omega) hgiven
    rw [bind_of_eq_some hbuffer, bind_of_eq_some hcommitted]
    have hsize : bytes'.length = 2 ^ (k + 10) := by omega
    exact .inr ⟨_, _, _, rfl, Stored.of_block hbuffer hblock' (by rw [hlength', hcapacity]) hsize hk
      (by rw [hlength]) (by omega) htake', rfl⟩

/-! ## The calls -/

/-- A refused call keeps the buffer, one that enters the engine has committed `data`. -/
def Meets (m : Memory) (x : InputParser) (stored data : String8) : InputOutcome → Prop
  | (.refused, m', x') => m' = m ∧ x'.buffer = x.buffer ∧ x'.bufferCapacity = x.bufferCapacity ∧
      x'.bufferLength = x.bufferLength
  | (.entered, m', x') => Stored m' x' (stored ++ data)
  | (.accepted, m', x') => Stored m' x' stored

theorem parse_spec {s : Option Pointer} {len : Int} {isFinal : Bool} (h : Stored m x stored)
    (hgiven : ¬ (len < 0 ∨ (s = none ∧ 0 < len)) → Given m len s true data) :
    ∃ o, parse A m x s len isFinal = some o ∧ Meets m x stored data o := by
  have hrefused (y : InputParser) (hbuffer : y.buffer = x.buffer)
      (hcapacity : y.bufferCapacity = x.bufferCapacity)
      (hlength : y.bufferLength = x.bufferLength) :
      ∃ o, some (Effect.refused, m, y) = some o ∧ Meets m x stored data o :=
    ⟨_, rfl, rfl, hbuffer, hcapacity, hlength⟩
  unfold parse
  by_cases hargument : len < 0 ∨ (s = none ∧ 0 < len)
  · rw [if_pos hargument]
    exact hrefused _ rfl rfl rfl
  rw [if_neg hargument]
  by_cases hsuspended : x.status.parsing = .suspended
  · rw [if_pos hsuspended]
    exact hrefused _ rfl rfl rfl
  rw [if_neg hsuspended]
  by_cases hfinished : x.status.parsing = .finished
  · rw [if_pos hfinished]
    exact hrefused _ rfl rfl rfl
  rw [if_neg hfinished]
  by_cases hfailed : x.status.parseErrorCode ≠ .none
  · rw [if_pos hfailed]
    exact hrefused _ rfl rfl rfl
  rw [if_neg hfailed]
  by_cases hengine : (!x.status.hasEngine) = true
  · rw [if_pos hengine]
    exact hrefused _ rfl rfl rfl
  rw [if_neg hengine]
  rcases inputBuffer_spec (A := A) h (hgiven hargument) with
    hnone | ⟨p, m', x', hroom, hstored, -⟩
  · rw [bind_of_eq_some hnone]
    exact hrefused _ rfl rfl rfl
  · rw [bind_of_eq_some hroom]
    exact ⟨_, rfl, hstored.congr rfl rfl rfl⟩

theorem getBuffer_spec {len : Int} (h : Stored m x stored) :
    ∃ o, getBuffer A m x len = some o ∧ Meets m x stored [] o := by
  unfold getBuffer
  by_cases hlen : len < 0
  · rw [if_pos hlen]
    exact ⟨_, rfl, rfl, rfl, rfl, rfl⟩
  rw [if_neg hlen]
  by_cases hstatus : x.status.parsing = .suspended ∨ x.status.parsing = .finished
  · rw [if_pos hstatus]
    exact ⟨_, rfl, rfl, rfl, rfl, rfl⟩
  rw [if_neg hstatus]
  have hgiven : Given m len none false [] := ⟨fun hcommit ↦ (nomatch hcommit), fun _ ↦ rfl⟩
  rcases inputBuffer_spec (A := A) h hgiven with hnone | ⟨p, m', x', hroom, hstored, -⟩
  · rw [bind_of_eq_some hnone]
    exact ⟨_, rfl, rfl, rfl, rfl, rfl⟩
  · rw [bind_of_eq_some hroom]
    exact ⟨_, rfl, by rwa [List.append_nil] at hstored⟩

/-- The bytes that the application has written behind the buffered ones are there. -/
theorem parseBuffer_spec {emptyInput : Pointer} {len : Int} {isFinal : Bool} (h : Stored m x stored)
    (hdata : ∀ b, x.buffer = some b → 0 < len → ∀ found,
      m.load ⟨b, x.bufferLength⟩ len = some found → data = found)
    (hnothing : x.buffer = none ∨ len ≤ 0 → data = []) :
    ∃ o, parseBuffer A m x emptyInput len isFinal = some o ∧ Meets m x stored data o := by
  have hbounds := h.bounds
  unfold parseBuffer
  by_cases hlen : len < 0
  · rw [if_pos hlen]
    exact ⟨_, rfl, rfl, rfl, rfl, rfl⟩
  rw [if_neg hlen]
  by_cases hsuspended : x.status.parsing = .suspended
  · rw [if_pos hsuspended]
    exact ⟨_, rfl, rfl, rfl, rfl, rfl⟩
  rw [if_neg hsuspended]
  by_cases hfinished : x.status.parsing = .finished
  · rw [if_pos hfinished]
    exact ⟨_, rfl, rfl, rfl, rfl, rfl⟩
  rw [if_neg hfinished]
  rcases h.block with
    ⟨hbuffer, -⟩ | ⟨b, bytes, k, hbuffer, hblock, hcapacity, hpower, hk, hle, htake⟩
  · rw [hbuffer]
    dsimp only
    by_cases hfinal : len = 0 ∧ x.status.parsing = .parsing
    · rw [if_pos hfinal]
      exact parse_spec h fun _ ↦
        ⟨fun _ hpositive ↦ absurd hpositive (by omega), fun _ ↦ hnothing (.inl hbuffer)⟩
    · rw [if_neg hfinal]
      exact ⟨_, rfl, rfl, hbuffer ▸ rfl, rfl, rfl⟩
  · have hlength := h.length
    rw [hbuffer]
    dsimp only
    rw [bind_of_eq_some (int_eq (by omega) (by omega))]
    by_cases hroom : x.bufferCapacity - x.bufferLength < len
    · rw [if_pos hroom]
      exact ⟨_, rfl, rfl, hbuffer ▸ rfl, rfl, rfl⟩
    rw [if_neg hroom]
    refine parse_spec h fun _ ↦ ⟨fun _ hpositive ↦ ?_, fun hempty ↦ hnothing (.inr ?_)⟩
    · have hload := Memory.load_eq hblock hbounds.1 (show 0 ≤ len by omega) (by omega)
      exact ⟨_, rfl, hdata b hbuffer hpositive _ hload ▸ hload⟩
    · by_contra hpositive
      exact hempty ⟨rfl, by omega⟩

/-- The bytes that are kept are the last ones. -/
theorem consumeInputPrefix_spec (h : Stored m x stored) (pendingBytes : Int) :
    ∃ m' x' n, consumeInputPrefix m x pendingBytes = some (m', x') ∧
      Stored m' x' (stored.drop n) := by
  have hbounds := h.bounds
  have hlength := h.length
  unfold consumeInputPrefix
  rcases h.block with
    ⟨hbuffer, -⟩ | ⟨b, bytes, k, hbuffer, hblock, hcapacity, hpower, hk, hle, htake⟩
  · rw [hbuffer]
    exact ⟨m, x, 0, rfl, h⟩
  rw [hbuffer]
  dsimp only
  by_cases hpending : pendingBytes < 0 ∨ x.bufferLength < pendingBytes
  · rw [if_pos hpending]
    exact ⟨m, x, 0, rfl, h⟩
  rw [if_neg hpending, bind_of_eq_some (int_eq (by omega) (by omega)),
    bind_of_eq_some (int_eq (by omega) (by omega))]
  generalize hkeep : (if x.bufferLength - pendingBytes < 1024 then x.bufferLength - pendingBytes
    else 1024) + pendingBytes = keep
  have hnonneg : 0 ≤ keep := by omega
  by_cases hshift : keep < x.bufferLength
  swap
  · rw [if_neg hshift]
    exact ⟨m, x, 0, rfl, h⟩
  have hkept : (stored.drop (x.bufferLength - keep).toNat).length = keep.toNat := by
    rw [List.length_drop]
    omega
  have hload : m.load ⟨b, x.bufferLength - keep⟩ keep =
      some (stored.drop (x.bufferLength - keep).toNat) := by
    rw [Memory.load_eq hblock (by omega) hnonneg (by omega), ← htake, List.drop_take]
    congr 2
    omega
  obtain ⟨m', bytes', hstore, hblock', hlength', htake', -⟩ :=
    Memory.exists_store_first hblock
      (show (stored.drop (x.bufferLength - keep).toNat).length ≤ bytes.length by omega)
  have hmoved : m.memmove ⟨b, 0⟩ ⟨b, x.bufferLength - keep⟩ keep = some m' := by
    unfold Memory.memmove
    rw [bind_of_eq_some hload]
    exact hstore
  rw [if_pos hshift, bind_of_eq_some hmoved]
  refine ⟨_, _, (x.bufferLength - keep).toNat, rfl, ?_⟩
  have hsize : bytes'.length = 2 ^ (k + 10) := by omega
  refine ⟨?_, .inr ⟨b, bytes', k, rfl, hblock', by rw [hlength', hcapacity], hsize, hk, ?_, htake'⟩⟩
  · show keep = _
    omega
  · omega

/-- Another block may change. -/
theorem Stored.frame {m' : Memory} (h : Stored m x stored)
    (hsame : ∀ b, x.buffer = some b → m'.block b = m.block b) : Stored m' x stored := by
  refine ⟨h.length, ?_⟩
  rcases h.block with hnone | ⟨b, bytes, k, hbuffer, hblock, hrest⟩
  · exact .inl hnone
  · exact .inr ⟨b, bytes, k, hbuffer, (hsame b hbuffer).trans hblock, hrest⟩

/-- The application may write behind what is buffered. -/
theorem Stored.store {m' : Memory} {p : Pointer} (h : Stored m x stored)
    (hstore : m.store p data = some m')
    (hbehind : x.buffer = some p.block → x.bufferLength ≤ p.offset) : Stored m' x stored := by
  obtain ⟨bytes, hblock, hoffset, hin, rfl⟩ := Memory.exists_of_store hstore
  by_cases hp : x.buffer = some p.block
  swap
  · exact h.frame fun b hb ↦ Memory.block_put_of_ne (fun heq ↦ hp (by rw [heq, hb])) _
  have hlength := h.length
  have hpast := hbehind hp
  refine ⟨hlength, ?_⟩
  rcases h.block with
    ⟨hbuffer, -⟩ | ⟨b, found, k, hbuffer, hfound, hcapacity, hpower, hk, hle, htake⟩
  · cases hbuffer.symm.trans hp
  cases hbuffer.symm.trans hp
  cases hfound.symm.trans hblock
  have hsize : (overwrite bytes p.offset.toNat data).length = bytes.length :=
    length_overwrite (by omega)
  refine .inr ⟨p.block, _, k, hbuffer, Memory.block_put hblock _, ?_, ?_, hk, ?_, ?_⟩
  · rw [hsize, hcapacity]
  · rw [hsize, hpower]
  · rwa [hsize]
  · rw [take_overwrite (by omega) (by omega), htake]

end

/-! ## Runs -/

namespace InputState

variable {A : Allocator} {st : InputState}

/-- The buffer holds the last bytes that have been committed. -/
def Valid (st : InputState) : Prop :=
  ∃ stored, Stored st.memory st.parser stored ∧ stored <:+ st.committed

/-- What a refused call leaves as it is. -/
def Unchanged (st next : InputState) : Prop :=
  next.memory = st.memory ∧ next.committed = st.committed ∧
    next.parser.buffer = st.parser.buffer ∧
    next.parser.bufferCapacity = st.parser.bufferCapacity ∧
    next.parser.bufferLength = st.parser.bufferLength

/-- What a call that has entered the engine does with the bytes that it passes. -/
def Appended (st next : InputState) (data : String8) : Prop :=
  next.committed = st.committed ++ data ∧ next.bufferedBytes = st.bufferedBytes.map (· ++ data)

/-- What is stored is what the buffer begins with. -/
theorem bufferedBytes_of_stored {stored : String8} (h : Stored st.memory st.parser stored) :
    st.bufferedBytes = some stored := by
  have hlength := h.length
  unfold InputState.bufferedBytes
  rcases h.block with
    ⟨hbuffer, -, rfl⟩ | ⟨b, bytes, k, hbuffer, hblock, -, -, -, hfits, htake⟩
  · rw [hbuffer]
  · rw [hbuffer]
    show st.memory.load ⟨b, 0⟩ _ = _
    rw [Memory.load_eq hblock (Int.le_refl 0) (by omega) (by omega), hlength, Int.toNat_natCast,
      Int.toNat_zero, List.drop_zero, htake]

/-- The end of a call, from what the call does to the buffer. -/
theorem exists_after {stored data : String8} {call : Option InputOutcome}
    (hsuffix : stored <:+ st.committed) (hstored : Stored st.memory st.parser stored)
    (hcall : ∃ o, call = some o ∧ Meets st.memory st.parser stored data o) :
    ∃ effect next, call.map (st.after data) = some (effect, next) ∧ next.Valid ∧
      (effect = .refused → st.Unchanged next) ∧ (effect = .entered → st.Appended next data) := by
  obtain ⟨⟨effect, m, x⟩, rfl, hmeets⟩ := hcall
  cases effect with
  | refused =>
    obtain ⟨rfl, hbuffer, hcapacity, hlength⟩ := hmeets
    exact ⟨.refused, ⟨_, x, st.committed⟩, rfl,
      ⟨stored, hstored.congr hbuffer hcapacity hlength, hsuffix⟩,
      fun _ ↦ ⟨rfl, rfl, hbuffer, hcapacity, hlength⟩, fun heffect ↦ (nomatch heffect)⟩
  | entered =>
    obtain ⟨front, hfront⟩ := hsuffix
    have hcommitted : stored ++ data <:+ st.committed ++ data :=
      ⟨front, by rw [← List.append_assoc, hfront]⟩
    refine ⟨.entered, ⟨m, x, st.committed ++ data⟩, rfl, ⟨_, hmeets, hcommitted⟩,
      fun heffect ↦ (nomatch heffect), fun _ ↦ ⟨rfl, ?_⟩⟩
    rw [bufferedBytes_of_stored hstored]
    exact @bufferedBytes_of_stored ⟨m, x, st.committed ++ data⟩ _ hmeets
  | accepted =>
    exact ⟨.accepted, ⟨m, x, st.committed⟩, rfl, ⟨stored, hmeets, hsuffix⟩,
      fun heffect ↦ (nomatch heffect), fun heffect ↦ (nomatch heffect)⟩

/-- No bytes are asked for. -/
theorem bytesAt_eq_nil {s : Option Pointer} {len : Int} (h : s = none ∨ len ≤ 0) :
    st.bytesAt s len = [] := by
  unfold bytesAt
  cases s with
  | none => rfl
  | some p =>
    have hlen : len ≤ 0 := h.resolve_left (fun hp ↦ nomatch hp)
    show (st.memory.load p len).getD [] = []
    cases hload : st.memory.load p len with
    | none => rfl
    | some data =>
      have hdata := Memory.length_load hload
      have hzero : data.length = 0 := by omega
      exact List.length_eq_zero_iff.1 hzero

/-- One event keeps the buffer valid, and is defined. -/
theorem step_spec {event : InputEvent} (h : st.Valid) (hallows : st.allows event = true) :
    ∃ effect next, st.step A event = some (effect, next) ∧ next.Valid ∧
      (effect = .refused → st.Unchanged next) ∧
      (effect = .entered → st.Appended next (st.passedBytes event)) := by
  obtain ⟨stored, hstored, hsuffix⟩ := h
  cases event with
  | parse s len isFinal =>
    refine exists_after hsuffix hstored (parse_spec hstored fun hargument ↦ ⟨fun _ hlen ↦ ?_,
      fun hempty ↦ bytesAt_eq_nil (.inr ?_)⟩)
    · cases s with
      | none => exact absurd (.inr ⟨rfl, hlen⟩) hargument
      | some p =>
        obtain ⟨data, hload⟩ : ∃ data, st.memory.load p len = some data := by
          refine Option.isSome_iff_exists.1 ?_
          unfold allows at hallows
          rw [Bool.or_eq_true, decide_eq_true_eq] at hallows
          exact hallows.resolve_left (by omega)
        refine ⟨p, rfl, ?_⟩
        rw [bytesAt]
        show _ = some ((st.memory.load p len).getD [])
        rw [hload]
        rfl
    · by_contra hlen
      exact hempty ⟨rfl, by omega⟩
  | getBuffer len => exact exists_after hsuffix hstored (getBuffer_spec hstored)
  | parseBuffer emptyInput len isFinal =>
    refine exists_after hsuffix hstored (parseBuffer_spec hstored ?_ ?_)
    · intro b hbuffer _ found hload
      unfold bytesAt
      rw [hbuffer]
      show (st.memory.load ⟨b, st.parser.bufferLength⟩ len).getD [] = found
      rw [hload]
      rfl
    · intro hempty
      refine bytesAt_eq_nil (hempty.imp_left fun hbuffer ↦ ?_)
      rw [hbuffer]
      rfl
  | consumeInputPrefix pendingBytes =>
    obtain ⟨m, x, n, hconsumed, hkept⟩ := consumeInputPrefix_spec hstored pendingBytes
    refine ⟨.accepted, ⟨m, x, st.committed⟩, ?_, ⟨_, hkept, (List.drop_suffix n _).trans hsuffix⟩,
      fun heffect ↦ (nomatch heffect), fun heffect ↦ (nomatch heffect)⟩
    rw [step, bind_of_eq_some hconsumed]
  | setStatus status =>
    exact ⟨_, _, rfl, ⟨stored, hstored.congr rfl rfl rfl, hsuffix⟩,
      fun heffect ↦ (nomatch heffect), fun heffect ↦ (nomatch heffect)⟩
  | write p data =>
    unfold allows at hallows
    rw [Bool.and_eq_true, Bool.or_eq_true, decide_eq_true_eq, decide_eq_true_eq] at hallows
    obtain ⟨m, hstore⟩ := Option.isSome_iff_exists.1 hallows.1
    refine ⟨.accepted, ⟨m, st.parser, st.committed⟩, ?_,
      ⟨stored, hstored.store hstore ?_, hsuffix⟩, fun heffect ↦ (nomatch heffect), fun heffect ↦ (nomatch heffect)⟩
    · rw [step, bind_of_eq_some hstore]
    · exact fun hbuffer ↦ hallows.2.resolve_left (fun hne ↦ hne hbuffer)
  | malloc size =>
    refine ⟨_, _, rfl, ⟨stored, hstored.frame fun b hb ↦ ?_, hsuffix⟩,
      fun heffect ↦ (nomatch heffect), fun heffect ↦ (nomatch heffect)⟩
    unfold Memory.malloc
    split
    · exact Memory.block_allocate (hstored.lt_next hb) size []
    · rfl
  | free block =>
    cases block with
    | none => exact ⟨_, _, rfl, ⟨stored, hstored, hsuffix⟩, fun heffect ↦ (nomatch heffect), fun heffect ↦ (nomatch heffect)⟩
    | some b =>
      unfold allows at hallows
      rw [Bool.and_eq_true, decide_eq_true_eq] at hallows
      obtain ⟨bytes, hblock⟩ := Option.isSome_iff_exists.1 hallows.1
      refine ⟨.accepted, ⟨st.memory.put b none, st.parser, st.committed⟩, ?_,
        ⟨stored, hstored.frame fun c hc ↦ ?_, hsuffix⟩, fun heffect ↦ (nomatch heffect), fun heffect ↦ (nomatch heffect)⟩
      · rw [step, bind_of_eq_some (Memory.free_eq hblock)]
      · exact Memory.block_put_of_ne (fun hbc ↦ hallows.2 (by rw [hbc, hc])) _

theorem length_bytesAt {s : Option Pointer} {len : Int} (hlen : 0 ≤ len)
    (hload : 0 < len → ∃ p data, s = some p ∧ st.memory.load p len = some data) :
    ((st.bytesAt s len).length : Int) = len := by
  by_cases hpos : 0 < len
  swap
  · rw [bytesAt_eq_nil (.inr (by omega)), List.length_nil]
    omega
  obtain ⟨p, data, rfl, hdata⟩ := hload hpos
  have hlength := Memory.length_load hdata
  have hbytes : st.bytesAt (some p) len = data := by
    show (st.memory.load p len).getD [] = data
    rw [hdata]
    rfl
  rw [hbytes]
  omega

/-- `XML_Parse` enters the engine with an input only. -/
theorem nonneg_of_parse {m m' : Memory} {x x' : InputParser} {s : Option Pointer} {len : Int}
    {isFinal : Bool} (h : Native.parse A m x s len isFinal = some (.entered, m', x')) :
    0 ≤ len ∧ (s = none → len ≤ 0) := by
  unfold Native.parse at h
  split at h
  · cases h
  · rename_i hargument
    rw [not_or] at hargument
    exact ⟨by omega, fun hs ↦ by_contra fun hlen ↦ hargument.2 ⟨hs, by omega⟩⟩

/-- A call that enters the engine passes as many bytes as it says. -/
theorem length_passedBytes {event : InputEvent} {next : InputState} (h : st.Valid)
    (hallows : st.allows event = true) (hstep : st.step A event = some (.entered, next)) :
    ((st.passedBytes event).length : Int) = event.byteCount := by
  have hentered {data : String8} {call : Option InputOutcome}
      (hcall : call.map (st.after data) = some (.entered, next)) :
      ∃ m x, call = some (.entered, m, x) := by
    obtain ⟨⟨effect, m, x⟩, rfl, hafter⟩ := Option.map_eq_some_iff.1 hcall
    cases effect with
    | entered => exact ⟨m, x, rfl⟩
    | refused => cases hafter
    | accepted => cases hafter
  cases event with
  | parse s len isFinal =>
    obtain ⟨m, x, hparse⟩ := hentered hstep
    obtain ⟨hlen, hnone⟩ := nonneg_of_parse hparse
    refine length_bytesAt hlen fun hpos ↦ ?_
    cases s with
    | none =>
      have hzero := hnone rfl
      omega
    | some p =>
      unfold allows at hallows
      rw [Bool.or_eq_true, decide_eq_true_eq] at hallows
      obtain ⟨data, hload⟩ := Option.isSome_iff_exists.1 (hallows.resolve_left (by omega))
      exact ⟨p, data, rfl, hload⟩
  | parseBuffer emptyInput len isFinal =>
    obtain ⟨m, x, hparse⟩ := hentered hstep
    unfold Native.parseBuffer at hparse
    split at hparse
    · cases hparse
    rename_i hlen
    refine length_bytesAt (by omega) fun hpos ↦ ?_
    split at hparse
    · cases hparse
    split at hparse
    · cases hparse
    obtain ⟨stored, hstored, -⟩ := h
    have hbounds := hstored.bounds
    rcases hstored.block with
      ⟨hbuffer, -⟩ | ⟨b, bytes, k, hbuffer, hblock, hcapacity, -, -, -, -⟩
    · rw [hbuffer] at hparse
      dsimp only at hparse
      rw [if_neg (by omega)] at hparse
      cases hparse
    · rw [hbuffer] at hparse ⊢
      dsimp only at hparse
      rw [bind_of_eq_some (int_eq (by omega) (by omega))] at hparse
      split at hparse
      · cases hparse
      · rename_i hroom
        exact ⟨⟨b, _⟩, _, rfl, Memory.load_eq hblock hbounds.1 (by omega) (by omega)⟩
  | getBuffer len =>
    obtain ⟨m, x, hbuffer⟩ := hentered hstep
    unfold Native.getBuffer at hbuffer
    split at hbuffer
    · cases hbuffer
    split at hbuffer
    · cases hbuffer
    obtain ⟨⟨place, m', x'⟩, -, hplace⟩ := Option.bind_eq_some_iff.1 hbuffer
    cases place <;> cases hplace
  | consumeInputPrefix pendingBytes =>
    obtain ⟨⟨m, x⟩, -, hnext⟩ := Option.bind_eq_some_iff.1 hstep
    cases hnext
  | setStatus status => cases hstep
  | write p data =>
    obtain ⟨m, -, hnext⟩ := Option.bind_eq_some_iff.1 hstep
    cases hnext
  | malloc size => cases hstep
  | free block =>
    obtain ⟨m, -, hnext⟩ := Option.bind_eq_some_iff.1 hstep
    cases hnext

/-- A whole run is defined and keeps the buffer valid. -/
theorem run_spec {events : List InputEvent} (h : st.Valid)
    (hallows : st.allowsAll A events = true) :
    ∃ last, st.run A events = some last ∧ last.Valid := by
  induction events generalizing st with
  | nil => exact ⟨st, rfl, h⟩
  | cons event events ih =>
    unfold allowsAll at hallows
    rw [Bool.and_eq_true] at hallows
    obtain ⟨effect, next, hstep, hvalid, -, -⟩ := step_spec (A := A) h hallows.1
    rw [hstep] at hallows
    unfold run
    rw [bind_of_eq_some hstep]
    exact ih hvalid hallows.2

theorem Valid.bounds (h : st.Valid) : 0 ≤ st.parser.bufferLength ∧
    st.parser.bufferLength ≤ st.parser.bufferCapacity ∧ st.parser.bufferCapacity ≤ 2 ^ 30 := by
  obtain ⟨stored, hstored, -⟩ := h
  exact hstored.bounds

/-- The first bytes of the buffer are the last ones that have been committed. -/
theorem Valid.bufferedBytes (h : st.Valid) :
    st.parser.bufferLength ≤ st.committed.length ∧
      st.bufferedBytes = some
        (st.committed.drop (st.committed.length - st.parser.bufferLength.toNat)) := by
  obtain ⟨stored, hstored, hsuffix⟩ := h
  have hlength := hstored.length
  have hle := hsuffix.length_le
  have hlast : st.committed.drop (st.committed.length - st.parser.bufferLength.toNat) = stored := by
    rw [hlength, Int.toNat_natCast]
    exact (List.suffix_iff_eq_drop.1 hsuffix).symm
  rw [hlast]
  exact ⟨by omega, bufferedBytes_of_stored hstored⟩

end InputState

open InputState

/-- Whatever the calls and the engine do, every step is defined, no length overflows or leaves the
buffer, the buffer holds the last bytes that have been committed, a refused call changes neither the
bytes nor the lengths, and a call that enters the engine appends the bytes it passes to the committed
and to the buffered ones. -/
theorem inputBuffer_correct (A : Allocator) (m : Memory) (status : ParseStatus)
    (events : List InputEvent) (h : allowsAll A ⟨m, { status }, []⟩ events = true) :
    ∃ st, run A ⟨m, { status }, []⟩ events = some st ∧ 0 ≤ st.parser.bufferLength ∧
      st.parser.bufferLength ≤ st.parser.bufferCapacity ∧ st.parser.bufferCapacity ≤ 2 ^ 30 ∧
      st.parser.bufferLength ≤ st.committed.length ∧
      st.bufferedBytes = some
        (st.committed.drop (st.committed.length - st.parser.bufferLength.toNat)) ∧
      ∀ event, st.allows event = true → ∃ effect next, st.step A event = some (effect, next) ∧
        (effect = .refused → st.Unchanged next) ∧
        (effect = .entered → st.Appended next (st.passedBytes event) ∧
          ((st.passedBytes event).length : Int) = event.byteCount) := by
  have hstart : Valid ⟨m, { status }, []⟩ :=
    ⟨[], ⟨rfl, .inl ⟨rfl, rfl, rfl⟩⟩, List.suffix_refl _⟩
  obtain ⟨st, hrun, hvalid⟩ := run_spec hstart h
  have hbounds := hvalid.bounds
  refine ⟨st, hrun, hbounds.1, hbounds.2.1, hbounds.2.2, hvalid.bufferedBytes.1,
    hvalid.bufferedBytes.2, fun event hallows ↦ ?_⟩
  obtain ⟨effect, next, hstep, -, hrefused, happended⟩ := step_spec (A := A) hvalid hallows
  refine ⟨effect, next, hstep, hrefused, fun hentered ↦ ⟨happended hentered, ?_⟩⟩
  rw [hentered] at hstep
  exact length_passedBytes hvalid hallows hstep

/-- Bytes are parsed from memory of the application and from the buffer, where a second call of
`XML_ParseBuffer` has no room; a further byte is appended. -/
theorem inputBuffer_correct_aliased :
    ∃ st, run ⟨fun _ _ ↦ true, fun _ _ ↦ 0⟩ ⟨⟨[some [60, 97, 62]]⟩, {}, []⟩
        [.parse (some ⟨0, 0⟩) 3 false, .getBuffer 2, .write ⟨1, 3⟩ [98, 98],
          .parseBuffer ⟨0, 3⟩ 2 false, .consumeInputPrefix 1, .parse (some ⟨1, 0⟩) 5 false,
          .parseBuffer ⟨0, 3⟩ 2000 false] = some st ∧ 0 ≤ st.parser.bufferLength ∧
      st.parser.bufferLength ≤ st.parser.bufferCapacity ∧ st.parser.bufferCapacity ≤ 2 ^ 30 ∧
      st.parser.bufferLength ≤ st.committed.length ∧
      st.bufferedBytes = some
        (st.committed.drop (st.committed.length - st.parser.bufferLength.toNat)) ∧
      ∀ event, st.allows event = true → ∃ effect next,
        st.step ⟨fun _ _ ↦ true, fun _ _ ↦ 0⟩ event = some (effect, next) ∧
          (effect = .refused → st.Unchanged next) ∧
          (effect = .entered → st.Appended next (st.passedBytes event) ∧
            ((st.passedBytes event).length : Int) = event.byteCount) :=
  inputBuffer_correct _ _ _ _ (by decide +kernel)

end Xpact.Native
