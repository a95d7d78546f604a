import Xpact.Parser.Commands
import Xpact.Text.Scanning

/-!
# Names, spaces and literals

The scanners that may report an error.  A scanner that fails returns the index its caller would
stop at, as the source does.
-/

namespace Xpact

open Library Routine

/-! ## Names -/

/-- The bytes below 128 that continue a name. -/
def isAsciiNameCode (code : Nat) : Bool :=
  (65 ≤ code && code ≤ 90) || (97 ≤ code && code ≤ 122) || (48 ≤ code && code ≤ 57) ||
    code == 95 || code == 58 || code == 45 || code == 46

/-- The scan of `scan_name` from `i` on: the index it returns, and whether it met a character that
no name may hold there.  `n` bounds the characters still to be read. -/
def scanNameFrom (cfg : Config) (input : String8) (start : Nat) : Nat → Nat → Nat × Bool
  | 0, i => (i, false)
  | n + 1, i =>
    if input.length < i then
      (i, false)
    else if 128 ≤ input.code i then
      match utf8CharacterLength input i with
      | .character length code =>
        if cfg.isNameStartCode code || (start < i && cfg.isNameCode code) then
          scanNameFrom cfg input start n (i + length)
        else
          (max i (start + 1), true)
      | .cutOff => (input.length + 1, false)
      | .malformed => (max i (start + 1), true)
    else if isAsciiNameCode (input.code i) then
      scanNameFrom cfg input start n (i + 1)
    else
      (max i (start + 1), false)

/-- Index immediately after the name that begins at `start`. -/
def scanName (input : String8) (start : Nat) : Routine Nat := do
  let (stop, failed) := scanNameFrom (← config) input start (input.length + 1) start
  if failed then
    setError "invalid name character"
  return stop

/-- The scan of `scan_nmtoken` from `i` on. -/
def scanNmtokenFrom (cfg : Config) (input : String8) : Nat → Nat → Nat × Bool
  | 0, i => (i, false)
  | n + 1, i =>
    if input.length < i then
      (i, false)
    else if 128 ≤ input.code i then
      match utf8CharacterLength input i with
      | .character length code =>
        if cfg.isNameCode code then scanNmtokenFrom cfg input n (i + length) else (i, true)
      | _ => (i, true)
    else if isNameCharacter (input.item i) then
      scanNmtokenFrom cfg input n (i + 1)
    else
      (i, false)

def scanNmtoken (input : String8) (start : Nat) : Routine Nat := do
  let (stop, failed) := scanNmtokenFrom (← config) input (input.length + 1) start
  if failed then
    setError "invalid name character"
  return max stop (start + 1)

/-! ## Spaces -/

def skipRequiredSpaces (input : String8) (start : Nat) (message : String) : Routine Nat := do
  if start ≤ input.length && isXmlSpace (input.item start) then
    return skipSpaces input start
  else
    failAt message start

/-- Report `message` when a literal follows without white space. -/
def skipSpacesBeforeLiteral (input : String8) (start : Nat) (message : String) : Routine Nat := do
  if start ≤ input.length && isQuote (input.item start) then
    failAt message start
  else
    return skipSpaces input start

def skipSpacesBetweenAttributes (input : String8) (start : Nat) : Routine Nat := do
  let next := skipSpaces input start
  if next = start ∧ next ≤ input.length ∧ input.item next ≠ '>' ∧ input.item next ≠ '/' then
    failAt "missing space between attributes" (input.length + 1)
  else
    return next

/-! ## Literals -/

/-- Is every byte one that may stand in an XML text? -/
def isXmlText (text : String8) : Bool := text.all fun c ↦ isXmlCharacterCode c.toNat

def validateXmlText (text : String8) : Routine Unit := do
  unless isXmlText text do
    setError "invalid XML character"

/-- The text of the quoted literal at `start` and the index after its closing quote. -/
def readQuotedLiteral (input : String8) (start stop : Nat) : Routine (Nat × String8) := do
  let rest := (input.take stop).drop start
  let value := rest.takeWhile (· != input.item start)
  if !isXmlText value then
    failAt "invalid XML character" (input.length + 1, [])
  else if value.length = rest.length then
    failAt "unterminated literal" (input.length + 1, [])
  else
    return (start + value.length + 2, value)

def readPublicIdLiteral (input : String8) (start stop : Nat) : Routine (Nat × String8) := do
  let (i, value) ← readQuotedLiteral input start stop
  if ← hasError then
    return (i, value)
  else if !isValidPublicId value then
    failAt "invalid public identifier" (input.length + 1, value)
  else
    let blank : Character8 := (' ' : Char)
    let spaced := value.map fun (c : Character8) ↦ if c = '\r' ∨ c = '\n' then blank else c
    return (i, collapseSpaces spaced)

/-! ## XML declarations and processing instruction targets -/

/-- Does `input` hold an XML declaration, in any letter case, at `start`? -/
def startsXmlDeclarationAt (input : String8) (start : Nat) : Routine Bool := do
  if hasAt input start (str "<?") && start + 2 ≤ input.length &&
      isNameStartCharacter (input.item (start + 2)) then
    let i ← scanName input (start + 2)
    return sameNameCaseInsensitive (input.substring (start + 2) (i - 1)) (str "xml")
  else
    return false

def validateProcessingInstructionTarget (input : String8) (start stop : Nat) : Routine Unit := do
  if !isNameStartCharacter (input.item start) then
    setError "invalid processing instruction target"
  else
    let i ← scanName input start
    unless ← hasError do
      let target := input.substring start (i - 1)
      if sameNameCaseInsensitive target (str "xml") then
        setError "reserved processing instruction target"
      else if i < stop ∧ !isXmlSpace (input.item i) then
        setError "missing space after processing instruction target"
      else if (← config).namespaceMode && target.has ':' then
        setError "colon in processing instruction target"

/-! ## Character references -/

/-- The value of an operation on `INTEGER`, when it does not overflow. -/
def checked32 (n : Nat) : Option Nat := if n ≤ 2147483647 then some n else none

/-- The number that `digits` denote after `code`, or the message of the error; nothing when a value
of the loop overflows. -/
def characterReferenceCode (base : Nat) : String8 → Nat → Option (Except String Nat)
  | [], code => some (.ok code)
  | c :: rest, code =>
    match if base = 16 then hexDigitValue c else decimalDigitValue c with
    | none => some (.error "invalid character reference digit")
    | some digit =>
      (checked32 (code * base)).bind fun product ↦
        (checked32 (product + digit)).bind fun code ↦
          if 1114111 < code then some (.error "invalid character reference")
          else characterReferenceCode base rest code

/-- What the digits of a body are read to. -/
def characterReferenceValue (body : String8) : Option (Except String Nat) :=
  if 2 ≤ body.length && body.item 1 == 'x' then characterReferenceCode 16 body.tail 0
  else characterReferenceCode 10 body 0

/-- The bytes that the reference with this body appends; it has no result after an overflow. -/
def appendCharacterReference (body : String8) : Routine String8 := do
  if body.isEmpty then
    failAt "invalid character reference syntax" []
  else if ← hasError then
    return []
  else
    match characterReferenceValue body with
    | none => .stuck
    | some (.error message) => failAt message []
    | some (.ok code) =>
      if isXmlCharacterCode code then return utf8Bytes code
      else failAt "invalid character reference" []

end Xpact
