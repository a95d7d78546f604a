import Xpact.Parser.Scan

/-!
# Reading the input

The bytes handed to the parser are converted to UTF-8 when nobody else has done so, then their line
ends are normalized and their characters checked.
-/

namespace Xpact

open Library Routine

/-! ## Decoding -/

/-- Lower-case encoding name that the declaration at `start` gives, or empty. -/
def declaredEncoding (input : String8) (start : Nat) : String8 :=
  if hasAt input start (str "<?xml") && start + 5 ≤ input.length &&
      isXmlSpace (input.item (start + 5)) then
    let close := findSequence input (str "?>") (start + 5)
    let keyword := findSequence input (str "encoding") (start + 5)
    if 0 < close ∧ 0 < keyword ∧ keyword < close then
      let i := skipSpaces input (keyword + 8)
      if i < close ∧ input.item i = '=' then
        let i := skipSpaces input (i + 1)
        if i < close ∧ isQuote (input.item i) then
          let endQuote := findCharacter input (input.item i) (i + 1)
          if 0 < endQuote ∧ endQuote < close then
            (input.substring (i + 1) (endQuote - 1)).map asLower
          else []
        else []
      else []
    else []
  else
    []

def utf16UnitAt (input : String8) (i : Nat) (bigEndian : Bool) : Nat :=
  if bigEndian then input.code i * 256 + input.code (i + 1)
  else input.code (i + 1) * 256 + input.code i

/-- The UTF-8 form of the UTF-16 units from `i` on, and whether a surrogate without partner ended
it.  A unit or a pair that the end of the input cuts off is dropped. -/
def utf16AsUtf8From (input : String8) (bigEndian : Bool) : Nat → Nat → String8 × Bool
  | 0, _ => ([], false)
  | n + 1, i =>
    if input.length < i + 1 then
      ([], false)
    else
      let unit := utf16UnitAt input i bigEndian
      if 0xD800 ≤ unit ∧ unit ≤ 0xDBFF then
        if i + 3 ≤ input.length then
          let next := utf16UnitAt input (i + 2) bigEndian
          if 0xDC00 ≤ next ∧ next ≤ 0xDFFF then
            let (rest, failed) := utf16AsUtf8From input bigEndian n (i + 4)
            (utf8Bytes (0x10000 + (unit - 0xD800) * 1024 + (next - 0xDC00)) ++ rest, failed)
          else
            ([], true)
        else
          ([], false)
      else if 0xDC00 ≤ unit ∧ unit ≤ 0xDFFF then
        ([], true)
      else
        let (rest, failed) := utf16AsUtf8From input bigEndian n (i + 2)
        (utf8Bytes unit ++ rest, failed)

def utf16AsUtf8 (input : String8) (bigEndian : Bool) : Routine String8 := do
  let (text, failed) := utf16AsUtf8From input bigEndian (input.length + 1) 3
  if failed then
    setError "invalid XML character"
  return text

def startsWithUtf16Mark (input : String8) : Bool :=
  2 ≤ input.length &&
    ((input.code 1 == 255 && input.code 2 == 254) || (input.code 1 == 254 && input.code 2 == 255))

def startsWithUtf8Mark (input : String8) : Bool :=
  3 ≤ input.length && input.code 1 == 239 && input.code 2 == 187 && input.code 3 == 191

/-- `input` as UTF-8, and whether it is `input` itself; `isUtf8` is `input_is_utf8`. -/
def decodedInput (isUtf8 : Bool) (input : String8) : Routine (String8 × Bool) := do
  if isUtf8 then
    return (input, true)
  else if startsWithUtf16Mark input then
    let text ← utf16AsUtf8 input (input.code 1 == 254)
    let encoding := declaredEncoding text 1
    if !encoding.isEmpty && !(str "utf-16").isPrefixOf encoding then
      setError "incorrect encoding"
    return (text, false)
  else
    let marked := startsWithUtf8Mark input
    let encoding := declaredEncoding input (if marked then 4 else 1)
    if marked && !encoding.isEmpty && encoding != str "utf-8" then
      failAt "incorrect encoding" (input, true)
    else if (str "utf-16").isPrefixOf encoding then
      failAt "incorrect encoding" (input, true)
    else if encoding == str "iso-8859-1" || encoding == str "latin1" ||
        encoding == str "iso_8859-1" then
      return (input.flatMap fun c ↦ utf8Bytes c.toNat, false)
    else if (encoding == str "us-ascii" || encoding == str "ascii") &&
        input.any (fun c ↦ 128 ≤ c.toNat) then
      failAt "invalid XML character" (input, true)
    else
      return (input, true)

/-! ## Normalization -/

/-- Does the text hold a carriage return before any byte that is not an XML character, and does it
hold such a byte?  `n` bounds the characters still to be read. -/
def checkAliasFrom (source : String8) : Nat → Nat → Bool × Bool
  | 0, _ => (false, false)
  | n + 1, i =>
    if source.length < i then (false, false)
    else if source.item i = '\r' then (true, false)
    else if source.code i < 128 then
      if isXmlCharacterCode (source.code i) then checkAliasFrom source n (i + 1) else (false, true)
    else
      match utf8CharacterLength source i with
      | .character length _ => checkAliasFrom source n (i + length)
      | .cutOff => (false, false)
      | .malformed => (false, true)

/-- The normalized text from `i` on, and whether a byte that is not an XML character ended it. -/
def normalizedFrom (source : String8) : Nat → Nat → String8 × Bool
  | 0, _ => ([], false)
  | n + 1, i =>
    if source.length < i then
      ([], false)
    else if source.item i = '\r' then
      let next := if i + 1 ≤ source.length ∧ source.item (i + 1) = '\n' then i + 2 else i + 1
      let (rest, failed) := normalizedFrom source n next
      ((('\n' : Char) : Character8) :: rest, failed)
    else if source.code i < 128 then
      if isXmlCharacterCode (source.code i) then
        let (rest, failed) := normalizedFrom source n (i + 1)
        (source.item i :: rest, failed)
      else
        ([], true)
    else
      match utf8CharacterLength source i with
      | .character length _ =>
        let (rest, failed) := normalizedFrom source n (i + length)
        ((source.drop (i - 1)).take length ++ rest, failed)
      | .cutOff => (source.drop (i - 1), false)
      | .malformed => ([], true)

/-- The normalized form of `input`; with `allowAlias` a text that needs no change is not copied. -/
def normalizedInput (isUtf8 : Bool) (input : String8) (allowAlias : Bool) : Routine String8 := do
  let (source, same) ← decodedInput isUtf8 input
  let marked : Bool :=
    !(← config).inputByteOrderMarkRemoved && same && startsWithUtf8Mark source
  let mut needsCopy := marked
  if allowAlias && same && !marked then
    unless ← hasError do
      let (copied, failed) := checkAliasFrom source (source.length + 1) 1
      needsCopy := copied
      if failed then
        setError "invalid XML character"
  if allowAlias && same && !needsCopy && !(← hasError) then
    return input
  else if ← hasError then
    return []
  else
    let (text, failed) := normalizedFrom source (source.length + 1) (if marked then 4 else 1)
    if failed then
      setError "invalid XML character"
    return text

end Xpact
