import Xpact.Library.Unicode
import Xpact.Native.Shim
import Xpact.Text.Searching

/-!
# Decoding the input of the application

The bytes that the C layer has buffered are decoded to UTF-8 before they are parsed.  The encoding is
the one the application asks for, the one that the first bytes show or the one that the XML
declaration names; without any of them the bytes are taken as they are.
-/

namespace Xpact.Native

/-! ## Code points and units -/

def appendUtf8Codepoint (output : String8) (code : Nat) : String8 :=
  if code ≤ 127 then
    output ++ [UInt8.ofNat code]
  else if code ≤ 2047 then
    output ++ [UInt8.ofNat (192 + code / 64), UInt8.ofNat (128 + code % 64)]
  else if code ≤ 65535 then
    output ++ [UInt8.ofNat (224 + code / 4096), UInt8.ofNat (128 + code / 64 % 64),
      UInt8.ofNat (128 + code % 64)]
  else
    output ++ [UInt8.ofNat (240 + code / 262144), UInt8.ofNat (128 + code / 4096 % 64),
      UInt8.ofNat (128 + code / 64 % 64), UInt8.ofNat (128 + code % 64)]

def utf16UnitAt (input : String8) (i : Nat) (littleEndian : Bool) : Nat :=
  if littleEndian then input.code i + input.code (i + 1) * 256
  else input.code i * 256 + input.code (i + 1)

/-! ## Encodings -/

def decodedLatin1Input (input : String8) : String8 :=
  input.foldl (fun (output : String8) (c : Character8) ↦ appendUtf8Codepoint output c.toNat) []

def decodedAsciiInput (input : String8) : Except Error String8 :=
  if input.any fun c ↦ 127 < c.toNat then .error .invalidToken else .ok input

/-- The scan of UTF-16 units up to `limit`; a mark at the beginning is dropped.  `n` bounds the units
still to be read. -/
def decodedUtf16From (input : String8) (limit : Nat) (littleEndian : Bool) :
    Nat → Nat → String8 → Except Error String8
  | 0, _, output => .ok output
  | n + 1, i, output =>
    if limit < i then
      .ok output
    else
      let unit := utf16UnitAt input i littleEndian
      if i = 1 ∧ unit = 65279 then
        decodedUtf16From input limit littleEndian n (i + 2) output
      else if 55296 ≤ unit ∧ unit ≤ 56319 then
        if limit < i + 3 then
          .error .partialChar
        else
          let low := utf16UnitAt input (i + 2) littleEndian
          if low < 56320 ∨ 57343 < low then
            .error .invalidToken
          else
            decodedUtf16From input limit littleEndian n (i + 4)
              (appendUtf8Codepoint output (65536 + (unit - 55296) * 1024 + (low - 56320)))
      else if 56320 ≤ unit ∧ unit ≤ 57343 then
        .error .invalidToken
      else
        decodedUtf16From input limit littleEndian n (i + 2) (appendUtf8Codepoint output unit)

def decodedUtf16PrefixBeforePartialByte (input : String8) (littleEndian : Bool) : Option String8 :=
  (decodedUtf16From input (input.length - 1) littleEndian input.length 1 []).toOption

/-- The last index at or after `i` where `marker` stands, or `last`; `n` bounds the searches. -/
def lastIndexFrom (input marker : String8) : Nat → Nat → Nat → Nat
  | 0, _, last => last
  | n + 1, i, last =>
    if i = 0 then last
    else lastIndexFrom input marker n (findSequence input marker (i + 1)) i

def lastIndexOf (input marker : String8) : Nat :=
  lastIndexFrom input marker (input.length + 1) (findSequence input marker 1) 0

/-- Does `input` end inside a CDATA section? -/
def hasOpenCdataSection (input : String8) : Bool :=
  0 < lastIndexOf input (str "<![CDATA[") &&
    lastIndexOf input (str "]]>") < lastIndexOf input (str "<![CDATA[")

def isPartialUtf16AsciiByte (byte : Nat) (littleEndian : Bool) : Bool :=
  if littleEndian then 0 < byte && byte ≤ 127 else byte == 0

/-- Decode UTF-16 bytes; a dangling byte is reported by what it cuts off. -/
def decodedUtf16Input (input : String8) (littleEndian : Bool) : Except Error String8 :=
  if input.length % 2 ≠ 0 then
    match decodedUtf16PrefixBeforePartialByte input littleEndian with
    | some decoded =>
      if hasOpenCdataSection decoded then .error .unclosedCdataSection
      else if isPartialUtf16AsciiByte (input.code input.length) littleEndian then
        .error .unclosedToken
      else .error .partialChar
    | none => .error .partialChar
  else
    decodedUtf16From input input.length littleEndian (input.length + 1) 1 []

/-- Does `decoded_utf16_input` drop a mark, and so set `last_input_byte_order_mark_removed`? -/
def utf16MarkRemoved (input : String8) (littleEndian : Bool) : Bool :=
  input.length % 2 == 0 && 0 < input.length && utf16UnitAt input 1 littleEndian == 65279

/-! ## Signatures -/

/-- `is_alpha` of `CHARACTER_8`: the letters of ISO 8859-1. -/
def isAlpha (c : Character8) : Bool :=
  (65 ≤ c.toNat && c.toNat ≤ 90) || (97 ≤ c.toNat && c.toNat ≤ 122) || c.toNat == 170 ||
    c.toNat == 181 || c.toNat == 186 || (192 ≤ c.toNat && c.toNat != 215 && c.toNat != 247)

def hasUtf16leSignature (input : String8) : Bool :=
  (2 ≤ input.length && input.code 1 == 255 && input.code 2 == 254) ||
    (2 ≤ input.length && (input.item 1 == '<' || isXmlSpace (input.item 1)) &&
      input.code 2 == 0) ||
    (4 ≤ input.length && input.item 1 == '<' && input.code 2 == 0 && input.item 3 == '?' &&
      input.code 4 == 0) ||
    (4 ≤ input.length && input.item 1 == '<' && input.code 2 == 0 && input.item 3 == '!' &&
      input.code 4 == 0) ||
    (4 ≤ input.length && input.item 1 == '<' && input.code 2 == 0 && isAlpha (input.item 3) &&
      input.code 4 == 0)

def hasUtf16beSignature (input : String8) : Bool :=
  (2 ≤ input.length && input.code 1 == 254 && input.code 2 == 255) ||
    (2 ≤ input.length && input.code 1 == 0 &&
      (input.item 2 == '<' || isXmlSpace (input.item 2))) ||
    (4 ≤ input.length && input.code 1 == 0 && input.item 2 == '<' && input.code 3 == 0 &&
      input.item 4 == '?') ||
    (4 ≤ input.length && input.code 1 == 0 && input.item 2 == '<' && input.code 3 == 0 &&
      input.item 4 == '!') ||
    (4 ≤ input.length && input.code 1 == 0 && input.item 2 == '<' && input.code 3 == 0 &&
      isAlpha (input.item 4))

/-! ## Names of encodings -/

def isUtf8EncodingName (encoding : String8) : Bool :=
  [str "UTF-8", str "utf-8", str "UTF8", str "utf8"].contains encoding

def isAsciiEncodingName (encoding : String8) : Bool :=
  [str "US-ASCII", str "us-ascii", str "ASCII", str "ascii"].contains encoding

def isLatin1EncodingName (encoding : String8) : Bool :=
  [str "ISO-8859-1", str "iso-8859-1"].contains encoding

def isUtf16EncodingName (encoding : String8) : Bool :=
  [str "UTF-16", str "utf-16", str "UTF-16LE", str "utf-16le", str "UTF-16BE",
    str "utf-16be"].contains encoding

/-! ## The XML declaration -/

/-- Does `input` begin with an XML or text declaration rather than another processing instruction? -/
def hasInitialXmlDeclaration (input : String8) : Bool :=
  5 ≤ input.length && input.item 1 == '<' && input.item 2 == '?' && input.item 3 == 'x' &&
    input.item 4 == 'm' && input.item 5 == 'l' &&
    (input.length == 5 || isXmlSpace (input.item 6))

/-- Skip white space from `i` on, but not behind `stop`. -/
def skipSpacesUpTo (input : String8) (i stop : Nat) : Nat := skipSpaces (input.take stop) i

/-- The encoding that the declaration at the beginning names. -/
def declaredXmlEncoding (input : String8) : Option String8 :=
  if hasInitialXmlDeclaration input then
    let found := findSequence input (str "?>") 1
    let stop := if found = 0 then input.length else found
    let keyword := findSequence input (str "encoding") 1
    if 0 < keyword ∧ keyword < stop then
      let equals := skipSpacesUpTo input (keyword + 8) stop
      if equals ≤ stop ∧ input.item equals = '=' then
        let quote := skipSpacesUpTo input (equals + 1) stop
        if quote ≤ stop ∧ isQuote (input.item quote) then
          let close := findCharacter (input.take stop) (input.item quote) (quote + 1)
          if 0 < close then some (input.substring (quote + 1) (close - 1)) else none
        else none
      else none
    else none
  else
    none

/-- Spellings that `has_utf16_declaration_in_utf8_input` looks for. -/
def utf16Declarations : List String8 :=
  [str "encoding='utf-16'", str "encoding=\"utf-16\"", str "encoding='UTF-16'",
    str "encoding=\"UTF-16\""]

def hasUtf16DeclarationInUtf8Input (input : String8) : Bool :=
  hasInitialXmlDeclaration input &&
    utf16Declarations.any fun marker ↦ findSequence input marker 1 != 0

/-! ## The choice of the encoding -/

/-- What the parser knows about the encoding. -/
structure Decoder where
  explicitEncoding : Option String8 := none
  explicitEncodingOverridesDeclaration : Bool := false
  /-- The decoder behind the unknown encoding handler of the application, if there is one. -/
  unknownEncodingHandler : Option (String8 → String8 → Except Error String8) := none

namespace Decoder

variable (d : Decoder)

def explicitEncodingIs (names : List String8) : Bool := d.explicitEncoding.any names.contains

def explicitEncodingIsUtf16 : Bool := d.explicitEncodingIs [str "UTF-16", str "utf-16"]

def explicitEncodingIsUtf16le : Bool := d.explicitEncodingIs [str "UTF-16LE", str "utf-16le"]

def explicitEncodingIsUtf16be : Bool := d.explicitEncodingIs [str "UTF-16BE", str "utf-16be"]

/-- Does `input` end inside an initial signature that needs more bytes? -/
def hasPartialEncodingSignaturePrefix (input : String8) : Bool :=
  (input.length == 1 && (d.explicitEncodingIsUtf16 || d.explicitEncodingIsUtf16le ||
      d.explicitEncodingIsUtf16be || input.code 1 == 0 || input.item 1 == '<' ||
      input.code 1 == 239 || input.code 1 == 254 || input.code 1 == 255)) ||
    (input.length == 2 && input.code 1 == 239 && input.code 2 == 187)

/-- A decoded text, and whether a byte order mark was dropped from it. -/
abbrev Decoded := Except Error String8 × Bool

def decodedUtf16 (input : String8) (littleEndian : Bool) : Decoded :=
  (decodedUtf16Input input littleEndian, utf16MarkRemoved input littleEndian)

def decodedUnknownEncodingInput (input encoding : String8) : Decoded :=
  match d.unknownEncodingHandler with
  | some decode => (decode input encoding, false)
  | none => (.error .unknownEncoding, false)

def decodedInputWithEncoding (input encoding : String8) : Decoded :=
  if isLatin1EncodingName encoding then
    (.ok (decodedLatin1Input input), false)
  else if isAsciiEncodingName encoding then
    (decodedAsciiInput input, false)
  else if encoding = str "UTF-16BE" ∨ encoding = str "utf-16be" then
    decodedUtf16 input false
  else if encoding = str "UTF-16LE" ∨ encoding = str "utf-16le" then
    decodedUtf16 input true
  else if encoding = str "UTF-16" ∨ encoding = str "utf-16" then
    if hasUtf16leSignature input then decodedUtf16 input true
    else if hasUtf16beSignature input then decodedUtf16 input false
    else (.error .incorrectEncoding, false)
  else if isUtf8EncodingName encoding then
    (.ok input, false)
  else
    d.decodedUnknownEncodingInput input encoding

/-- Where a search from the end stops: at a byte that is no UTF-8 continuation, or at the first. -/
def lastLeadIndex (input : String8) : Nat → Nat
  | 0 => 0
  | 1 => 1
  | i + 2 =>
    if input.code (i + 2) < 128 ∨ 192 ≤ input.code (i + 2) then i + 2 else lastLeadIndex input (i + 1)

/-- Bytes of the sequence that `lead` begins, or 0. -/
def neededBytes (lead : Nat) : Nat :=
  if 194 ≤ lead ∧ lead ≤ 223 then 2
  else if 224 ≤ lead ∧ lead ≤ 239 then 3
  else if 240 ≤ lead ∧ lead ≤ 244 then 4
  else 0

/-- Is the input, if it is not UTF-16, read as UTF-8? -/
def readsUtf8 (input : String8) : Bool :=
  match d.explicitEncoding, declaredXmlEncoding input with
  | some explicit, some declared =>
    isUtf8EncodingName (if d.explicitEncodingOverridesDeclaration then explicit else declared)
  | some explicit, none => isUtf8EncodingName explicit
  | none, some declared => isUtf8EncodingName declared
  | none, none => true

/-- Bytes before a trailing character that is not complete. -/
def completeEncodedPrefixCount (input : String8) : Nat :=
  let littleEndian := hasUtf16leSignature input || d.explicitEncodingIsUtf16le
  if littleEndian || hasUtf16beSignature input || d.explicitEncodingIsUtf16be ||
      d.explicitEncodingIsUtf16 then
    let count := input.length - input.length % 2
    if 2 ≤ count ∧ 55296 ≤ utf16UnitAt input (count - 1) littleEndian ∧
        utf16UnitAt input (count - 1) littleEndian ≤ 56319 then
      count - 2
    else
      count
  else if !input.isEmpty && d.readsUtf8 input then
    let i := lastLeadIndex input input.length
    let needed := neededBytes (input.code i)
    if 0 < needed ∧ input.length - i + 1 < needed then i - 1 else input.length
  else
    input.length

/-- The bytes that one call decodes: all of a final buffer, and the complete characters of another. -/
def source (finalBuffer : Bool) (input : String8) : String8 :=
  if finalBuffer then input else input.take (d.completeEncodedPrefixCount input)

/-- `decoded_input` of a complete source. -/
def decodedSource (source : String8) : Decoded :=
  match d.explicitEncoding.filter fun _ ↦ d.explicitEncodingOverridesDeclaration with
  | some explicit => d.decodedInputWithEncoding source explicit
  | none =>
    if hasUtf16leSignature source then
      decodedUtf16 source true
    else if hasUtf16beSignature source then
      decodedUtf16 source false
    else if d.explicitEncodingIsUtf16 || (declaredXmlEncoding source).any isUtf16EncodingName then
      (.error .incorrectEncoding, false)
    else
      match declaredXmlEncoding source with
      | some declared =>
        if isLatin1EncodingName declared then (.ok (decodedLatin1Input source), false)
        else if isAsciiEncodingName declared then (decodedAsciiInput source, false)
        else if isUtf8EncodingName declared then (.ok source, false)
        else d.decodedUnknownEncodingInput source declared
      | none =>
        if hasUtf16DeclarationInUtf8Input source then
          (.error .incorrectEncoding, false)
        else
          match d.explicitEncoding with
          | some initial => d.decodedInputWithEncoding source initial
          | none => (.ok source, false)

/-- The buffered bytes as the UTF-8 text that is parsed. -/
def decodedInput (finalBuffer : Bool) (input : String8) : Decoded :=
  d.decodedSource (d.source finalBuffer input)

end Decoder

end Xpact.Native
