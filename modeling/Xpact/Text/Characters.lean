import Mathlib.Data.List.Basic

/-!
# Characters and strings

The parser works on 8-bit strings.  Positions are 1-based, as in the source: `item s 1` is the first
character, and `substring s i j` holds the characters from `i` to `j`, both included, or nothing when
the bounds are not inside the string.
-/

namespace Xpact

abbrev Character8 := UInt8

abbrev String8 := List Character8

instance : Coe Char Character8 := ⟨Char.toUInt8⟩

/-- A string constant of the source. -/
def str (s : String) : String8 := s.toList.map Char.toUInt8

/-- A property of each character of a string is decided along the string, not over all bytes. -/
instance decidableOnString (s : String8) (p : Character8 → Prop) [DecidablePred p] :
    Decidable (∀ c ∈ s, p c) :=
  List.decidableBAll p s

namespace String8

def item (s : String8) (i : Nat) : Character8 := s.getD (i - 1) 0

/-- The code of the character at `i`. -/
def code (s : String8) (i : Nat) : Nat := (item s i).toNat

def substring (s : String8) (i j : Nat) : String8 :=
  if 1 ≤ i ∧ i ≤ j ∧ j ≤ s.length then (s.drop (i - 1)).take (j + 1 - i) else []

/-- First index of `c` at or after `i`, or 0. -/
def indexOf (s : String8) (c : Character8) (i : Nat) : Nat :=
  match (s.drop (i - 1)).findIdx? (· == c) with
  | some k => i + k
  | none => 0

/-- Does `s` contain `c`? -/
def has (s : String8) (c : Character8) : Bool := s.contains c

end String8

/-! ## Character classes -/

def isQuote (c : Character8) : Bool := c.toNat == 34 || c.toNat == 39

def isXmlSpace (c : Character8) : Bool := c == ' ' || c == '\t' || c == '\n' || c == '\r'

def isXmlSpaceAscii (c : Character8) : Bool := c == ' ' || c == '\t' || c == '\n'

def isAllXmlSpace (s : String8) : Bool := s.all isXmlSpace

def isDigit (c : Character8) : Bool := 48 ≤ c.toNat && c.toNat ≤ 57

/-- `as_lower` on the ASCII letters. -/
def asLower (c : Character8) : Character8 :=
  if 65 ≤ c.toNat ∧ c.toNat ≤ 90 then c + 32 else c

/-- The XML 1.0 `Char` production. -/
def isXmlCharacterCode (code : Nat) : Bool :=
  code == 9 || code == 10 || code == 13 || (32 ≤ code && code ≤ 55295) ||
    (57344 ≤ code && code ≤ 65533) || (65536 ≤ code && code ≤ 1114111)

theorem isXmlCharacterCode_le {code : Nat} (h : isXmlCharacterCode code = true) :
    code ≤ 1114111 := by
  unfold isXmlCharacterCode at h
  simp at h
  omega

/-- `XP_ATTRIBUTES` repeats this test under the same name. -/
def isNameStartCharacter (c : Character8) : Bool :=
  let code := c.toNat
  (65 ≤ code && code ≤ 90) || (97 ≤ code && code ≤ 122) || code == 95 || code == 58 ||
    (192 ≤ code && code ≤ 255)

/-- `XP_ATTRIBUTES` repeats this test under the same name. -/
def isNameCharacter (c : Character8) : Bool :=
  let code := c.toNat
  (65 ≤ code && code ≤ 90) || (97 ≤ code && code ≤ 122) || (48 ≤ code && code ≤ 57) ||
    code == 95 || code == 58 || code == 45 || code == 46 || code == 183 ||
    (128 ≤ code && code ≤ 255)

def isPublicIdCharacter (c : Character8) : Bool :=
  let code := c.toNat
  (65 ≤ code && code ≤ 90) || (97 ≤ code && code ≤ 122) || (48 ≤ code && code ≤ 57) ||
    [32, 13, 10, 45, 39, 40, 41, 43, 44, 46, 47, 58, 61, 63, 59, 33, 42, 35, 64, 36, 95,
      37].contains code

def isValidPublicId (s : String8) : Bool := s.all isPublicIdCharacter

def sameNameCaseInsensitive (a b : String8) : Bool := a.map asLower == b.map asLower

/-- Does `version` satisfy `'1.' [0-9]+`? -/
def isValidVersionNumber (version : String8) : Bool :=
  3 ≤ version.length && version.item 1 == '1' && version.item 2 == '.' &&
    (version.drop 2).all isDigit

/-- Does `name` satisfy the XML 1.0 `EncName` production? -/
def isValidEncodingName (name : String8) : Bool :=
  let letter (c : Character8) : Bool :=
    (65 ≤ c.toNat && c.toNat ≤ 90) || (97 ≤ c.toNat && c.toNat ≤ 122)
  match name with
  | [] => false
  | c :: rest =>
    letter c && rest.all fun c ↦ letter c || isDigit c || c == '.' || c == '_' || c == '-'

/-- Drop leading and trailing spaces and keep one space of every run. -/
def collapseSpaces (value : String8) : String8 :=
  let squeezed := value.foldl (fun (out : String8) (c : Character8) ↦
    if c != ' ' || out.getLast?.any (· != (' ' : Character8)) then out ++ [c] else out) []
  if squeezed.getLast? == some (' ' : Character8) then squeezed.dropLast else squeezed

/-- `left_adjust` followed by `right_adjust`. -/
def adjusted (s : String8) : String8 :=
  let space (c : Character8) : Bool := c == ' ' || (9 ≤ c.toNat && c.toNat ≤ 13)
  ((s.dropWhile space).reverse.dropWhile space).reverse

/-- `value` without the empty string. -/
def optionalString (s : String8) : Option String8 := if s.isEmpty then none else some s

/-- `{UTF_CONVERTER}.utf_32_code_into_utf_8_string_8`: the UTF-8 bytes of one code point. -/
def utf8Bytes (code : Nat) : String8 :=
  if code ≤ 127 then
    [UInt8.ofNat code]
  else if code ≤ 2047 then
    [UInt8.ofNat (192 + code / 64), UInt8.ofNat (128 + code % 64)]
  else if code ≤ 65535 then
    [UInt8.ofNat (224 + code / 4096), UInt8.ofNat (128 + code / 64 % 64),
      UInt8.ofNat (128 + code % 64)]
  else
    [UInt8.ofNat (240 + code / 262144), UInt8.ofNat (128 + code / 4096 % 64),
      UInt8.ofNat (128 + code / 64 % 64), UInt8.ofNat (128 + code % 64)]

def decimalDigitValue (c : Character8) : Option Nat :=
  if isDigit c then some (c.toNat - 48) else none

def hexDigitValue (c : Character8) : Option Nat :=
  if isDigit c then
    some (c.toNat - 48)
  else if 97 ≤ (asLower c).toNat ∧ (asLower c).toNat ≤ 102 then
    some ((asLower c).toNat - 97 + 10)
  else
    none

end Xpact
