import Xpact.Text.Characters

/-!
# Scanning without state

The searches of the parser that read a string and nothing else.  An index is always returned in
the coordinates of the whole string; 0 stands for "not found", as in the source.
-/

namespace Xpact

/-- Does `marker` appear at `i` in `input`? -/
def hasAt (input : String8) (i : Nat) (marker : String8) : Bool :=
  marker.isPrefixOf (input.drop (i - 1))

/-- Does the end of `input` hold a proper, non-empty beginning of `marker` at `i`? -/
def isIncompleteMarkerAtEnd (input : String8) (i : Nat) (marker : String8) : Bool :=
  let remaining := input.drop (i - 1)
  !remaining.isEmpty && remaining.length < marker.length && remaining.isPrefixOf marker

def hasKeywordAt (input : String8) (i : Nat) (keyword : String8) : Bool :=
  let next := i + keyword.length
  hasAt input i keyword && (input.length < next || !isNameCharacter (input.item next))

def skipSpaces (input : String8) (i : Nat) : Nat :=
  i + ((input.drop (i - 1)).takeWhile isXmlSpace).length

def findCharacter (input : String8) (c : Character8) (i : Nat) : Nat := input.indexOf c i

/-- Where `marker` first begins in `rest`, counted from `i`. -/
def findSequenceIn (marker : String8) : String8 → Nat → Nat
  | [], _ => 0
  | c :: rest, i =>
    if marker.isPrefixOf (c :: rest) then i else findSequenceIn marker rest (i + 1)

/-- First index of `marker` at or after `i`, or 0. -/
def findSequence (input marker : String8) (i : Nat) : Nat :=
  findSequenceIn marker (input.drop (i - 1)) i

/-! ## Scans that step over quoted text -/

/-- First unquoted `>` in `rest`, counted from `i`; `quote` is the open quote. -/
def findMarkupEndIn : Option Character8 → String8 → Nat → Nat
  | _, [], _ => 0
  | some quote, c :: rest, i => findMarkupEndIn (if c = quote then none else some quote) rest (i + 1)
  | none, c :: rest, i =>
    if isQuote c then findMarkupEndIn (some c) rest (i + 1)
    else if c = '>' then i
    else findMarkupEndIn none rest (i + 1)

def findMarkupDeclarationEnd (input : String8) (start : Nat) : Nat :=
  let i := min (start + 2) (input.length + 1)
  findMarkupEndIn none (input.drop (i - 1)) i

/-- First unquoted `wanted` in `rest`, counted from `i`. -/
def findUnquotedIn (wanted : Character8) : Option Character8 → String8 → Nat → Nat
  | _, [], _ => 0
  | some quote, c :: rest, i =>
    findUnquotedIn wanted (if c = quote then none else some quote) rest (i + 1)
  | none, c :: rest, i =>
    if isQuote c then findUnquotedIn wanted (some c) rest (i + 1)
    else if c = wanted then i
    else findUnquotedIn wanted none rest (i + 1)

def findUnquotedCharacter (input : String8) (c : Character8) (start stop : Nat) : Nat :=
  findUnquotedIn c none ((input.take stop).drop (start - 1)) start

/-- Index after the comment or processing instruction at `start`, or `stop + 1`. -/
def indexAfterSubsetCommentOrPi (input : String8) (start stop : Nat) : Nat :=
  if hasAt input start (str "<!--") then
    let close := findSequence input (str "-->") (start + 4)
    if 0 < close ∧ close + 2 ≤ stop then close + 3 else stop + 1
  else
    let close := findSequence input (str "?>") (start + 2)
    if 0 < close ∧ close + 1 ≤ stop then close + 2 else stop + 1

def beginsCommentOrPi (input : String8) (i : Nat) : Bool :=
  hasAt input i (str "<!--") || hasAt input i (str "<?")

/-- The scan of `find_doctype_end`; `n` bounds the characters still to be read. -/
def findDoctypeEndFrom (input : String8) : Nat → Option Character8 → Nat → Nat → Nat
  | 0, _, _, _ => 0
  | n + 1, quote, depth, i =>
    if input.length < i then
      0
    else
      let c := input.item i
      match quote with
      | some q => findDoctypeEndFrom input n (if c = q then none else some q) depth (i + 1)
      | none =>
        if 0 < depth ∧ c = '<' ∧ beginsCommentOrPi input i then
          findDoctypeEndFrom input n none depth (indexAfterSubsetCommentOrPi input i input.length)
        else if isQuote c then findDoctypeEndFrom input n (some c) depth (i + 1)
        else if c = '[' then findDoctypeEndFrom input n none (depth + 1) (i + 1)
        else if c = ']' ∧ 0 < depth then findDoctypeEndFrom input n none (depth - 1) (i + 1)
        else if c = '>' ∧ depth = 0 then i
        else findDoctypeEndFrom input n none depth (i + 1)

def findDoctypeEnd (input : String8) (start : Nat) : Nat :=
  findDoctypeEndFrom input (input.length + 1) none 0 (start + 9)

/-- The scan of `find_subset_end`; `n` bounds the characters still to be read. -/
def findSubsetEndFrom (input : String8) (stop : Nat) : Nat → Option Character8 → Nat → Nat
  | 0, _, _ => 0
  | n + 1, quote, i =>
    if stop < i then
      0
    else
      let c := input.item i
      match quote with
      | some q => findSubsetEndFrom input stop n (if c = q then none else some q) (i + 1)
      | none =>
        if c = '<' ∧ beginsCommentOrPi input i then
          findSubsetEndFrom input stop n none (indexAfterSubsetCommentOrPi input i stop)
        else if isQuote c then findSubsetEndFrom input stop n (some c) (i + 1)
        else if c = ']' then i
        else findSubsetEndFrom input stop n none (i + 1)

def findSubsetEnd (input : String8) (start stop : Nat) : Nat :=
  findSubsetEndFrom input stop (stop + 1) none start

/-- The scan of `find_conditional_section_end`; `n` bounds the characters still to be read. -/
def findConditionalEndFrom (input : String8) : Nat → Nat → Nat → Nat
  | 0, _, _ => 0
  | n + 1, depth, i =>
    if input.length < i then 0
    else if hasAt input i (str "<![") then findConditionalEndFrom input n (depth + 1) (i + 3)
    else if hasAt input i (str "]]>") then
      if depth = 1 then i else findConditionalEndFrom input n (depth - 1) (i + 3)
    else findConditionalEndFrom input n depth (i + 1)

def findConditionalSectionEnd (input : String8) (start : Nat) : Nat :=
  findConditionalEndFrom input (input.length + 1) 1 (start + 3)

/-! ## Incomplete input -/

/-- Does the markup at `i` lack its closing delimiter in this prefix? -/
def isIncompleteMarkupPrefix (input : String8) (i : Nat) : Bool :=
  let close :=
    if hasAt input i (str "<!--") then findSequence input (str "-->") (i + 4)
    else if hasAt input i (str "<![CDATA[") then findSequence input (str "]]>") (i + 9)
    else if hasAt input i (str "<!DOCTYPE") then findDoctypeEnd input i
    else if hasAt input i (str "<?") then findSequence input (str "?>") (i + 2)
    else findMarkupDeclarationEnd input i
  close == 0

/-- End of the markup at `start`, or 0 while it is incomplete. -/
def markupPrefixEnd (input : String8) (start : Nat) : Nat :=
  -- `close` is where the closer begins, `more` the number of its other characters.
  let closing (close more : Nat) : Nat := if 0 < close then close + more else 0
  if hasAt input start (str "<!--") then closing (findSequence input (str "-->") (start + 4)) 2
  else if hasAt input start (str "<![CDATA[") then
    closing (findSequence input (str "]]>") (start + 9)) 2
  else if hasAt input start (str "<!DOCTYPE") then findDoctypeEnd input start
  else if hasAt input start (str "<?") then closing (findSequence input (str "?>") (start + 2)) 1
  else findMarkupDeclarationEnd input start

/-- The scan of `complete_dtd_prefix_end`; `n` bounds the characters still to be read. -/
def completeDtdPrefixEndFrom (subset : String8) : Nat → Nat → Nat → Nat
  | 0, _, complete => complete
  | n + 1, i, complete =>
    -- A token whose end is `close` leaves the scan right after it.
    let token (close : Nat) : Nat :=
      if close = 0 then complete else completeDtdPrefixEndFrom subset n (close + 1) close
    let closing (marker : String8) (from_ : Nat) : Nat :=
      match findSequence subset marker from_ with
      | 0 => 0
      | close + 1 => close + marker.length
    if subset.length < i then complete
    else if isXmlSpace (subset.item i) then completeDtdPrefixEndFrom subset n (i + 1) i
    else if hasAt subset i (str "<!--") then token (closing (str "-->") (i + 4))
    else if hasAt subset i (str "<?") then token (closing (str "?>") (i + 2))
    else if hasAt subset i (str "<![") then token (closing (str "]]>") (i + 3))
    else if hasAt subset i (str "<!") then token (findMarkupDeclarationEnd subset i)
    else if subset.code i = 37 then token (findCharacter subset ';' (i + 1))
    else if subset.item i = '<' then complete
    else subset.length

def completeDtdPrefixEnd (subset : String8) : Nat :=
  completeDtdPrefixEndFrom subset (subset.length + 1) 1 0

/-- The scan of `looks_like_external_subset`; `n` bounds the characters still to be read. -/
def looksLikeExternalSubsetFrom (input : String8) : Nat → Nat → Bool
  | 0, _ => false
  | n + 1, i =>
    if input.length < i then false
    else if isXmlSpace (input.item i) then looksLikeExternalSubsetFrom input n (i + 1)
    else if hasAt input i (str "<!--") then
      match findSequence input (str "-->") (i + 4) with
      | 0 => false
      | close + 1 => looksLikeExternalSubsetFrom input n (close + 4)
    else if hasAt input i (str "<?") then
      match findSequence input (str "?>") (i + 2) with
      | 0 => false
      | close + 1 => looksLikeExternalSubsetFrom input n (close + 3)
    else
      [str "<!ENTITY", str "<!ATTLIST", str "<!ELEMENT", str "<!NOTATION", str "<![IGNORE[",
        str "<![INCLUDE[", str "<![%"].any (hasAt input i) || input.code i == 37

def looksLikeExternalSubset (input : String8) : Bool :=
  looksLikeExternalSubsetFrom input (input.length + 1) 1

/-! ## Ranges of one input -/

def inputRange (input : String8) (start stop : Nat) : String8 :=
  (input.drop (start - 1)).take (stop + 1 - start)

def inputRangesSame (input : String8) (start stop otherStart otherStop : Nat) : Bool :=
  inputRange input start stop == inputRange input otherStart otherStop

end Xpact
