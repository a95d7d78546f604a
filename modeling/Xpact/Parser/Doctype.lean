import Xpact.Parser.Subset

/-!
# Document type declarations
-/

namespace Xpact

open Library Routine

/-! ## Default text -/

/-- The pieces of the text from `i` to `stop`: quoted literals, runs of white space, and the rest. -/
def doctypeTailPieces (input : String8) (stop : Nat) : Nat → Nat → List (Nat × Nat)
  | 0, _ => []
  | n + 1, i =>
    if stop < i then
      []
    else
      let c := input.item i
      let pieceEnd :=
        if isQuote c then
          let close := findCharacter input c (i + 1)
          if close = 0 ∨ stop < close then stop else close
        else if isXmlSpace c then
          min (skipSpaces input i) (stop + 1) - 1
        else
          i + (((input.take stop).drop i).takeWhile fun d ↦ !isXmlSpace d && !isQuote d).length
      (i, pieceEnd) :: doctypeTailPieces input stop n (pieceEnd + 1)

def emitDoctypeDefault (input : String8) (start stop : Nat) : Routine Unit :=
  emitDefaultWhen .startDoctype (input.substring start stop)

def emitDoctypeDefaultTail (input : String8) (start stop : Nat) : Routine Unit :=
  (doctypeTailPieces input stop (stop + 1) start).forM fun piece ↦
    whileOngoing (emitDoctypeDefault input piece.1 piece.2)

/-- The default text before the subset of a doctype, in the pieces Expat reports. -/
def emitDoctypeDefaultOpen (input : String8) (start nameStart nameEnd subsetStart close : Nat) :
    Routine Unit := do
  emitDoctypeDefault input start (start + 8)
  whileOngoing (emitDoctypeDefault input (start + 9) (nameStart - 1))
  whileOngoing (emitDoctypeDefault input nameStart nameEnd)
  whileOngoing do
    if 0 < subsetStart then
      emitDoctypeDefaultTail input (nameEnd + 1) (subsetStart - 1)
      whileOngoing (emitDoctypeDefault input subsetStart subsetStart)
    else
      emitDoctypeDefaultTail input (nameEnd + 1) (close - 1)

def emitDoctypeDefaultClose (hasInternalSubset : Bool) : Routine Unit := do
  if hasInternalSubset then
    emitDefaultWhen .endDoctype (str "]")
  whileOngoing (emitDefaultWhen .endDoctype (str ">"))

/-! ## Incomplete declarations -/

/-- Process an internal subset that begins at `offset + 1` of the document. -/
def atSubsetOffset (offset : Nat) (m : Routine Unit) : Routine Unit := do
  let before := (← flags).dtdSubsetPositionOffset
  assign fun f ↦ { f with dtdSubsetPositionOffset := offset }
  m
  assign fun f ↦ { f with dtdSubsetPositionOffset := before }

/-- Process complete declarations before the end of the internal subset arrives. -/
def processIncompleteDoctypePrefix (bound : Nat) (input : String8) (start : Nat) :
    Routine Unit := do
  let count := input.length
  let subsetStart := findUnquotedCharacter input '[' (start + 9) count
  let i := skipSpaces input (start + 9)
  if start + 9 ≤ count ∧ 0 < subsetStart ∧ start + 9 < i ∧ i < subsetStart ∧
      isNameStartCharacter (input.item i) then
    let nameEnd := (← scanName input i) - 1
    if !(← hasError) && skipSpaces input (nameEnd + 1) == subsetStart then
      let name := input.substring i nameEnd
      assign fun f ↦ { f with hasDoctype := true, doctypeName := name }
      emitDoctypeDefaultOpen input start i nameEnd subsetStart count
      whileOngoing (emit (.startDoctypeDecl name none none true))
      whileOngoing do
        let close := if subsetStart < count then findSubsetEnd input (subsetStart + 1) count else 0
        let subsetEnd := if close = 0 then count + 1 else close
        atSubsetOffset subsetStart
          (processInternalSubsetPrefix bound
            (input.substring (subsetStart + 1) (subsetEnd - 1)) false)

/-! ## Complete declarations -/

/-- The external identifier of the declaration between `i` and `externalEnd`, if there is one. -/
def parseDoctypeExternalId (input : String8) (i externalEnd : Nat) :
    Routine (Option (String8 × String8)) := do
  if (← hasError) || externalEnd ≤ i then
    return none
  else
    let (i, publicId, systemId) ←
      parseExternalId input i externalEnd "invalid doctype external identifier"
    if !(← hasError) && skipSpaces input i != externalEnd then
      setError "unexpected doctype declaration content"
    return some (publicId.getD [], systemId.getD [])

/-- Process the internal subset between `subsetStart` and the end of the declaration. -/
def parseDoctypeSubset (bound : Nat) (input : String8) (subsetStart close : Nat) :
    Routine Unit := do
  let subsetEnd := findSubsetEnd input (subsetStart + 1) close
  if subsetEnd = 0 then
    setError "unterminated internal subset"
  else if skipSpaces input (subsetEnd + 1) ≠ close then
    setError "unexpected content after internal subset"
  else
    atSubsetOffset subsetStart
      (processInternalSubset bound (input.substring (subsetStart + 1) (subsetEnd - 1)))

/-- Record the name of the declaration and check it. -/
def setDoctypeName (name : String8) : Routine Unit := do
  assign fun f ↦ { f with doctypeName := name }
  let cfg ← config
  if cfg.namespaceMode && !cfg.isValidQualifiedName name then
    let first := name.indexOf ':' 1
    if 0 < first ∧ 0 < name.indexOf ':' (first + 1) then
      setError "namespace syntax"
    else
      setError "invalid namespace name"
  else
    assign fun f ↦ { f with hasDoctype := true }

/-- The rest of a declaration whose name ends before `i`. -/
def parseDoctypeBody (bound : Nat) (input : String8) (start nameStart i close : Nat) :
    Routine Nat := do
  setDoctypeName (input.substring nameStart (i - 1))
  let subsetStart := findUnquotedCharacter input '[' i close
  let externalEnd := if !(← hasError) && 0 < subsetStart then subsetStart else close
  let next := skipSpaces input i
  if !(← hasError) && next < externalEnd && next == i then
    setError "missing space before doctype external identifier"
  let externalId ← parseDoctypeExternalId input next externalEnd
  unlessError (emitDoctypeDefaultOpen input start nameStart (i - 1) subsetStart close)
  whileOngoing do
    assign fun f ↦ { f with documentHasExternalSubset := externalId.isSome }
    if externalId.isSome then
      checkNotStandalone
    unlessError do
      let name := (← flags).doctypeName
      emit (.startDoctypeDecl name (externalId.bind fun ids ↦ optionalString ids.2)
        (externalId.bind fun ids ↦ optionalString ids.1) (0 < subsetStart))
  if 0 < subsetStart then
    whileOngoing (parseDoctypeSubset bound input subsetStart close)
  match externalId with
  | some (publicId, systemId) => whileOngoing (includeExternalSubset bound publicId systemId)
  | none => pure ()
  whileOngoing (emitDoctypeDefaultClose (0 < subsetStart))
  if ← hasError then
    return input.length + 1
  else
    whileOngoing (emit .endDoctypeDecl)
    return close + 1

def parseDoctype (bound : Nat) (input : String8) (start : Nat) : Routine Nat := do
  let stop := input.length + 1
  let s ← sight
  if s.core.flags.hasDoctype || 0 < s.core.documentElementCount || 0 < s.elementCount then
    failAt "doctype not allowed here" stop
  else
    let close := findDoctypeEnd input start
    if close = 0 then
      processIncompleteDoctypePrefix bound input start
      whileOngoing (setError "unterminated doctype")
      return stop
    else if s.config.maxTokenLength < close - start then
      failAt "doctype token exceeds limit" stop
    else
      let i ← skipRequiredSpaces input (start + 9) "missing space after DOCTYPE"
      if (← hasError) || input.length < i || !isNameStartCharacter (input.item i) then
        failAt "invalid doctype name" stop
      else
        parseDoctypeBody bound input start i (← scanName input i) close

end Xpact
