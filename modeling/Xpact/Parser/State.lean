import Xpact.Library.Program
import Xpact.Parser.Event

/-!
# The state of a parser

`XP_PARSER` in parts: its configuration, the core state that every routine can read, the stack of
open elements with its two representations, the view that the application has of the parse
(positions, error text and the events delivered so far), and the resolver, of which no routine sees
more than its answers.
-/

namespace Xpact

open Library

def maxEntityDepth : Nat := 32

def maxEntityExpansionBytes : Int := 8388608

def defaultMaxAttributeCount : Nat := 1024

structure Config where
  maxInputBytes : Nat := 10485760
  maxElementDepth : Nat := 256
  maxAttributeCount : Nat := 1024
  maxTokenLength : Nat := 1048576
  maxNameLength : Nat := 4096
  usesLegacyNameCharacterRanges : Bool := false
  externalEntityPolicy : ExternalEntityPolicy := .noExternalEntities
  skipUnreadExternalEntities : Bool := false
  namespaceMode : Bool := false
  namespaceSeparator : Character8 := 0
  returnNsTriplet : Bool := false
  externalEntityBase : Option String8 := none
  parameterEntitiesUnlessStandalone : Bool := false
  useForeignDtd : Bool := false
  inputByteOrderMarkRemoved : Bool := false

namespace Config

def isNameStartCode (cfg : Config) (code : Nat) : Bool :=
  Xpact.isNameStartCode cfg.usesLegacyNameCharacterRanges code

def isNameCode (cfg : Config) (code : Nat) : Bool :=
  Xpact.isNameCode cfg.usesLegacyNameCharacterRanges code

def isValidName (cfg : Config) (name : String8) : Bool :=
  Xpact.isValidName cfg.usesLegacyNameCharacterRanges cfg.maxNameLength name

def isValidNcname (cfg : Config) (name : String8) : Bool :=
  cfg.isValidName name && !name.has ':'

def isValidQualifiedName (cfg : Config) (name : String8) : Bool :=
  let colon := name.indexOf ':' 1
  if colon = 0 then
    cfg.isValidNcname name
  else if 1 < colon ∧ colon < name.length ∧ name.indexOf ':' (colon + 1) = 0 then
    cfg.isValidNcname (name.substring 1 (colon - 1)) &&
      cfg.isValidNcname (name.substring (colon + 1) name.length)
  else
    false

end Config

/-- Plain fields: they steer the parse, and any routine may assign them. -/
structure Flags where
  hasDoctype : Bool := false
  doctypeName : String8 := []
  documentHasExternalSubset : Bool := false
  foreignDtdLoaded : Bool := false
  notStandaloneChecked : Bool := false
  externalDtdDepth : Nat := 0
  parameterSubsetExpansionDepth : Nat := 0
  currentExternalEntityBase : Option String8 := none
  entityLiteralEndedByUndefinedParameter : Bool := false
  currentEntityLiteralAccountingAdjustment : Int := 0
  dtdSubsetPositionOffset : Nat := 0
  dtdEntityReferencePosition : Nat := 0

abbrev NamespaceScope := Table String8 String8

def xmlNamespaceUri : String8 := str "http://www.w3.org/XML/1998/namespace"

def xmlnsNamespaceUri : String8 := str "http://www.w3.org/2000/xmlns/"

/-- The scope that `reset_namespace_context` leaves. -/
def baseNamespaceScope : NamespaceScope := AList.singleton (str "xml") xmlNamespaceUri

/-- What every routine can read.  Stacks have their top first. -/
structure Core where
  hasError : Bool
  isSuspended : Bool
  declarations : Declarations
  entityStack : List String8
  expandedEntityBytes : Int
  documentElementCount : Nat
  namespaceContexts : List NamespaceScope
  namespaceDeclarations : List (List String8)
  parsingExternalEntity : Bool
  inputIsUtf8 : Bool
  lastAnswer : Option Answer
  flags : Flags

namespace Core

def context (c : Core) : EntityContext := c.declarations.context

/-- `active_entity_names`. -/
def activeEntityNames (c : Core) : List String8 :=
  c.declarations.inheritedActiveEntities ++ c.entityStack.reverse

def isEntityActive (c : Core) (name : String8) : Bool :=
  c.entityStack.contains name || c.declarations.inheritedActiveEntities.contains name

/-- Is markup read now that is not written in the internal subset or the document itself? -/
def readsExternalMarkup (c : Core) : Bool :=
  c.parsingExternalEntity || 0 < c.flags.externalDtdDepth ||
    0 < c.flags.parameterSubsetExpansionDepth

end Core

/-- `XP_TOKEN_SLICE`. -/
structure TokenSlice where
  buffer : String8
  startIndex : Nat
  count : Nat
  deriving DecidableEq

def TokenSlice.text (s : TokenSlice) : String8 := (s.buffer.drop (s.startIndex - 1)).take s.count

/-- The open elements.  The stack holds a name for each element; the elements opened through the
slice path have the empty marker there, and their names are in the slice stack. -/
structure Elements where
  stack : List String8
  sliceStack : List TokenSlice
  /-- End tags may not close elements at or below this depth. -/
  floor : Nat
  deriving DecidableEq

namespace Elements

def empty : Elements := ⟨[], [], 0⟩

def usesSlice (e : Elements) : Bool := e.sliceStack.length == e.stack.length

/-- The name of the innermost open element. -/
def top (e : Elements) : Option String8 :=
  if e.usesSlice then e.sliceStack.head?.map TokenSlice.text else e.stack.head?

/-- `open_element_matches_string`; on a range of an input, `open_element_matches_range`. -/
def openElementMatches (e : Elements) (name : String8) : Bool := e.top == some name

/-- `pop_open_element`. -/
def pop (e : Elements) : Elements :=
  { e with
    stack := e.stack.tail
    sliceStack := if e.usesSlice then e.sliceStack.tail else e.sliceStack }

/-- Slices are pushed on slices only, so they name the outermost of the open elements. -/
def IsAligned (e : Elements) : Prop := e.sliceStack.length ≤ e.stack.length

/-- The names of the open elements, innermost first. -/
def names (e : Elements) : List String8 :=
  e.stack.take (e.stack.length - e.sliceStack.length) ++ e.sliceStack.map TokenSlice.text

theorem usesSlice_iff {e : Elements} :
    e.usesSlice = true ↔ e.sliceStack.length = e.stack.length := beq_iff_eq

theorem names_of_usesSlice {e : Elements} (h : e.usesSlice = true) :
    e.names = e.sliceStack.map TokenSlice.text := by
  rw [names, usesSlice_iff.1 h, Nat.sub_self, List.take_zero, List.nil_append]

theorem length_names {e : Elements} (h : e.IsAligned) : e.names.length = e.stack.length := by
  unfold IsAligned at h
  rw [names, List.length_append, List.length_take, List.length_map]
  omega

theorem stack_eq_nil_iff {e : Elements} (h : e.IsAligned) : e.stack = [] ↔ e.names = [] := by
  rw [← List.length_eq_zero_iff, ← List.length_eq_zero_iff, length_names h]

/-- Above the slices there are strings only. -/
theorem names_of_not_usesSlice {e : Elements} (h : e.IsAligned) (hstrings : ¬e.usesSlice = true) :
    ∃ name rest, e.stack = name :: rest ∧ e.names = name :: { e with stack := rest }.names ∧
      e.sliceStack.length ≤ rest.length := by
  have hne : e.sliceStack.length ≠ e.stack.length := fun heq ↦ hstrings (usesSlice_iff.2 heq)
  unfold IsAligned at h
  cases hstack : e.stack with
  | nil =>
    rw [hstack, List.length_nil] at h hne
    omega
  | cons name rest =>
    rw [hstack, List.length_cons] at h hne
    have hpositive : rest.length + 1 - e.sliceStack.length =
        (rest.length - e.sliceStack.length) + 1 := by omega
    refine ⟨name, rest, rfl, ?_, by omega⟩
    rw [names, hstack, List.length_cons, hpositive, List.take_succ_cons, List.cons_append]
    rfl

theorem top_eq_head? {e : Elements} (h : e.IsAligned) : e.top = e.names.head? := by
  unfold top
  split
  · rename_i hslices
    rw [names_of_usesSlice hslices, List.head?_map]
  · rename_i hstrings
    obtain ⟨name, rest, hstack, hnames, -⟩ := names_of_not_usesSlice h hstrings
    rw [hstack, hnames, List.head?_cons, List.head?_cons]

theorem isAligned_pop {e : Elements} (h : e.IsAligned) : e.pop.IsAligned := by
  unfold IsAligned at h ⊢
  unfold pop
  by_cases hslices : e.usesSlice
  · rw [if_pos hslices, List.length_tail, List.length_tail]
    omega
  · obtain ⟨name, rest, hstack, -, hlength⟩ := names_of_not_usesSlice h hslices
    rw [if_neg hslices, hstack, List.tail_cons]
    exact hlength

theorem names_pop {e : Elements} (h : e.IsAligned) : e.pop.names = e.names.tail := by
  by_cases hslices : e.usesSlice
  · have hpop : e.pop.usesSlice = true := by
      rw [usesSlice_iff, pop, if_pos hslices, List.length_tail, List.length_tail,
        usesSlice_iff.1 hslices]
    rw [names_of_usesSlice hpop, names_of_usesSlice hslices, pop, if_pos hslices, List.map_tail]
  · obtain ⟨name, rest, hstack, hnames, -⟩ := names_of_not_usesSlice h hslices
    rw [hnames, List.tail_cons, pop, if_neg hslices, hstack, List.tail_cons]

theorem names_push {e : Elements} (h : e.IsAligned) (name : String8) :
    { e with stack := name :: e.stack }.names = name :: e.names := by
  unfold IsAligned at h
  have hpositive : e.stack.length + 1 - e.sliceStack.length =
      (e.stack.length - e.sliceStack.length) + 1 := by omega
  rw [names, names, List.length_cons, hpositive, List.take_succ_cons, List.cons_append]

theorem names_pushSlice {e : Elements} (h : e.usesSlice = true) (name : TokenSlice) :
    { e with stack := [] :: e.stack, sliceStack := name :: e.sliceStack }.names =
      name.text :: e.names := by
  rw [names_of_usesSlice h]
  refine names_of_usesSlice (usesSlice_iff.2 ?_)
  rw [List.length_cons, List.length_cons, usesSlice_iff.1 h]

end Elements

/-! ## The view of the application -/

structure View where
  lastError : String := ""
  positionInput : String8 := []
  currentPositionIndex : Nat := 0
  currentLineNumber : Nat := 1
  currentColumnNumber : Nat := 0
  currentByteIndex : Int := -1
  currentByteCount : Nat := 0
  lazyPositionAccounting : Bool := false
  /-- Start index and byte count of the active entity references, innermost first. -/
  entityReferencePositions : List (Nat × Nat) := []
  internalEntityExpansionDepth : Nat := 0
  events : List Event := []

namespace View

def boundedPositionIndex (v : View) (i : Nat) : Nat :=
  if i < 1 then 1 else if v.positionInput.length + 1 < i then v.positionInput.length + 1 else i

/-- Line and column after reading `text` from a line and a column. -/
def advanceOver (text : String8) (line column : Nat) : Nat × Nat :=
  text.foldl (fun p (c : Character8) ↦ if c = '\n' then (p.1 + 1, 0) else (p.1, p.2 + 1)) (line, column)

def recomputePositionFromStart (v : View) (i : Nat) : View :=
  let p := advanceOver (v.positionInput.take (i - 1)) 1 0
  { v with currentLineNumber := p.1, currentColumnNumber := p.2 }

def advancePositionTo (v : View) (i : Nat) : View :=
  let passed := (v.positionInput.take (i - 1)).drop (v.currentPositionIndex - 1)
  let p := advanceOver passed v.currentLineNumber v.currentColumnNumber
  { v with currentLineNumber := p.1, currentColumnNumber := p.2 }

def retreatPositionTo (v : View) (i : Nat) : View :=
  let distance := v.currentPositionIndex - i
  if distance ≤ v.currentColumnNumber then
    { v with currentColumnNumber := v.currentColumnNumber - distance }
  else
    let passed := (v.positionInput.take (v.currentPositionIndex - 1)).drop (i - 1)
    { v with
      currentLineNumber := v.currentLineNumber - passed.count ('\n' : Character8)
      currentColumnNumber :=
        ((v.positionInput.take (i - 1)).reverse.takeWhile fun c ↦
          c != ('\n' : Character8)).length }

/-- The index that is reported for `i`: inside an entity it is that of the reference. -/
def reportedIndex (v : View) (i : Nat) : Nat :=
  match v.internalEntityExpansionDepth, v.entityReferencePositions with
  | _ + 1, (start, _) :: _ => v.boundedPositionIndex start
  | _, _ => v.boundedPositionIndex i

/-- Line and column at `index`, from those of the current position. -/
def countLinesTo (v : View) (index : Nat) : View :=
  if v.lazyPositionAccounting then v
  else if v.currentPositionIndex = 0 then v.recomputePositionFromStart index
  else if index < v.currentPositionIndex then v.retreatPositionTo index
  else v.advancePositionTo index

def notePosition (v : View) (i : Nat) : View :=
  if v.positionInput.isEmpty ∧ i = 0 then
    v
  else
    let index := v.reportedIndex i
    { v.countLinesTo index with
      currentPositionIndex := index
      currentByteIndex := index - 1
      currentByteCount := 0 }

def noteTokenPosition (v : View) (i byteCount : Nat) : View :=
  { v.notePosition i with currentByteCount := byteCount }

def forceCurrentPosition (v : View) : View :=
  if v.lazyPositionAccounting ∧ 0 < v.currentPositionIndex then
    let index := v.boundedPositionIndex v.currentPositionIndex
    { v.recomputePositionFromStart index with
      currentPositionIndex := index
      currentByteIndex := index - 1
      currentByteCount := 0
      lazyPositionAccounting := false }
  else
    v

def noteCurrentEntityReferencePosition (v : View) : View :=
  match v.entityReferencePositions with
  | (start, byteCount) :: _ => v.noteTokenPosition start byteCount
  | [] => v

/-- The position part of `set_error`, and its message. -/
def recordError (v : View) (message : String) : View :=
  let v := { v with lastError := message }
  if 0 < v.currentPositionIndex then
    if v.lazyPositionAccounting then v.forceCurrentPosition
    else v.notePosition v.currentPositionIndex
  else
    v

end View

/-- What `parse_with_cached_doctype` keeps of a completed document type declaration. -/
structure CachedDoctype where
  textBefore : String8
  name : String8
  line : Nat
  column : Nat
  entityBytes : Int
  hasExternalSubset : Bool
  hasParameterReferences : Bool
  declarationsDisabled : Bool
  standalone : Int
  foreignLoaded : Bool
  notStandaloneChecked : Bool
  deriving DecidableEq

structure Parser where
  config : Config
  handler : Handler
  core : Core
  elements : Elements
  view : View
  cachedDoctype : Option CachedDoctype
  externalEntityResolver : Option Resolver
  /-- What the resolver has been asked so far. -/
  requests : List Reference

end Xpact
