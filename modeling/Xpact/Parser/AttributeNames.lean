import Xpact.Parser.Scan

/-!
# Attributes without strings

The event-free path reads the attributes of a start tag without building a name or a value.  It
keeps the ranges of the names: the first ones in a list, and from the seventeenth on in an
open-addressing table.
-/

namespace Xpact

open Library Routine

/-- The range of an attribute name: its first and its last index. -/
abbrev NameRange := Nat × Nat

def NameRange.text (input : String8) (r : NameRange) : String8 := inputRange input r.1 r.2

/-! ## `XP_ATTRIBUTE_NAME_RANGE_SET` -/

/-- FNV-1a of a name, in 32 bits. -/
def rangeHash (text : String8) : Nat :=
  text.foldl (fun h c ↦ (h ^^^ c.toNat) * 16777619 % 4294967296) 2166136261

/-- A slot is empty, or holds a range with the hash of its text. -/
abbrev RangeSlots := List (Option (NameRange × Nat))

/-- The slot at which the search for a key with this hash ends, from `slot` on, and whether the
key is there.  The capacity is a power of two, so the mask of the source is a remainder. -/
def probeRange (isKey : NameRange × Nat → Bool) (slots : RangeSlots) : Nat → Nat → Nat × Bool
  | 0, slot => (slot, false)
  | n + 1, slot =>
    match slots.getD slot none with
    | none => (slot, false)
    | some entry =>
      if isKey entry then (slot, true)
      else probeRange isKey slots n ((slot + 1) % slots.length)

structure AttributeNameRangeSet where
  slots : RangeSlots
  count : Nat

namespace AttributeNameRangeSet

def capacity (s : AttributeNameRangeSet) : Nat := s.slots.length

/-- Put an entry, known to be absent, into the first free slot. -/
def place (slots : RangeSlots) (entry : NameRange × Nat) : RangeSlots :=
  let slot := (probeRange (fun _ ↦ false) slots slots.length (entry.2 % slots.length)).1
  slots.set slot (some entry)

/-- Reinsert the entries into a table of twice the capacity. -/
def grow (s : AttributeNameRangeSet) : AttributeNameRangeSet :=
  { s with
    slots := (s.slots.filterMap id).foldl place (List.replicate (s.capacity * 2) none) }

/-- Is the name already present?  Otherwise insert its range. -/
def hasOrInsert (s : AttributeNameRangeSet) (input : String8) (r : NameRange) :
    AttributeNameRangeSet × Bool :=
  let s := if s.capacity / 2 ≤ s.count then s.grow else s
  let hash := rangeHash (r.text input)
  let isKey (e : NameRange × Nat) : Bool := e.2 == hash && r.text input == e.1.text input
  let (slot, found) := probeRange isKey s.slots s.capacity (hash % s.capacity)
  if found then
    (s, true)
  else
    ({ slots := s.slots.set slot (some (r, hash)), count := s.count + 1 }, false)

/-- Twice as often as needed: the capacity that `make` starts with for this many later names. -/
def initialCapacity (later : Nat) : Nat → Nat → Nat
  | 0, capacity => capacity
  | n + 1, capacity =>
    if later + 1 < capacity / 2 then capacity else initialCapacity later n (capacity * 2)

/-- Seed the set with the distinct names already accepted. -/
def make (input : String8) (ranges : List NameRange) : AttributeNameRangeSet :=
  let capacity := initialCapacity (ranges.length - 1) ranges.length 32
  ranges.foldl (fun s r ↦ (s.hasOrInsert input r).1) ⟨List.replicate capacity none, 0⟩

end AttributeNameRangeSet

/-! ## The names of one start tag -/

/-- The names accepted so far, in order, until the table takes over. -/
structure SeenNames where
  ranges : List NameRange := []
  nameSet : Option AttributeNameRangeSet := none
  count : Nat := 0

/-- Is the name a duplicate?  Otherwise keep it. -/
def SeenNames.add (names : SeenNames) (input : String8) (r : NameRange) : SeenNames × Bool :=
  match names.nameSet with
  | some nameSet =>
    let (nameSet, duplicate) := nameSet.hasOrInsert input r
    ({ names with nameSet := some nameSet, count := names.count + 1 }, duplicate)
  | none =>
    if names.count = 16 then
      let (nameSet, duplicate) := (AttributeNameRangeSet.make input names.ranges).hasOrInsert input r
      ({ ranges := [], nameSet := some nameSet, count := names.count + 1 }, duplicate)
    else
      ({ names with ranges := names.ranges ++ [r], count := names.count + 1 },
        names.ranges.any fun other ↦ inputRangesSame input r.1 r.2 other.1 other.2)

/-! ## One attribute -/

/-- How the scan of a value without references ends. -/
inductive PlainValue where
  | closed (i : Nat)
  | unsupported
  | failed (message : String)
  | unterminated

/-- Scan a value from `i` on; `n` bounds the characters still to be read. -/
def plainValueFrom (input : String8) (quote : Character8) : Nat → Nat → PlainValue
  | 0, _ => .unterminated
  | n + 1, i =>
    if input.length < i then
      .unterminated
    else
      let c := input.item i
      let code := c.toNat
      if c = quote then .closed i
      else if c = '<' then .failed "left angle bracket in attribute value"
      else if c = '&' then .unsupported
      else if (32 ≤ code ∧ code < 128) ∨ code = 9 ∨ code = 10 then
        plainValueFrom input quote n (i + 1)
      else if code < 128 then .failed "invalid XML character"
      else if isIncompleteUtf8SequenceAt input i then .failed "partial character"
      else if !isXmlCharacterCode code then .failed "invalid XML character"
      else plainValueFrom input quote n (i + 1)

/-- Read one attribute: the index after it, or 0 when its value needs the other path, and the range
of its name. -/
def parseAttributeNoEvents (input : String8) (start : Nat) : Routine (Nat × NameRange) := do
  let stop := input.length + 1
  if !isNameStartCharacter (input.item start) then
    failAt "invalid attribute name" (stop, (0, 0))
  else
    let nameEnd ← scanName input start
    let range : NameRange := (start, nameEnd - 1)
    let equals := skipSpaces input nameEnd
    let quote := skipSpaces input (equals + 1)
    if input.length < equals ∨ input.item equals ≠ '=' then
      failAt "missing attribute equals" (stop, range)
    else if input.length < quote ∨ !isQuote (input.item quote) then
      failAt "missing attribute quote" (stop, range)
    else if ← hasError then
      return (stop, range)
    else
      match plainValueFrom input (input.item quote) stop (quote + 1) with
      | .closed i => return (i + 1, range)
      | .unsupported => return (0, range)
      | .failed message => failAt message (stop, range)
      | .unterminated => failAt "unterminated attribute value" (stop, range)

/-! ## All attributes of a tag -/

/-- The state of `parse_attributes_no_events`; index 0 stands for an unsupported value. -/
structure PlainAttributes where
  index : Nat
  names : SeenNames := {}

/-- Are the attributes of a tag over at `i`? -/
def endsAttributes (input : String8) (i : Nat) : Bool :=
  input.length < i || input.item i == '>' || input.item i == '/'

def plainAttributeStep (input : String8) (a : PlainAttributes) : Routine PlainAttributes := do
  let stop := { a with index := input.length + 1 }
  if (← config).maxAttributeCount ≤ a.names.count then
    failAt "attribute count exceeds limit" stop
  else
    let (next, range) ← parseAttributeNoEvents input a.index
    if next = 0 then
      return { a with index := 0 }
    else if ← hasError then
      return stop
    else
      let (names, duplicate) := a.names.add input range
      if duplicate then
        failAt "duplicate attribute" stop
      else
        return { index := ← skipSpacesBetweenAttributes input next, names := names }

/-- Index after the attributes, or 0 when one of them needs the other path. -/
def parseAttributesNoEvents (input : String8) (start : Nat) : Routine Nat := do
  let a ← Program.loop
    (fun a : PlainAttributes ↦
      return !(← isOngoing) || a.index == 0 || endsAttributes input a.index)
    (plainAttributeStep input) (input.length + 2 - start) { index := start }
  if a.index = 0 then return 0
  else if ← isOngoing then return a.index
  else return input.length + 1

end Xpact
