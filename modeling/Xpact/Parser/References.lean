import Xpact.Parser.Misc

/-!
# References in literals

General entity references in attribute values, and parameter entity references in entity values.
The replacement text of an entity is scanned by the same routines again; each group takes the
routine for the nested text as a parameter, and the recursion is closed with a bound on its depth.
-/

namespace Xpact

open Library Routine

/-- The name when the whole replacement is one reference. -/
def singleEntityReferenceName (cfg : Config) (value : String8) (marker : Character8) :
    Option String8 :=
  let name := value.substring 2 (value.length - 1)
  if 2 < value.length ∧ value.item 1 = marker ∧ value.item value.length = ';' ∧
      cfg.isValidName name then
    some name
  else
    none

/-- The name that follows `name` in a chain of aliases among internal general entities. -/
def nextGeneralAlias (cfg : Config) (c : EntityContext) (name : String8) :
    Option (String8 × String8) :=
  match c.entityValue name with
  | some value =>
    match singleEntityReferenceName cfg value '&' with
    | some next =>
      if !isPredefinedEntity next && (c.entityValue next).isSome then some (value, next) else none
    | none => none
  | none => none

/-- The name that follows `name` in a chain of aliases among internal parameter entities. -/
def nextParameterAlias (cfg : Config) (c : EntityContext) (name : String8) : Option String8 :=
  match c.parameterEntityValue name with
  | some value =>
    match singleEntityReferenceName cfg value '%' with
    | some next => if (c.parameterEntityValue next).isSome then some next else none
    | none => none
  | none => none

/-- A walk along aliases: the current name, the names seen, and whether the walk has ended. -/
structure AliasWalk where
  name : String8
  seen : List String8 := []
  isDone : Bool := false

/-- More rounds than any walk among the entities of `table` takes, since no name is seen twice. -/
def aliasBound {ν : Type} (table : Table String8 ν) : Nat := table.entries.length + 3

def walkFinished (w : AliasWalk) : Routine Bool := return w.isDone || (← hasError)

def resolvedGeneralEntityNameStep (w : AliasWalk) : Routine AliasWalk := do
  let s ← sight
  let c := s.core.context
  if s.core.declarations.dtdIsStandalone && !s.core.readsExternalMarkup &&
      c.isGeneralEntityDeclaredExternally w.name then
    failAt "standalone reference to externally declared entity" w
  else if w.seen.contains w.name || s.core.isEntityActive w.name then
    failAt "recursive entity reference" w
  else
    match nextGeneralAlias s.config c w.name with
    | some (value, next) => do
      noteEntityExpansion value.length
      return { w with name := next, seen := w.name :: w.seen }
    | none => return { w with isDone := true }

/-- Follow linear aliases of a general entity. -/
def resolvedGeneralEntityName (name : String8) : Routine String8 := do
  let bound := aliasBound (← context).entity
  let w ← Program.loop walkFinished resolvedGeneralEntityNameStep bound { name }
  return w.name

def resolvedParameterEntityNameStep (w : AliasWalk) : Routine AliasWalk := do
  let s ← sight
  if w.seen.contains w.name || s.core.isEntityActive w.name then
    failAt "recursive entity reference" w
  else
    match nextParameterAlias s.config s.core.context w.name with
    | some next => do
      noteEntityExpansion (s.core.context.parameterEntityAccountingValue w.name)
      return { w with name := next, seen := w.name :: w.seen }
    | none => return { w with isDone := true }

/-- Follow linear aliases of a parameter entity. -/
def resolvedParameterEntityName (name : String8) : Routine String8 := do
  let bound := aliasBound (← context).parameterEntity
  let w ← Program.loop walkFinished resolvedParameterEntityNameStep bound { name }
  return w.name

def appendPredefinedEntity (name : String8) : Routine String8 := do
  match (← context).entityValue name with
  | some value => do
    noteEntityExpansion value.length
    return value
  | none => return []

/-- The general entity may be declared where a non-validating parser does not read. -/
def mayBeDeclaredUnread (c : Core) : Bool :=
  (c.flags.documentHasExternalSubset || c.declarations.dtdHasParameterEntityReferences) &&
    c.declarations.xmlStandalone != 1

/-! ## General entities in literals -/

section Literal

variable (expandLiteralText : String8 → Routine String8)

/-- WFC "No External Entity References" holds even when loading is enabled. -/
def includeExternalEntityInLiteral (_e : ExternalEntity) : Routine String8 :=
  failAt "reference to external entity in attribute" []

def includeGeneralEntityInLiteral (name : String8) : Routine String8 := do
  let name ← resolvedGeneralEntityName name
  let s ← sight
  let c := s.core.context
  if s.core.hasError then
    return []
  else if s.core.isEntityActive name then
    failAt "recursive entity reference" []
  else if maxEntityDepth ≤ s.core.entityStack.length then
    failAt "entity expansion depth exceeded" []
  else
    match c.entityValue name, c.lookupExternalEntity name with
    | some value, _ => do
      noteEntityExpansion value.length
      if ← hasError then
        return []
      else
        pushEntity name
        let text ← expandLiteralText value
        popEntity
        return text
    | none, some e => includeExternalEntityInLiteral e
    | none, none =>
      if mayBeDeclaredUnread s.core then return [] else failAt "undefined entity" []

/-- Expand the reference at `start`: the index after it and the text it stands for. -/
def appendReferenceInLiteral (input : String8) (start : Nat) : Routine (Nat × String8) := do
  let stop := input.length + 1
  let close := findCharacter input ';' (start + 1)
  let name := input.substring (start + 1) (close - 1)
  if close = 0 then
    failAt "unterminated reference" (stop, [])
  else if close ≤ start + 1 then
    failAt "empty reference" (stop, [])
  else if input.item (start + 1) = '#' then
    return (close + 1, ← appendCharacterReference (input.substring (start + 2) (close - 1)))
  else if !(← config).isValidName name then
    failAt "invalid entity name" (stop, [])
  else if isPredefinedEntity name then
    return (close + 1, ← appendPredefinedEntity name)
  else
    let text ← includeGeneralEntityInLiteral expandLiteralText name
    return (if ← hasError then stop else close + 1, text)

/-- White space counts as a space in an attribute value. -/
def literalCharacter (c : Character8) : Character8 := if isXmlSpace c then ' ' else c

def expandLiteralTextStep (content : String8) : Nat × String8 → Routine (Nat × String8)
  | (i, out) => do
    let c := content.item i
    let stop := content.length + 1
    if c = '&' then
      let (i, text) ← appendReferenceInLiteral expandLiteralText content i
      return (i, out ++ text)
    else if c = '<' then
      failAt "left angle bracket in entity replacement text" (stop, out)
    else if !isXmlCharacterCode c.toNat then
      failAt "invalid XML character" (stop, out)
    else
      return (i + 1, out ++ [literalCharacter c])

end Literal

/-- Expand replacement text as literal character data. -/
def expandLiteralText : Nat → String8 → Routine String8
  | 0, _ => .stuck
  | depth + 1, content => do
    let (_, text) ← Program.loop
      (fun s : Nat × String8 ↦ return content.length < s.1 || !(← isOngoing))
      (expandLiteralTextStep (expandLiteralText depth) content) (content.length + 1) (1, [])
    return text

def parseAttributeValueStep (depth : Nat) (input : String8) :
    Nat × String8 → Routine (Nat × String8)
  | (i, out) => do
    let c := input.item i
    let stop := input.length + 1
    if c = '<' then
      failAt "left angle bracket in attribute value" (stop, out)
    else if c = '&' then
      let (i, text) ← appendReferenceInLiteral (expandLiteralText depth) input i
      return (i, out ++ text)
    else if isIncompleteUtf8SequenceAt input i then
      failAt "partial character" (stop, out)
    else if !isXmlCharacterCode c.toNat then
      failAt "invalid XML character" (stop, out)
    else
      return (i + 1, out ++ [literalCharacter c])

/-- Parse and normalize an attribute value up to `quote`. -/
def parseAttributeValue (depth : Nat) (input : String8) (start : Nat) (quote : Character8) :
    Routine (Nat × String8) := do
  let (i, value) ← Program.loop
    (fun s : Nat × String8 ↦
      return input.length < s.1 || (← hasError) || input.item s.1 == quote)
    (parseAttributeValueStep depth input) (input.length + 2 - start) (start, [])
  if ← hasError then
    return (input.length + 1, value)
  else if input.length < i then
    failAt "unterminated attribute value" (input.length + 1, value)
  else
    return (i, value)

/-! ## Entity values -/

/-- Expand a character reference and bypass a general reference. -/
def appendReferenceInEntityValue (input : String8) (start : Nat) : Routine (Nat × String8) := do
  let stop := input.length + 1
  let close := findCharacter input ';' (start + 1)
  if close = 0 then
    failAt "unterminated reference" (stop, [])
  else if close ≤ start + 1 then
    failAt "empty reference" (stop, [])
  else if input.item (start + 1) = '#' then
    return (close + 1, ← appendCharacterReference (input.substring (start + 2) (close - 1)))
  else if !(← config).isValidName (input.substring (start + 1) (close - 1)) then
    failAt "invalid entity name" (stop, [])
  else
    return (close + 1, input.substring start close)

/-- Resolve and append an external parameter entity. -/
def appendExternalParameterEntityInLiteral (e : ExternalEntity) : Routine String8 := do
  let base := (← flags).currentExternalEntityBase
  let text ← do
    if !(← parameterEntityLoadingAllowed) then
      failAt "external entity not loaded" []
    else if !(← hasResolver) then
      failAt "external entity resolver missing" []
    else
      checkNotStandalone
      if ← hasError then
        pure []
      else
        match ← resolvedEntityReplacement e true with
        | none => failAt "external entity not resolved" []
        | some (text, answer) => do
          if !answer.isExternalChildParse then
            noteEntityExpansion text.length
          else if (text.length : Int) < answer.replacementByteCount then
            assign fun f ↦ { f with
              currentEntityLiteralAccountingAdjustment :=
                f.currentEntityLiteralAccountingAdjustment + answer.replacementByteCount -
                  text.length }
          if ← hasError then pure [] else pure text
  assign fun f ↦ { f with currentExternalEntityBase := base }
  return text

section EntityValue

variable (appendParameterEntityLiteral : String8 → Routine String8)

/-- Expand the parameter reference at `start` in an entity value. -/
def appendParameterReferenceInEntityValue (input : String8) (start : Nat) :
    Routine (Nat × String8) := do
  let stop := input.length + 1
  let close := findCharacter input ';' (start + 1)
  let name := input.substring (start + 1) (close - 1)
  let s ← sight
  let c := s.core.context
  if close = 0 then
    failAt "unterminated parameter entity reference" (stop, [])
  else if !s.config.isValidName name then
    failAt "invalid parameter entity name" (stop, [])
  else if !s.core.readsExternalMarkup then
    failAt "parameter entity reference in internal subset declaration" (stop, [])
  else if s.core.isEntityActive name then
    failAt "recursive entity reference" (stop, [])
  else
    match c.parameterEntityValue name, c.lookupExternalParameterEntity name with
    | some _, _ => return (close + 1, ← appendParameterEntityLiteral name)
    | none, some e => do
      let text ← appendExternalParameterEntityInLiteral e
      return (if ← hasError then stop else close + 1, text)
    | none, none => do
      Program.command .noteParameterEntityReference
      Program.command .disableDeclarations
      assign fun f ↦ { f with entityLiteralEndedByUndefinedParameter := true }
      return (close + 1, [])

/-- Is the scan of an entity value over? -/
def entityValueFinished (input : String8) (s : Nat × String8) : Routine Bool := do
  return input.length < s.1 || (← hasError) || (← flags).entityLiteralEndedByUndefinedParameter

def appendParameterTextStep (text : String8) : Nat × String8 → Routine (Nat × String8)
  | (i, out) => do
    if text.code i = 37 then
      let (i, more) ← appendParameterReferenceInEntityValue appendParameterEntityLiteral text i
      return (i, out ++ more)
    else
      return (i + 1, out ++ [text.item i])

/-- One link of `append_parameter_entity_literal`, with the text appended so far. -/
def appendParameterEntityLiteralStep : AliasWalk × String8 → Routine (AliasWalk × String8)
  | (w, out) => do
    let s ← sight
    let c := s.core.context
    if s.core.isEntityActive w.name || w.seen.contains w.name then
      failAt "recursive entity reference" (w, out)
    else
      match c.parameterEntityValue w.name with
      | none => failAt "undefined parameter entity" (w, out)
      | some value => do
        let w := { w with seen := w.name :: w.seen }
        noteEntityExpansion (c.parameterEntityAccountingValue w.name)
        if ← hasError then
          return (w, out)
        else
          match nextParameterAlias s.config c w.name with
          | some next => return ({ w with name := next }, out)
          | none =>
            if maxEntityDepth ≤ s.core.entityStack.length then
              failAt "entity expansion depth exceeded" (w, out)
            else do
              pushEntity w.name
              let (_, out) ← Program.loop (entityValueFinished value)
                (appendParameterTextStep appendParameterEntityLiteral value) (value.length + 1)
                (1, out)
              popEntity
              return ({ w with isDone := true }, out)

end EntityValue

/-- Expand parameter replacement text. -/
def appendParameterEntityLiteral : Nat → String8 → Routine String8
  | 0, _ => .stuck
  | depth + 1, name => do
    let before ← core
    let (_, text) ← Program.loop (fun s : AliasWalk × String8 ↦ walkFinished s.1)
      (appendParameterEntityLiteralStep (appendParameterEntityLiteral depth))
      (aliasBound before.context.parameterEntity) ({ name }, [])
    let after ← core
    assign fun f ↦ { f with
      currentEntityLiteralAccountingAdjustment :=
        before.flags.currentEntityLiteralAccountingAdjustment + after.expandedEntityBytes -
          before.expandedEntityBytes - text.length }
    return text

def parseEntityLiteralStep (depth : Nat) (input : String8) : Nat × String8 → Routine (Nat × String8)
  | (i, out) => do
    let c := input.item i
    if c = '&' then
      let (i, text) ← appendReferenceInEntityValue input i
      return (i, out ++ text)
    else if c.toNat = 37 then
      let (i, text) ←
        appendParameterReferenceInEntityValue (appendParameterEntityLiteral depth) input i
      return (i, out ++ text)
    else if !isXmlCharacterCode c.toNat then
      failAt "invalid XML character" (input.length + 1, out)
    else
      return (i + 1, out ++ [c])

/-- Parse an entity value up to `quote`, expanding character and parameter references. -/
def parseEntityLiteral (depth : Nat) (input : String8) (start : Nat) (quote : Character8) :
    Routine (Nat × String8) := do
  assign fun f ↦ { f with entityLiteralEndedByUndefinedParameter := false }
  let (i, value) ← Program.loop
    (fun s ↦ return (← entityValueFinished input s) || input.item s.1 == quote)
    (parseEntityLiteralStep depth input) (input.length + 2 - start) (start, [])
  if ← hasError then
    return (input.length + 1, value)
  else
    let i ←
      if (← flags).entityLiteralEndedByUndefinedParameter then
        match findCharacter input quote i with
        | 0 => pure (input.length + 1)
        | close + 1 => pure (close + 1)
      else
        pure i
    if input.length < i then
      failAt "unterminated entity literal" (input.length + 1, value)
    else
      return (i, value)

end Xpact
