import Xpact.Parser.References

/-!
# Namespaces and default attributes

What a start tag means once its attributes are read: the defaults its declarations add, the
namespace bindings it makes, and the expanded names that are reported.
-/

namespace Xpact

open Library Routine

/-! ## Default attributes -/

def applyDefaultAttribute (d : AttributeDecl) (a : Attributes) : Routine Attributes := do
  let a := if d.isId && a.has d.name then a.markIdAttribute d.name else a
  let a :=
    match a.item d.name with
    | some value =>
      if d.attributeType = str "CDATA" then a else a.replaceValue d.name (collapseSpaces value)
    | none => a
  match d.defaultValue with
  | some value =>
    if a.has d.name then
      return a
    else if (← config).maxAttributeCount ≤ a.count then
      failAt "attribute count exceeds limit" a
    else
      let a := a.putDefault d.name value
      return if d.isId then a.markIdAttribute d.name else a
  | none => return a

/-- Add the declared defaults of absent attributes. -/
def applyDefaultAttributes (elementName : String8) (a : Attributes) : Routine Attributes := do
  ((← context).attributeDecls elementName).foldlM
    (fun a d ↦ do if ← hasError then return a else applyDefaultAttribute d a) a

/-! ## Namespace declarations -/

def isNamespaceDeclarationName (name : String8) : Bool :=
  name == str "xmlns" || (6 < name.length && (str "xmlns:").isPrefixOf name)

/-- Declared prefix, empty for the default namespace. -/
def namespaceDeclarationPrefix (name : String8) : String8 :=
  if name = str "xmlns" then [] else name.drop 6

def namespaceUriContainsForbiddenSeparator (cfg : Config) (uri : String8) : Bool :=
  cfg.namespaceSeparator.toNat != 0 && isXmlSpace cfg.namespaceSeparator &&
    uri.has cfg.namespaceSeparator

/-- The error of a namespace declaration, if it has one. -/
def namespaceDeclarationError (cfg : Config) (nsPrefix uri : String8) : Option String :=
  if nsPrefix = str "xmlns" then some "reserved prefix xmlns"
  else if nsPrefix = str "xml" ∧ uri ≠ xmlNamespaceUri then some "reserved prefix xml"
  else if nsPrefix ≠ str "xml" ∧ (uri = xmlNamespaceUri ∨ uri = xmlnsNamespaceUri) then
    some "reserved namespace URI"
  else if nsPrefix ≠ [] ∧ uri = [] then some "undeclaring prefix"
  else if namespaceUriContainsForbiddenSeparator cfg uri then some "namespace separator in URI"
  else none

def validateNamespaceDeclaration (nsPrefix uri : String8) : Routine Unit := do
  match namespaceDeclarationError (← config) nsPrefix uri with
  | some message => setError message
  | none => return

/-- The scope of a start tag, and the prefixes it declares in source order. -/
def namespaceScopeForElement (a : Attributes) (outer : NamespaceScope) :
    Routine (NamespaceScope × List String8) :=
  a.pairs.foldlM (fun (scope, declared) (name, value) ↦ do
    if (← hasError) || !isNamespaceDeclarationName name then
      return (scope, declared)
    else
      let nsPrefix := namespaceDeclarationPrefix name
      validateNamespaceDeclaration nsPrefix value
      if ← hasError then
        return (scope, declared)
      else
        return (scope.insert nsPrefix value, declared ++ [nsPrefix])) (outer, [])

/-! ## Expanded names -/

def expandedNamespaceName (cfg : Config) (uri localName nsPrefix : String8) : String8 :=
  let separator := if cfg.namespaceSeparator.toNat = 0 then [] else [cfg.namespaceSeparator]
  uri ++ separator ++ localName ++
    (if cfg.returnNsTriplet && !nsPrefix.isEmpty then separator ++ nsPrefix else [])

/-- The URI bound to a prefix, unless it is empty. -/
def boundUri (scope : NamespaceScope) (nsPrefix : String8) : Option String8 :=
  (scope.lookup nsPrefix).filter fun uri ↦ !uri.isEmpty

/-- The expanded form of an element name, or the message of the error. -/
def expandElementName (cfg : Config) (name : String8) (scope : NamespaceScope) :
    Except String String8 :=
  let colon := name.indexOf ':' 1
  if colon = 0 then
    match boundUri scope [] with
    | some uri => .ok (expandedNamespaceName cfg uri name [])
    | none => .ok name
  else
    let nsPrefix := name.substring 1 (colon - 1)
    if nsPrefix = str "xmlns" then
      .error "reserved prefix xmlns"
    else
      match boundUri scope nsPrefix with
      | some uri =>
        .ok (expandedNamespaceName cfg uri (name.substring (colon + 1) name.length) nsPrefix)
      | none => .error "unbound namespace prefix"

/-- The expanded form of an attribute name, or the message of the error. -/
def expandAttributeName (cfg : Config) (name : String8) (scope : NamespaceScope) :
    Except String String8 :=
  let colon := name.indexOf ':' 1
  if colon = 0 then
    .ok name
  else
    let nsPrefix := name.substring 1 (colon - 1)
    match boundUri scope nsPrefix with
    | some uri =>
      .ok (expandedNamespaceName cfg uri (name.substring (colon + 1) name.length) nsPrefix)
    | none => .error "unbound namespace prefix"

/-- A name that does not expand is reported as it is, with an error. -/
def reportExpanded (name : String8) : Except String String8 → Routine String8
  | .ok expanded => return expanded
  | .error message => failAt message name

def expandedElementName (name : String8) (scope : NamespaceScope) : Routine String8 := do
  reportExpanded name (expandElementName (← config) name scope)

def expandedAttributeName (name : String8) (scope : NamespaceScope) : Routine String8 := do
  reportExpanded name (expandAttributeName (← config) name scope)

/-- One attribute of the expanded vector; `i` is its place in the original one. -/
def expandAttribute (a : Attributes) (scope : NamespaceScope) (result : Attributes)
    (i : Nat) (name value : String8) : Routine Attributes := do
  if (← hasError) || isNamespaceDeclarationName name then
    return result
  else
    let expanded ← expandedAttributeName name scope
    if ← hasError then
      return result
    else if result.has expanded then
      failAt "duplicate attribute" result
    else
      let result :=
        if i < a.specifiedAttributeCount then result.put expanded value
        else result.putDefault expanded value
      return if a.idAttributeIndex = i * 2 then result.markIdAttribute expanded else result

/-- The attributes without namespace declarations and with expanded names. -/
def expandedAttributes (a : Attributes) (scope : NamespaceScope) : Routine Attributes :=
  a.pairs.zipIdx.foldlM (fun result e ↦ expandAttribute a scope result e.2 e.1.1 e.1.2) .make

end Xpact
