import Mathlib.Computability.Language
import Xpact.Parser.Event

/-!
# The grammar of declarations

The productions of XML 1.0 as languages of bytes; a character of the grammar is its UTF-8 sequence.
`legacy` selects the edition whose names are meant.  The declarations of the parser are read by
scanners that do not follow these productions, and are compared with them.
-/

namespace Xpact.Grammar

open Computability

/-! ## Characters -/

/-- A fixed text. -/
def text (s : String) : Language Character8 := {str s}

/-- One character of a class, a class being a set of code points. -/
def character (p : Nat → Bool) : Language Character8 :=
  {w | ∃ code, isXmlCharacterCode code = true ∧ p code = true ∧ w = utf8Bytes code}

/-- `Char`. -/
def anyCharacter : Language Character8 := character fun _ ↦ true

/-- `Char` without the ASCII characters of `s`. -/
def characterBut (s : String) : Language Character8 :=
  character fun code ↦ !s.toList.any fun c ↦ code == c.toNat

/-- One of the ASCII characters of `s`. -/
def oneOf (s : String) : Language Character8 :=
  character fun code ↦ s.toList.any fun c ↦ code == c.toNat

def optional (L : Language Character8) : Language Character8 := 1 + L

def oneOrMore (L : Language Character8) : Language Character8 := L * L∗

/-- `S`. -/
def space : Language Character8 := oneOrMore (oneOf " \t\r\n")

/-- `S?`. -/
def optionalSpace : Language Character8 := optional space

def digit : Language Character8 := oneOf "0123456789"

def hexDigit : Language Character8 := oneOf "0123456789abcdefABCDEF"

/-! ## Names -/

section

variable (legacy : Bool)

def name : Language Character8 :=
  character (isNameStartCode legacy) * (character (isNameCode legacy))∗

def nmtoken : Language Character8 := oneOrMore (character (isNameCode legacy))

/-! ## References and literals -/

def charRef : Language Character8 :=
  text "&#" * oneOrMore digit * text ";" + text "&#x" * oneOrMore hexDigit * text ";"

def entityRef : Language Character8 := text "&" * name legacy * text ";"

def reference : Language Character8 := entityRef legacy + charRef

def peReference : Language Character8 := text "%" * name legacy * text ";"

def entityValue : Language Character8 :=
  text "\"" * (characterBut "%&\"" + peReference legacy + reference legacy)∗ * text "\"" +
    text "'" * (characterBut "%&'" + peReference legacy + reference legacy)∗ * text "'"

def attValue : Language Character8 :=
  text "\"" * (characterBut "<&\"" + reference legacy)∗ * text "\"" +
    text "'" * (characterBut "<&'" + reference legacy)∗ * text "'"

def systemLiteral : Language Character8 :=
  text "\"" * (characterBut "\"")∗ * text "\"" + text "'" * (characterBut "'")∗ * text "'"

/-- The characters of `PubidChar` other than the apostrophe. -/
def pubidCharacters : String :=
  " \r\nabcdefghijklmnopqrstuvwxyzABCDEFGHIJKLMNOPQRSTUVWXYZ0123456789-()+,./:=?;!*#@$_%"

def pubidLiteral : Language Character8 :=
  text "\"" * (oneOf pubidCharacters + text "'")∗ * text "\"" +
    text "'" * (oneOf pubidCharacters)∗ * text "'"

/-! ## Comments and processing instructions -/

def commentBody : Language Character8 := (characterBut "-" + text "-" * characterBut "-")∗

def comment : Language Character8 := text "<!--" * commentBody * text "-->"

def piTarget : Language Character8 := name legacy - oneOf "Xx" * oneOf "Mm" * oneOf "Ll"

def piBody : Language Character8 :=
  piTarget legacy *
    optional (space * (anyCharacter∗ - anyCharacter∗ * text "?>" * anyCharacter∗))

def processingInstruction : Language Character8 := text "<?" * piBody legacy * text "?>"

/-! ## Element declarations -/

def quantifierText : Quantifier → String8
  | .none => []
  | .optional => str "?"
  | .repetition => str "*"
  | .plus => str "+"

mutual

/-- `cp`, with the tree it stands for. -/
inductive Particle : String8 → ContentModel → Prop where
  | name {w : String8} (q : Quantifier) (hname : w ∈ name legacy) :
      Particle (w ++ quantifierText q) (.node .name q (some w) [])
  | group {w : String8} {t : ContentType} {children : List ContentModel} (q : Quantifier)
      (hgroup : Group w t children) :
      Particle (w ++ quantifierText q) (.node t q none children)

/-- `choice` and `seq`, with the type and the members of the group. -/
inductive Group : String8 → ContentType → List ContentModel → Prop where
  | choice {a w rest : String8} {m n : ContentModel} {ms : List ContentModel}
      (ha : a ∈ optionalSpace) (hfirst : Particle w m) (hrest : Members '|' rest (n :: ms)) :
      Group (str "(" ++ a ++ w ++ rest) .choice (m :: n :: ms)
  | seq {a w rest : String8} {m : ContentModel} {ms : List ContentModel}
      (ha : a ∈ optionalSpace) (hfirst : Particle w m) (hrest : Members ',' rest ms) :
      Group (str "(" ++ a ++ w ++ rest) .sequence (m :: ms)

/-- The members after the first one, and the end of the group. -/
inductive Members : Char → String8 → List ContentModel → Prop where
  | close {separator : Char} {a : String8} (ha : a ∈ optionalSpace) :
      Members separator (a ++ str ")") []
  | next {separator : Char} {a b w rest : String8} {m : ContentModel} {ms : List ContentModel}
      (ha : a ∈ optionalSpace) (hb : b ∈ optionalSpace) (hnext : Particle w m)
      (hrest : Members separator rest ms) :
      Members separator (a ++ [separator.toUInt8] ++ b ++ w ++ rest) (m :: ms)

end

/-- The names of `Mixed`, each after a bar. -/
inductive MixedNames : String8 → List String8 → Prop where
  | nil : MixedNames [] []
  | next {a b w rest : String8} {names : List String8} (ha : a ∈ optionalSpace)
      (hb : b ∈ optionalSpace) (hname : w ∈ name legacy) (hrest : MixedNames rest names) :
      MixedNames (a ++ str "|" ++ b ++ w ++ rest) (w :: names)

/-- `contentspec`, with the tree it stands for. -/
inductive ContentSpec : String8 → ContentModel → Prop where
  | empty : ContentSpec (str "EMPTY") (.node .empty .none none [])
  | any : ContentSpec (str "ANY") (.node .any .none none [])
  | text {a b : String8} (ha : a ∈ optionalSpace) (hb : b ∈ optionalSpace) :
      ContentSpec (str "(" ++ a ++ str "#PCDATA" ++ b ++ str ")") (.node .mixed .none none [])
  | mixed {a rest b : String8} {names : List String8} (ha : a ∈ optionalSpace)
      (hnames : MixedNames legacy rest names) (hb : b ∈ optionalSpace) :
      ContentSpec (str "(" ++ a ++ str "#PCDATA" ++ rest ++ b ++ str ")*")
        (.node .mixed .repetition none
          (names.map fun child ↦ .node .name .none (some child) []))
  | children {w : String8} {t : ContentType} {ms : List ContentModel} (q : Quantifier)
      (hgroup : Group legacy w t ms) : ContentSpec (w ++ quantifierText q) (.node t q none ms)

def contentSpec : Language Character8 := {w | ∃ model, ContentSpec legacy w model}

def elementDecl : Language Character8 :=
  text "<!ELEMENT" * space * name legacy * space * contentSpec legacy * optionalSpace * text ">"

/-! ## Attribute-list declarations -/

/-- The members of an enumeration, with the parentheses. -/
def enumeration (token : Language Character8) : Language Character8 :=
  text "(" * optionalSpace * token * (optionalSpace * text "|" * optionalSpace * token)∗ *
    optionalSpace * text ")"

def attType : Language Character8 :=
  text "CDATA" + text "ID" + text "IDREF" + text "IDREFS" + text "ENTITY" + text "ENTITIES" +
    text "NMTOKEN" + text "NMTOKENS" + text "NOTATION" * space * enumeration (name legacy) +
    enumeration (nmtoken legacy)

def defaultDecl : Language Character8 :=
  text "#REQUIRED" + text "#IMPLIED" + optional (text "#FIXED" * space) * attValue legacy

def attDef : Language Character8 :=
  space * name legacy * space * attType legacy * space * defaultDecl legacy

def attlistDecl : Language Character8 :=
  text "<!ATTLIST" * space * name legacy * (attDef legacy)∗ * optionalSpace * text ">"

/-! ## Entity and notation declarations -/

def externalId : Language Character8 :=
  text "SYSTEM" * space * systemLiteral +
    text "PUBLIC" * space * pubidLiteral * space * systemLiteral

def publicId : Language Character8 := text "PUBLIC" * space * pubidLiteral

def ndataDecl : Language Character8 := space * text "NDATA" * space * name legacy

def entityDef : Language Character8 :=
  entityValue legacy + externalId * optional (ndataDecl legacy)

def peDef : Language Character8 := entityValue legacy + externalId

def entityDecl : Language Character8 :=
  text "<!ENTITY" * space * name legacy * space * entityDef legacy * optionalSpace * text ">" +
    text "<!ENTITY" * space * text "%" * space * name legacy * space * peDef legacy *
      optionalSpace * text ">"

def notationDecl : Language Character8 :=
  text "<!NOTATION" * space * name legacy * space * (externalId + publicId) * optionalSpace *
    text ">"

/-! ## Document type declarations -/

def markupDecl : Language Character8 :=
  elementDecl legacy + attlistDecl legacy + entityDecl legacy + notationDecl legacy +
    processingInstruction legacy + comment

def declSep : Language Character8 := peReference legacy + space

def intSubset : Language Character8 := (markupDecl legacy + declSep legacy)∗

/-- What stands between `<!DOCTYPE` and the subset, or the end when there is none. -/
def doctypeHead : Language Character8 :=
  space * name legacy * optional (space * externalId) * optionalSpace

def doctypeSubset : Language Character8 :=
  text "[" * intSubset legacy * text "]" * optionalSpace

def doctypeDecl : Language Character8 :=
  text "<!DOCTYPE" * doctypeHead legacy * optional (doctypeSubset legacy) * text ">"

end

/-! ## XML and text declarations -/

/-- `Eq`. -/
def equals : Language Character8 := optionalSpace * text "=" * optionalSpace

/-- The literals with this value, in either kind of quotes. -/
def quoted (value : String8) : Language Character8 :=
  text "\"" * {value} * text "\"" + text "'" * {value} * text "'"

def pseudoAttribute (keyword : String) (value : String8) : Language Character8 :=
  space * text keyword * equals * quoted value

def versionNum : Language Character8 := text "1." * oneOrMore digit

/-- The class `[A-Za-z]`. -/
def isLatinLetter (code : Nat) : Bool :=
  (65 ≤ code && code ≤ 90) || (97 ≤ code && code ≤ 122)

def encName : Language Character8 :=
  character isLatinLetter *
    (character fun code ↦ isLatinLetter code || "0123456789._-".toList.any fun c ↦ code == c.toNat)∗

/-- `VersionInfo` with this version. -/
def versionInfo (version : String8) : Language Character8 :=
  {w | version ∈ versionNum ∧ w ∈ pseudoAttribute "version" version}

/-- `EncodingDecl` with this name. -/
def encodingDecl (encoding : String8) : Language Character8 :=
  {w | encoding ∈ encName ∧ w ∈ pseudoAttribute "encoding" encoding}

/-- `SDDecl` with this answer. -/
def sdDecl (standalone : Bool) : Language Character8 :=
  pseudoAttribute "standalone" (str (if standalone then "yes" else "no"))

/-- An optional part, with the value that it gives. -/
def given {β : Type} (part : β → Language Character8) : Option β → Language Character8
  | none => 1
  | some b => part b

/-- `XMLDecl` with these values. -/
def xmlDecl (version : String8) (encoding : Option String8) (standalone : Option Bool) :
    Language Character8 :=
  text "<?xml" * versionInfo version * given encodingDecl encoding * given sdDecl standalone *
    optionalSpace * text "?>"

/-- `TextDecl` with these values. -/
def textDecl (version : Option String8) (encoding : String8) : Language Character8 :=
  text "<?xml" * given versionInfo version * encodingDecl encoding * optionalSpace * text "?>"

end Xpact.Grammar
