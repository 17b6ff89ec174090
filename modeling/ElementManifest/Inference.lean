import ElementManifest.Decimal.NumberText
import ElementManifest.Manifest.Attribute
import ElementManifest.Naming
import ElementManifest.Shape
import ElementManifest.Text.Brackets
import ElementManifest.Text.Search
import ElementManifest.Text.WordChar

/-!
# Inference

The attribute of a property. Its kind and its way of writing are inferred from
the text of its type alone: in lower case, with the contents of literals left
out. The rules are tried in a fixed order.
-/

namespace ElementManifest.Inference

open ElementManifest.Text ElementManifest.Decimal

/-! ## Literals -/

/-- Where a masking scan stands: outside literals, or inside one that a quote opened. -/
inductive MaskState
  | outside
  | inside (quote : Char) (escaped : Bool)
  deriving DecidableEq, Repr

/-- Leave out the contents of string literals. A template becomes the word `string`. -/
def maskFrom (state : MaskState) : List Char → List Char
  | [] => []
  | c :: s =>
    match state with
    | .inside q true => maskFrom (.inside q false) s
    | .inside q false =>
      if c = '\\' then maskFrom (.inside q true) s
      else if c = q then
        if q = '\x60' then maskFrom .outside s else c :: maskFrom .outside s
      else maskFrom (.inside q false) s
    | .outside =>
      if c = '\x60' then "string".toList ++ maskFrom (.inside c false) s
      else if c = '"' ∨ c = '\'' then c :: maskFrom (.inside c false) s
      else c :: maskFrom .outside s

/-- The text that the inference looks at. -/
def masked (type : String) : List Char :=
  maskFrom .outside (lower (trim type.toList))

/-! ## Members -/

/-- Whether a member stands for an absent value. -/
def isNullish (member : List Char) : Bool :=
  member = "null".toList || member = "undefined".toList

/-- The members of a union without blanks around them, and without those that
are empty or stand for an absent value. -/
def members (text : List Char) : List (List Char) :=
  ((splitUnion text).map trim).filter fun m => !m.isEmpty && !isNullish m

/-- Whether a member is a tuple. -/
def isTuple (member : List Char) : Bool :=
  member.head? = some '[' && member.getLast? = some ']'

/-- Whether a member is written as an array. -/
def isArraySyntax (member : List Char) : Bool :=
  endsWith "[]".toList member || "array<".toList.isPrefixOf member
    || "readonlyarray<".toList.isPrefixOf member || "readonly ".toList.isPrefixOf member
    || isTuple member

/-! ## The kind of a type -/

/-- The kind of a masked text by the words in it. -/
def summaryByWords (text : List Char) : Summary :=
  let has (word : String) := hasInfix word.toList text
  if has "string" then .string
  else if has "number" then .number
  else if has "boolean" then .boolean
  else if has "array" || endsWith "[]".toList text || has "readonly" then .array
  else if has "object" || text.contains '\x7b' || has "record" then .object
  else .unknown

/-- The kind of a masked text. -/
def summaryOf (text : List Char) : Summary :=
  match members text with
  | [single] => if isArraySyntax single then .array else summaryByWords text
  | _ => summaryByWords text

/-- The kind of a type. -/
def summary (type : String) : Summary :=
  summaryOf (masked type)

/-! ## The way of writing -/

/-- The generic types that are written as JSON. -/
def collections : List (List Char) :=
  ["readonlyarray", "array", "record", "weakmap", "map", "weakset", "set"].map String.toList

/-- Whether a text starts with a collection and its bracket. -/
def startsCollection (s : List Char) : Bool :=
  collections.any fun word =>
    word.isPrefixOf s && ((s.drop word.length).dropWhile isBlank).head? = some '<'

/-- Whether array, collection or object syntax stands in a text behind `prev`.
The name of a collection starts a word. -/
def hasStructureFrom (prev : Option Char) : List Char → Bool
  | [] => false
  | c :: s =>
    "[]".toList.isPrefixOf (c :: s) || c = '\x7b'
      || (!prev.any isWordChar && startsCollection (c :: s)) || hasStructureFrom (some c) s

/-- Whether array, collection or object syntax stands in a text. -/
def hasStructure (text : List Char) : Bool :=
  hasStructureFrom none text

/-- Whether a member is a truth. -/
def isBoolean (member : List Char) : Bool :=
  member = "boolean".toList || member = "true".toList || member = "false".toList

/-- Whether a member is a number. -/
def isNumber (member : List Char) : Bool :=
  member = "number".toList || isNumberText member

/-- The way of writing of a masked text. -/
def serializationOf (text : List Char) : Serialization :=
  let ms := members text
  let has (word : String) := hasInfix word.toList text
  if hasStructure text || ms.any isTuple then .json
  else if !ms.isEmpty && ms.all isBoolean && !has "object" then .booleanAttr
  else if !ms.isEmpty && ms.all isNumber && !has "string" then .number
  else if has "string" || has "null" || has "undefined" || text.contains '|' then .string
  else .propertyOnly

/-- The way of writing of a type. -/
def serialization (type : String) : Serialization :=
  serializationOf (masked type)

/-! ## Attributes -/

/-- The description of a property that has no doc. -/
def fallbackDescription (type : String) : String :=
  "Configuration property of type \x60" ++ type ++ "\x60."

/-- The attribute of a property. -/
def attributeOf (s : Shape) : Attribute where
  name := Naming.attributeName s.name
  type := s.type
  summary := summary s.type
  serializedAs := serialization s.type
  description := s.doc.getD (fallbackDescription s.type)
  optional := s.optional

end ElementManifest.Inference
