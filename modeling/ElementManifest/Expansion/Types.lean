import ElementManifest.Expansion.ObjectText
import ElementManifest.Expansion.Scope
import ElementManifest.Text.Brackets

/-!
# Types in a scope

A type is looked at in three ways: for its properties, for the keys that it
lists, and for its text with all names written out. The three follow the type
down. What a name in it leads to is a matter of the place where the type
stands, and is given by that place.
-/

namespace ElementManifest.Expansion

open ElementManifest.Text ElementManifest.TypeScript

/-- What the argument of a type parameter has to tell, when asked. -/
structure Meaning where
  properties : Unit → List Shape
  keys : Unit → List String
  text : Unit → String

/-- A place where types stand, and what names lead to from there. -/
structure Site where
  source : Source
  /-- The argument of a type parameter. -/
  meaning : String → Option Meaning
  /-- The symbol that a dotted name means. -/
  lookup : String → Option Symbol
  /-- The properties of a symbol with arguments. -/
  properties : Symbol → List TypeNode → List Shape
  /-- The keys that a symbol lists. -/
  keys : Symbol → List String
  /-- The text of a symbol with arguments, unless it stays as written. -/
  text : Symbol → List TypeNode → Option String

namespace Site

/-- The argument that a reference means, if it is a type parameter. -/
def parameter? (site : Site) : EntityName → List TypeNode → Option Meaning
  | .name text, [] => site.meaning text
  | _, _ => none

theorem meaning_of_parameter? {site : Site} {name : EntityName} {args : List TypeNode}
    {meaning : Meaning} (h : site.parameter? name args = some meaning) :
    site.meaning name.text = some meaning := by
  unfold parameter? at h
  split at h
  next => exact h
  next => cases h

end Site

/-! ## Keys -/

mutual

/-- The keys that a type lists, as in `"a" | "b"`. -/
def keysOf (site : Site) : TypeNode → List String
  | .text _ value => value.toList
  | .paren _ inner => keysOf site inner
  | .union _ branches => keysOfAll site branches
  | .reference _ name args =>
    match site.parameter? name args with
    | some meaning => meaning.keys ()
    | none => ((site.lookup name.text).map site.keys).getD []
  | _ => []

/-- The keys that types list. -/
def keysOfAll (site : Site) : List TypeNode → List String
  | [] => []
  | t :: ts => keysOf site t ++ keysOfAll site ts

end

/-! ## Built-in types -/

/-- A built-in type that changes the properties of its first argument. -/
inductive Utility
  | partialOf
  | requiredOf
  | readonlyOf
  | pick
  | leaveOut
  deriving DecidableEq, Repr

/-- The built-in type of a name. -/
def Utility.ofName? (name : String) : Option Utility :=
  if name = "Partial" then some partialOf
  else if name = "Required" then some requiredOf
  else if name = "Readonly" then some readonlyOf
  else if name = "Pick" then some pick
  else if name = "Omit" then some leaveOut
  else none

/-- What a built-in type makes of properties. `keys` are those that its second
argument lists, if there is one. -/
def Utility.apply (u : Utility) (shapes : List Shape) (keys : Option (List String)) :
    List Shape :=
  match u, keys with
  | partialOf, _ => shapes.map ({ · with optional := true })
  | requiredOf, _ => shapes.map ({ · with optional := false })
  | readonlyOf, _ => shapes
  | pick, some keys => shapes.filter fun s => keys.contains s.name
  | leaveOut, some keys => shapes.filter fun s => !keys.contains s.name
  | _, none => []

/-! ## Texts -/

/-- The text of a type that other operators stand around. -/
def operandText (text : String) : String :=
  wrapIf [.bar, .ampersand, .arrow] text

/-- The type of the properties called `keys`; `none` when one of them is missing. -/
def accessText (keys : List String) (shapes : List Shape) : Option String := do
  let types ← keys.mapM fun key => (shapes.find? (·.name == key)).map (·.type)
  return " | ".intercalate (types.map (wrapIf [.arrow])).eraseDups

/-- A name with the texts of its arguments. -/
def appliedText (name : String) (args : List String) : String :=
  if args.isEmpty then name else name ++ "<" ++ ", ".intercalate args ++ ">"

/-- A member other than a property as it is written in an object type. -/
def otherText (source : Source) (span : Span) : String :=
  let text := (source.slice span).reverse.dropWhile fun c => c = ';' || c = ','
  String.ofList (trim text.reverse)

/-- The members that are no properties, as they are written in an object type. -/
def otherTexts (source : Source) : List Member → List String
  | [] => []
  | .property _ :: ms => otherTexts source ms
  | .other span _ :: ms => otherText source span :: otherTexts source ms

mutual

/-- The properties of a type. A type that is no object has none. -/
def propertiesOf (site : Site) : TypeNode → List Shape
  | .paren _ inner => propertiesOf site inner
  | .object span members => addShapes [] (memberShapes site span.lo members)
  | .intersection _ branches => branchProperties site [] branches
  | .operator _ .readonly inner => propertiesOf site inner
  | .reference _ name args =>
    match site.parameter? name args with
    | some meaning => meaning.properties ()
    | none =>
      match site.lookup name.text with
      | some symbol => site.properties symbol args
      | none => utilityProperties site name.text args
  | _ => []

/-- The properties of the branches of an intersection, behind those that are
already known. -/
def branchProperties (site : Site) (shapes : List Shape) : List TypeNode → List Shape
  | [] => shapes
  | t :: ts => branchProperties site (addShapes shapes (propertiesOf site t)) ts

/-- The properties of a built-in type with arguments. -/
def utilityProperties (site : Site) (name : String) : List TypeNode → List Shape
  | [] => []
  | [target] =>
    match Utility.ofName? name with
    | some u => u.apply (propertiesOf site target) none
    | none => []
  | target :: keys :: _ =>
    match Utility.ofName? name with
    | some u => u.apply (propertiesOf site target) (some (keysOf site keys))
    | none => []

/-- The shapes of the properties among members. The doc of the first one may
start at `place`. -/
def memberShapes (site : Site) (place : Nat) : List Member → List Shape
  | [] => []
  | .property (.mk span key computed optional type) :: ms =>
    let p := Property.mk span key computed optional type
    let shape := p.name?.map fun name =>
      ⟨name, annotationText site type, optional, site.source.docOf p place⟩
    shape.toList ++ memberShapes site span.hi ms
  | .other span _ :: ms => memberShapes site span.hi ms

/-- The text of the type of a property. -/
def annotationText (site : Site) : Option TypeNode → String
  | some type => textOf site type
  | none => "any"

/-- The text of a type with the names in it written out. -/
def textOf (site : Site) : TypeNode → String
  | .reference _ name args =>
    match site.parameter? name args with
    | some meaning => meaning.text ()
    | none =>
      match (site.lookup name.text).bind (site.text · args) with
      | some text => text
      | none => appliedText name.text (textsOf site args)
  | .object span members =>
    objectText (addShapes [] (memberShapes site span.lo members)) (otherTexts site.source members)
  | .array _ elem => operandText (textOf site elem) ++ "[]"
  | .tuple _ elems => "[" ++ ", ".intercalate (elementTexts site elems) ++ "]"
  | .union _ branches => " | ".intercalate ((textsOf site branches).map (wrapIf [.arrow]))
  | .intersection _ branches => " & ".intercalate ((textsOf site branches).map operandText)
  | .paren _ inner => "(" ++ textOf site inner ++ ")"
  | .operator _ op inner => op.text ++ " " ++ operandText (textOf site inner)
  | .optional _ inner => operandText (textOf site inner) ++ "?"
  | .rest _ inner => "..." ++ textOf site inner
  | .indexed span object index =>
    let keys := keysOf site index
    let text := if keys.isEmpty then none else accessText keys (propertiesOf site object)
    text.getD (site.source.textOf span)
  | .text span value =>
    match value with
    | some value => "\"" ++ value ++ "\""
    | none => site.source.textOf span
  | .truth _ value => if value then "true" else "false"
  | .keyword span _ => site.source.textOf span
  | .other span _ => site.source.textOf span

/-- The texts of types. -/
def textsOf (site : Site) : List TypeNode → List String
  | [] => []
  | t :: ts => textOf site t :: textsOf site ts

/-- The texts of the elements of a tuple. -/
def elementTexts (site : Site) : List TupleElem → List String
  | [] => []
  | .mk label type :: es =>
    let text := textOf site type
    (match label with
      | some name => name ++ ": " ++ text
      | none => text) :: elementTexts site es

end

/-- The properties of what a dotted name means, with arguments. The name is no
type parameter. -/
def namedProperties (site : Site) (name : String) (args : List TypeNode) : List Shape :=
  match site.lookup name with
  | some symbol => site.properties symbol args
  | none => utilityProperties site name args

end ElementManifest.Expansion
