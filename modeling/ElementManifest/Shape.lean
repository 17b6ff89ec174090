import ElementManifest.Path

/-!
# Shapes

The properties of a configuration type, as an extraction finds them.
-/

namespace ElementManifest

/-- A property of a configuration type: its name, the text of its type, whether
it may be absent, and its description. -/
structure Shape where
  name : String
  type : String
  optional : Bool
  doc : Option String
  deriving DecidableEq, Repr

/-- The shapes with one more behind them, unless one of its name is there. -/
def addShape (shapes : List Shape) (s : Shape) : List Shape :=
  if shapes.any (·.name == s.name) then shapes else shapes ++ [s]

/-- The shapes with more behind them, each name once. -/
def addShapes (shapes more : List Shape) : List Shape :=
  more.foldl addShape shapes

/-- Why nothing could be extracted. -/
inductive ExtractError
  | notFound (path : Path)
  | malformed (path : Path)
  deriving DecidableEq, Repr

/-- The text for a source that cannot be read. -/
def malformedText (path : Path) : String :=
  "Failed to parse " ++ path.text

/-- The text of an error. -/
def ExtractError.message : ExtractError → String
  | notFound path => "file not found: " ++ path.text
  | malformed path => "failed to parse " ++ path.text ++ ": " ++ malformedText path

/-- The result of an extraction. -/
inductive Extraction
  | found (shapes : List Shape)
  | empty
  | failed (error : ExtractError)
  deriving DecidableEq, Repr

namespace Extraction

/-- The result that finds the given shapes. -/
def ofShapes (shapes : List Shape) : Extraction :=
  if shapes.isEmpty then empty else found shapes

/-- The shapes of a result. -/
def shapes : Extraction → List Shape
  | found shapes => shapes
  | _ => []

end Extraction

end ElementManifest
