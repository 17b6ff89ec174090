import ElementManifest.Decimal.NumberText
import ElementManifest.Shape
import ElementManifest.Text.Letters

/-!
# Object types as texts
-/

namespace ElementManifest.Expansion

open ElementManifest.Text ElementManifest.Decimal

/-- Whether a name may start with `c` without quotes. -/
def isBareStart (c : Char) : Bool :=
  isAlphabetic c || c = '_' || c = '$'

/-- Whether a name may go on with `c` without quotes. -/
def isBarePart (c : Char) : Bool :=
  isBareStart c || isNumeric c

/-- Whether a name is written without quotes. -/
def isBare (name : List Char) : Bool :=
  (name.head?.any isBareStart && name.all isBarePart) || isNumberText name

/-- The name of a property as it is written in an object type. -/
def keyText (name : String) : String :=
  if isBare name.toList then name else "\"" ++ name ++ "\""

/-- A property as it is written in an object type. -/
def propertyText (s : Shape) : String :=
  keyText s.name ++ (if s.optional then "?" else "") ++ ": " ++ s.type ++ ";"

/-- The text of an object type with the given properties, and with other members
behind them. -/
def objectText (shapes : List Shape) (others : List String) : String :=
  if shapes.isEmpty && others.isEmpty then "\x7b\x7d"
  else "\x7b " ++ " ".intercalate (shapes.map propertyText ++ others.map (· ++ ";")) ++ " \x7d"

end ElementManifest.Expansion
