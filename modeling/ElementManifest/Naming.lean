import ElementManifest.Text.Blank
import ElementManifest.Text.Casing
import ElementManifest.Text.Split

/-!
# Names

The attribute name of a property, and the name that the configuration type of a
module has by convention.
-/

namespace ElementManifest.Naming

open ElementManifest.Text

/-! ## Attribute names -/

/-- Whether a hyphen divides `c` from the capital `d` behind it. -/
def isHump (c d : Char) : Bool :=
  (c.isLower || c.isDigit) && d.isUpper

/-- Put a hyphen before each capital behind a small letter or digit. -/
def splitHumps : List Char → List Char
  | c :: d :: s =>
    if isHump c d then c :: '-' :: splitHumps (d :: s) else c :: splitHumps (d :: s)
  | s => s

/-- Whether `c` separates the words of a name. -/
def isSeparator (c : Char) : Bool :=
  isBlank c || c = '_'

/-- Put one hyphen in the place of each run of separators. `inRun` tells whether
a run goes on. -/
def joinRuns (inRun : Bool) : List Char → List Char
  | [] => []
  | c :: s =>
    if isSeparator c then
      if inRun then joinRuns true s else '-' :: joinRuns true s
    else c :: joinRuns false s

/-- The attribute name of a property: its words in lower case with hyphens
between them. -/
def attributeName (property : String) : String :=
  String.ofList (lower (joinRuns false (splitHumps property.toList)))

/-! ## Configuration types -/

/-- What the name of a configuration type ends with. -/
def configSuffix : String := "ConfigType"

/-- A word with its first letter in upper case. -/
def capitalized : List Char → List Char
  | [] => []
  | c :: s => upperChar c ++ s

/-- The name of the configuration type of a module, from the name of its file. -/
def configTypeName (module : String) : String :=
  let words := splitOn (fun c => c = '-' || c = '_' || c = '.') module.toList
  String.ofList (words.flatMap capitalized) ++ configSuffix

end ElementManifest.Naming
