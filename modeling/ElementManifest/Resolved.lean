import ElementManifest.Expansion.Symbols
import ElementManifest.Naming

/-!
# Extraction with names resolved

The properties of a configuration type with everything that its names lead to,
in the program of its file.
-/

namespace ElementManifest

open ElementManifest.Expansion

/-- A file with its text and its program. -/
structure Context where
  path : Path
  text : String
  program : Program

namespace Context

/-- Build the context of a file with the given text. The file has to be there. -/
def build (fs : FileSystem) (path : Path) (text : String) : Except ExtractError Context :=
  if !fs.isFile path then .error (.notFound path)
  else
    match Program.load fs path text with
    | some program => .ok ⟨path, text, program⟩
    | none => .error (.malformed path)

/-- The shapes of the type that `name` means. -/
def namedShapes (c : Context) (name : String) : List Shape :=
  ((c.program.findType rootFile name).map (symbolProperties c.program)).getD []

/-- The names of the exported configuration types that the root file declares. -/
def configNames (p : Program) : List String :=
  let names := (p.files.head?.map SourceFile.declaredNames).getD []
  (names.filter fun (name, exported) => exported && name.endsWith Naming.configSuffix).map Prod.fst

/-- The shapes of a name, if it has any. -/
def shapesIfAny (p : Program) (name : String) : Option (String × List Shape) := do
  let symbol ← p.lookup rootFile name
  let shapes := symbolProperties p symbol
  if shapes.isEmpty then none else some (name, shapes)

/-- The first exported configuration type that has any shapes. -/
def firstConfigType (c : Context) : Option (String × List Shape) :=
  (configNames c.program).findSome? (shapesIfAny c.program)

/-- The shapes of the type called `name`, or of the first configuration type. -/
def shapes (c : Context) : Option String → List Shape
  | some name => c.namedShapes name
  | none => (c.firstConfigType.map Prod.snd).getD []

/-- Extract from a context. -/
def extract (c : Context) (name : Option String) : Extraction :=
  .ofShapes (c.shapes name)

end Context

end ElementManifest
