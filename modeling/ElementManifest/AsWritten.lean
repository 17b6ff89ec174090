import ElementManifest.Naming
import ElementManifest.TypeDecl

/-!
# Extraction as written

The properties of a configuration type as its declaration writes them, without
following any name. Branches of an intersection that are names are left out.
-/

namespace ElementManifest.AsWritten

open ElementManifest.TypeScript

/-- The shape of a property, with its type as written. -/
def shapeOf (s : Source) (p : Property) (place : Nat) : Option Shape := do
  let name ← p.name?
  let type := match p.type with
    | some t => s.textOf t.span
    | none => "any"
  return ⟨name, type, p.optional, s.docOf p place⟩

/-- The shapes of the properties of a body that opens at `place`, behind those
that are already known. -/
def addMembers (s : Source) (shapes : List Shape) (place : Nat) (members : List Member) :
    List Shape :=
  addShapes shapes ((documentedFrom place members).filterMap fun (p, lo) => shapeOf s p lo)

/-- The shapes with those of a branch of an intersection behind them. -/
def addBranch (s : Source) (shapes : List Shape) (branch : TypeNode) : List Shape :=
  match branch.body with
  | .object span members => addMembers s shapes span.lo members
  | _ => shapes

/-- The shapes of a declaration. -/
def declShapes (s : Source) : TypeDecl → List Shape
  | .interface d => addMembers s [] d.bodyStart d.members
  | .typeAlias d =>
    match d.type.body with
    | .object span members => addMembers s [] span.lo members
    | .intersection branches => branches.foldl (addBranch s) []
    | _ => []

/-- Whether a declaration may be the configuration type of its file. -/
def isConfigDecl (d : TopLevelDecl) : Bool :=
  d.exported && d.name.endsWith Naming.configSuffix

/-- The shapes of the declaration called `name`. -/
def namedShapes (s : Source) (name : String) : List Shape :=
  match s.typeDecls.find? (·.name == name) with
  | some d => declShapes s d.decl
  | none => []

/-- The shapes of the first exported configuration type that has any. -/
def firstShapes (s : Source) : List Shape :=
  (((s.typeDecls.filter isConfigDecl).map fun d => declShapes s d.decl).find?
    fun shapes => !shapes.isEmpty).getD []

/-- The shapes of the type called `name`, or of the first configuration type. -/
def shapes (s : Source) : Option String → List Shape
  | some name => namedShapes s name
  | none => firstShapes s

/-- Extract from the text of a file. -/
def extract (path : Path) (text : String) (name : Option String) : Extraction :=
  match Source.read path text with
  | some s => .ofShapes (shapes s name)
  | none => .failed (.malformed path)

theorem extract_of_read {path : Path} {text : String} {s : Source}
    (h : Source.read path text = some s) (name : Option String) :
    extract path text name = .ofShapes (shapes s name) := by
  unfold extract
  rw [h]

/-- The path of a text that has none of its own. -/
def anonymousPath : Path := ⟨"anonymous.types.ts"⟩

end ElementManifest.AsWritten
