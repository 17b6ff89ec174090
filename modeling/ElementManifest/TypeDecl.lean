import ElementManifest.DocComment
import ElementManifest.Shape
import ElementManifest.TypeScript.Source

/-!
# Type declarations

The interfaces and aliases at the top level of a source, and what is asked about
them: the structure of a type, the names of properties, the place of their docs.
-/

namespace ElementManifest

open ElementManifest.TypeScript

/-- A declaration of a type. -/
inductive TypeDecl
  | interface (d : Interface)
  | typeAlias (d : Alias)

namespace TypeDecl

/-- The name that is declared. -/
def name : TypeDecl → String
  | interface d => d.name
  | typeAlias d => d.name

/-- The type declaration that a statement is, if it is one. -/
def ofStmt? : Stmt → Option TypeDecl
  | .interface d => some (interface d)
  | .typeAlias d => some (typeAlias d)
  | .form _ => none

end TypeDecl

/-- A type declaration at the top level of a source. -/
structure TopLevelDecl where
  decl : TypeDecl
  exported : Bool

namespace TopLevelDecl

/-- The name that is declared. -/
def name (d : TopLevelDecl) : String :=
  d.decl.name

/-- The type declaration that an item holds, if it holds one. -/
def ofItem? : Item → Option TopLevelDecl
  | .stmt s => (TypeDecl.ofStmt? s).map (⟨·, false⟩)
  | .exportStmt s => (TypeDecl.ofStmt? s).map (⟨·, true⟩)
  | .exportDefaultInterface d => some ⟨.interface d, true⟩
  | _ => none

end TopLevelDecl

/-- The type declarations at the top level, in order. -/
def TypeScript.Source.typeDecls (s : Source) : List TopLevelDecl :=
  s.items.filterMap TopLevelDecl.ofItem?

/-- The structure of a type, without the parentheses around it. -/
inductive TypeBody
  | object (span : Span) (members : List Member)
  | intersection (branches : List TypeNode)
  | array (elem : TypeNode)
  | reference (name : EntityName) (args : List TypeNode)
  | other (type : TypeNode)

/-- The structure of a type. -/
def TypeScript.TypeNode.body : TypeNode → TypeBody
  | .paren _ inner => inner.body
  | .object span members => .object span members
  | .intersection _ branches => .intersection branches
  | .array _ elem => .array elem
  | .reference _ name args => .reference name args
  | t => .other t

/-- The dotted name that an expression is, if it is one. -/
def TypeScript.Expr.dottedName? : Expr → Option String
  | .ident name => some name
  | .member inner property => do return (← inner.dottedName?) ++ "." ++ property
  | _ => none

/-- The name of a property, where the source tells it. A string in brackets
tells it, a name or number in brackets does not. -/
def TypeScript.Property.name? (p : Property) : Option String :=
  let name? := match p.key with
    | .ident name => if p.computed then none else some name
    | .string value => value
    | .number text => if p.computed then none else some text
    | _ => none
  name?.filter (· ≠ "")

/-- The properties among members, each with the place behind the member before
it, which is `place` for the first member. -/
def documentedFrom (place : Nat) : List Member → List (Property × Nat)
  | [] => []
  | .property p :: ms => (p, place) :: documentedFrom p.span.hi ms
  | .other span _ :: ms => documentedFrom span.hi ms

/-- The doc of a property whose doc may start at `place`. -/
def TypeScript.Source.docOf (s : Source) (p : Property) (place : Nat) : Option String :=
  DocComment.between s.comments place p.span.lo

/-- The text of a span. -/
def TypeScript.Source.textOf (s : Source) (span : Span) : String :=
  String.ofList (s.slice span)

/-! ## How sources are read -/

/-- How a file is read, by its name. -/
def TypeScript.SourceKind.ofPath (path : Path) : SourceKind :=
  let name := path.fileName?.getD ""
  if [".d.ts", ".d.mts", ".d.cts"].any (name.endsWith ·) then .declaration
  else if [".ts", ".mts", ".cts"].any (name.endsWith ·) then .typescript
  else .tsx

/-- Read the text of a file. -/
def TypeScript.Source.read (path : Path) (text : String) : Option Source :=
  parse (.ofPath path) text

end ElementManifest
