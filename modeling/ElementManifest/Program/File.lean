import ElementManifest.Table
import ElementManifest.TypeDecl

/-!
# Files of a program

A source with what its names stand for: the types it declares, the names it
brings in from other modules, and the names it passes on.
-/

namespace ElementManifest

open ElementManifest.TypeScript

/-- The declarations of one name. An interface may be declared in several pieces. -/
structure DeclGroup where
  name : String
  exported : Bool
  decls : List TypeDecl

/-- A name of another module. -/
structure Link where
  module : Path
  name : String
  deriving DecidableEq, Repr

/-- A source file of a program. -/
structure SourceFile where
  path : Path
  source : Source
  groups : List DeclGroup
  imports : List (String × Link)
  namespaces : List (String × Path)
  /-- The names in `export { local as exported }`, under the exported one. -/
  localExports : List (String × String)
  /-- The names in `export { name as exported } from "module"`, under the exported one. -/
  reexports : List (String × Link)
  /-- The modules in `export * from "module"`. -/
  starExports : List Path

/-! ## Declarations -/

/-- Groups with one more declaration, behind those of its name. -/
def addDecl (d : TopLevelDecl) : List DeclGroup → List DeclGroup
  | [] => [⟨d.name, d.exported, [d.decl]⟩]
  | g :: gs =>
    if g.name == d.name then ⟨g.name, g.exported || d.exported, g.decls ++ [d.decl]⟩ :: gs
    else g :: addDecl d gs

/-- The declarations of a source, in groups by their names. -/
def TypeScript.Source.declGroups (s : Source) : List DeclGroup :=
  s.typeDecls.foldl (fun gs d => addDecl d gs) []

/-! ## Modules -/

/-- The module that a specifier means in the directory `dir`. The name of a
package means none. -/
def moduleOf? (dir : Path) (specifier : Option String) : Option Path :=
  specifier.bind fun text =>
    if text.startsWith "./" || text.startsWith "../" then some (dir.join ⟨text⟩).normalize
    else none

namespace TypeScript.Item

/-- The names that an item brings in, each as a link. -/
def importsFrom (dir : Path) : Item → List (String × Link)
  | .imports source specifiers _ =>
    match moduleOf? dir source with
    | none => []
    | some module =>
      specifiers.filterMap fun
        | .named imported localName => some (localName, ⟨module, imported.getD localName⟩)
        | .default localName => some (localName, ⟨module, "default"⟩)
        | .namespace _ => none
  | _ => []

/-- The names that an item brings in for whole modules. -/
def namespacesFrom (dir : Path) : Item → List (String × Path)
  | .imports source specifiers _ =>
    match moduleOf? dir source with
    | none => []
    | some module =>
      specifiers.filterMap fun
        | .namespace localName => some (localName, module)
        | _ => none
  | _ => []

/-- The pairs of the exported and the inner name in export specifiers. -/
def exportPairs (specifiers : List ExportSpecifier) : List (String × String) :=
  specifiers.filterMap fun
    | .named (some inner) exported => some (exported.getD inner, inner)
    | _ => none

/-- The own names that an item exports. -/
def localExportsFrom : Item → List (String × String)
  | .exports none specifiers _ => exportPairs specifiers
  | _ => []

/-- The names of other modules that an item exports. -/
def reexportsFrom (dir : Path) : Item → List (String × Link)
  | .exports (some source) specifiers _ =>
    match moduleOf? dir source with
    | none => []
    | some module => (exportPairs specifiers).map fun (exported, name) => (exported, ⟨module, name⟩)
  | _ => []

/-- The module whose exports an item all passes on. -/
def starExportFrom (dir : Path) : Item → Option Path
  | .exportAll source _ => moduleOf? dir source
  | _ => none

end TypeScript.Item

namespace SourceFile

/-- The file of a source. -/
def ofSource (path : Path) (source : Source) : SourceFile :=
  let dir := path.parent
  { path
    source
    groups := source.declGroups
    imports := Table.ofEntries (source.items.flatMap (Item.importsFrom dir))
    namespaces := Table.ofEntries (source.items.flatMap (Item.namespacesFrom dir))
    localExports := Table.ofEntries (source.items.flatMap Item.localExportsFrom)
    reexports := Table.ofEntries (source.items.flatMap (Item.reexportsFrom dir))
    starExports := source.items.filterMap (Item.starExportFrom dir) }

/-- The modules that a file links to. -/
def linkedModules (f : SourceFile) : List Path :=
  f.imports.map (·.2.module) ++ f.reexports.map (·.2.module) ++ f.namespaces.map Prod.snd
    ++ f.starExports

/-- The names that a file declares, in order, with whether they are exported. -/
def declaredNames (f : SourceFile) : List (String × Bool) :=
  f.groups.map fun g => (g.name, g.exported || f.localExports.any (·.2 == g.name))

/-- The declarations of a name in a file. -/
def group? (f : SourceFile) (name : String) : Option DeclGroup :=
  f.groups.find? (·.name == name)

end SourceFile

end ElementManifest
