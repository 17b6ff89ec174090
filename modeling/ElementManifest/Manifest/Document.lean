import ElementManifest.Manifest.Attribute
import ElementManifest.Registration

/-!
# Manifest documents

The elements that a module declares, and the manifest of all modules.
-/

namespace ElementManifest

/-- What a declaration declares. -/
inductive DeclarationKind
  | classDecl
  | customElement
  deriving DecidableEq, Repr

/-- How a manifest names a kind of declaration. -/
def DeclarationKind.text : DeclarationKind → String
  | classDecl => "class"
  | customElement => "custom-element"

/-- The declaration of an element: the name of its class and its tag, as far as
they are known, and its attributes. -/
structure Declaration where
  kind : DeclarationKind
  name : Option String
  tagName : Option String
  attributes : List Attribute
  deriving DecidableEq, Repr

namespace Declaration

/-- The declaration of a class that is registered under a tag. -/
def ofClass (name tag : String) : Declaration :=
  ⟨.classDecl, some name, some tag, []⟩

/-- The declaration of a tag without a class. -/
def ofTag (tag : String) : Declaration :=
  ⟨.customElement, none, some tag, []⟩

/-- Whether there is an attribute of a name. -/
def hasAttribute (d : Declaration) (name : String) : Bool :=
  d.attributes.any (·.name == name)

end Declaration

/-- The part of a manifest for one module. -/
structure ModuleDocument where
  kind : String
  path : String
  declarations : List Declaration
  deriving DecidableEq, Repr

/-- The document of a module before anything is registered. -/
def ModuleDocument.ofPath (path : String) : ModuleDocument :=
  ⟨"javascript-module", path, []⟩

/-- The manifest of a package. -/
structure PackageManifest where
  schemaVersion : String
  modules : List ModuleDocument
  deriving DecidableEq, Repr

namespace PackageManifest

/-- The version of the form in which manifests are written. -/
def currentVersion : String := "1.0.0"

/-- Put a module before the first one that does not come before it by path. -/
def insertModule (m : ModuleDocument) : List ModuleDocument → List ModuleDocument
  | [] => [m]
  | n :: ms => if n.path < m.path then n :: insertModule m ms else m :: n :: ms

/-- The manifest of the modules that declare something, in the order of their
paths. Modules with the same path keep their order. -/
def ofModules (modules : List ModuleDocument) : PackageManifest where
  schemaVersion := currentVersion
  modules := (modules.filter fun m => !m.declarations.isEmpty).foldr insertModule []

/-- How many declarations there are. -/
def declarationCount (m : PackageManifest) : Nat :=
  (m.modules.flatMap (·.declarations)).length

/-- How many attributes there are. -/
def attributeCount (m : PackageManifest) : Nat :=
  ((m.modules.flatMap (·.declarations)).flatMap (·.attributes)).length

end PackageManifest

end ElementManifest
