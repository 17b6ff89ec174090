import ElementManifest.Expansion.Types

/-!
# Expanding symbols

A symbol is opened to look into its declarations. While it is open it is not
opened again, and at most `maxDepth` symbols are open inside each other; the
room that is left bounds the recursion.
-/

namespace ElementManifest.Expansion

open ElementManifest.TypeScript

/-- What symbols have to tell when they are opened inside others. -/
structure Opener where
  properties : OpenSymbols → Symbol → Arguments → List Shape
  keys : OpenSymbols → Symbol → List String
  text : OpenSymbols → Symbol → Arguments → Option String

/-- What symbols tell when no more of them may be opened. -/
def Opener.closed : Opener where
  properties _ _ _ := []
  keys _ _ := []
  text _ _ _ := none

/-- The source of a file. -/
def sourceOf (p : Program) (file : Nat) : Source :=
  (p.files[file]?).elim ⟨[], [], []⟩ SourceFile.source

theorem sourceOf_of_file {p : Program} {file : Nat} {f : SourceFile}
    (hf : p.files[file]? = some f) : sourceOf p file = f.source := by
  unfold sourceOf
  rw [hf]
  rfl

section

variable (p : Program) (opener : Opener) (inside : OpenSymbols)

/-- A place in a file, when the meanings of the type parameters are known. -/
def siteWith (file : Nat) (scope : Scope) (meaning : String → Option Meaning) : Site where
  source := sourceOf p file
  meaning := meaning
  lookup := p.lookup file
  properties symbol args := opener.properties inside symbol ⟨file, scope, args⟩
  keys := opener.keys inside
  text symbol args := opener.text inside symbol ⟨file, scope, args⟩

/-- What a type parameter means in a scope. -/
def meaningIn : Scope → String → Option Meaning
  | .empty, _ => none
  | .bind param file type around rest, name =>
    if param == name then
      let site := siteWith p opener inside file around fun n => meaningIn around n
      some
        { properties := fun _ => propertiesOf site type
          keys := fun _ => keysOf site type
          text := fun _ => textOf site type }
    else meaningIn rest name

/-- A place in a file and a scope. -/
def siteAt (file : Nat) (scope : Scope) : Site :=
  siteWith p opener inside file scope (meaningIn p opener inside scope)

/-- The place inside a declaration whose parameters are bound to arguments. -/
def bodySite (file : Nat) (params : List TypeParam) (args : Arguments) : Site :=
  siteAt p opener inside file (bindParams file .empty params args)

/-- The properties of the parent of an interface. -/
def parentProperties (site : Site) (parent : Heritage) : List Shape :=
  match parent.base.dottedName? with
  | some name => namedProperties site name parent.args
  | none => []

/-- The properties of a declaration, in order. A name may occur more than once. -/
def declProperties (file : Nat) (args : Arguments) : TypeDecl → List Shape
  | .interface d =>
    let site := bodySite p opener inside file d.params args
    memberShapes site d.bodyStart d.members ++ d.parents.flatMap (parentProperties site)
  | .typeAlias d => propertiesOf (bodySite p opener inside file d.params args) d.type

/-- The properties of all declarations of a symbol. The first one of a name counts. -/
def openProperties (symbol : Symbol) (args : Arguments) : List Shape :=
  addShapes [] (symbol.decls.flatMap (declProperties p opener inside symbol.file args))

/-- The keys that a symbol lists. Its parameters are not bound. -/
def openKeys (symbol : Symbol) : List String :=
  match symbol.decls with
  | .typeAlias d :: _ => keysOf (siteAt p opener inside symbol.file .empty) d.type
  | _ => []

/-- The text of a symbol: that of the type it is an alias of, or an object type. -/
def openText (symbol : Symbol) (args : Arguments) : Option String :=
  match symbol.decls with
  | .typeAlias d :: _ => some (textOf (bodySite p opener inside symbol.file d.params args) d.type)
  | .interface _ :: _ => some (objectText (openProperties p opener inside symbol args) [])
  | [] => none

end

/-- What symbols have to tell when there is room for so many of them. -/
def openerWith (p : Program) : Nat → Opener
  | 0 => .closed
  | room + 1 =>
    let deeper := openerWith p room
    { properties := fun inside symbol args =>
        (inside.enter? symbol).elim [] fun inside => openProperties p deeper inside symbol args
      keys := fun inside symbol =>
        (inside.enter? symbol).elim [] fun inside => openKeys p deeper inside symbol
      text := fun inside symbol args =>
        (inside.enter? symbol).bind fun inside => openText p deeper inside symbol args }

/-- The properties of a symbol, with those that it inherits. -/
def symbolProperties (p : Program) (symbol : Symbol) : List Shape :=
  (openerWith p maxDepth).properties .none symbol .none

end ElementManifest.Expansion
