import ElementManifest.Proofs.Openings
import ElementManifest.Resolved

/-!
# The resolver

The expansion of a program is given by what each look at a type tells. Here it is given as
something that runs: a resolver keeps the symbols that it has open on a stack, pushes one
when it goes into a declaration and pops it when it comes out. Nothing about the stack is
part of its type. It is a plain list that every step may change, each change is written down
(`Resolver.moments`), and a run that would go on without end has no answer.

The looks take the same steps as `keysOf`, `propertiesOf` and `textOf`, in the order in which
a resolver takes them, and have the same names in `Resolver`.
-/

namespace ElementManifest.Expansion

open ElementManifest.TypeScript

/-- A resolver: the symbols that it has open, the newest first, and the stacks that it has
had so far, the latest last. -/
structure Resolver where
  stack : List (Nat × String)
  moments : List (List (Nat × String))

namespace Resolver

/-- A resolver that has not been used. -/
def new : Resolver := ⟨[], []⟩

/-- What a resolver does until it answers; `none` when it does not come to an end within the
declarations that it may go into. -/
abbrev Run (α : Type) := StateT Resolver Option α

/-! ## The stack -/

/-- The resolver with another stack. -/
def withStack (r : Resolver) (stack : List (Nat × String)) : Resolver :=
  ⟨stack, r.moments ++ [stack]⟩

/-- Whether a symbol may be opened: it is not open, and not too many are. -/
def mayEnter (symbol : Symbol) : Run Bool := fun r =>
  some (!r.stack.contains (symbol.file, symbol.name) && r.stack.length < maxDepth, r)

/-- Push a symbol. -/
def push (symbol : Symbol) : Run Unit := fun r =>
  some ((), r.withStack ((symbol.file, symbol.name) :: r.stack))

/-- Open a symbol, if it may be opened. -/
def enter (symbol : Symbol) : Run Bool := do
  if ← mayEnter symbol then
    push symbol
    return true
  else return false

/-- Pop the symbol that was pushed last. -/
def leave : Run Unit := fun r => some ((), r.withStack r.stack.tail)

/-! ## Looks at a type -/

/-- What an argument of a type parameter tells when it is asked. -/
structure Meaning where
  properties : Run (List Shape)
  keys : Run (List String)
  text : Run String

/-- A place where types stand, and what names lead a resolver to from there. -/
structure Site where
  source : Source
  meaning : String → Option Meaning
  lookup : String → Option Symbol
  properties : Symbol → List TypeNode → Run (List Shape)
  keys : Symbol → Run (List String)
  text : Symbol → List TypeNode → Run (Option String)

/-- The argument that a reference means, if it is a type parameter. -/
def Site.parameter? (site : Site) : EntityName → List TypeNode → Option Meaning
  | .name text, [] => site.meaning text
  | _, _ => none

mutual

/-- The keys that a type lists. -/
def keysOf (site : Site) : TypeNode → Run (List String)
  | .text _ value => return value.toList
  | .paren _ inner => keysOf site inner
  | .union _ branches => keysOfAll site branches
  | .reference _ name args =>
    match site.parameter? name args with
    | some meaning => meaning.keys
    | none =>
      match site.lookup name.text with
      | some symbol => site.keys symbol
      | none => return []
  | _ => return []

/-- The keys that types list. -/
def keysOfAll (site : Site) : List TypeNode → Run (List String)
  | [] => return []
  | t :: ts => do
    let first ← keysOf site t
    let rest ← keysOfAll site ts
    return first ++ rest

end

mutual

/-- The properties of a type. -/
def propertiesOf (site : Site) : TypeNode → Run (List Shape)
  | .paren _ inner => propertiesOf site inner
  | .object span members => do
    let shapes ← memberShapes site span.lo members
    return addShapes [] shapes
  | .intersection _ branches => branchProperties site [] branches
  | .operator _ .readonly inner => propertiesOf site inner
  | .reference _ name args =>
    match site.parameter? name args with
    | some meaning => meaning.properties
    | none =>
      match site.lookup name.text with
      | some symbol => site.properties symbol args
      | none => utilityProperties site name.text args
  | _ => return []

/-- The properties of the branches of an intersection, behind those that are known. -/
def branchProperties (site : Site) (shapes : List Shape) : List TypeNode → Run (List Shape)
  | [] => return shapes
  | t :: ts => do
    let more ← propertiesOf site t
    branchProperties site (addShapes shapes more) ts

/-- The properties of a built-in type. The keys are only asked for if they count. -/
def utilityProperties (site : Site) (name : String) : List TypeNode → Run (List Shape)
  | [] => return []
  | [target] =>
    match Utility.ofName? name with
    | some u => do
      let shapes ← propertiesOf site target
      return u.apply shapes none
    | none => return []
  | target :: index :: _ =>
    match Utility.ofName? name with
    | some u => do
      let shapes ← propertiesOf site target
      if u.readsKeys then
        let keys ← keysOf site index
        return u.apply shapes (some keys)
      else return u.apply shapes (some [])
    | none => return []

/-- The shapes of the properties among members. -/
def memberShapes (site : Site) (place : Nat) : List Member → Run (List Shape)
  | [] => return []
  | .property (.mk span key computed optional type) :: ms =>
    match (Property.mk span key computed optional type).name? with
    | some name => do
      let text ← annotationText site type
      let doc := site.source.docOf (.mk span key computed optional type) place
      let rest ← memberShapes site span.hi ms
      return ⟨name, text, optional, doc⟩ :: rest
    | none => memberShapes site span.hi ms
  | .other span _ :: ms => memberShapes site span.hi ms

/-- The text of the type of a property. -/
def annotationText (site : Site) : Option TypeNode → Run String
  | some type => textOf site type
  | none => return "any"

/-- The text of a type. -/
def textOf (site : Site) : TypeNode → Run String
  | .reference _ name args =>
    match site.parameter? name args with
    | some meaning => meaning.text
    | none =>
      match site.lookup name.text with
      | some symbol => do
        match ← site.text symbol args with
        | some text => return text
        | none =>
          let texts ← textsOf site args
          return appliedText name.text texts
      | none => do
        let texts ← textsOf site args
        return appliedText name.text texts
  | .object span members => do
    let shapes ← memberShapes site span.lo members
    return objectText (addShapes [] shapes) (otherTexts site.source members)
  | .array _ elem => do
    let text ← textOf site elem
    return operandText text ++ "[]"
  | .tuple _ elems => do
    let texts ← elementTexts site elems
    return "[" ++ ", ".intercalate texts ++ "]"
  | .union _ branches => do
    let texts ← textsOf site branches
    return " | ".intercalate (texts.map (Text.wrapIf [.arrow]))
  | .intersection _ branches => do
    let texts ← textsOf site branches
    return " & ".intercalate (texts.map operandText)
  | .paren _ inner => do
    let text ← textOf site inner
    return "(" ++ text ++ ")"
  | .operator _ op inner => do
    let text ← textOf site inner
    return op.text ++ " " ++ operandText text
  | .optional _ inner => do
    let text ← textOf site inner
    return operandText text ++ "?"
  | .rest _ inner => do
    let text ← textOf site inner
    return "..." ++ text
  | .indexed span object index => do
    let keys ← keysOf site index
    if keys.isEmpty then return site.source.textOf span
    else
      let shapes ← propertiesOf site object
      return (accessText keys shapes).getD (site.source.textOf span)
  | .text span value =>
    match value with
    | some value => return "\"" ++ value ++ "\""
    | none => return site.source.textOf span
  | .truth _ value => return if value then "true" else "false"
  | .keyword span _ => return site.source.textOf span
  | .other span _ => return site.source.textOf span

/-- The texts of types. -/
def textsOf (site : Site) : List TypeNode → Run (List String)
  | [] => return []
  | t :: ts => do
    let text ← textOf site t
    let rest ← textsOf site ts
    return text :: rest

/-- The texts of the elements of a tuple. -/
def elementTexts (site : Site) : List TupleElem → Run (List String)
  | [] => return []
  | .mk label type :: es => do
    let text ← textOf site type
    let rest ← elementTexts site es
    return (match label with
      | some name => name ++ ": " ++ text
      | none => text) :: rest

end

/-! ## Looks at a symbol -/

/-- What symbols tell when a resolver is asked. -/
structure Opener where
  properties : Symbol → Arguments → Run (List Shape)
  keys : Symbol → Run (List String)
  text : Symbol → Arguments → Run (Option String)

/-- An opener whose runs do not come to an end. -/
def Opener.endless : Opener where
  properties _ _ := fun _ => none
  keys _ := fun _ => none
  text _ _ := fun _ => none

/-- Ask one after the other, and put the answers together. -/
def collect {α β : Type} (ask : α → Run (List β)) : List α → Run (List β)
  | [] => return []
  | a :: as => do
    let first ← ask a
    let rest ← collect ask as
    return first ++ rest

section

variable (p : Program) (opener : Opener)

/-- A place in a file, when the meanings of the type parameters are known. -/
def siteWith (file : Nat) (scope : Scope) (meaning : String → Option Meaning) : Site where
  source := sourceOf p file
  meaning := meaning
  lookup := p.lookup file
  properties symbol args := opener.properties symbol ⟨file, scope, args⟩
  keys := opener.keys
  text symbol args := opener.text symbol ⟨file, scope, args⟩

/-- What a type parameter means in a scope. The argument is read with whatever stack there
is when it is asked. -/
def meaningIn : Scope → String → Option Meaning
  | .empty, _ => none
  | .bind param file type around rest, name =>
    if param == name then
      let site := siteWith p opener file around fun n => meaningIn around n
      some ⟨propertiesOf site type, keysOf site type, textOf site type⟩
    else meaningIn rest name

/-- A place in a file and a scope. -/
def siteAt (file : Nat) (scope : Scope) : Site :=
  siteWith p opener file scope (meaningIn p opener scope)

/-- The place inside a declaration whose parameters are bound to arguments. -/
def bodySite (file : Nat) (params : List TypeParam) (args : Arguments) : Site :=
  siteAt p opener file (bindParams file .empty params args)

/-- The properties of the parent of an interface. -/
def parentProperties (site : Site) (parent : Heritage) : Run (List Shape) :=
  match parent.base.dottedName? with
  | some name =>
    match site.lookup name with
    | some symbol => site.properties symbol parent.args
    | none => utilityProperties site name parent.args
  | none => return []

/-- The properties of a declaration. -/
def declProperties (file : Nat) (args : Arguments) : TypeDecl → Run (List Shape)
  | .interface d => do
    let site := bodySite p opener file d.params args
    let own ← memberShapes site d.bodyStart d.members
    let inherited ← collect (parentProperties site) d.parents
    return own ++ inherited
  | .typeAlias d => propertiesOf (bodySite p opener file d.params args) d.type

/-- The properties of a symbol, which is open while they are read. A symbol that may not be
opened has none. -/
def symbolProperties (symbol : Symbol) (args : Arguments) : Run (List Shape) := do
  if ← enter symbol then
    let shapes ← collect (declProperties p opener symbol.file args) symbol.decls
    leave
    return addShapes [] shapes
  else return []

/-- The keys that a symbol lists. Only an alias is opened. -/
def symbolKeys (symbol : Symbol) : Run (List String) :=
  match symbol.decls with
  | .typeAlias d :: _ => do
    if ← enter symbol then
      let keys ← keysOf (siteAt p opener symbol.file .empty) d.type
      leave
      return keys
    else return []
  | _ => return []

/-- The text of a symbol, unless it stays as it is written. -/
def symbolText (symbol : Symbol) (args : Arguments) : Run (Option String) := do
  if ← mayEnter symbol then
    match symbol.decls with
    | .typeAlias d :: _ =>
      push symbol
      let text ← textOf (bodySite p opener symbol.file d.params args) d.type
      leave
      return some text
    | .interface _ :: _ =>
      let shapes ← symbolProperties p opener symbol args
      return some (objectText shapes [])
    | [] => return none
  else return none

end

/-- What symbols tell when a resolver may go into so many declarations inside each other. It
is no bound of the resolver's own: whoever would go deeper does not come to an end. -/
def openerWith (p : Program) : Nat → Opener
  | 0 => .endless
  | fuel + 1 =>
    { properties := symbolProperties p (openerWith p fuel)
      keys := symbolKeys p (openerWith p fuel)
      text := symbolText p (openerWith p fuel) }

/-! ## What a resolver is used for -/

section

variable (p : Program) (fuel : Nat)

/-- The properties of a symbol, with those that it inherits. -/
def expand (symbol : Symbol) : Run (List Shape) :=
  (openerWith p fuel).properties symbol .none

/-- The properties of symbols, one after the other, with the same resolver. -/
def expandAll : List Symbol → Run (List (List Shape))
  | [] => return []
  | symbol :: symbols => do
    let shapes ← expand p fuel symbol
    let rest ← expandAll symbols
    return shapes :: rest

/-- The first name of the root file that has any shapes, with the same resolver for all. -/
def firstWithShapes : List String → Run (Option (String × List Shape))
  | [] => return none
  | name :: names =>
    match p.lookup rootFile name with
    | some symbol => do
      let shapes ← expand p fuel symbol
      if shapes.isEmpty then firstWithShapes names else return some (name, shapes)
    | none => firstWithShapes names

end

end Resolver

end ElementManifest.Expansion
