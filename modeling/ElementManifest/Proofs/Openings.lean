import ElementManifest.Expansion.Symbols

/-!
# What an expansion opens

Each look at a type leads to the symbols that are named in it, as far as the look
goes: a type that is asked for its properties opens its branches, but not what only
stands in the text of a conditional type. The openings are listed here along the type,
the way the expansion reads it, and with each how it was come to: written in the open
declaration itself, or in an argument that one of its parameters stands for.

The expansion that cuts nothing is `uncutWith`, and what a call opens in it is
`Call.openings`. How deep the calls go is `NestsWithin`. Whether an index lists any keys
is asked of the uncut expansion with room for `maxDepth` symbols, which is all the room
that calls need that nest within it.
-/

namespace ElementManifest.Expansion

open ElementManifest.TypeScript

/-! ## The uncut expansion -/

/-- What symbols have to tell when none is cut because it is open already. There is
room for so many of them inside each other. -/
def uncutWith (p : Program) : Nat → Opener
  | 0 => .closed
  | room + 1 =>
    let deeper := uncutWith p room
    { properties := fun _ symbol args => openProperties p deeper .none symbol args
      keys := fun _ symbol => openKeys p deeper .none symbol
      text := fun _ symbol args => openText p deeper .none symbol args }

/-- The properties of a symbol when nothing is cut. -/
def uncutProperties (p : Program) (room : Nat) (symbol : Symbol) : List Shape :=
  (uncutWith p room).properties .none symbol .none

/-! ## Calls -/

/-- The ways to look at a type. -/
inductive Look
  | properties
  | keys
  | text
  deriving DecidableEq, Repr

/-- A symbol that is opened, with the way in which it is looked at. -/
structure Call where
  look : Look
  symbol : Symbol
  args : Arguments

/-- What tells a declaration apart while it is open. -/
def Call.key (c : Call) : Nat × String :=
  (c.symbol.file, c.symbol.name)

/-- How an expansion comes to a symbol: the open declaration names it, or an argument
does that a type parameter stands for. -/
inductive Way
  | written
  | argument
  deriving DecidableEq, Repr

/-- A call with the way to it. -/
structure Opening where
  way : Way
  call : Call

/-- An opening that is come to by way of an argument. -/
def Opening.asArgument (o : Opening) : Opening :=
  { o with way := .argument }

/-- Whether a look at a symbol opens it. Only an alias lists keys, and a symbol without
declarations stays as it is written. -/
def opensFor : Look → List TypeDecl → Bool
  | .properties, _ => true
  | .keys, .typeAlias _ :: _ => true
  | .text, _ :: _ => true
  | _, _ => false

/-! ## Openings of a type -/

/-- A site with what its type parameters open there, and with where arguments written there
stand. -/
structure Spot where
  site : Site
  parameter : Look → String → List Opening
  arguments : List TypeNode → Arguments

/-- What a look at a symbol opens. -/
def Spot.symbolOpenings (a : Spot) (look : Look) (s : Symbol) (args : List TypeNode) :
    List Opening :=
  if opensFor look s.decls then [⟨.written, look, s, a.arguments args⟩] else []

mutual

/-- What a type opens when it is asked for its keys. -/
def keyOpenings (a : Spot) : TypeNode → List Opening
  | .paren _ inner => keyOpenings a inner
  | .union _ branches => keyOpeningsAll a branches
  | .reference _ name args =>
    match a.site.parameter? name args with
    | some _ => a.parameter .keys name.text
    | none => ((a.site.lookup name.text).map fun s => a.symbolOpenings .keys s args).getD []
  | _ => []

/-- What types open when they are asked for their keys. -/
def keyOpeningsAll (a : Spot) : List TypeNode → List Opening
  | [] => []
  | t :: ts => keyOpenings a t ++ keyOpeningsAll a ts

end

/-- Whether a built-in type looks at the keys that its second argument lists. -/
def Utility.readsKeys : Utility → Bool
  | .pick => true
  | .leaveOut => true
  | _ => false

mutual

/-- What a type opens when it is asked for its properties. -/
def propertyOpenings (a : Spot) : TypeNode → List Opening
  | .paren _ inner => propertyOpenings a inner
  | .object _ members => memberOpenings a members
  | .intersection _ branches => propertyOpeningsAll a branches
  | .operator _ .readonly inner => propertyOpenings a inner
  | .reference _ name args =>
    match a.site.parameter? name args with
    | some _ => a.parameter .properties name.text
    | none =>
      match a.site.lookup name.text with
      | some s => a.symbolOpenings .properties s args
      | none => utilityOpenings a name.text args
  | _ => []

/-- What types open when they are asked for their properties. -/
def propertyOpeningsAll (a : Spot) : List TypeNode → List Opening
  | [] => []
  | t :: ts => propertyOpenings a t ++ propertyOpeningsAll a ts

/-- What a built-in type with arguments opens. -/
def utilityOpenings (a : Spot) (name : String) : List TypeNode → List Opening
  | [] => []
  | [target] =>
    match Utility.ofName? name with
    | some _ => propertyOpenings a target
    | none => []
  | target :: keys :: _ =>
    match Utility.ofName? name with
    | some u => propertyOpenings a target ++ if u.readsKeys then keyOpenings a keys else []
    | none => []

/-- What the properties among members open. -/
def memberOpenings (a : Spot) : List Member → List Opening
  | [] => []
  | .property (.mk span key computed optional type) :: ms =>
    (if (Property.mk span key computed optional type).name?.isSome then annotationOpenings a type
      else []) ++ memberOpenings a ms
  | .other _ _ :: ms => memberOpenings a ms

/-- What the text of the type of a property opens. -/
def annotationOpenings (a : Spot) : Option TypeNode → List Opening
  | some type => textOpenings a type
  | none => []

/-- What a type opens when its text is written out. -/
def textOpenings (a : Spot) : TypeNode → List Opening
  | .reference _ name args =>
    match a.site.parameter? name args with
    | some _ => a.parameter .text name.text
    | none =>
      match a.site.lookup name.text with
      | some s =>
        a.symbolOpenings .text s args ++ if s.decls.isEmpty then textOpeningsAll a args else []
      | none => textOpeningsAll a args
  | .object _ members => memberOpenings a members
  | .array _ elem => textOpenings a elem
  | .tuple _ elems => elementOpenings a elems
  | .union _ branches => textOpeningsAll a branches
  | .intersection _ branches => textOpeningsAll a branches
  | .paren _ inner => textOpenings a inner
  | .operator _ _ inner => textOpenings a inner
  | .optional _ inner => textOpenings a inner
  | .rest _ inner => textOpenings a inner
  | .indexed _ object index =>
    keyOpenings a index ++ if (keysOf a.site index).isEmpty then [] else propertyOpenings a object
  | _ => []

/-- What types open when their texts are written out. -/
def textOpeningsAll (a : Spot) : List TypeNode → List Opening
  | [] => []
  | t :: ts => textOpenings a t ++ textOpeningsAll a ts

/-- What the elements of a tuple open. -/
def elementOpenings (a : Spot) : List TupleElem → List Opening
  | [] => []
  | .mk _ type :: es => textOpenings a type ++ elementOpenings a es

end

/-- What a look at a type opens. -/
def openingsOf (a : Spot) : Look → TypeNode → List Opening
  | .properties => propertyOpenings a
  | .keys => keyOpenings a
  | .text => textOpenings a

/-! ## Openings of a declaration -/

section

variable (p : Program)

/-- A spot in a file and a scope, when what the type parameters open is known. Nothing is
cut there. -/
def spotWith (file : Nat) (scope : Scope) (parameter : Look → String → List Opening) : Spot where
  site := siteAt p (uncutWith p maxDepth) .none file scope
  parameter := parameter
  arguments := fun types => ⟨file, scope, types⟩

/-- What a type parameter opens in a scope. -/
def openingsIn : Scope → Look → String → List Opening
  | .empty, _, _ => []
  | .bind param file type around rest, look, name =>
    if param == name then
      let spot := spotWith p file around fun look n => openingsIn around look n
      (openingsOf spot look type).map Opening.asArgument
    else openingsIn rest look name

/-- A spot in a file and a scope. -/
def spotAt (file : Nat) (scope : Scope) : Spot :=
  spotWith p file scope (openingsIn p scope)

/-- The spot inside a declaration whose parameters are bound to arguments. -/
def bodySpot (file : Nat) (params : List TypeParam) (args : Arguments) : Spot :=
  spotAt p file (bindParams file .empty params args)

/-- What the parent of an interface opens. -/
def parentOpenings (a : Spot) (parent : Heritage) : List Opening :=
  match parent.base.dottedName? with
  | some name =>
    match a.site.lookup name with
    | some s => a.symbolOpenings .properties s parent.args
    | none => utilityOpenings a name parent.args
  | none => []

/-- What a declaration opens when it is asked for its properties. -/
def declOpenings (file : Nat) (args : Arguments) : TypeDecl → List Opening
  | .interface d =>
    let spot := bodySpot p file d.params args
    memberOpenings spot d.members ++ d.parents.flatMap (parentOpenings spot)
  | .typeAlias d => propertyOpenings (bodySpot p file d.params args) d.type

/-- What a call opens. -/
def Call.openings (c : Call) : List Opening :=
  match c.look with
  | .properties => c.symbol.decls.flatMap (declOpenings p c.symbol.file c.args)
  | .keys =>
    match c.symbol.decls with
    | .typeAlias d :: _ => keyOpenings (spotAt p c.symbol.file .empty) d.type
    | _ => []
  | .text =>
    match c.symbol.decls with
    | .typeAlias d :: _ => textOpenings (bodySpot p c.symbol.file d.params c.args) d.type
    | .interface _ :: _ => c.symbol.decls.flatMap (declOpenings p c.symbol.file c.args)
    | [] => []

/-- A call opens another one. -/
def Opens (c c' : Call) : Prop :=
  ∃ o ∈ c.openings p, o.call = c'

/-- A call opens another one by way of an argument. -/
def OpensArgument (c c' : Call) : Prop :=
  ⟨.argument, c'⟩ ∈ c.openings p

/-- A call and what it opens are at most so many, one inside the other. -/
def NestsWithin : Nat → Call → Prop
  | 0, _ => False
  | n + 1, c => ∀ o ∈ c.openings p, NestsWithin n o.call

end

/-- A symbol that is asked for its properties and stands in nothing else. -/
def rootCall (symbol : Symbol) : Call :=
  ⟨.properties, symbol, .none⟩

end ElementManifest.Expansion
