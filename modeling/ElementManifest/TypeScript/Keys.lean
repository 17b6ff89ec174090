import ElementManifest.TypeScript.Grammar

/-!
# Property keys

A key is a name, a string, a number, or an expression in brackets. In classes
and interfaces it may also be a private name.
-/

namespace ElementManifest.TypeScript

open Read

/-- A key, and whether it is written in brackets. -/
structure Key where
  expr : Expr
  computed : Bool

/-- The text of a key that is a plain name. -/
def Key.plainName? (k : Key) : Option String :=
  match k.expr with
  | .ident name => if k.computed then none else some name
  | _ => none

/-- What is visited in a key. -/
def Key.parts (k : Key) : List Node :=
  [.expr k.expr]

/-- Whether a key makes a member the constructor. -/
def Key.isConstructor (k : Key) : Bool :=
  !k.computed && match k.expr with
    | .ident name => name == "constructor"
    | .string value => value == some "constructor"
    | _ => false

namespace Read

/-- A private name: the hash and the word stand together. -/
def privateName : Read Unit := do
  let hash ← token
  expect "#"
  guard ((← start) == hash.span.hi)
  let _ ← anyWord

/-- An expression in brackets. -/
def bracketed (e : Read Expr) : Read Expr := do
  expect "["
  let e ← withSettings (fun s => { s with inOperator := true }) e
  expect "]"
  return e

/-- A key, where `e` reads what stands in brackets. -/
def keyWith (e : Read Expr) : Read Key := do
  let t ← token
  match t.lexeme with
  | .word text _ =>
    let _ ← take
    return ⟨.ident text, false⟩
  | .string value =>
    let _ ← take
    return ⟨.string value, false⟩
  | .number text =>
    let _ ← take
    return ⟨.number text, false⟩
  | .bigint =>
    let _ ← take
    return ⟨.form .plain [], false⟩
  | .mark "[" => return ⟨← bracketed e, true⟩
  | .mark "#" =>
    privateName
    return ⟨.form .plain [], false⟩
  | _ => fail

/-- A key of a value. Its brackets may hold expressions with commas between them. -/
def key (g : Grammar) : Read Key :=
  keyWith g.expression

/-- A key in an interface, where a string or number is read as an expression. -/
def signatureKey (g : Grammar) : Read Key := do
  match (← token).lexeme with
  | .string _ | .number _ => return ⟨← g.construction, false⟩
  | .bigint => fail
  | _ => keyWith g.assignment

end Read

end ElementManifest.TypeScript
