import ElementManifest.TypeScript.Types

/-!
# What names are bound to

Names and patterns on the left of a declaration, and expressions that turn out
to be patterns because an arrow or an equals sign follows them.
-/

namespace ElementManifest.TypeScript

namespace Read

variable (g : Grammar)

/-! ## Patterns -/

/-- A key of an object literal or pattern, which is never private. -/
def objectKey : Read Key := do
  guard (!(← isMark "#"))
  key g

/-- A pattern with its default value. -/
def bindingElement : Read (List Node) := do
  let target ← g.binding
  return target ++ (← defaultValue g)

/-- The elements of an array pattern behind its bracket. -/
def arrayPattern : Read (List Node) := do
  let elems ← many do
    if ← isMark "]" then return none
    if ← eat "," then return some []
    let elem ← if ← eat "..." then g.binding else bindingElement g
    if !(← isMark "]") then expect ","
    return some elem
  expect "]"
  return elems.flatten

/-- A property of an object pattern, and whether it may be the last one: a
pattern cannot take the other properties, as a name can. -/
def patternProperty : Read (List Node × Bool) := do
  if ← eat "..." then
    let isName := (← token).word?.isSome
    return (← g.binding, isName)
  else
    let key ← objectKey g
    if ← eat ":" then return (key.parts ++ (← bindingElement g), true)
    else
      guard key.plainName?.isSome
      return (← defaultValue g, true)

/-- The properties of an object pattern behind its brace. -/
def objectPattern : Read (List Node) := do
  let props ← listUntil "\x7d" (patternProperty g)
  guard (props.getLast?.all Prod.snd)
  return props.flatMap Prod.fst

/-- A name or a pattern. Among declarations a pattern may be marked as optional. -/
def binding : Read (List Node) := do
  let s ← settings
  let optional : Read Unit := do
    if s.declarations || s.ambient then
      let _ ← eat "?"
  if ← eat "[" then
    let parts ← arrayPattern g
    optional
    return parts
  else if ← eat "\x7b" then
    let parts ← objectPattern g
    optional
    return parts
  else
    let _ ← boundName
    return []

end Read

/-! ## Expressions as patterns -/

/-- The reading of an expression as a pattern: as what an arrow function binds,
as the target of an assignment, or as a part of such a target. -/
inductive Reading
  | bound
  | target
  | part
  deriving DecidableEq

/-- Whether an expression, as a part of a target, stays an expression. -/
def Expr.isPlainPart : Expr → Bool
  | .member _ _ | .call _ _ _ | .string _ | .number _ | .template _ _ | .classExpr _ _
  | .paren _ => true
  | .form kind _ => kind = .place
  | _ => false

/-- Whether an expression names a place that can be assigned to. -/
def Expr.isPlace : Expr → Bool
  | .ident _ | .member _ _ | .paren _ => true
  | .form kind _ => kind = .place || kind = .applied || kind = .nonNull || kind = .chain
  | _ => false

mutual

/-- What is visited in an expression that is read as a pattern. Methods cannot
be read as patterns; what is no pattern otherwise is left out. An arrow function
binds the other properties of an object to a name only. -/
def Expr.asPattern (reading : Reading) : Expr → Option (List Node)
  | .ident _ => some []
  | .object entries => Entry.listAsPattern (inner reading) entries
  | .array elems => Argument.listAsPattern (inner reading) elems
  | .assign isPlain target value =>
    if isPlain ∧ reading ≠ .target then some (target ++ [.expr value]) else some []
  | e =>
    if reading = .target ∨ (reading = .part ∧ e.isPlainPart) then some [.expr e] else some []
where
  /-- The reading of the parts of a pattern. -/
  inner : Reading → Reading
    | .bound => .bound
    | _ => .part

/-- The entries of an object literal as properties of a pattern. -/
def Entry.listAsPattern (reading : Reading) : List Entry → Option (List Node)
  | [] => some []
  | .shorthand _ :: es => Entry.listAsPattern reading es
  | .defaulted _ value :: es => do
    return .expr value :: (← Entry.listAsPattern reading es)
  | .pair key value :: es => do
    return key ++ (← value.asPattern reading) ++ (← Entry.listAsPattern reading es)
  | .spread value :: es => do
    let others ← if reading = .bound then some [] else value.asPattern reading
    return others ++ (← Entry.listAsPattern reading es)
  | .method _ :: _ => none

/-- Arguments or elements as patterns. -/
def Argument.listAsPattern (reading : Reading) : List Argument → Option (List Node)
  | [] => some []
  | .mk _ value :: as => do
    return (← value.asPattern reading) ++ (← Argument.listAsPattern reading as)

end

end ElementManifest.TypeScript
