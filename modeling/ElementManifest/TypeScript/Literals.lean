import ElementManifest.TypeScript.Classes

/-!
# Literals with parts

Objects, arrays, arguments and templates.
-/

namespace ElementManifest.TypeScript

namespace Read

variable (g : Grammar)

/-- An expression without commas, where `in` is an operator. -/
def element : Read Expr :=
  withSettings (fun s => { s with inOperator := true }) g.assignment

/-- An expression, perhaps one that is spread. -/
def argument : Read Argument := do
  let spread ← eat "..."
  return .mk spread (← element g)

/-- Arguments in parentheses. -/
def arguments : Read (List Argument) := do
  expect "("
  withSettings (fun s => { s with colonFollows := false }) (listUntil ")" (argument g))

/-- What is visited in arguments. -/
def argumentParts (as : List Argument) : List Node :=
  as.map fun | .mk _ value => .expr value

/-- An array. Holes are left out. -/
def arrayLiteral : Read Expr := do
  expect "["
  let elems ← many do
    if ← isMark "]" then return none
    if ← eat "," then return some []
    let a ← argument g
    if !(← isMark "]") then expect ","
    return some [a]
  expect "]"
  return .array elems.flatten

/-- A getter, a setter or an asynchronous method behind the word `w`. A setter
has no parameters but the object and the value. -/
def markedEntry (w : String) : Read Entry := do
  let isAsync := w == "async"
  let isGenerator ← if isAsync then eat "*" else pure false
  let key ← objectKey g
  if w == "set" then
    let f ← functionRest g {} (return ((← paramList g).take 2).flatten)
    return .method (key.parts ++ f.params ++ f.body)
  let f ← functionRest g ⟨isAsync, isGenerator⟩ (params g)
  if w == "get" then return .method (key.parts ++ f.answer ++ f.body)
  else return .method (key.parts ++ f.all)

/-- An entry of an object. A key with nothing behind it is one. -/
def entry : Read Entry := do
  if ← eat "..." then return .spread (← element g)
  if ← eat "*" then
    let key ← objectKey g
    return .method (key.parts ++ (← functionRest g ⟨false, true⟩ (params g)).all)
  let _ ← parameterModifier
  let key ← objectKey g
  if ← eat ":" then return .pair key.parts (← element g)
  if ← isMarkIn ["(", "<"] then
    return .method (key.parts ++ (← functionRest g {} (params g)).all)
  match key.plainName? with
  | none =>
    guard (← isMark "\x7d")
    return .pair key.parts (.form .plain [])
  | some w =>
    let _ ← eat "?"
    if ← eat "=" then return .defaulted w (← element g)
    else if ← isMarkIn [",", "\x7d"] then return .shorthand w
    else
      guard (w == "get" || w == "set" || w == "async")
      markedEntry g w

/-- An object. -/
def objectLiteral : Read Expr := do
  expect "\x7b"
  return .object (← listUntil "\x7d" (entry g))

/-- A template: the text of its first piece, and what stands in its holes. -/
def template : Read (Option String × List Expr) := do
  guard (← isMark "\x60")
  let (pieces, exprs) ← templateParts
    (withSettings (fun s => { s with inOperator := true }) g.expression)
  return (pieces.head?.join.bind Text.textOfUnits, exprs)

end Read

end ElementManifest.TypeScript
