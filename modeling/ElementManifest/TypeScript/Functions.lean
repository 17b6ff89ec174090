import ElementManifest.TypeScript.Bindings

/-!
# Functions

Parameters and bodies of functions and methods.
-/

namespace ElementManifest.TypeScript

/-- What is visited in a function, by its parts. -/
structure FunctionParts where
  params : List Node
  body : List Node
  types : List Node
  answer : List Node

/-- What is visited in a function. -/
def FunctionParts.all (f : FunctionParts) : List Node :=
  f.params ++ f.body ++ f.types ++ f.answer

namespace Read

variable (g : Grammar)

/-- Statements in braces. -/
def block : Read (List Node) := do
  expect "\x7b"
  let stmts ← many do
    let t ← token
    if t.isMark "\x7d" || t.lexeme == .finish then return none
    return some (Node.stmt (← g.statement true))
  -- a block may also end with the source
  let _ ← eat "\x7d"
  return stmts

/-- The kinds of functions. -/
structure FunctionKind where
  isAsync : Bool := false
  isGenerator : Bool := false

/-- The place inside a function. -/
def functionPlace (kind : FunctionKind) (s : Settings) : Settings :=
  { s with
    yieldOperator := kind.isGenerator, awaitOperand := kind.isAsync, inParameters := false
    inOperator := true, inConditional := false, colonFollows := false, conditionalTypes := true
    inType := false, topLevel := false, loopHead := false, arrowStart := none }

/-- The body of a function, or the end of a declaration without a body. -/
def functionBody (kind : FunctionKind) : Read (List Node) := do
  if ← isMark "\x7b" then withSettings (functionPlace kind) (block g)
  else
    statementEnd
    return []

/-- Parameters in parentheses, one by one. -/
def paramList : Read (List (List Node)) := do
  expect "("
  return (← listUntil ")" (parameter g)).map Prod.fst

/-- Parameters in parentheses. -/
def params : Read (List Node) :=
  return (← paramList g).flatten

/-- A function behind its name. `params` reads its parameters. -/
def functionRest (kind : FunctionKind) (params : Read (List Node)) : Read FunctionParts := do
  let types ← optionalTypeParams g
  let params ← withSettings (fun s => { functionPlace kind s with inParameters := true }) params
  let answer ← optionalReturnType g
  let body ← functionBody g kind
  return ⟨params, body, paramsParts types, answer⟩

/-- A function, from the word `function` on. It must have a name if `named`. -/
def function (named isAsync : Bool) : Read (List Node) := do
  expectWord "function"
  let isGenerator ← eat "*"
  if named then
    let _ ← boundName
  else if ← isName then
    let _ ← name
  return (← functionRest g ⟨isAsync, isGenerator⟩ (params g)).all

/-- A function, from the word `async` on. -/
def asyncFunction (named : Bool) : Read (List Node) := do
  expectWord "async"
  function g named true

/-- Whether the word `async` stands before `function` on its line. -/
def startsAsyncFunction : Read Bool := do
  let next ← second
  return (← isWord "async") && next.isWord "function" && !next.newlineBefore

end Read

end ElementManifest.TypeScript
