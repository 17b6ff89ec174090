import ElementManifest.TypeScript.Declarations

/-!
# Statements

Most statements keep only their parts. Interfaces and aliases keep what they
declare.
-/

namespace ElementManifest.TypeScript

namespace Read

variable (g : Grammar)

/-- An expression with commas, where `in` is an operator. -/
def whole : Read Expr :=
  withSettings (fun s => { s with inOperator := true }) g.expression

/-- An expression in parentheses. -/
def condition : Read Expr := do
  expect "("
  let e ← whole g
  expect ")"
  return e

/-- A nested statement, as a part. It declares no constant. -/
def nested : Read Node :=
  return .stmt (← g.statement false)

/-! ## Conditions and loops -/

/-- A condition. -/
def ifRest : Read Stmt := do
  let test ← condition g
  let yes ← nested g
  if ← eatWord "else" then return .form [.expr test, yes, ← nested g]
  return .form [.expr test, yes]

/-- The part of the head of a loop behind its first semicolon. The second one may
be missing behind a condition. -/
def loopSteps (isAwait : Bool) (first : List Node) : Read (List Node) := do
  guard (!isAwait)
  let test ← if ← eat ";" then pure [] else do
    let e ← whole g
    let _ ← eat ";"
    pure [Node.expr e]
  let step ← if ← isMark ")" then pure [] else (fun e => [Node.expr e]) <$> whole g
  return first ++ test ++ step

/-- What a loop goes through. -/
def loopSource (isAwait : Bool) (first : List Node) : Read (List Node) := do
  if ← eatWord "of" then
    return first ++ [.expr (← withSettings (fun s => { s with inOperator := true }) g.assignment)]
  else
    guard (!isAwait)
    expectWord "in"
    return first ++ [.expr (← whole g)]

/-- The target of a loop that was read as an expression. -/
def loopTarget (e : Expr) : Option (List Node) :=
  match e with
  | .ident _ => some []
  | .object _ | .array _ => e.asPattern .target
  | _ => some [.expr e]

/-- Whether what a loop goes through follows, up to the closing parenthesis. -/
def startsLoopSource : Read Bool :=
  aheadTrue do
    if !(← eatWord "of") then expectWord "in"
    let _ ← g.assignment
    expect ")"
    return true

/-- The variables of a loop. They may be missing before what it goes through. -/
def loopVariables (kind : VariableKind) : Read (List Node) := do
  let behindWord ← ahead do
    let _ ← take
    guard (← startsLoopSource g)
  match behindWord with
  | some _ =>
    let _ ← take
    return []
  | none => declarators g kind true

/-- Whether the expression is the word `using`, perhaps behind `await`. -/
def isResourceWord : Expr → Bool
  | .ident word => word == "using"
  | .form .awaited [.expr (.ident word)] => word == "using"
  | _ => false

/-- Whether a token parts the variable of a loop from what it goes through. -/
def isLoopWord (t : Token) : Bool :=
  t.isWord "of" || t.isWord "in"

/-- The head of a loop, between its parentheses. -/
def loopHead (isAwait : Bool) : Read (List Node) := do
  match ← startsVariables with
  | some kind =>
    let first ← loopVariables g kind
    if isLoopWord (← token) then loopSource g isAwait first
    else
      expect ";"
      loopSteps g isAwait first
  | none =>
    if ← eat ";" then loopSteps g isAwait []
    else
      let e ← withSettings (fun s => { s with inOperator := false }) g.expression
      if isResourceWord e && !(← isWord "of") && isLoopWord (← second) then
        let _ ← boundName
        loopSource g isAwait []
      else if isLoopWord (← token) then
        match loopTarget e with
        | some first => loopSource g isAwait first
        | none => fail
      else
        expect ";"
        loopSteps g isAwait [.expr e]

/-- A loop behind the word `for`. -/
def forRest : Read Stmt := do
  let isAwait ← eatWord "await"
  expect "("
  let head ← withSettings (fun s => { s with loopHead := true }) (loopHead g isAwait)
  expect ")"
  return .form (head ++ [← nested g])

/-- A loop behind the word `do`. Its condition is visited first. -/
def doRest : Read Stmt := do
  let body ← nested g
  expectWord "while"
  let test ← condition g
  let _ ← eatStatementEnd
  return .form [.expr test, body]

/-- A case of a choice: what is visited in it, and whether it is the one for all
other values. -/
def switchCase : Read (List Node × Bool) := do
  let isDefault ← isWord "default"
  let test ← if ← eatWord "case" then (fun e => [Node.expr e]) <$> whole g
    else
      expectWord "default"
      pure []
  expect ":"
  let body ← many do
    let t ← token
    if t.isWord "case" || t.isWord "default" || t.isMark "\x7d" || t.lexeme == .finish then
      return none
    return some (Node.stmt (← g.statement true))
  return (test ++ body, isDefault)

/-- A choice behind its first word. One case at most is for all other values. -/
def switchRest : Read Stmt := do
  let subject ← condition g
  expect "\x7b"
  let cases ← many do
    if (← isWord "case") || (← isWord "default") then return some (← switchCase g)
    return none
  expect "\x7d"
  guard ((cases.filter Prod.snd).length ≤ 1)
  return .form (.expr subject :: cases.flatMap Prod.fst)

/-! ## Jumps -/

/-- An optional value behind `return`. -/
def returnRest : Read Stmt := do
  if ← eatStatementEnd then return .form []
  let e ← whole g
  statementEnd
  return .form [.expr e]

/-- The value behind `throw`, on the same line. -/
def throwRest : Read Stmt := do
  guard (!(← newline))
  let e ← whole g
  statementEnd
  return .form [.expr e]

/-- An optional label behind a jump. -/
def jumpRest : Read Stmt := do
  if ← eatStatementEnd then return .form []
  let _ ← boundName
  statementEnd
  return .form []

/-! ## Failures -/

/-- The handler of failures. -/
def catchClause : Read (List Node) := do
  expectWord "catch"
  let param ← if ← eat "(" then do
      let target ← g.binding
      let type ← annotationParts g
      expect ")"
      pure (target ++ type)
    else pure []
  return param ++ (← block g)

/-- The block that is left in any case. -/
def finallyClause : Read (List Node) := do
  if ← eatWord "finally" then block g else return []

/-- A guarded block behind its first word. -/
def tryRest : Read Stmt := do
  let body ← block g
  let handler ← if ← isWord "catch" then catchClause g else pure []
  return .form (body ++ handler ++ (← finallyClause g))

/-- A handler without a guarded block is passed over. -/
def strayHandler : Read Stmt := do
  if ← isWord "catch" then
    let _ ← orElseAt (catchClause g) (return [])
  let _ ← orElseAt (finallyClause g) (return [])
  return .form []

/-! ## Expressions as statements -/

/-- The end of a statement behind the expression `e`. An operator in its place
goes on with the expression. -/
def expressionEnd (e : Expr) : Read Stmt := do
  if ← eatStatementEnd then return .form [.expr e]
  guard (← atBinaryMark)
  return .form [.expr (← operators g 0 e)]

/-- What a name that stands as an expression starts, if it is no expression. -/
def afterName (word : String) : Read (Option Stmt) := do
  match word with
  | "declare" => declared g
  | "global" => if ← isMark "\x7b" then return some (← namespaceBody g) else return none
  | _ =>
    match ← declarationAfter g word false with
    | some s => return some s
    | none =>
      if ["public", "static", "abstract"].contains word && (← isWord "interface") then
        let _ ← take
        return some (.interface (← interfaceRest g))
      return none

/-- A statement that starts with an expression: a label, a declaration whose
first word is also a name, or the expression itself. -/
def expressionStatement : Read Stmt := do
  let e ← whole g
  match e with
  | .ident word =>
    if ← eat ":" then return .form [← nested g]
    if word == "interface" && (← newline) then
      let _ ← eat ";"
      return .form []
    match ← afterName g word with
    | some s => return s
    | none => expressionEnd g e
  | _ => expressionEnd g e

/-- Whether `await` stands before the declaration of a resource here. -/
def startsAwaitedResource : Read Bool :=
  aheadTrue do
    expectWord "await"
    startsResource

/-- An import at run time as a statement. -/
def importStatement : Read Stmt := do
  let e ← whole g
  let _ ← eatStatementEnd
  return .form [.expr e]

/-- A statement that starts with the word `w`. Constants and resources may be
declared in it if `declares`. -/
def wordStatement (declares : Bool) (w : String) : Read Stmt := do
  let next ← second
  let named := next.word?.isSome && !next.newlineBefore
  let behind (p : Read Stmt) : Read Stmt := do
    let _ ← take
    p
  match w with
  | "break" | "continue" => behind jumpRest
  | "debugger" => behind (do
      statementEnd
      return .form [])
  | "do" => behind (doRest g)
  | "for" => behind (forRest g)
  | "function" => functionDecl g
  | "class" => classDecl g
  | "if" => behind (ifRest g)
  | "return" => behind (returnRest g)
  | "switch" => behind (switchRest g)
  | "throw" => behind (throwRest g)
  | "try" => behind (tryRest g)
  | "catch" | "finally" => strayHandler g
  | "while" | "with" => behind (do
      let test ← condition g
      return .form [.expr test, ← nested g])
  | "import" =>
    guard (next.isMarkIn ["(", "."])
    importStatement g
  | "export" => fail
  | "interface" =>
    if named then behind (return .interface (← interfaceRest g)) else expressionStatement g
  | "type" => if named then behind (return .typeAlias (← aliasRest g)) else expressionStatement g
  | "enum" => if named then behind (enumRest g) else fail
  | "const" =>
    if next.isWord "enum" then
      let _ ← take
      let _ ← take
      enumRest g
    else
      guard declares
      variableStatement g .const
  | "await" =>
    if (declares || (← settings).topLevel) && (← startsAwaitedResource) then
      let _ ← take
      resourceStatement g
    else expressionStatement g
  | _ =>
    if ← startsAsyncFunction then return .form (← asyncFunction g true)
    if declares && (← startsResource) then return ← resourceStatement g
    match ← startsVariables with
    | some kind =>
      if declares || kind = .var then variableStatement g kind else expressionStatement g
    | none => expressionStatement g

/-- A statement. Constants and resources may be declared in it if `declares`. -/
def statement (declares : Bool) : Read Stmt :=
  withSettings (fun s => { s with loopHead := false, arrowStart := none }) do
    let t ← token
    match t.lexeme with
    | .mark "\x7b" => return .form (← block g)
    | .mark ";" =>
      let _ ← take
      return .form []
    | .word w false => wordStatement g declares w
    | _ => expressionStatement g

end Read

end ElementManifest.TypeScript
