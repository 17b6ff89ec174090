import ElementManifest.TypeScript.Elements

/-!
# Expressions

From names and literals over calls and operators to assignments. A parenthesis
may open the parameters of an arrow function; its contents are read so that they
serve either way, and the token behind it decides.
-/

namespace ElementManifest.TypeScript

namespace Expr

/-- Whether the expression is an arrow function, which nothing may follow. -/
def isArrow : Expr → Bool
  | form kind _ => kind = .arrow
  | _ => false

/-- Whether what is chained on to the expression belongs to an optional chain. -/
def isChain : Expr → Bool
  | form .chain _ => true
  | form .nonNull [.expr e] => e.isChain
  | _ => false

/-- Whether the expression is an operator with its operand. -/
def isUnary : Expr → Bool
  | form kind _ => kind = .unary || kind = .awaited
  | _ => false

/-- Whether the expression is an operation, where an assignment does not go on. -/
def isOperation : Expr → Bool
  | form kind _ => kind = .unary || kind = .operation
  | _ => false

/-- What is visited in a place that is assigned to. -/
def placeParts : Expr → List Node
  | ident _ => []
  | e => [.expr e]

end Expr

namespace Read

variable (g : Grammar)

/-! ## Arrow functions -/

/-- The body of an arrow function, and whether it is a block. -/
def arrowBody (isAsync : Bool) : Read (List Node × Bool) := do
  if ← isMark "\x7b" then
    return (← withSettings (functionPlace ⟨isAsync, false⟩) (block g), true)
  else
    let place (s : Settings) : Settings :=
      { s with yieldOperator := false, awaitOperand := isAsync, inParameters := false }
    return ([.expr (← withSettings place g.assignment)], false)

/-- An arrow function behind its arrow. -/
def arrowRest (isAsync : Bool) (params types answer : List Node) : Read Expr := do
  let (body, _) ← arrowBody g isAsync
  return .form .arrow (params ++ body ++ types ++ answer)

/-- A generic asynchronous arrow function behind the word `async`. -/
def genericAsyncArrow : Read (Option Expr) := do
  let types ← typeParams g
  let params ← params g
  let answer ← optionalReturnType g
  expect "=>"
  return some (← arrowRest g true params (paramsParts types) answer)

/-- What stands in parentheses: a value, or a parameter that is no value, be it
a name or a pattern. -/
inductive Cover
  | value (a : Argument)
  | name (parts : List Node)
  | pattern (parts : List Node)

/-- The parameters that what stands in parentheses makes. -/
def coverParams : List Cover → Option (List Node)
  | [] => some []
  | .value a :: cs => do
    return (← Argument.listAsPattern .bound [a]) ++ (← coverParams cs)
  | .name parts :: cs | .pattern parts :: cs => do return parts ++ (← coverParams cs)

/-- The values that stand in parentheses, if all are. -/
def coverValues (cs : List Cover) : Option (List Argument) :=
  cs.mapM fun
    | .value a => some a
    | .name _ | .pattern _ => none

/-! ## Operators -/

/-- The level of a binary operator; a higher one binds closer. -/
def operatorLevel (op : String) : Option Nat :=
  match op with
  | "??" | "||" => some 1
  | "&&" => some 2
  | "|" => some 3
  | "^" => some 4
  | "&" => some 5
  | "==" | "!=" | "===" | "!==" => some 6
  | "<" | ">" | "<=" | ">=" => some 7
  | "<<" | ">>" | ">>>" => some 8
  | "+" | "-" => some 9
  | "*" | "/" | "%" => some 10
  | "**" => some 11
  | _ => none

/-- The level of the operators written as words. -/
def wordLevel : Nat := 7

/-- The operators that assign. -/
def assignOperators : List String :=
  ["=", "+=", "-=", "*=", "/=", "%=", "**=", "<<=", ">>=", ">>>=", "&=", "|=", "^=", "&&=", "||=",
   "??="]

/-- Whether a punctuator that is a binary operator stands here. -/
def atBinaryMark : Read Bool := do
  match (← token).asOperator.lexeme with
  | .mark m => return (operatorLevel m).isSome
  | _ => return false

/-- The binary operator that stands here with its level; with `as` and its like
left out. -/
def operatorHere : Read (Option (Token × Nat × Bool)) := do
  let t := (← token).asOperator
  match t.lexeme with
  | .mark m => return (operatorLevel m).map fun level => (t, level, m == "**")
  | .word "instanceof" false => return some (t, wordLevel, false)
  | .word "in" false =>
    return if (← settings).inOperator then some (t, wordLevel, false) else none
  | _ => return none

/-- A type behind `as` or `satisfies`, applied to `e`. -/
def typedOperand (e : Expr) : Read Expr := do
  let word ← anyWord
  if word == "as" && (← isWord "const") then
    let _ ← take
    return .form .plain [.expr e]
  else return .form .place [.expr e, .type (← enclosed g.type)]

/-- The operators behind `left` that bind closer than `level`, with their operands. -/
def operators (level : Nat) (left : Expr) : Read Expr :=
  grow (fun left => do
    let t ← token
    if !t.newlineBefore && level < wordLevel && (t.isWord "as" || t.isWord "satisfies") then
      return some (← typedOperand g left)
    match ← operatorHere with
    | some (t, itsLevel, toTheRight) =>
      if itsLevel ≤ level then return none
      standAt t
      let _ ← take
      guard (!(toTheRight && left.isUnary))
      let right ← g.binary (if toTheRight then itsLevel - 1 else itsLevel)
      return some (.form .operation [.expr left, .expr right])
    | none => return none) left

/-- An operand with the operators behind it that bind closer than `level`. -/
def binary (level : Nat) : Read Expr := do
  operators g level (← g.unary)

/-- An operand with all operators behind it. An operand that is missing before
an operator is passed over. Text that is no lexeme fails behind itself, so that
a reading that goes on from a failure does not meet it again. -/
def binaryWhole : Read Expr := do
  let left ← orElseAt g.unary do
    if (← token).lexeme == .bad then failBehind
    guard (← operatorHere).isSome
    return .form .plain []
  if left.isArrow then return left
  operators g 0 left

/-- A condition with its two outcomes, or what would be the condition. -/
def conditional : Read Expr := do
  let test ← binaryWhole g
  if test.isArrow then return test
  if ← eat "?" then outcomes test else return test
where
  /-- The outcomes behind the question mark. -/
  outcomes (test : Expr) : Read Expr := do
    let yes ← withSettings
      (fun s => { s with inConditional := true, inOperator := true, colonFollows := true })
      g.assignment
    expect ":"
    let no ← withSettings
      (fun s => { s with inConditional := true, colonFollows := false }) g.assignment
    return .form .operation [.expr test, .expr yes, .expr no]

/-- An assignment to `e`, if an operator that assigns follows. -/
def finishAssignment (e : Expr) : Read Expr := do
  let t := (← token).asOperator
  match t.lexeme with
  | .mark op =>
    if !assignOperators.contains op then return e
    let target? := if e.isPlace then some e.placeParts
      else match e with
        | .object _ | .array _ => if op == "=" then e.asPattern .target else none
        | _ => none
    match target? with
    | some target =>
      standAt t
      let _ ← take
      return .assign (op == "=") target (← g.assignment)
    | none => fail
  | _ => return e

/-! ## Parentheses -/

/-- An arrow behind the first item in parentheses is passed over. Behind a name,
its body is one more item. -/
def strayArrow (item : Cover) : Read (List Cover) := do
  if !(← eat "=>") then return [item]
  match item with
  | .value (.mk _ (.ident _)) => return [item, .value (.mk false (← arrowRest g false [] [] []))]
  | .name parts => return [item, .value (.mk false (← arrowRest g false parts [] []))]
  | _ => return [item]

/-- An item in parentheses. -/
def coverItem : Read Cover := do
  let lo ← start
  let _ ← parameterModifier
  let t ← token
  let spreadsName := t.isMark "..." && (← second).isName
  let a : Argument ← do
    if t.isName || spreadsName then
      let spread ← eat "..."
      let e ← withSettings (fun s => { s with arrowStart := some lo }) (binaryWhole g)
      if spread then pure (.mk true e)
      else pure (.mk false (← finishAssignment g e))
    else argument g
  let .mk spread e := a
  let next ← second
  let optional := (← isMark "?") && next.isMarkIn [",", ":", ")", "="]
  if optional then
    let _ ← take
    match e with
    | .ident _ => pure ()
    | _ => fail
  let e ← if !optional && !spread && (← isMark "?") then
      let _ ← take
      conditional.outcomes g e
    else pure e
  if optional || (← isMark ":") then
    match e.asPattern .bound with
    | some parts =>
      let type ← annotationParts g
      if ← eat "=" then return .pattern (parts ++ type ++ [.expr (← g.assignment)])
      match e with
      | .ident _ => return if spread then .pattern (parts ++ type) else .name (parts ++ type)
      | _ => return .pattern (parts ++ type)
    | none => fail
  else return .value (.mk spread e)

/-- The items behind an opening parenthesis, with the one that closes it. -/
def coverItems : Read (List Cover) := do
  let first ← start
  let items ← listUntil ")" do
    let isFirst := (← start) == first
    let item ← coverItem g
    if isFirst then strayArrow g item else return [item]
  return items.flatten

/-- An arrow function behind its parameters, where only an arrow can follow. A
block may be followed by operators. -/
def arrowAfter (isAsync : Bool) (items : List Cover) (answer : List Node) : Read Expr := do
  guard (!(← newline))
  expect "=>"
  match coverParams items with
  | some params =>
    let (body, isBlock) ← arrowBody g isAsync
    let arrow : Expr := .form .arrow (params ++ body ++ answer)
    if isBlock && (← atBinaryMark) then operators g 0 arrow else return arrow
  | none => fail

/-- An arrow function with the type of its answer, inside a conditional, where
the colon may belong to either. -/
def arrowInConditional (isAsync : Bool) (items : List Cover) : Read (Option Expr) := do
  let answer ← returnType g ":"
  expect "=>"
  match coverParams items with
  | some params =>
    let arrow ← arrowRest g isAsync params [] answer
    if (← settings).colonFollows then
      guard (← isMark ":")
    return some arrow
  | none => fail

/-- The type of the answer of an arrow function, if an arrow follows it. -/
def arrowAnswer : Read (Option (List Node)) := do
  let answer ← returnType g ":"
  guard (← isMark "=>")
  return some answer

/-- A parenthesis: an arrow function where one may start, the arguments of a
call of `async`, or an expression in parentheses. -/
def parenthesis (arrowAllowed isAsync : Bool) : Read Expr := do
  expect "("
  let items ← withSettings (fun s => { s with colonFollows := false, inOperator := true })
    (coverItems g)
  let s ← settings
  let atColon ← isMark ":"
  let inner ← if s.inConditional && atColon then attempt (arrowInConditional g isAsync items)
    else pure none
  match inner with
  | some e => return e
  | none =>
    let answer ← if !s.colonFollows && atColon then attempt (arrowAnswer g) else pure none
    match coverValues items with
    | none =>
      guard arrowAllowed
      arrowAfter g isAsync items (answer.getD [])
    | some values =>
      if answer.isSome || (← isMark "=>") then
        guard arrowAllowed
        arrowAfter g isAsync items (answer.getD [])
      else if isAsync then return .call (.ident "async") values []
      else
        guard (values.all fun | .mk spread _ => !spread)
        match values with
        | [] => fail
        | [.mk _ e] => return .paren e
        | _ => return .paren (.form .plain (argumentParts values))

/-! ## Names and literals -/

/-- A name, or an arrow function with one parameter without parentheses. -/
def nameOrArrow (arrowAllowed : Bool) : Read Expr := do
  let word ← if ← isWord "let" then anyWord else name
  let t ← token
  let sameLine := !t.newlineBefore
  if word == "async" && arrowAllowed && sameLine && t.isMark "(" then parenthesis g true true
  else
    let ofLoop := (← settings).loopHead && t.isWord "of" && !(← second).isMark "=>"
    if word == "async" && arrowAllowed && sameLine && t.isName && !ofLoop then
      let param ← name
      if param == "as" && !(← isMark "=>") then
        return .form .place [.type (← enclosed g.type)]
      expect "=>"
      arrowRest g true [] [] []
    else if arrowAllowed && sameLine && t.isMark "=>" then
      let _ ← take
      arrowRest g false [] [] []
    else return .ident word

/-- An expression that no operator stands before or behind. -/
def primary : Read Expr := do
  let t ← token
  let arrowAllowed := (← settings).arrowStart == some t.span.lo
  let done (e : Expr) : Read Expr := do
    let _ ← take
    return e
  match t.lexeme with
  | .mark "(" => parenthesis g arrowAllowed false
  | .mark "[" => arrayLiteral g
  | .mark "\x7b" => objectLiteral g
  | .mark "\x60" =>
    let (head, exprs) ← template g
    return .template head exprs
  | .mark "/" | .mark "/=" =>
    standAt (t.rescan scanRegex)
    done (.form .plain [])
  | .number text => done (.number text)
  | .bigint => done (.form .plain [])
  | .mark "#" =>
    -- a private name; here a blank may stand behind the hash
    let _ ← take
    let _ ← anyWord
    return .form .plain []
  | .string value => done (.string value)
  | .word "this" false => done .this
  | .word "null" false | .word "true" false | .word "false" false => done (.form .plain [])
  | .word "function" false => return .form .plain (← function g false false)
  | .word "class" false =>
    let (name, parts) ← classWhole g false
    return .classExpr name parts
  | .word _ _ =>
    if ← startsAsyncFunction then return .form .plain (← asyncFunction g false)
    let generic ← if arrowAllowed && t.isWord "async" && (← second).isMark "<" then attempt (do
        let _ ← take
        genericAsyncArrow g)
      else pure none
    match generic with
    | some arrow => return arrow
    | none => nameOrArrow g arrowAllowed
  | .bad => failBehind
  | _ => fail

/-! ## Members and calls -/

/-- Whether an expression can start here. -/
def startsExpression : Read Bool := do
  let t ← token
  match t.lexeme with
  | .number _ | .bigint | .string _ => return true
  | .mark m =>
    return ["(", "[", "\x7b", "+", "-", "~", "!", "++", "--", "<", "/", "/=", "\x60", "#"].contains m
  | .word _ _ =>
    return t.isWordSuch fun w => !isReserved w || ["class", "delete", "false", "function",
      "import", "new", "null", "super", "this", "true", "typeof", "void"].contains w
  | _ => return false

/-- Type arguments of an expression that is not called: what follows must not
be read on as an expression. -/
def bareTypeArgs : Read (Option (List TypeNode)) := do
  let args ← typeArgs g
  if ← isMarkIn ["<", "<<", ">", "+", "-", "(", "\x60"] then return none
  if (← newline) || (← operatorHere).isSome || !(← startsExpression) then return some args
  return none

/-- A call of `e`, which belongs to an optional chain if `e` does. -/
def callOf (e : Expr) (args : List Argument) (types : List TypeNode) : Expr :=
  if e.isChain then .form .chain (.expr e :: argumentParts args ++ types.map .type)
  else .call e args types

/-- A template behind `e`. -/
def taggedTemplate (e : Expr) (types : List TypeNode) : Read Expr := do
  let (_, exprs) ← template g
  return .form .plain (.expr e :: types.map Node.type ++ exprs.map Node.expr)

/-- What type arguments behind `e` lead to: a call, a tag, or an expression with
type arguments before an assignment or a type operator. -/
def appliedOf (calls : Bool) (e : Expr) : Read (Option Expr) := do
  let arrow ← match calls, e with
    | true, .ident "async" => attempt (genericAsyncArrow g)
    | _, _ => pure none
  if arrow.isSome then return arrow
  let types ← typeArgs g
  if calls && (← isMark "(") then return some (callOf e (← arguments g) types)
  else if ← isMark "\x60" then return some (← taggedTemplate g e types)
  else
    guard ((← isMark "=") || (← isWord "as") || (← isWord "satisfies"))
    return some (.form .applied (.expr e :: types.map .type))

/-- A name behind a dot; `none` for a private one. -/
def memberName : Read (Option String) := do
  if ← isMark "#" then
    privateName
    return none
  else return some (← anyWord)

/-- An expression in brackets behind `e`. -/
def indexExpr : Read Expr := do
  expect "["
  let index ← withSettings (fun s => { s with inOperator := true }) g.expression
  expect "]"
  return index

/-- What follows the mark of an optional chain. -/
def chainLink (e : Expr) : Read Expr := do
  expect "?."
  if ← isMark "[" then return .form .chain [.expr e, .expr (← indexExpr g)]
  let types ← if ← opensAngle then typeArgs g else pure []
  if ← isMark "(" then
    return .form .chain (.expr e :: argumentParts (← arguments g) ++ types.map .type)
  let _ ← memberName
  return .form .chain [.expr e]

/-- One step of what follows `e`: a member, a call if `calls`, a tag. Brackets are
read if `indexed`. -/
def subscript (calls indexed : Bool) (e : Expr) : Read (Option Expr) := do
  let t ← token
  if t.isMark "!" && !t.newlineBefore then
    let _ ← take
    return some (.form .nonNull [.expr e])
  let applied ← if ← opensAngle then attempt (appliedOf g calls e) else pure none
  if applied.isSome then return applied
  let bare ← if ← opensAngle then attempt (bareTypeArgs g) else pure none
  match bare with
  | some types => return some (.form .applied (.expr e :: types.map .type))
  | none =>
    match t.lexeme with
    | .mark "?." => return some (← chainLink g e)
    | .mark "[" =>
      if !indexed then return none
      let kind := if e.isChain then Form.chain else .place
      return some (.form kind [.expr e, .expr (← indexExpr g)])
    | .mark "(" =>
      if !calls then return none
      return some (callOf e (← arguments g) [])
    | .mark "." =>
      let _ ← take
      match ← memberName with
      | some name =>
        return some (if e.isChain then .form .chain [.expr e] else .member e name)
      | none => return some (.form (if e.isChain then .chain else .place) [.expr e])
    | .mark "\x60" => return some (← taggedTemplate g e [])
    | _ => return none

/-- What follows `e`, as long as something does. -/
def subscripts (calls : Bool) (e : Expr) : Read Expr :=
  grow (fun e => if e.isArrow then return none else subscript g calls true e) e

/-- The members behind `e`, without calls and without brackets. -/
def members (e : Expr) : Read Expr :=
  grow (subscript g false false) e

/-- A member or a call of the parent object. -/
def superExpr (calls : Bool) : Read Expr := do
  expectWord "super"
  let first : Expr ← do
    if ← eat "." then
      let _ ← memberName
      pure (.form .place [])
    else if ← isMark "[" then pure (.form .place [.expr (← indexExpr g)])
    else
      guard calls
      let types ← if ← opensAngle then typeArgs g else pure []
      pure (.form .plain (argumentParts (← arguments g) ++ types.map Node.type))
  subscripts g calls first

/-- The arguments of an import at run time: the module, and perhaps options. -/
def importArguments : Read (List Node) :=
  withSettings (fun s => { s with colonFollows := false }) do
    expect "("
    let source ← element g
    let options ← if (← eat ",") && !(← isMark ")") then do
        let e ← element g
        let _ ← eat ","
        pure [Node.expr e]
      else pure []
    expect ")"
    return .expr source :: options

/-- An import at run time, or what is known of the module. An import is read even
where no call is. -/
def importExpr (calls : Bool) : Read Expr := do
  expectWord "import"
  let known ← if ← eat "." then
      let word ← anyWord
      guard (["meta", "defer", "source"].contains word)
      pure (word == "meta")
    else pure false
  if known then subscripts g calls (.form .plain [])
  else subscripts g calls (.form .plain (← importArguments g))

/-- The rest of a construction behind the word `new`. -/
def newRest : Read Expr := do
  if ← eat "." then
    expectWord "target"
    subscripts g false (.form .plain [])
  else
    let callee ← g.construction
    if callee.isArrow then return callee
    guard (!match callee with | .form .chain _ => true | _ => false)
    let types ← if ← opensAngle then attempt (do
        let types ← typeArgs g
        guard (← isMark "(")
        return some types)
      else pure none
    let types := (types.getD []).map Node.type
    if ← isMark "(" then
      let args ← arguments g
      subscripts g false (.form .plain (.expr callee :: argumentParts args ++ types))
    else return .form .plain [.expr callee]

/-- An expression that a call may apply to: no call is read behind it. -/
def construction : Read Expr := do
  if ← eatWord "new" then newRest g
  else if ← isWord "super" then superExpr g false
  else if ← isWord "import" then importExpr g false
  else
    let e ← primary g
    if e.isArrow then return e
    let bare ← if ← opensAngle then attempt (bareTypeArgs g) else pure none
    match bare with
    | some types => subscripts g false (.form .applied (.expr e :: types.map .type))
    | none => subscripts g false e

/-- What may stand on the left of an assignment. -/
def leftSide : Read Expr := do
  if (← settings).elements && (← isMark "<") then
    return .form .plain (← closedElement g)
  if ← isWord "super" then return ← superExpr g true
  if ← isWord "import" then return ← importExpr g true
  let callee ← g.construction
  if callee.isArrow then return callee
  let types ← if ← opensAngle then attempt (do
      let types ← typeArgs g
      guard (← isMark "(")
      return some types)
    else pure none
  if ← isMark "(" then
    subscripts g true (callOf callee (← arguments g) (types.getD []))
  else return callee

/-! ## Unary operators -/

/-- The operators that stand before their operand. -/
def unaryMarks : List String := ["+", "-", "~", "!"]

/-- The words that stand before their operand. -/
def unaryWords : List String := ["delete", "void", "typeof"]

/-- A type in angle brackets before its operand, which is visited first. -/
def typeAssertion : Read Expr := do
  expect "<"
  if (← isWord "const") && (← second).isMark ">" then
    let _ ← take
    closeAngle
    return .form .plain [.expr (← g.unary)]
  else
    let type ← enclosed g.type
    closeAngle
    return .form .place [.expr (← g.unary), .type type]

/-- The operand of a binary operator. -/
def unary : Read Expr := do
  let t ← token
  let s ← settings
  if t.isMark "<" && !s.elements then typeAssertion g
  else if t.isMarkIn ["++", "--"] then
    let _ ← take
    return .form .operation [.expr (← g.unary)]
  else if t.isMarkIn unaryMarks || unaryWords.any t.isWord then
    let _ ← take
    -- a missing operand is passed over
    let operand ← orElseAt g.unary (return .form .plain [])
    return .form .unary [.expr operand]
  else if t.isWord "await" then
    let _ ← take
    -- where nothing is awaited the word is a name
    if !s.awaitOperand && ((← isMarkIn [")", "]", ","]) || (← atStatementEnd)) then
      return .ident "await"
    return .form .awaited [.expr (← g.unary)]
  else
    let e ← g.leftSide
    if e.isArrow then return e
    let next ← token
    if next.isMarkIn ["++", "--"] && !next.newlineBefore then
      let _ ← take
      return .form .operation [.expr e]
    else return e

/-! ## Whole expressions -/

/-- Whether an angle bracket opens the type parameters of an arrow function. Where
elements may stand, more than a name must show that they are no element. -/
def startsGenericArrow : Read Bool := do
  if !(← isMark "<") || (← second).word?.isNone then return false
  if !(← settings).elements then return true
  aheadTrue do
    expect "<"
    let _ ← eatWord "const"
    let _ ← anyWord
    if ← eatWord "extends" then return !(← isMarkIn ["=", ">", "/"])
    isMarkIn [",", "="]

/-- A generic arrow function. -/
def genericArrow : Read (Option Expr) := do
  let types ← typeParams g
  match ← g.assignment with
  | .form .arrow parts => return some (.form .arrow (parts ++ paramsParts types))
  | _ => return none

/-- A `yield` expression, which cannot stand in parameters. -/
def yieldExpr : Read Expr := do
  guard (!(← settings).inParameters)
  expectWord "yield"
  if !(← atStatementEnd) && ((← isMark "*") || (← startsExpression)) then
    let _ ← eat "*"
    return .form .plain [.expr (← g.assignment)]
  else return .form .plain []

/-- An expression without commas. -/
def assignment : Read Expr := do
  let t ← token
  let s ← settings
  let generic ← if ← startsGenericArrow then
      attempt (withSettings (fun s => { s with colonFollows := false }) (genericArrow g))
    else pure none
  match generic with
  | some e => return e
  | none =>
    if s.yieldOperator && t.isWord "yield" then yieldExpr g
    else
      let arrowStart := if t.isName || t.isMark "(" then some t.span.lo else none
      let e ← withSettings (fun s => { s with arrowStart := arrowStart }) (conditional g)
      if e.isArrow || e.isOperation then return e
      finishAssignment g e

/-- Expressions with commas between them. -/
def expression : Read Expr := do
  match ← separated "," g.assignment with
  | [e] => return e
  | es => return .form .plain (es.map .expr)

end Read

end ElementManifest.TypeScript
