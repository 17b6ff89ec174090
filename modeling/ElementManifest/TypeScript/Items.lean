import ElementManifest.TypeScript.Statements

/-!
# Imports and exports

The items of a module that link it to others.
-/

namespace ElementManifest.TypeScript

namespace Read

variable (g : Grammar)

/-! ## Sources -/

/-- The string behind `from`; `none` when it has no text. -/
def sourceString : Read (Option String) := do
  match (← take).lexeme with
  | .string value => return value
  | _ => fail

/-- The attributes of an import on the same line. -/
def sourceAttributes : Read (List Node) := do
  let t ← token
  if !t.newlineBefore && (t.isWord "with" || t.isWord "assert") then
    let _ ← take
    return [.expr (← objectLiteral g)]
  else return []

/-- A source with what follows it. -/
def fromClause : Read (Option String × List Node) := do
  expectWord "from"
  let source ← sourceString
  let parts ← sourceAttributes g
  statementEnd
  return (source, parts)

/-! ## Names -/

/-- The name of an export: a word, or a string that may have no text. -/
def exportName : Read (Option String) := do
  match (← take).lexeme with
  | .word w _ => return some w
  | .string value => return value
  | _ => fail

/-- What a list entry that starts with the word `type` can be. -/
inductive TypeEntry
  /-- The word is a modifier; the name that it stands before. -/
  | modifier (name : String)
  /-- The entry is complete: a name, and what it is renamed to. -/
  | complete (word : String) (renamed : Option String)

/-- An entry behind the word `type`, where another word follows. The words `as`
in it may be names or the mark of a renaming. `renamed` reads the new name. -/
def typeEntry (renamed : Read String) : Read TypeEntry := do
  let second ← anyWord
  if second ≠ "as" then return .modifier second
  if (← token).word?.isNone then return .complete "as" none
  let third ← renamed
  if third ≠ "as" then return .complete "type" (some third)
  if (← token).word?.isNone then return .complete "type" (some "as")
  return .complete "as" (some (← renamed))

/-- Whether a string is the next token. -/
def isString : Read Bool := do
  match (← token).lexeme with
  | .string _ => return true
  | _ => return false

/-- An import of an export that is named by a string, which another name binds. -/
def stringSpecifier (value : Option String) : Read ImportSpecifier := do
  expectWord "as"
  return .named value (← boundName)

/-- A name in an import list. -/
def importSpecifier : Read ImportSpecifier := do
  match (← take).lexeme with
  | .string value => stringSpecifier value
  | .word w _ =>
    if w == "type" && (← isString) then return ← stringSpecifier (← exportName)
    let entry ← if w == "type" && (← token).word?.isSome then typeEntry boundName
      else pure (.modifier w)
    match entry with
    | .complete word (some renamed) => return .named (some word) renamed
    | .complete word none => return .named none word
    | .modifier word =>
      if ← eatWord "as" then return .named (some word) (← boundName)
      guard (!isKept word)
      return .named none word
  | _ => fail

/-- A name in an export list. -/
def exportSpecifier : Read ExportSpecifier := do
  let isType := (← token).word? == some "type"
  let first ← exportName
  if isType && (← isString) then return ← exportedAs (← exportName)
  let entry ← if isType && (← token).word?.isSome then some <$> typeEntry anyWord else pure none
  match entry with
  | some (.complete word renamed) => return .named (some word) renamed
  | some (.modifier word) => exportedAs (some word)
  | none => exportedAs first
where
  /-- What a name is exported as. -/
  exportedAs (inner : Option String) : Read ExportSpecifier := do
    if ← eatWord "as" then return .named inner (← exportName)
    return .named inner none

/-! ## Imports -/

/-- A module that a name stands for, behind the equals sign. -/
def importEquals : Read Item := do
  expect "="
  if (← isWord "require") && (← second).isMark "(" then
    let _ ← take
    expect "("
    let _ ← sourceString
    expect ")"
  else
    let _ ← moduleName
  statementEnd
  return .other []

/-- When a module is imported: with the others, when it is first used, or as
source text only. -/
inductive Phase
  | evaluation
  | deferred
  | source
  deriving DecidableEq

/-- The names of an import, behind its default name. What is used later is
imported under one name. -/
def importNames (phase : Phase) : Read (List ImportSpecifier) := do
  if phase ≠ .source && (← eat "*") then
    expectWord "as"
    return [.namespace (← boundName)]
  else if phase = .evaluation && (← eat "\x7b") then listUntil "\x7d" importSpecifier
  else return []

/-- The default name behind the word `type`, if that word is not the name itself. -/
def typeDefault : Read (Option String) := do
  let next ← second
  if !(← isName) then return none
  if !(← isWord "from") || next.isWord "from" then return some (← boundName)
  if next.isMark "=" then return some (← anyWord)
  return none

/-- The default name behind the word `source`, if that word is not the name itself. -/
def sourceDefault : Read (Option String) := do
  if (← isName) && (!(← isWord "from") || (← second).isWord "from") then
    return some (← boundName)
  return none

/-- The default name of an import, and when the module is imported. -/
def importDefault : Read (Option String × Phase) := do
  if !(← isName) then return (none, .evaluation)
  let first ← boundName
  if first == "type" then
    if ← isMarkIn ["\x7b", "*"] then return (none, .evaluation)
    return (some ((← typeDefault).getD first), .evaluation)
  if first == "defer" && (← isMark "*") then return (none, .deferred)
  if first == "source" then
    if let some name ← sourceDefault then return (some name, .source)
  return (some first, .evaluation)

/-- An import. Nothing has to end one that has no names. -/
def importItem : Read Item := do
  expectWord "import"
  match (← token).lexeme with
  | .string value =>
    let _ ← take
    let parts ← sourceAttributes g
    let _ ← eatStatementEnd
    return .imports value [] parts
  | _ =>
    let (default, phase) ← importDefault
    if default.isSome && (← isMark "=") then importEquals
    else
      if default.isSome && !(← isWord "from") then expect ","
      let names ← importNames phase
      let (source, parts) ← fromClause g
      return .imports source (default.toList.map .default ++ names) parts

/-! ## Exports -/

/-- What is exported as `default`, behind that word. -/
def exportDefault : Read Item := do
  let next ← second
  if (← isWord "abstract") && next.isWord "class" && !next.newlineBefore then
    let _ ← take
    return .other (← classWhole g false).2
  if (← isWord "abstract") && next.isWord "interface" then
    let _ ← take
  if ← eatWord "interface" then return .exportDefaultInterface (← interfaceRest g)
  else if ← isWord "class" then return .other (← classWhole g false).2
  else if ← startsAsyncFunction then return .other (← asyncFunction g false)
  else if ← isWord "function" then return .other (← function g false false)
  else
    let e ← withSettings (fun s => { s with inOperator := true }) g.assignment
    statementEnd
    return .other [.expr e]

/-- A list of exported names, with or without a source. -/
def exportList : Read Item := do
  expect "\x7b"
  let names ← listUntil "\x7d" exportSpecifier
  if ← isWord "from" then
    let (source, parts) ← fromClause g
    return .exports (some source) names parts
  else
    let _ ← eatStatementEnd
    return .exports none names []

/-- Names exported from elsewhere or by a list. -/
def exportNames : Read Item := do
  if ← eat "*" then
    if ← eatWord "as" then
      let _ ← exportName
      let (source, parts) ← fromClause g
      return .exports (some source) [.namespace] parts
    else
      let (source, parts) ← fromClause g
      return .exportAll source parts
  else exportList g

/-- An export of a declaration, behind the word `export`. -/
def exportDecl : Read (Option Stmt) := do
  let t ← token
  if t.isWord "class" then return some (← classDecl g)
  else if ← startsAsyncFunction then return some (.form (← asyncFunction g true))
  else if t.isWord "function" then return some (← functionDecl g)
  else if t.isWord "const" && (← second).isWord "enum" then
    let _ ← take
    let _ ← take
    return some (← enumRest g)
  else
    match ← startsVariables with
    | some kind => return some (← variableStatement g kind)
    | none => return none

/-- What follows `export` when it is no declaration that a word starts. -/
def exportRest : Read Item := do
  if ← eatWord "import" then
    if (← isWord "type") && (← second).isName then
      let _ ← take
    let _ ← anyWord
    importEquals
  else if ← eat "=" then
    let e ← g.expression
    statementEnd
    return .other [.expr e]
  else if ← eatWord "as" then
    expectWord "namespace"
    let _ ← boundName
    statementEnd
    return .other []
  else if ← eatWord "type" then exportNames g
  else if ← eatWord "default" then exportDefault g
  else
    match ← exportDecl g with
    | some s => return .exportStmt s
    | none => exportNames g

/-- An export. -/
def exportItem : Read Item := do
  expectWord "export"
  let behindDeclare ← if ← eatWord "declare" then declared g else pure none
  match behindDeclare with
  | some s => return .exportStmt s
  | none =>
    match ← attempt (wordDeclaration g) with
    | some s => return .exportStmt s
    | none => exportRest g

/-- An item of a module. -/
def item : Read Item := do
  let t ← token
  let next ← second
  if t.isWord "export" then exportItem g
  else if t.isWord "import" && !next.isMarkIn ["(", "."] then importItem g
  else return .stmt (← g.statement true)

end Read

end ElementManifest.TypeScript
