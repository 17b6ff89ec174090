import ElementManifest.TypeScript.Expressions

/-!
# Declarations

Interfaces, aliases, enumerations, namespaces and variables, and what `declare`
may stand before.
-/

namespace ElementManifest.TypeScript

/-- What is visited in an item. -/
def Item.parts : Item → List Node
  | stmt s | exportStmt s => [.stmt s]
  | exportDefaultInterface d => [.stmt (.interface d)]
  | imports _ _ parts | exports _ _ parts | exportAll _ parts | other parts => parts

namespace Read

variable (g : Grammar)

/-! ## Types -/

/-- An interface behind its first word. A second list of parents is passed over. -/
def interfaceRest : Read Interface := do
  let name ← anyWord
  let params ← optionalTypeParams g
  let parents ← if ← eatWord "extends" then heritages g else pure []
  if ← isWord "extends" then
    let _ ← many do
      if ← isMark "\x7b" then return none
      return some (← take)
  let bodyStart ← start
  return .mk name params parents bodyStart (← typeMembers g)

/-- A type alias behind its first word. -/
def aliasRest : Read Alias := do
  let name ← anyWord
  let params ← optionalTypeParams g
  expect "="
  let type ← enclosed g.type
  statementEnd
  return .mk name params type

/-! ## Enumerations -/

/-- The name of a member of an enumeration. An expression in brackets is not
visited, and any token closes the brackets. -/
def enumName : Read Unit := do
  match (← token).lexeme with
  | .word _ _ | .string _ | .number _ =>
    let _ ← take
  | .mark "[" =>
    let _ ← take
    let _ ← g.expression
    skip
  | _ => fail

/-- A member of an enumeration with the comma behind it. The comma may be missing
behind a value. Where it is missing behind a name, the token there is passed over,
and so is the next one, which stands for the comma. -/
def enumMember : Read (List Node) := do
  enumName g
  if ← eat "=" then
    let value ← g.assignment
    let _ ← eat ","
    return [.expr value]
  if ← isMark "\x7d" then return []
  if !(← eat ",") then
    skip
    skip
  return []

/-- An enumeration behind its first word. -/
def enumRest : Read Stmt := do
  let _ ← anyWord
  expect "\x7b"
  let members ← many do
    if ← isMark "\x7d" then return none
    return some (← enumMember g)
  expect "\x7d"
  return .form members.flatten

/-! ## Namespaces -/

/-- The items of a namespace in braces. -/
def namespaceBody : Read Stmt := do
  expect "\x7b"
  let items ← many do
    let t ← token
    if t.isMark "\x7d" || t.lexeme == .finish then return none
    return some (← g.item)
  let _ ← eat "\x7d"
  return .form (items.flatMap Item.parts)

/-- A namespace behind its first word. -/
def namespaceRest : Read Stmt := do
  let _ ← separated "." anyWord
  namespaceBody g

/-- A module with a string for its name, or the global one, perhaps without a body. -/
def ambientModuleRest : Read Stmt := do
  match (← take).lexeme with
  | .string _ | .word _ _ => pure ()
  | _ => fail
  if ← isMark "\x7b" then namespaceBody g
  else
    statementEnd
    return .form []

/-! ## Variables -/

/-- The kinds of variables. -/
inductive VariableKind
  | var
  | letLike
  | const
  deriving DecidableEq

/-- Whether a word stands here that starts a declaration of variables. -/
def startsVariables : Read (Option VariableKind) := do
  let t ← token
  let next ← second
  if t.isWord "var" then return some .var
  else if t.isWord "const" then return some .const
  else if t.isWord "let" then
    let named := next.isWordSuch fun w => !isReserved w || w == "enum"
    return if named || next.isMarkIn ["\x7b", "["] then some .letLike else none
  else return none

/-- Whether the declaration of a resource, which is given back when its block is
left, starts here. -/
def startsResource : Read Bool := do
  let next ← second
  return (← isWord "using") && next.isName && !next.newlineBefore

/-- A variable with its type and value. In the head of a loop it may have
neither value nor equals sign. -/
def variableHere (kind : VariableKind) (inHead : Bool) : Read (List Node) := do
  let isPattern ← isMarkIn ["\x7b", "["]
  if kind ≠ .var then
    guard (!(← isWord "let"))
  let target ← g.binding
  if !isPattern then
    let _ ← eat "!"
  let type ← annotationParts g
  let atLoop := inHead && ((← isWord "in") || (← isWord "of"))
  if !atLoop && (← isMark "=") then
    expect "="
    let value ← g.assignment
    return target ++ type ++ [.expr value]
  else
    let ambient := (← settings).ambient
    guard (atLoop || ambient || !isPattern || (kind = .const && !inHead))
    return target ++ type

/-- Variables with commas between them, perhaps with one behind the last. -/
def declarators (kind : VariableKind) (inHead : Bool) : Read (List Node) := do
  let _ ← take
  let inAllowed := kind ≠ .var || !inHead
  let (parts, _) ← grow (fun (parts, more) => do
    let t ← token
    if !more || t.isMark ";" || t.lexeme == .finish then return none
    let here ← withSettings (fun s => { s with inOperator := s.inOperator && inAllowed })
      (variableHere g kind inHead)
    let more ← eat ","
    return some (parts ++ here, more)) ([], true)
  return parts

/-- The declaration of a resource, from the word `using` on. -/
def resourceStatement : Read Stmt := do
  let parts ← declarators g .var false
  statementEnd
  return .form parts

/-- Pass over what stands before the end of a statement. Behind the first token
there is no text that is no lexeme. -/
def skipToStatementEnd : Read Unit := do
  let _ ← orElseAt (g.expression >>= fun _ => pure ()) (pure ())
  let _ ← many do
    if ← eatStatementEnd then return none
    skip
    guard ((← token).lexeme != .bad)
    return some ()

/-- A declaration of variables with its end. What stands in the place of a
missing semicolon is passed over. -/
def variableStatement (kind : VariableKind) : Read Stmt := do
  let parts ← declarators g kind false
  if !(← eatStatementEnd) then skipToStatementEnd g
  return .form parts

/-! ## Functions and classes -/

/-- A function declaration. -/
def functionDecl : Read Stmt :=
  return .form (← function g true false)

/-- A class declaration. -/
def classDecl : Read Stmt :=
  return .form (← classWhole g true).2

/-! ## Declarations by their first word -/

/-- A declaration behind its first word `w`, which has been taken; `none` when
no declaration starts with it here. -/
def declarationAfter (w : String) (certain : Bool) : Read (Option Stmt) := do
  let named := certain || (← isName)
  match w with
  | "abstract" =>
    if certain || ((← isWord "class") && !(← newline)) then return some (← classDecl g)
    return none
  | "enum" => if named then return some (← enumRest g) else return none
  | "interface" => if named then return some (.interface (← interfaceRest g)) else return none
  | "module" =>
    if !certain && (← newline) then return none
    match (← token).lexeme with
    | .string _ => return some (← ambientModuleRest g)
    | _ => if named then return some (← namespaceRest g) else return none
  | "namespace" => if named then return some (← namespaceRest g) else return none
  | "type" =>
    if certain || (named && !(← newline)) then return some (.typeAlias (← aliasRest g))
    return none
  | _ => return none

/-- The words that a declaration may start with behind `export` or `declare`. -/
def declarationWords : List String :=
  ["abstract", "enum", "interface", "module", "namespace", "type"]

/-- A declaration from its first word on, if the word can start one. -/
def wordDeclaration : Read (Option Stmt) := do
  let t ← token
  match t.word? with
  | some w =>
    if !declarationWords.contains w then return none
    if w == "module" && t.newlineBefore then return none
    let _ ← take
    declarationAfter g w true
  | none => return none

/-- What `declare` stands before; `none` when it is just a name. -/
def declared : Read (Option Stmt) :=
  withSettings (fun s => { s with ambient := true }) do
    let t ← token
    if t.isWord "function" then return some (← functionDecl g)
    else if t.isWord "class" then return some (← classDecl g)
    else if t.isWord "const" && (← second).isWord "enum" then
      let _ ← take
      let _ ← take
      return some (← enumRest g)
    else if ["const", "var", "let"].any t.isWord then
      return some (← variableStatement g (if t.isWord "const" then .const
        else if t.isWord "var" then .var else .letLike))
    else if t.isWord "global" then return some (← ambientModuleRest g)
    else wordDeclaration g

end Read

end ElementManifest.TypeScript
