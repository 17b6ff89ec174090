import ElementManifest.TypeScript.Keys

/-!
# Types

The reader of types, from conditional types down to names and literals, and of
the members of object types.
-/

namespace ElementManifest.TypeScript

namespace Read

variable (g : Grammar)

/-- Read the inside of a type. -/
def inType {α : Type} (p : Read α) : Read α :=
  withSettings (fun s => { s with inType := true }) p

/-- Read what stands in brackets or behind a mark, where a type may be
conditional again. -/
def enclosed {α : Type} (p : Read α) : Read α :=
  withSettings (fun s => { s with inType := true, conditionalTypes := true }) p

/-! ## Arguments and parameters -/

/-- Type arguments, `<A, B>`. -/
def typeArgs : Read (List TypeNode) :=
  enclosed do
    openAngle
    listUntil ">" g.type

/-- Type arguments, if an angle bracket opens on the same line. -/
def optionalTypeArgs : Read (List TypeNode) := do
  if !(← newline) && (← opensAngle) then typeArgs g else return []

/-- Whether the token may stand behind a modifier: a word does on any line,
what else starts a member only on the same line. -/
def followsModifier (t : Token) : Bool :=
  match t.lexeme with
  | .word _ _ => true
  | .string _ | .number _ | .bigint => !t.newlineBefore
  | _ => !t.newlineBefore && t.isMarkIn ["[", "\x7b", "*", "...", "#"]

/-- Take one of the words `ws`, if it is used as a modifier here. -/
def modifier (ws : List String) : Read (Option String) := do
  match (← token).word? with
  | some w =>
    if ws.contains w && followsModifier (← second) then
      let _ ← take
      return some w
    else return none
  | none => return none

/-- A type parameter. -/
def typeParam : Read TypeParam := do
  let _ ← many (modifier ["public", "private", "protected", "readonly", "abstract", "const",
    "override", "in", "out"])
  let name ← anyWord
  let bound ← if ← eatWord "extends" then some <$> g.type else pure none
  let default ← if ← eat "=" then some <$> g.type else pure none
  return .mk name bound default

/-- Type parameters, `<T, U>`. -/
def typeParams : Read (List TypeParam) :=
  enclosed do
    openAngle
    listUntil ">" (typeParam g)

/-- Type parameters, if an angle bracket opens. -/
def optionalTypeParams : Read (List TypeParam) := do
  if ← opensAngle then typeParams g else return []

/-- What is visited in a type parameter. -/
def paramParts (p : TypeParam) : List Node :=
  (p.bound.toList ++ p.default.toList).map .type

/-- What is visited in type parameters. -/
def paramsParts (ps : List TypeParam) : List Node :=
  ps.flatMap paramParts

/-- A type annotation, `: T`, if there is one. -/
def annotation : Read (Option TypeNode) :=
  enclosed do
    if ← eat ":" then some <$> g.type else return none

/-- The parts of an annotation. -/
def annotationParts : Read (List Node) :=
  return (← annotation g).toList.map .type

/-- What a function answers, behind the mark `m`: a type, or a statement about
one of its parameters. -/
def returnType (m : String) : Read (List Node) :=
  enclosed do
    expect m
    let asserts := (← isWord "asserts") && (← second).isName
    if asserts then
      let _ ← take
    let next ← second
    let tells := (← isName) && next.isWord "is" && !next.newlineBefore
    if asserts || tells then
      let _ ← anyWord
      if tells then
        expectWord "is"
        return [.type (← g.type)]
      else return []
    else return [.type (← g.type)]

/-- What a function answers, if a colon tells. -/
def optionalReturnType : Read (List Node) := do
  if ← isMark ":" then returnType g ":" else return []

/-- Take the modifiers of parameters, if one stands before a name or pattern. -/
def parameterModifier : Read Bool := do
  let t ← token
  let next ← second
  let words := ["public", "protected", "private", "readonly"]
  if words.any t.isWord && (next.word?.isSome || next.isMarkIn ["\x7b", "["]) then
    let _ ← modifier words
    return true
  else return false

/-- A default value, if an equals sign follows. -/
def defaultValue : Read (List Node) := do
  if ← eat "=" then
    return [.expr (← withSettings (fun s => { s with inOperator := true }) g.assignment)]
  else return []

/-- A parameter that takes one argument: what is visited in it, and whether it
has a default value. A type behind the default value is passed over. -/
def singleParameter : Read (List Node × Bool) := do
  let name ← g.binding
  let default ← defaultValue g
  if ← eat "?" then
    let s ← settings
    guard (default.isEmpty || s.declarations || s.ambient)
  let type ← annotationParts g
  let name := if default.isEmpty then name ++ type else name ++ default
  let late ← defaultValue g
  return (name ++ late, !default.isEmpty || !late.isEmpty)

/-- A parameter: what is visited in it, and whether it has a default value. -/
def parameter : Read (List Node × Bool) := do
  if ← eat "..." then
    let name ← g.binding
    let default ← if ← eat "=" then (fun e => [Node.expr e]) <$> g.assignment else pure []
    let type ← annotationParts g
    let _ ← eat "?"
    return (name ++ default ++ type, false)
  let _ ← parameterModifier
  singleParameter g

/-- The parameters of a signature behind the opening parenthesis. They have no defaults. -/
def signatureParams : Read (List Node) := do
  let params ← listUntil ")" (enclosed (parameter g))
  guard (params.all fun p => !p.2)
  return params.flatMap Prod.fst

/-! ## Members of object types -/

/-- The end of a member: a comma, or the end of a statement. -/
def memberEnd : Read Unit := do
  if !(← eat ",") then statementEnd

/-- A signature without a name, with its type parameters, parameters and answer.
They are visited in the order of `parts`. -/
def callSignature (parts : List Node → List Node → List Node → List Node) : Read (List Node) := do
  let types ← optionalTypeParams g
  expect "("
  let params ← signatureParams g
  let answer ← optionalReturnType g
  return parts params answer (paramsParts types)

/-- Whether an index signature starts here. -/
def startsIndexSignature : Read Bool :=
  aheadTrue do
    expect "["
    let _ ← name
    isMarkIn [":", ","]

/-- An index signature behind its modifiers. -/
def indexSignature : Read (List Node) := do
  expect "["
  let _ ← anyWord
  if !(← eat ",") then expect ":"
  let index ← enclosed g.type
  expect "]"
  let value ← annotationParts g
  memberEnd
  return .type index :: value

/-- A getter or setter. -/
def accessorSignature : Read (List Node) := do
  let getter ← eatWord "get"
  if !getter then expectWord "set"
  let key ← signatureKey g
  expect "("
  if getter then
    expect ")"
    let type ← annotationParts g
    memberEnd
    return key.parts ++ type
  else
    guard (!(← isMark ")"))
    let params ← signatureParams g
    memberEnd
    return key.parts ++ params

/-- A property or method signature that starts at `lo`. -/
def namedSignature (lo : Nat) (readonly : Bool) : Read Member := do
  let key ← signatureKey g
  let optional ← eat "?"
  if ← isMarkIn ["(", "<"] then
    guard (!readonly)
    let parts ← callSignature g fun params answer types => params ++ answer ++ types
    memberEnd
    return .other (← spanFrom lo) (key.parts ++ parts)
  else
    let type ← annotation g
    memberEnd
    return .property (.mk (← spanFrom lo) key.expr key.computed optional type)

/-- A member of an object type. -/
def typeMember : Read Member := do
  let lo ← start
  let t ← token
  if t.isMarkIn ["(", "<"] then
    let parts ← callSignature g fun params answer types => params ++ answer ++ types
    memberEnd
    return .other (← spanFrom lo) parts
  if t.isWord "new" && (← second).isMarkIn ["(", "<"] then
    let _ ← take
    let parts ← callSignature g fun params answer types => params ++ answer ++ types
    memberEnd
    return .other (← spanFrom lo) parts
  let readonly ← modifier ["readonly"]
  if ← startsIndexSignature then
    let parts ← indexSignature g
    return .other (← spanFrom lo) parts
  let accessor ← if readonly.isSome then pure none else attempt? (accessorSignature g)
  match accessor with
  | some parts => return .other (← spanFrom lo) parts
  | none => namedSignature g lo readonly.isSome

/-- The members of an object type with their braces. -/
def typeMembers : Read (List Member) :=
  enclosed do
    expect "\x7b"
    let members ← many do
      if ← isMark "\x7d" then return none
      return some (← typeMember g)
    expect "\x7d"
    return members

/-! ## Simple types -/

/-- Whether a type may start with the word `w`, as a name. -/
def isTypeName (w : String) : Bool :=
  ["void", "null", "break", "enum"].contains w || (!isReserved w && w != "let")

/-- The words that are types of their own. -/
def typeKeywords : List String :=
  ["any", "bigint", "boolean", "intrinsic", "never", "null", "number", "object", "string",
   "symbol", "undefined", "unknown", "void"]

/-- An entity name, where `part` reads the names behind the first one. A dot
without a name behind it is passed over. -/
def entityNameWith (part : Read String) : Read EntityName := do
  let first ← anyWord
  grow (fun e => do
    if (← eat ".") && (← token).word?.isSome then return some (.member e (← part))
    else return none) (.name first)

/-- An entity name in a type. -/
def entityName : Read EntityName :=
  entityNameWith anyWord

/-- The name of a module or of something in a module. -/
def moduleName : Read EntityName :=
  entityNameWith boundName

/-- A reference to a type. -/
def typeReference : Read TypeNode := do
  let lo ← start
  let _ ← parameterModifier
  let name ← entityName
  let args ← optionalTypeArgs g
  return .reference (← spanFrom lo) name args

/-- The pieces of a template behind its backtick: the value of each piece, and
what `hole` reads between them. -/
def templateParts {α : Type} (hole : Read α) : Read (List (Option (List Nat)) × List α) := do
  -- the cursor stands at the backtick, or at the brace that closes a hole
  let pieceHere : Read Piece := do
    let t ← token
    match templatePiece 0 0 (some []) t.rest with
    | some piece =>
      let stop := t.span.hi + byteCount (t.rest.take piece.count)
      let rest := t.rest.drop piece.count
      match piece.ends with
      | .backtick =>
        standAt { t with lexeme := .mark "\x60", span := ⟨t.span.lo, stop⟩, rest := rest }
        let _ ← take
      | .hole => standAt (scan true (← settings).inType stop false rest)
      return piece
    | none => fail
  let first ← pieceHere
  let others ← if first.ends = .backtick then pure [] else
    growUpToEnd pieceHere
  return (first.units :: others.map Prod.snd, others.map Prod.fst)
where
  growUpToEnd (pieceHere : Read Piece) : Read (List (α × Option (List Nat))) := do
    let (pairs, _) ← grow (fun (pairs, more) => do
      if !more then return none
      let a ← hole
      guard (← isMark "\x7d")
      let piece ← pieceHere
      return some (pairs ++ [(a, piece.units)], piece.ends = .hole)) ([], true)
    return pairs

/-- A template type. -/
def templateType : Read (List Node) := do
  guard (← isMark "\x60")
  let (_, types) ← templateParts (enclosed g.type)
  return types.map .type

/-- The module of an import type. Any token may stand for its string. -/
def importSource : Read Unit := do
  if ← isMark "\x60" then
    let hole : Read Unit := fail
    let (pieces, _) ← templateParts hole
    guard (pieces.length == 1)
  else
    let _ ← take

/-- The options of an import type, `{ with: … }`. -/
def importOptions : Read (List Node) := do
  expect "\x7b"
  expectWord "with"
  expect ":"
  let value ← g.object
  let _ ← eat ","
  expect "\x7d"
  return [.expr value]

/-- A type taken from a module, `import("m").T<A>`. -/
def importType : Read (List Node) := do
  expectWord "import"
  expect "("
  importSource
  let options ← if (← eat ",") && (← isMark "\x7b") then importOptions g else pure []
  expect ")"
  if ← eat "." then
    let _ ← moduleName
  let args ← optionalTypeArgs g
  return options ++ args.map .type

/-- The type of a value, `typeof v`. -/
def typeQuery : Read (List Node) := do
  expectWord "typeof"
  if ← isWord "import" then importType g
  else
    let _ ← entityName
    return (← optionalTypeArgs g).map .type

/-- Whether a mapped type starts here. -/
def startsMappedType : Read Bool :=
  aheadTrue do
    expect "\x7b"
    if ← isMarkIn ["+", "-"] then
      let _ ← take
      isWord "readonly"
    else
      let _ ← eatWord "readonly"
      expect "["
      let _ ← name
      isWord "in"

/-- A mapped type. -/
def mappedType : Read (List Node) := do
  expect "\x7b"
  if ← isMarkIn ["+", "-"] then
    let _ ← take
    expectWord "readonly"
  else
    let _ ← eatWord "readonly"
  expect "["
  let _ ← anyWord
  expectWord "in"
  let keys ← g.type
  let renamed ← if ← eatWord "as" then (fun t => [t]) <$> g.type else pure []
  expect "]"
  if ← isMarkIn ["+", "-"] then
    let _ ← take
    expect "?"
  else
    let _ ← eat "?"
  let value ← annotation g
  statementEnd
  expect "\x7d"
  return (keys :: renamed ++ value.toList).map .type

/-- A label of a tuple element. The label of a rest element is not printed. -/
def tupleLabel : Read (Option String) := do
  let rest ← eat "..."
  let name ← anyWord
  let _ ← eat "?"
  expect ":"
  return if rest then none else some name

/-- An element of a tuple type. -/
def tupleElem : Read TupleElem := do
  let label ← attempt? tupleLabel
  let lo ← start
  if ← eat "..." then
    let inner ← g.type
    return .mk label.join (.rest (← spanFrom lo) inner)
  let inner ← g.type
  if ← eat "?" then return .mk label.join (.optional (← spanFrom lo) inner)
  return .mk label.join inner

/-- Whether a required element follows an optional one. -/
def requiredAfterOptional (seen : Bool) : List TupleElem → Bool
  | [] => false
  | e :: es =>
    match e.type with
    | .rest _ _ => requiredAfterOptional seen es
    | .optional _ _ => requiredAfterOptional true es
    | _ => seen || requiredAfterOptional seen es

/-- What stands behind `this` when it is a statement about the object. -/
def thisPredicate : Read (List Node) := do
  if ← eatWord "is" then return [.type (← g.type)] else return []

/-- A type that no operator stands before or behind. -/
def simpleType : Read TypeNode := do
  let lo ← start
  let t ← token
  let other (parts : Read (List Node)) : Read TypeNode := do
    let parts ← parts
    return .other (← spanFrom lo) parts
  match t.lexeme with
  | .word "true" false =>
    let _ ← take
    return .truth t.span true
  | .word "false" false =>
    let _ ← take
    return .truth t.span false
  | .word "import" false => other (importType g)
  | .word "typeof" false => other (typeQuery g)
  | .word "this" false =>
    let _ ← take
    if !(← newline) && (← isWord "is") then other (thisPredicate g)
    else return .other t.span []
  | .word w escaped =>
    let next ← second
    if t.isWord "asserts" && next.isWord "this" then
      let _ ← take
      let _ ← take
      other (thisPredicate g)
    else if !escaped && typeKeywords.contains w && !next.isMark "." then
      let _ ← take
      return .keyword t.span w
    else
      guard (t.isWordSuch isTypeName)
      typeReference g
  | .string value =>
    let _ ← take
    return .text t.span value
  | .number _ | .bigint =>
    let _ ← take
    return .other t.span []
  | .mark "-" =>
    let _ ← take
    match (← token).lexeme with
    | .number _ | .bigint =>
      let _ ← take
      return .other (← spanFrom lo) []
    | _ => fail
  | .mark "\x60" => other (templateType g)
  | .mark "\x7b" =>
    if ← startsMappedType then other (enclosed (mappedType g))
    else
      let members ← typeMembers g
      return .object (← spanFrom lo) members
  | .mark "[" =>
    let _ ← take
    let elems ← enclosed (listUntil "]" (tupleElem g))
    guard (!requiredAfterOptional false elems)
    return .tuple (← spanFrom lo) elems
  | .mark "(" =>
    let _ ← take
    let inner ← enclosed g.type
    expect ")"
    return .paren (← spanFrom lo) inner
  | _ => fail

/-! ## Operators -/

/-- A simple type with brackets behind it on the same line. -/
def postfixType : Read TypeNode := do
  let lo ← start
  grow (fun ty => do
    if ← newline then return none
    if !(← eat "[") then return none
    if ← eat "]" then return some (.array (← spanFrom lo) ty)
    let index ← enclosed g.type
    expect "]"
    return some (.indexed (← spanFrom lo) ty index)) (← simpleType g)

/-- The bound of an inferred type. It is none when the type turns out to be the
test of a conditional. -/
def inferBound : Read (Option TypeNode) := do
  expectWord "extends"
  let bound ← withSettings (fun s => { s with conditionalTypes := false }) g.plainType
  if (← settings).conditionalTypes && (← isMark "?") then return none
  return some bound

/-- A type with the operators before it. -/
def operandType : Read TypeNode := do
  let lo ← start
  let prefixed (op : TypeOperator) : Read TypeNode := do
    let _ ← take
    let inner ← g.typeOperand
    return .operator (← spanFrom lo) op inner
  match (← token).lexeme with
  | .word "keyof" false => prefixed .keyof
  | .word "unique" false => prefixed .unique
  | .word "readonly" false => prefixed .readonly
  | .word "infer" false =>
    let _ ← take
    let _ ← anyWord
    let bound ← attempt (inferBound g)
    return .other (← spanFrom lo) (bound.toList.map .type)
  | _ => postfixType g

/-- Types with the mark `op` between them, and perhaps before the first. -/
def joinedTypes (op : String) (make : Span → List TypeNode → TypeNode) (p : Read TypeNode) :
    Read TypeNode := do
  let lo ← start
  let _ ← eat op
  match ← separated op p with
  | [t] => return t
  | ts => return make (← spanFrom lo) ts

/-- A union of intersections. -/
def unionType : Read TypeNode :=
  joinedTypes "|" .union (joinedTypes "&" .intersection (operandType g))

/-- Whether a parenthesis opens the parameters of a function type. -/
def startsParams : Read Bool :=
  aheadTrue do
    expect "("
    if ← isMarkIn [")", "..."] then return true
    let _ ← parameterModifier
    if (← isName) || (← isWord "this") then
      let _ ← take
    else
      guard (← isMarkIn ["\x7b", "["])
      let _ ← g.binding
    if ← isMarkIn [":", ",", "?", "="] then return true
    expect ")"
    isMark "=>"

/-- A function or constructor type behind its `new`. -/
def functionType : Read (List Node) := do
  let types ← optionalTypeParams g
  expect "("
  let params ← signatureParams g
  let answer ← returnType g "=>"
  return params ++ paramsParts types ++ answer

/-- A type that is no conditional one. -/
def plainType : Read TypeNode := do
  let lo ← start
  let t ← token
  let function : Read TypeNode := do
    let parts ← functionType g
    return .other (← spanFrom lo) parts
  if (← opensAngle) || (t.isMark "(" && (← startsParams g)) then function
  else if t.isWord "new" then
    let _ ← take
    function
  else if t.isWord "abstract" && (← second).isWord "new" then
    let _ ← take
    let _ ← take
    function
  else unionType g

/-- A type. -/
def type : Read TypeNode :=
  inType do
    let lo ← start
    let check ← g.plainType
    if (← newline) || !(← settings).conditionalTypes then return check
    if !(← eatWord "extends") then return check
    let bound ← withSettings (fun s => { s with conditionalTypes := false }) g.plainType
    expect "?"
    let yes ← enclosed g.type
    expect ":"
    let no ← enclosed g.type
    return .other (← spanFrom lo) ([check, bound, yes, no].map .type)

end Read

end ElementManifest.TypeScript
