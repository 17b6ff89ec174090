import ElementManifest.TypeScript.Functions

/-!
# Classes

Class heads and members. Members keep only what is visited in them.
-/

namespace ElementManifest.TypeScript

namespace Read

variable (g : Grammar)

/-! ## Heads -/

/-- The expression that a class extends, with perhaps type arguments. Type
arguments that were read as a part of the expression belong to the parent. -/
def parentOf (base : Expr) : Read Heritage := do
  match base with
  | .form .applied (.expr inner :: args) =>
    return .mk inner (args.filterMap fun | .type t => some t | _ => none)
  | _ =>
    let args ← if ← opensAngle then typeArgs g else pure []
    return .mk base args

/-- What a class extends. -/
def superclass : Read Heritage := do
  parentOf g (← g.leftSide)

/-- A parent by its name: a word, reserved or not, with what stands behind it. -/
def heritage : Read Heritage := do
  parentOf g (← g.members (.ident (← anyWord)))

/-- Parents with commas between them, up to the body or the next clause. -/
def heritages : Read (List Heritage) := do
  let closed : Read Bool := do
    let t ← token
    return t.isMark "\x7b" || t.isWord "implements" || t.isWord "extends"
  many do
    if ← closed then return none
    let h ← heritage g
    if !(← closed) then expect ","
    return some h

/-- What is visited in parents. -/
def heritageParts (hs : List Heritage) : List Node :=
  hs.flatMap fun h => .expr h.base :: h.args.map .type

/-! ## Members -/

/-- Whether a method goes on here behind its name. -/
def startsMethod : Read Bool :=
  isMarkIn ["(", "<"]

/-- Whether a class property goes on or ends here behind its name; `lines` when
the end of a line may end it too. -/
def continuesProperty (lines : Bool) : Read Bool := do
  let t ← token
  if t.isMarkIn ["!", ":", "=", "\x7d", ";"] then return true
  return lines && (← atStatementEnd)

/-- A method behind its key. -/
def methodRest (key : Key) (kind : FunctionKind) : Read (List Node) := do
  return key.parts ++ (← functionRest g kind (params g)).all

/-- The place of the value of a property. What it may wait for or yield is that of
the function around the class. -/
def valuePlace (s : Settings) : Settings :=
  { functionPlace ⟨s.awaitOperand, s.yieldOperator⟩ s with inParameters := s.inParameters }

/-- A property behind its key. -/
def propertyRest (key : Key) (optional : Bool) : Read (List Node) := do
  guard (!key.isConstructor)
  if !optional then
    let _ ← eat "!"
  let type ← annotationParts g
  let value ← if ← eat "=" then
      (fun e => [Node.expr e]) <$> withSettings valuePlace g.assignment
    else pure []
  let _ ← eatStatementEnd
  return key.parts ++ value ++ type

/-- A parameter of a constructor. One that is also a property is a name, or has a
default value. -/
def constructorParam : Read (List Node) := do
  if ← eat "..." then return (← g.binding) ++ (← annotationParts g)
  let access ← modifier ["public", "protected", "private", "in", "out"]
  let override ← modifier ["override"]
  let readonly ← modifier ["readonly"]
  let _ ← parameterModifier
  let isPattern ← isMarkIn ["\x7b", "["]
  let (parts, hasDefault) ← singleParameter g
  let isProperty := access.isSome || override.isSome || readonly.isSome
  guard (!isProperty || !isPattern || hasDefault)
  return parts

/-- A constructor behind its key. -/
def constructorRest (key : Key) : Read (List Node) := do
  let params : Read (List Node) := do
    expect "("
    return (← listUntil ")" (constructorParam g)).flatten
  let f ← functionRest g {} params
  return key.parts ++ f.params ++ f.body

/-- The word `w` used as a name: a method or a property called so. -/
def wordMember (w : String) (lines : Bool) : Read (Option (List Node)) := do
  let key : Key := ⟨.ident w, false⟩
  if ← startsMethod then return some (← methodRest g key {})
  if (← continuesProperty lines) || (← isMark "?") then
    return some (← propertyRest g key (← eat "?"))
  return none

/-- A member behind its key, where neither a method nor a property follows: the
key was `async`, `get` or `set`. -/
def markedMember (w : String) : Read (List Node) := do
  if w == "async" then
    guard (!(← newline))
    let _ ← modifier ["override"]
    let isGenerator ← eat "*"
    let key ← key g
    guard (!key.isConstructor)
    let _ ← eat "?"
    methodRest g key ⟨true, isGenerator⟩
  else
    let key ← key g
    methodRest g key {}

/-- What stands before the name of a member. -/
structure MemberMarks where
  readonly : Bool
  accessor : Bool

/-- A member behind its modifiers. A method is not read-only, and neither is a
property with accessors of its own. -/
def plainMember (marks : MemberMarks) : Read (List Node) := do
  if ← eat "*" then
    let key ← key g
    methodRest g key ⟨false, true⟩
  else
    let key : Key ← do
      if marks.readonly && (← isMarkIn ["!", ":"]) then pure ⟨.ident "readonly", false⟩
      else key g
    let optional ← eat "?"
    if ← startsMethod then
      guard (!marks.readonly)
      if key.isConstructor then constructorRest g key else methodRest g key {}
    else
      let t ← token
      let nextLine := t.newlineBefore && t.isMark "*"
      let accessor := (key.plainName? == some "get" || key.plainName? == some "set")
        && !nextLine && !(← continuesProperty false)
      if !accessor && (← continuesProperty true) then
        guard (!(marks.readonly && marks.accessor))
        propertyRest g key optional
      else
        match key.plainName? with
        | some w =>
          guard (w == "async" || accessor)
          markedMember g w
        | none => fail

/-- A block of statements that runs with the class. -/
def staticBlock : Read (List Node) :=
  withSettings valuePlace (block g)

/-- The word `w`, where it is used as a modifier or, as the parts tell, as a name. -/
def nameOrModifier (w : String) (lines : Bool) : Read (Bool × Option (List Node)) := do
  if ← eatWord w then
    match ← wordMember g w lines with
    | some parts => return (true, some parts)
    | none => return (true, none)
  return (false, none)

/-- A member behind the modifiers that must come first. -/
def memberRest (isStatic restricted hasAccessor : Bool) : Read (List Node) := do
  let mods ← many (do
    if (← isWord "static") && (← second).isMark "\x7b" then return none
    modifier ["abstract", "readonly", "override", "static"])
  let hasAccessor ← if hasAccessor then pure true else eatWord "accessor"
  let isStatic := isStatic || mods.contains "static"
  if isStatic && (← isMark "\x7b") then staticBlock g
  else if (← isWord "static") && (← second).isMark "\x7b" then
    let _ ← take
    staticBlock g
  else
    let free := !mods.contains "abstract" && !mods.contains "override" && !restricted
    if free && (← startsIndexSignature) then indexSignature g
    else plainMember g ⟨mods.contains "readonly", hasAccessor⟩

/-- A class member. -/
def classMember : Read (List Node) := do
  if ← eat ";" then return []
  let (declared, asName) ← nameOrModifier g "declare" true
  if let some parts := asName then return parts
  let access ← modifier ["public", "protected", "private", "in", "out"]
  let (_, asName) ← if declared then pure (false, none) else nameOrModifier g "declare" true
  if let some parts := asName then return parts
  let opensBlock := (← isWord "static") && (← second).isMark "\x7b"
  let (isStatic, asName) ← if opensBlock then pure (← eatWord "static", none)
    else nameOrModifier g "static" false
  if let some parts := asName then return parts
  let (hasAccessor, asName) ← if opensBlock then pure (false, none)
    else nameOrModifier g "accessor" true
  if let some parts := asName then return parts
  memberRest g isStatic access.isSome hasAccessor

/-- The parts of a class behind its name, in the order in which they are
visited: the body before the parents. -/
def classRest : Read (List Node) := do
  let types ← optionalTypeParams g
  let (parent, otherParents) ← do
    if ← eatWord "extends" then
      let parent ← superclass g
      let others ← if ← eat "," then heritages g else pure []
      pure (some parent, others)
    else pure (none, [])
  let _ := otherParents
  if ← eatWord "extends" then
    let _ ← superclass g
  let implemented ← if ← eatWord "implements" then heritages g else pure []
  if ← eatWord "implements" then
    let _ ← heritages g
  let late ← if ← eatWord "extends" then some <$> superclass g else pure none
  let parent := parent.or late
  expect "\x7b"
  let members ← many do
    if ← isMark "\x7d" then return none
    return some (← classMember g)
  expect "\x7d"
  return members.flatten ++ (parent.toList.map fun h => .expr h.base)
    ++ paramsParts types ++ (parent.toList.flatMap fun h => h.args.map .type)
    ++ heritageParts implemented

/-- A class, from the word `class` on: its name and its parts. It must have a
name if `named`. -/
def classWhole (named : Bool) : Read (Option String × List Node) := do
  expectWord "class"
  let name ← if named then do
      guard (!(← isWord "let"))
      some <$> boundName
    else if ← isName then some <$> name
    else pure none
  return (name, ← classRest g)

end Read

end ElementManifest.TypeScript
