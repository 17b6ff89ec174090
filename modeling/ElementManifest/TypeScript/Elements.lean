import ElementManifest.TypeScript.Literals

/-!
# Elements

Elements and fragments in expressions, `<a b={c}>text</a>`. Text between tags
is not made of tokens: it is skipped from the end of the bracket or brace before
it, so an element is read up to its last bracket, which its reader leaves.
-/

namespace ElementManifest.TypeScript

namespace Read

variable (g : Grammar)

/-- A word with hyphens. -/
def hyphenWord : Read String := do
  standAt ((← token).rescan scanElementName)
  anyWord

/-- The name of an element: two names with a colon between, or names with dots between. -/
def elementName : Read String := do
  let first ← hyphenWord
  if ← eat ":" then return first ++ ":" ++ (← hyphenWord)
  grow (fun text => do
    if ← eat "." then return some (text ++ "." ++ (← hyphenWord))
    else return none) first

/-- An expression in braces among the children of an element, up to the closing
brace, which is left. It may be missing, or spread. -/
def elementHole : Read (List Node) := do
  expect "\x7b"
  if ← isMark "\x7d" then return []
  let _ ← eat "..."
  let e ← withSettings (fun s => { s with inOperator := true }) g.expression
  guard (← isMark "\x7d")
  return [.expr e]

/-- An element with the bracket that ends it. -/
def closedElement : Read (List Node) := do
  let parts ← g.element
  closeAngle
  return parts

/-- The value of an attribute. -/
def attributeValue : Read (List Node) := do
  let t := (← token).rescan scanAttributeString
  match t.lexeme with
  | .string _ =>
    standAt t
    let _ ← take
    return []
  | .mark "\x7b" =>
    expect "\x7b"
    let e ← withSettings (fun s => { s with inOperator := true }) g.expression
    expect "\x7d"
    return [.expr e]
  | .mark "<" => closedElement g
  | _ => fail

/-- An attribute. -/
def elementAttribute : Read (List Node) := do
  if ← isMark "\x7b" then
    expect "\x7b"
    expect "..."
    let e ← element g
    expect "\x7d"
    return [.expr e]
  else
    let _ ← hyphenWord
    if ← eat ":" then
      let _ ← hyphenWord
    if ← eat "=" then attributeValue g else return []

/-- Skip text from the end of the next token on, and stand at what ends it. -/
def skipElementText : Read Unit := do
  let t ← token
  let n := elementTextLength t.rest
  standAt (scan true (← settings).inType (t.span.hi + byteCount (t.rest.take n)) false
    (t.rest.drop n))

/-- The children of an element from the end of its first tag, whose bracket is
still to be taken, up to the bracket of its last tag. -/
def elementChildren (name : Option String) : Read (List Node) := do
  let children ← many do
    skipElementText
    if ← isMark "\x7b" then return some (← elementHole g)
    guard (← isMark "<")
    if (← second).isMark "/" then return none
    return some (← g.element)
  expect "<"
  expect "/"
  match name with
  | some n => guard ((← elementName) == n)
  | none => pure ()
  guard (← isMark ">")
  return children.flatten

/-- An element up to its last bracket. -/
def openElement : Read (List Node) := do
  expect "<"
  if ← isMark ">" then elementChildren g none
  else
    let name ← elementName
    let types ← if ← opensAngle then typeArgs g else pure []
    let attributes ← many do
      if ← isMarkIn ["/", ">"] then return none
      return some (← elementAttribute g)
    let head := attributes.flatten ++ types.map Node.type
    if ← eat "/" then
      guard (← isMark ">")
      return head
    else
      guard (← isMark ">")
      return head ++ (← elementChildren g (some name))

end Read

end ElementManifest.TypeScript
