import ElementManifest.TypeScript.Lexer

/-!
# Reading

A reader takes tokens from a cursor. When it fails it says where it stood,
since a few rules go on from the place of a failure. A reader never goes back
by itself: `attempt` gives a reading up and starts again from where it began.
-/

namespace ElementManifest.TypeScript

/-- What the place of a text decides about how it is read. -/
structure Settings where
  /-- The length of the source in bytes. -/
  size : Nat
  /-- Whether elements may stand in expressions. -/
  elements : Bool
  /-- Whether the source holds declarations only. -/
  declarations : Bool
  /-- Whether the text stands behind `declare`. -/
  ambient : Bool := false
  /-- Whether `in` is an operator here. -/
  inOperator : Bool := true
  /-- Whether the text is a type, where angle brackets stand alone. -/
  inType : Bool := false
  /-- Whether `yield` is an operator here. -/
  yieldOperator : Bool := false
  /-- Whether `await` must have an operand here. -/
  awaitOperand : Bool := false
  /-- Whether the text stands outside of all functions. -/
  topLevel : Bool := true
  /-- Whether the text stands in the parameters of a function. -/
  inParameters : Bool := false
  /-- Whether the text stands inside a conditional expression. -/
  inConditional : Bool := false
  /-- Whether a colon must follow the text, as the middle of a conditional. -/
  colonFollows : Bool := false
  /-- Whether a type may be a conditional one. -/
  conditionalTypes : Bool := true
  /-- Whether the text starts the head of a loop. -/
  loopHead : Bool := false
  /-- Where an arrow function may start. -/
  arrowStart : Option Nat := none

/-- Where a reading stands: the token to be taken next, the end of the last one
taken, and the comments passed so far, read backwards. -/
structure Cursor where
  token : Token
  stop : Nat
  comments : List Comment

/-- The end of a reading: a value with the place behind it, or the place of a failure. -/
inductive Outcome (α : Type) where
  | ok (value : α) (next : Cursor)
  | failed (place : Cursor)

/-- A reader of `α`. -/
def Read (α : Type) : Type :=
  Settings → Cursor → Outcome α

namespace Read

variable {α β : Type}

/-- Read nothing. -/
protected def pure (a : α) : Read α :=
  fun _ c => .ok a c

/-- One reading behind another. -/
protected def bind (p : Read α) (f : α → Read β) : Read β :=
  fun s c =>
    match p s c with
    | .ok a next => f a s next
    | .failed place => .failed place

instance : Monad Read where
  pure := Read.pure
  bind := Read.bind

instance : Inhabited (Read α) where
  default := fun _ c => .failed c

/-- The reading that always fails. -/
def fail : Read α :=
  fun _ c => .failed c

/-- Fail unless `b` holds. -/
def guard (b : Bool) : Read Unit :=
  if b then pure () else fail

/-- What is known of the place. -/
def settings : Read Settings :=
  fun s c => .ok s c

/-- Read in a changed place. -/
def withSettings (f : Settings → Settings) (p : Read α) : Read α :=
  fun s c => p (f s) c

/-- The cursor. -/
def cursor : Read Cursor :=
  fun _ c => .ok c c

/-- The token to be taken next. -/
def token : Read Token :=
  fun _ c => .ok c.token c

/-- Where the next token starts. -/
def start : Read Nat :=
  fun _ c => .ok c.token.span.lo c

/-- The span from `lo` to the end of the last token taken. -/
def spanFrom (lo : Nat) : Read Span :=
  fun _ c => .ok ⟨lo, c.stop⟩ c

/-- Stand at `t` instead of the next token. -/
def standAt (t : Token) : Read Unit :=
  fun _ c => .ok () { c with token := t }

/-- The cursor behind its token, where the place tells how the next one is scanned. -/
def Cursor.advance (s : Settings) (c : Cursor) : Cursor where
  token := c.token.next s.inType
  stop := c.token.span.hi
  comments := c.token.comments.reverse ++ c.comments

/-- Take the next token. The end of the source and text that is no lexeme
cannot be taken. -/
def take : Read Token :=
  fun s c =>
    if c.token.lexeme = .finish ∨ c.token.lexeme = .bad then .failed c
    else .ok c.token (Cursor.advance s c)

/-- Pass over the next token, even over text that is no lexeme. -/
def skip : Read Unit :=
  fun s c =>
    if c.token.lexeme = .finish then .failed c else .ok () (Cursor.advance s c)

/-- Fail behind the next token. -/
def failBehind : Read α :=
  fun s c => .failed (Cursor.advance s c)

/-- The token behind the next one. -/
def second : Read Token :=
  fun s c => .ok (Cursor.advance s c).token c

/-- Read, and stand where the reading began. A failure reads `none`. -/
def ahead (p : Read α) : Read (Option α) :=
  fun s c =>
    match p s c with
    | .ok a _ => .ok (some a) c
    | .failed _ => .ok none c

/-- Whether `p` can be read here and answers `true`. -/
def aheadTrue (p : Read Bool) : Read Bool :=
  fun s c =>
    match p s c with
    | .ok b _ => .ok b c
    | .failed _ => .ok false c

/-- Read `p`; stand where it began when it fails or finds nothing. -/
def attempt (p : Read (Option α)) : Read (Option α) :=
  fun s c =>
    match p s c with
    | .ok (some a) next => .ok (some a) next
    | .ok none _ => .ok none c
    | .failed _ => .ok none c

/-- Read `p`, and stand where it began when it fails. -/
def attempt? (p : Read α) : Read (Option α) :=
  attempt (p >>= fun a => pure (some a))

/-- Read `p`, and go on with `recover` from the place of a failure. -/
def orElseAt (p recover : Read α) : Read α :=
  fun s c =>
    match p s c with
    | .ok a next => .ok a next
    | .failed place => recover s place

/-- Read values until `step` finds none, at most `n` of them. -/
def upTo (step : Read (Option α)) : Nat → Read (List α)
  | 0 => pure []
  | n + 1 => do
    match ← step with
    | some a => return a :: (← upTo step n)
    | none => return []

/-- Read values until `step` finds none. Each value takes a token, so the text
that is left bounds their number. -/
def many (step : Read (Option α)) : Read (List α) :=
  fun s c => upTo step (s.size - c.token.span.lo + 2) s c

/-- Apply `step` to a value until it has no more to add, at most `n` times. -/
def growUpTo (step : α → Read (Option α)) : Nat → α → Read α
  | 0, a => pure a
  | n + 1, a => do
    match ← step a with
    | some b => growUpTo step n b
    | none => return a

/-- Apply `step` to a value until it has no more to add. -/
def grow (step : α → Read (Option α)) (a : α) : Read α :=
  fun s c => growUpTo step (s.size - c.token.span.lo + 2) a s c

/-! ## Tokens -/

/-- Whether the next token is the mark `m`. -/
def isMark (m : String) : Read Bool :=
  fun _ c => .ok (c.token.lexeme = .mark m) c

/-- Whether the next token is one of the marks `ms`. -/
def isMarkIn (ms : List String) : Read Bool :=
  fun _ c => .ok (match c.token.lexeme with | .mark m => ms.contains m | _ => false) c

end Read

namespace Token

/-- The text of a word. -/
def word? (t : Token) : Option String :=
  match t.lexeme with
  | .word text _ => some text
  | _ => none

/-- Whether the token is the word `w`, as a keyword. -/
def isWord (t : Token) (w : String) : Bool :=
  t.lexeme = .word w false

/-- Whether the token is the mark `m`. -/
def isMark (t : Token) (m : String) : Bool :=
  t.lexeme = .mark m

/-- Whether the token is one of the marks `ms`. -/
def isMarkIn (t : Token) (ms : List String) : Bool :=
  match t.lexeme with
  | .mark m => ms.contains m
  | _ => false

/-- Whether the token is a word for which `p` holds, or one that starts with an escape. -/
def isWordSuch (p : String → Bool) (t : Token) : Bool :=
  match t.lexeme with
  | .word text escaped => escaped || p text
  | _ => false

/-- Whether the token can refer to a value: a word that is not kept for other uses. -/
def isName (t : Token) : Bool :=
  t.isWordSuch fun w => !isKept w

end Token

namespace Read

/-- Whether the next token is the word `w`. -/
def isWord (w : String) : Read Bool :=
  return (← token).isWord w

/-- Whether the next token can refer to a value. -/
def isName : Read Bool :=
  return (← token).isName

/-- Whether a line ends before the next token. -/
def newline : Read Bool :=
  return (← token).newlineBefore

/-- Take the mark `m` if it comes next. -/
def eat (m : String) : Read Bool := do
  if ← isMark m then
    let _ ← take
    return true
  else return false

/-- Take the word `w` if it comes next. -/
def eatWord (w : String) : Read Bool := do
  if ← isWord w then
    let _ ← take
    return true
  else return false

/-- Take the mark `m`. -/
def expect (m : String) : Read Unit := do
  guard (← eat m)

/-- Take the word `w`. -/
def expectWord (w : String) : Read Unit := do
  guard (← eatWord w)

/-- Take a word, reserved or not. -/
def anyWord : Read String := do
  match (← token).word? with
  | some w =>
    let _ ← take
    return w
  | none => fail

/-- Take a word that can refer to a value. -/
def name : Read String := do
  guard (← isName)
  anyWord

/-- Whether a declaration can be named `w`. Words that are kept for special
places still name what is declared, and so does `this`; `await` does only where
nothing runs. -/
def isBindable (ambient : Bool) (w : String) : Bool :=
  if w == "await" then ambient
  else !isReserved w || w == "this" || w == "enum"

/-- Take a word that names what is declared here. -/
def boundName : Read String := do
  let ambient := (← settings).ambient
  guard ((← token).isWordSuch (isBindable ambient))
  anyWord

/-- Take a closing angle bracket. -/
def closeAngle : Read Unit :=
  expect ">"

/-- Take an opening angle bracket, cut off from the marks it forms with the next one. -/
def openAngle : Read Unit := do
  let t ← token
  if t.isMark "<<" then
    standAt (t.rescan (scanMark [['<']]))
  expect "<"

/-- Whether an angle bracket opens here, on its own or with the next one. -/
def opensAngle : Read Bool :=
  isMarkIn ["<", "<<"]

/-- Whether a statement can end here: at a semicolon, before a closing brace, at
the end of the source, or where a line ends. -/
def atStatementEnd : Read Bool := do
  let t ← token
  return t.newlineBefore || t.isMark ";" || t.isMark "\x7d" || t.lexeme == .finish

/-- Take what ends a statement, if it ends here. -/
def eatStatementEnd : Read Bool := do
  if ← eat ";" then return true
  atStatementEnd

/-- End a statement. -/
def statementEnd : Read Unit := do
  guard (← eatStatementEnd)

/-- Items up to the mark `close`, with commas between them and perhaps behind
the last. The closing mark is taken. -/
def listUntil {α : Type} (close : String) (item : Read α) : Read (List α) := do
  let items ← many do
    if ← isMark close then return none
    let a ← item
    if ← isMark close then return some a
    expect ","
    return some a
  expect close
  return items

/-- Items with `between` between them, at least one. -/
def separated {α : Type} (between : String) (item : Read α) : Read (List α) := do
  let first ← item
  let others ← many do
    if ← eat between then return some (← item)
    return none
  return first :: others

end Read

end ElementManifest.TypeScript
