/-!
# Nesting in type texts

Two scans through the text of a type that know at each place whether it stands
inside brackets or quotes. One goes over the characters and takes a union apart;
the other goes over the bytes and tells whether a printed type gets parentheses.
The `>` of an arrow closes no bracket.
-/

namespace ElementManifest.Text

/-- What a scan knows between two characters. -/
structure Nesting where
  /-- The quote that is open. -/
  quote : Option Char := none
  /-- Whether a backslash inside quotes stands before the next character. -/
  escaped : Bool := false
  /-- How many more brackets have been opened than closed. -/
  depth : Int := 0
  /-- The character before. -/
  prev : Char := '\x00'
  deriving DecidableEq, Repr

namespace Nesting

/-- Whether `c` opens and closes quotes. -/
def isQuote (c : Char) : Bool :=
  c = '"' || c = '\'' || c = '\x60'

/-- Whether `c` opens a bracket. -/
def opens (c : Char) : Bool :=
  c = '(' || c = '[' || c = '\x7b' || c = '<'

/-- Whether `c` closes a bracket when `prev` stands before it. -/
def closes (prev c : Char) : Bool :=
  c = ')' || c = ']' || c = '\x7d' || (c = '>' && prev != '=')

/-- Whether the place is outside all brackets and quotes. -/
def isTop (n : Nesting) : Bool :=
  n.quote.isNone && n.depth = 0

/-- What is known behind the character `c`. -/
def step (n : Nesting) (c : Char) : Nesting :=
  match n.quote with
  | some q =>
    if n.escaped then { n with escaped := false, prev := c }
    else if c = '\\' then { n with escaped := true, prev := c }
    else if c = q then { n with quote := none, prev := c }
    else { n with prev := c }
  | none =>
    if isQuote c then { n with quote := some c, prev := c }
    else if opens c then { n with depth := n.depth + 1, prev := c }
    else if closes n.prev c then { n with depth := n.depth - 1, prev := c }
    else { n with prev := c }

end Nesting

/-- The parts of a text between the bars outside all brackets and quotes. -/
def splitUnionFrom (n : Nesting) : List Char → List (List Char)
  | [] => [[]]
  | c :: s =>
    if c = '|' ∧ n.isTop then [] :: splitUnionFrom (n.step c) s
    else
      match splitUnionFrom (n.step c) s with
      | part :: parts => (c :: part) :: parts
      | [] => [[c]]

/-- The members of a union, as they are written. -/
def splitUnion (s : List Char) : List (List Char) :=
  splitUnionFrom {} s

/-- The tokens that decide whether a type needs parentheses. -/
inductive TopToken
  | bar
  | ampersand
  | arrow
  deriving DecidableEq, Repr

/-! ## Bytes

All marks of a type are single bytes, and no other character has one of them in
it. So the scan for the tokens of a printed text goes over its bytes.
-/

/-- The bytes of a text. -/
def bytes (s : List Char) : List UInt8 :=
  s.flatMap String.utf8EncodeChar

/-- What a scan over bytes knows between two of them. -/
structure ByteNesting where
  /-- The quote that is open. -/
  quote : Option UInt8 := none
  /-- How many more brackets have been opened than closed. -/
  depth : Int := 0
  /-- The byte before. -/
  prev : Option UInt8 := none
  deriving DecidableEq, Repr

namespace ByteNesting

/-- Whether `b` opens and closes quotes. -/
def isQuote (b : UInt8) : Bool :=
  b = '"'.toUInt8 || b = '\''.toUInt8 || b = '\x60'.toUInt8

/-- Whether `b` opens a bracket. -/
def opens (b : UInt8) : Bool :=
  b = '('.toUInt8 || b = '['.toUInt8 || b = '\x7b'.toUInt8 || b = '<'.toUInt8

/-- Whether `b` closes a bracket, if it ends no arrow. -/
def closes (b : UInt8) : Bool :=
  b = ')'.toUInt8 || b = ']'.toUInt8 || b = '\x7d'.toUInt8 || b = '>'.toUInt8

/-- Whether `b` ends an arrow. -/
def endsArrow (n : ByteNesting) (b : UInt8) : Bool :=
  b = '>'.toUInt8 && n.prev = some '='.toUInt8

/-- Whether the byte behind `b` counts for nothing, whatever it is. -/
def escapes (n : ByteNesting) (b : UInt8) : Bool :=
  n.quote.isSome && b = '\\'.toUInt8

/-- What is known behind the byte `b`, if it escapes none. -/
def step (n : ByteNesting) (b : UInt8) : ByteNesting :=
  match n.quote with
  | some q => { n with quote := if b = q then none else some q, prev := some b }
  | none =>
    if isQuote b then { n with quote := some b, prev := some b }
    else if opens b then { n with depth := n.depth + 1, prev := some b }
    else if n.endsArrow b then { n with prev := some b }
    else if closes b then { n with depth := n.depth - 1, prev := some b }
    else { n with prev := some b }

/-- The token that the byte `b` ends outside all brackets and quotes. -/
def topToken? (n : ByteNesting) (b : UInt8) : Option TopToken :=
  if n.quote.isSome || n.depth ≠ 0 then none
  else if n.endsArrow b then some .arrow
  else if b = '|'.toUInt8 then some .bar
  else if b = '&'.toUInt8 then some .ampersand
  else none

end ByteNesting

/-- Whether one of `tokens` stands in bytes outside all brackets and quotes. -/
def hasTopTokenInBytes (tokens : List TopToken) (n : ByteNesting) : List UInt8 → Bool
  | [] => false
  | b :: s =>
    if n.escapes b then
      -- if a longer character is escaped, its other bytes are no marks anyway
      match s with
      | [] => false
      | skipped :: s => hasTopTokenInBytes tokens { n with prev := some skipped } s
    else (n.topToken? b).any tokens.contains || hasTopTokenInBytes tokens (n.step b) s

/-- Whether a text gets parentheses where one of `tokens` may not stand outside
all brackets and quotes. -/
def needsParentheses (tokens : List TopToken) (text : String) : Bool :=
  hasTopTokenInBytes tokens {} (bytes text.toList)

/-- A text in parentheses if one of `tokens` stands in it outside all others. -/
def wrapIf (tokens : List TopToken) (text : String) : String :=
  if needsParentheses tokens text then "(" ++ text ++ ")" else text

end ElementManifest.Text
