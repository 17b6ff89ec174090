/-!
# Glob patterns

A pattern is written with `?` for one character, `*` for any characters, `**` for
any number of whole path parts, and `[…]` or `[!…]` for one character of a class or
outside it. Everything else stands for itself.
-/

namespace ElementManifest.Glob

/-- What a class lists: characters between two others, which may be the same. -/
structure CharSpan where
  first : Char
  last : Char
  deriving DecidableEq, Repr

/-- Whether a character lies in a span. -/
def CharSpan.contains (span : CharSpan) (c : Char) : Bool :=
  span.first ≤ c && c ≤ span.last

/-- A piece of a pattern. -/
inductive Token
  | literal (c : Char)
  | anyChar
  | anyText
  /-- Any number of path parts, each with its slash. -/
  | anyParts
  | within (spans : List CharSpan)
  | outside (spans : List CharSpan)
  deriving DecidableEq, Repr

/-- The character that a piece stands for, if it stands for itself. -/
def Token.literal? : Token → Option Char
  | literal c => some c
  | _ => none

/-- A pattern, as its pieces. -/
structure Pattern where
  tokens : List Token
  deriving DecidableEq, Repr

/-- What can be wrong with a pattern. -/
inductive Fault
  | tooManyStars
  | partialParts
  | badClass
  deriving DecidableEq, Repr

/-- The text of a fault. -/
def Fault.message : Fault → String
  | tooManyStars => "wildcards are either regular \x60*\x60 or recursive \x60**\x60"
  | partialParts => "recursive wildcards must form a single path component"
  | badClass => "invalid range pattern"

/-- A fault with the position of a character near it. -/
structure PatternError where
  position : Nat
  fault : Fault
  deriving DecidableEq, Repr

/-- The text of an error. -/
def PatternError.message (e : PatternError) : String :=
  "Pattern syntax error near position " ++ toString e.position ++ ": " ++ e.fault.message

namespace Pattern

/-- The spans in the text of a class. -/
def spansOf : List Char → List CharSpan
  | a :: '-' :: b :: s => ⟨a, b⟩ :: spansOf s
  | a :: s => ⟨a, a⟩ :: spansOf s
  | [] => []

/-- The class whose text follows an opening bracket, and how many characters it
takes up with its closing bracket. The first character of a class may be a bracket. -/
def classOf? : List Char → Option (Token × Nat)
  | '!' :: c :: s => (s.idxOf? ']').map fun n => (.outside (spansOf (c :: s.take n)), n + 3)
  | c :: s => (s.idxOf? ']').map fun n => (.within (spansOf (c :: s.take n)), n + 2)
  | [] => none

/-- The pieces, read backwards, with `anyParts` before them. One is enough, but the
first piece of a pattern is not looked at. -/
def pushParts (tokens : List Token) : List Token :=
  if tokens.length > 1 && tokens.head? = some .anyParts then tokens else .anyParts :: tokens

/-- What two stars at `position` mean, and whether the slash behind them belongs to
them. They stand for path parts when nothing else is in the part they stand in. -/
def partsAt (position : Nat) (prev : Option Char) (rest : List Char) : Except PatternError Bool :=
  if prev.any (· ≠ '/') then .error ⟨position - 1, .partialParts⟩
  else
    match rest with
    | [] => .ok false
    | c :: _ => if c = '/' then .ok true else .error ⟨position + 2, .partialParts⟩

/-- Read a pattern from `position`, behind the character `prev` and behind the
pieces in `tokens`, which are read backwards. The next `skip` characters have been
read already. -/
def parseFrom (skip position : Nat) (prev : Option Char) (tokens : List Token) :
    List Char → Except PatternError (List Token)
  | [] => .ok tokens.reverse
  | c :: s =>
    let go (skip : Nat) (tokens : List Token) := parseFrom skip (position + 1) (some c) tokens s
    if skip > 0 then go (skip - 1) tokens
    else if c = '?' then go 0 (.anyChar :: tokens)
    else if c = '*' then
      match (s.takeWhile (· = '*')).length with
      | 0 => go 0 (.anyText :: tokens)
      | 1 => do
        let slash ← partsAt position prev (s.drop 1)
        go (if slash then 2 else 1) (pushParts tokens)
      | _ => .error ⟨position + 2, .tooManyStars⟩
    else if c = '[' then
      match classOf? s with
      | some (token, size) => go size (token :: tokens)
      | none => .error ⟨position, .badClass⟩
    else go 0 (.literal c :: tokens)

/-- Read a pattern. -/
def parse (text : String) : Except PatternError Pattern :=
  (parseFrom 0 0 none [] text.toList).map Pattern.mk

/-- The text that a pattern stands for, if it stands for one alone. -/
def literal? (p : Pattern) : Option String :=
  (p.tokens.mapM Token.literal?).map String.ofList

/-- Whether a pattern has a piece that stands for path parts. -/
def isRecursive (p : Pattern) : Bool :=
  p.tokens.contains .anyParts

end Pattern

end ElementManifest.Glob
