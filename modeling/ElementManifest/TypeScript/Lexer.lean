import ElementManifest.Decimal.Numeral
import ElementManifest.Text.Identifier
import ElementManifest.TypeScript.Escape
import ElementManifest.TypeScript.Token

/-!
# From text to tokens

A token is scanned from the text that is left: first what may stand between
tokens, then the lexeme. Each scanner answers how many characters it takes, so
that spans are counted once, in `scan`. The scanners go through the text
character by character and carry how many characters they still have to skip.
-/

namespace ElementManifest.TypeScript

open ElementManifest.Text ElementManifest.Decimal

/-- The number of bytes a text takes in UTF-8. -/
def byteCount (s : List Char) : Nat :=
  s.foldl (fun n c => n + c.utf8Size) 0

/-! ## Between the tokens -/

/-- Whether `c` is a space that does not end a line. -/
def isSpace (c : Char) : Bool :=
  let n := c.toNat
  n == 0x09 || n == 0x0B || n == 0x0C || n == 0x20 || n == 0x85 || n == 0xA0 || n == 0xFEFF
    || n == 0x1680 || (0x2000 ≤ n && n ≤ 0x200B) || n == 0x202F || n == 0x205F || n == 0x3000

/-- The length of a mark at the start of `s` that makes the rest of its line a
comment: one left from embedding in markup, or from merging two versions. The
latter stand at the start of a line. In a type an angle bracket stays one. -/
def lineMarkLength (inType newline : Bool) (s : List Char) : Option Nat :=
  let opens (m : String) := m.toList.isPrefixOf s
  if !inType && opens "<!--" then some 4
  else if newline && opens "-->" then some 3
  else if newline && opens "=======" then some 7
  else if newline && !inType && (opens "<<<<<<< " || opens ">>>>>>> ") then some 7
  else none

/-- Where a scan between tokens stands: outside a comment, in a line comment,
or in a block comment with its start and its text so far, read backwards. -/
inductive Between
  | blank
  | line
  | block (lo : Nat) (text : List Char)

/-- What stands before a token. `start` is where the first line mark stands, if
there is one. -/
structure Trivia where
  newline : Bool
  comments : List Comment
  start : Option Nat
  pos : Nat
  rest : List Char

/-- Skip blanks and comments from the position `pos` on. `newline` tells whether
a line has ended since the last token. -/
def trivia (inType : Bool) (mode : Between) (skip pos : Nat) (newline : Bool)
    (start : Option Nat) (comments : List Comment) : List Char → Trivia
  | [] => ⟨newline, comments.reverse, start, pos, []⟩
  | c :: s =>
    let next := pos + c.utf8Size
    match skip with
    | skip + 1 => trivia inType mode skip next newline start comments s
    | 0 =>
      match mode with
      | .line => if isLineEnd c then trivia inType .blank 0 next true start comments s
        else trivia inType .line 0 next newline start comments s
      | .block lo text =>
        if c = '*' ∧ s.head? = some '/' then
          trivia inType .blank 1 next newline start (⟨⟨lo, next + 1⟩, text.reverse⟩ :: comments) s
        else
          trivia inType (.block lo (c :: text)) 0 next (newline || isLineEnd c) start comments s
      | .blank =>
        if isSpace c then trivia inType .blank 0 next newline start comments s
        else if isLineEnd c then trivia inType .blank 0 next true start comments s
        else if c = '/' ∧ s.head? = some '/' then
          trivia inType .line 1 next newline start comments s
        else if c = '/' ∧ s.head? = some '*' then
          trivia inType (.block pos []) 1 next newline start comments s
        else
          match lineMarkLength inType newline (c :: s) with
          | some n => trivia inType .line (n - 1) next newline (start.or (some pos)) comments s
          | none => ⟨newline, comments.reverse, start, pos, c :: s⟩

/-! ## Words -/

/-- The characters that an escape adds to a name. Half of a surrogate pair
leaves the escape itself. -/
def escapedChars (n : Nat) : List Char :=
  if isSurrogate n then ['\\', 'u'] ++ (Nat.toDigits 16 n).map Char.toUpper
  else [Char.ofNat n]

/-- The characters of a name, decoded, how many characters they take, and
whether there is an escape in it. An escape may add any character; `none` for
one that is malformed. `taken` is what has been decoded, read backwards. -/
def wordChars (skip count : Nat) (taken : List Char) (escaped : Bool) :
    List Char → Option (List Char × Nat × Bool)
  | [] => some (taken.reverse, count, escaped)
  | c :: s =>
    match skip with
    | skip + 1 => wordChars skip count taken escaped s
    | 0 =>
      if c = '\\' then
        match unicodeEscape s with
        | some (n, k) => wordChars k (count + k + 1) ((escapedChars n).reverse ++ taken) true s
        | none => none
      else if isIdentPart c then wordChars 0 (count + 1) (c :: taken) escaped s
      else some (taken.reverse, count, escaped)

/-- The name or keyword at the start of `s`. A keyword that is reserved here may
not have an escape in the middle; `strict` tells whether the words that modules
keep are reserved. -/
def scanWord (strict : Bool) (s : List Char) : Lexeme × Nat :=
  match wordChars 0 0 [] false s with
  | some (cs, count, escaped) =>
    let text := String.ofList cs
    if s.head? = some '\\' then (.word text true, count)
    else if escaped && (isReserved text || (strict && isKept text)) then (.bad, count)
    else (.word text false, count)
  | none => (.bad, 1)

/-! ## Numbers -/

/-- The characters of `s` that are digits for `isDigit`, or separate digits. -/
def digitRun (isDigit : Char → Bool) (s : List Char) : List Char :=
  s.takeWhile fun c => isDigit c || c == '_'

/-- A run of digits without its separators. -/
def digitsOnly (run : List Char) : List Char :=
  run.filter (· != '_')

/-- No name may follow a number directly. -/
def closeNumber (lexeme : Lexeme) (count : Nat) (rest : List Char) : Lexeme × Nat :=
  if rest.head?.any isIdentStart then (.bad, count) else (lexeme, count)

/-- A number in another base than ten, `s` behind its two-character mark. -/
def scanRadix (base : Nat) (isDigit : Char → Bool) (s : List Char) : Lexeme × Nat :=
  let run := digitRun isDigit s
  let ds := digitsOnly run
  let rest := s.drop run.length
  if ds.isEmpty then (.bad, 2)
  else if rest.head? = some 'n' then (.bigint, run.length + 3)
  else closeNumber (.number (plainText (ofRadixDigits base ds))) (run.length + 2) rest

/-- The exponent of a decimal number at the start of `s`: its value and length,
or `none` when its digits are missing. -/
def scanExponent (s : List Char) : Option (Int × Nat) :=
  match s with
  | e :: s =>
    if e = 'e' ∨ e = 'E' then
      let (negative, signs, s) := match s with
        | '-' :: s => (true, 1, s)
        | '+' :: s => (false, 1, s)
        | s => (false, 0, s)
      let run := digitRun Char.isDigit s
      let ds := digitsOnly run
      if ds.isEmpty then none
      else
        let n : Int := decimalNat ds
        some (if negative then -n else n, 1 + signs + run.length)
    else some (0, 0)
  | [] => some (0, 0)

/-- A decimal number, or an octal one in the old notation with a leading zero. -/
def scanDecimal (s : List Char) : Lexeme × Nat :=
  let wholeRun := digitRun Char.isDigit s
  let whole := digitsOnly wholeRun
  let rest := s.drop wholeRun.length
  let old := whole.head? = some '0' && 1 < wholeRun.length
  if !old && rest.head? = some 'n' then (.bigint, wholeRun.length + 1)
  else if old && whole.all isOctal then
    closeNumber (.number (plainText (ofRadixDigits 8 whole))) wholeRun.length rest
  else
    let partRun := match rest with
      | '.' :: rest => '.' :: digitRun Char.isDigit rest
      | _ => []
    let rest := rest.drop partRun.length
    match scanExponent rest with
    | none => (.bad, wholeRun.length + partRun.length)
    | some (power, k) =>
      let value := ofDecimalDigits whole (digitsOnly (partRun.drop 1)) power
      closeNumber (.number (plainText value)) (wholeRun.length + partRun.length + k) (rest.drop k)

/-- The number at the start of `s`. -/
def scanNumber (s : List Char) : Lexeme × Nat :=
  match s with
  | '0' :: c :: rest =>
    if c = 'x' ∨ c = 'X' then scanRadix 16 (hexValue · |>.isSome) rest
    else if c = 'o' ∨ c = 'O' then scanRadix 8 isOctal rest
    else if c = 'b' ∨ c = 'B' then scanRadix 2 (fun c => c == '0' || c == '1') rest
    else scanDecimal s
  | _ => scanDecimal s

/-! ## Strings -/

/-- The code units of a string behind its quote, and how many characters it takes
with the quote that closes it. A string that is not closed ends with its line,
and only what follows its last escape is its value. `piece` is what has been read
since the last escape and `before` what was read before it, both backwards. -/
def stringUnits (quote : Char) (skip count : Nat) (before piece : List Nat) :
    List Char → Option (List Nat × Nat)
  | [] => some (piece.reverse, count)
  | c :: s =>
    match skip with
    | skip + 1 => stringUnits quote skip count before piece s
    | 0 =>
      if c = quote then some ((piece ++ before).reverse, count + 1)
      else if c = '\n' ∨ c = '\r' then some (piece.reverse, count)
      else if c = '\\' then
        match escape s with
        | some (ns, k) => stringUnits quote k (count + k + 1) (ns.reverse ++ piece ++ before) [] s
        | none => none
      else stringUnits quote 0 (count + 1) before (c.toNat :: piece) s

/-- The string at the start of `s`, behind its quote. -/
def scanString (quote : Char) (s : List Char) : Lexeme × Nat :=
  match stringUnits quote 0 1 [] [] s with
  | some (ns, count) => (.string (textOfUnits ns), count)
  | none => (.bad, 1)

/-! ## Punctuators -/

/-- The punctuators, longer ones before those that start them. A closing angle
bracket always stands alone here; see `scanOperator`. -/
def marks : List (List Char) :=
  ["...", "===", "!==", "**=", "<<=", "&&=", "||=", "??=",
   "=>", "==", "!=", "<=", "++", "--", "<<", "&&", "||", "??", "?.", "+=", "-=", "*=", "/=", "%=",
   "&=", "|=", "^=", "**",
   "\x7b", "\x7d", "(", ")", "[", "]", ";", ",", "<", ">", "+", "-", "*", "/", "%", "&", "|", "^",
   "!", "~", "?", ":", "=", ".", "#", "@", "\x60"].map String.toList

/-- The punctuators that start with a closing angle bracket. -/
def angleMarks : List (List Char) :=
  [">>>=", ">>>", ">>=", ">>", ">=", ">"].map String.toList

/-- The first of `ms` that `s` starts with. -/
def scanMark (ms : List (List Char)) (s : List Char) : Lexeme × Nat :=
  match ms.find? (·.isPrefixOf s) with
  | some m => (.mark (String.ofList m), m.length)
  | none => (.bad, 1)

/-- The lexeme at the start of `s`. -/
def scanLexeme (strict : Bool) (s : List Char) : Lexeme × Nat :=
  match s with
  | [] => (.finish, 0)
  | c :: rest =>
    let digitNext := rest.head?.any Char.isDigit
    if isIdentStart c || c == '\\' then scanWord strict s
    else if c.isDigit || (c == '.' && digitNext) then scanNumber s
    else if c == '"' || c == '\'' then scanString c rest
    else if c == '?' && rest.head? == some '.' && (rest.drop 1).head?.any Char.isDigit then
      (.mark "?", 1)
    else scanMark marks s

/-- The line at the start of `s` that parts two versions in a merge. -/
def scanMergeLine (s : List Char) : Lexeme × Nat :=
  (.bad, (s.takeWhile fun c => !isLineEnd c).length)

/-! ## Tokens -/

/-- The token with the given lexeme, of `count` characters, that `s` starts with
at the byte `pos`. Its span starts at `start`. -/
def Token.make (lexeme : Lexeme) (count start pos : Nat) (newline : Bool)
    (comments : List Comment) (s : List Char) : Token where
  lexeme := lexeme
  span := ⟨start, pos + byteCount (s.take count)⟩
  lexemeStart := pos
  newlineBefore := newline
  comments := comments
  here := s
  rest := s.drop count

/-- The next token from the byte `pos` on, in a type if `inType`. -/
def scan (strict inType : Bool) (pos : Nat) (newline : Bool) (s : List Char) : Token :=
  let t := trivia inType .blank 0 pos newline none [] s
  let (lexeme, count) :=
    if t.newline && "||||||| ".toList.isPrefixOf t.rest then scanMergeLine t.rest
    else scanLexeme strict t.rest
  Token.make lexeme count (t.start.getD t.pos) t.pos t.newline t.comments t.rest

/-- The token behind `t`, in a type if `inType`. -/
def Token.next (t : Token) (inType : Bool) : Token :=
  scan true inType t.span.hi false t.rest

/-- The token in the same place, scanned in another way. -/
def Token.rescan (t : Token) (scanner : List Char → Lexeme × Nat) : Token :=
  let (lexeme, count) := scanner t.here
  Token.make lexeme count t.span.lo t.lexemeStart t.newlineBefore t.comments t.here

/-- A closing angle bracket with what it forms with the marks behind it; other
tokens stay. -/
def Token.asOperator (t : Token) : Token :=
  if t.lexeme = .mark ">" then t.rescan (scanMark angleMarks) else t

/-- The characters of a text without its byte order mark. -/
def sourceChars (text : String) : List Char :=
  match text.toList with
  | '\ufeff' :: s => s
  | s => s

/-- The first line, where it names an interpreter. -/
def interpreterLine (s : List Char) : List Char :=
  match s with
  | '#' :: '!' :: _ => s.takeWhile fun c => !isLineEnd c
  | _ => []

/-- The first token of a source, which is read before it is known that the source
is a module. -/
def firstToken (s : List Char) : Token :=
  let line := interpreterLine s
  scan false false (byteCount line) true (s.drop line.length)

/-! ## Regular expressions -/

/-- The length of the body of a regular expression with its closing slash;
`none` when its line ends before it. -/
def regexLength (inClass escaped : Bool) (count : Nat) : List Char → Option Nat
  | [] => none
  | c :: s =>
    if c = '\n' ∨ c = '\r' then none
    else if escaped then regexLength inClass false (count + 1) s
    else if c = '\\' then regexLength inClass true (count + 1) s
    else if c = '[' then regexLength true false (count + 1) s
    else if c = ']' then regexLength false false (count + 1) s
    else if c = '/' ∧ !inClass then some (count + 1)
    else regexLength inClass false (count + 1) s

/-- The regular expression at the start of `s`, read as a mark. -/
def scanRegex (s : List Char) : Lexeme × Nat :=
  match regexLength false false 0 (s.drop 1) with
  | some n =>
    let flags := s.drop (n + 1)
    let taken := if flags.head?.any isIdentStart then wordChars 0 0 [] false flags
      else some ([], 0, false)
    match taken with
    | some (_, k, _) => (.mark "/", n + 1 + k)
    | none => (.bad, 1)
  | none => (.bad, 1)

/-! ## Templates -/

/-- How a piece of a template ends. -/
inductive PieceEnd
  | backtick
  | hole
  deriving DecidableEq, Repr

/-- A piece of a template: its value, which is absent when an escape in it is
malformed, how it ends, and how many characters it takes. -/
structure Piece where
  units : Option (List Nat)
  ends : PieceEnd
  count : Nat

/-- The piece of a template at the start of the text; `none` when the template
does not end. `units` is what has been read, backwards. -/
def templatePiece (skip count : Nat) (units : Option (List Nat)) : List Char → Option Piece
  | [] => none
  | c :: s =>
    match skip with
    | skip + 1 => templatePiece skip count units s
    | 0 =>
      let add (ns : List Nat) := units.map (ns.reverse ++ ·)
      if c = '\x60' then some ⟨units.map List.reverse, .backtick, count + 1⟩
      else if c = '$' ∧ s.head? = some '\x7b' then some ⟨units.map List.reverse, .hole, count + 2⟩
      else if c = '\\' then
        match templateEscape s with
        | some (ns, k) => templatePiece k (count + k + 1) (add ns) s
        | none => templatePiece (if s.isEmpty then 0 else 1) (count + 2) none s
      else if c = '\r' then
        if s.head? = some '\n' then templatePiece 0 (count + 1) units s
        else templatePiece 0 (count + 1) (add [10]) s
      else templatePiece 0 (count + 1) (add [c.toNat]) s

/-! ## Elements in the source -/

/-- The name of an element or attribute, which may hold hyphens. -/
def scanElementName (s : List Char) : Lexeme × Nat :=
  match s with
  | c :: _ =>
    if isIdentStart c then
      let run := s.takeWhile fun c => isIdentPart c || c == '-'
      (.word (String.ofList run) false, run.length)
    else scanLexeme true s
  | [] => (.finish, 0)

/-- The string value of an attribute, which has no escapes and may span lines. -/
def scanAttributeString (s : List Char) : Lexeme × Nat :=
  match s with
  | quote :: rest =>
    if quote = '"' ∨ quote = '\'' then
      let body := rest.takeWhile (· != quote)
      if body.length < rest.length then (.string (some (String.ofList body)), body.length + 2)
      else (.bad, 1)
    else scanLexeme true s
  | [] => (.finish, 0)

/-- The length of the text between elements, up to a brace or an angle bracket. -/
def elementTextLength (s : List Char) : Nat :=
  (s.takeWhile fun c => c != '<' && c != '\x7b').length

end ElementManifest.TypeScript
