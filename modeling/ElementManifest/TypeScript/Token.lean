import ElementManifest.TypeScript.Tree

/-!
# Tokens

The lexemes of a source text, and the block comments between them.
-/

namespace ElementManifest.TypeScript

/-- A lexeme. -/
inductive Lexeme
  /-- A name or a keyword; `escaped` when it starts with an escape, which makes
  it a name whatever it spells. -/
  | word (text : String) (escaped : Bool)
  /-- A punctuator. -/
  | mark (text : String)
  /-- A number, as the plain decimal of its value. -/
  | number (text : String)
  /-- A whole number of any size. -/
  | bigint
  /-- A string; its value is missing when it is no text. -/
  | string (value : Option String)
  /-- The end of the source. -/
  | finish
  /-- Text that is no lexeme. -/
  | bad
  deriving DecidableEq, Repr

/-- A block comment: its span, and the text between its delimiters. -/
structure Comment where
  span : Span
  text : List Char
  deriving Repr

/-- A token: a lexeme with what stands before it, the source text from its
start on, and the text behind it. Its span starts before `lexemeStart` when
lines that are skipped like comments stand between the two. -/
structure Token where
  lexeme : Lexeme
  span : Span
  lexemeStart : Nat
  newlineBefore : Bool
  comments : List Comment
  here : List Char
  rest : List Char

/-- The words that can never be a name. -/
def reservedWords : List String :=
  ["break", "case", "catch", "class", "const", "continue", "debugger", "default", "delete", "do",
   "else", "enum", "export", "extends", "false", "finally", "for", "function", "if", "import",
   "in", "instanceof", "new", "null", "return", "super", "switch", "this", "throw", "true", "try",
   "typeof", "var", "void", "while", "with"]

/-- The words that modules keep for later or for special places. A declaration
may still be named by them, but an expression cannot refer to that name. -/
def strictWords : List String :=
  ["await", "yield", "let", "static", "implements", "interface", "package", "private",
   "protected", "public"]

/-- Whether `text` can never be a name. -/
def isReserved (text : String) : Bool :=
  reservedWords.contains text

/-- Whether `text` cannot be referred to as a name. -/
def isKept (text : String) : Bool :=
  isReserved text || strictWords.contains text

end ElementManifest.TypeScript
