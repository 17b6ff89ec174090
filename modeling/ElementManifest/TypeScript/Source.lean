import ElementManifest.TypeScript.Items

/-!
# Source texts

A source text as its items and comments. The readers refer to each other; here
the knot is tied by a bound on how deeply they nest. Between two tokens only a
few readers nest, so a bound that grows with the length of the text is never
reached.
-/

namespace ElementManifest.TypeScript

/-- How a source text is read. -/
inductive SourceKind
  /-- Declarations only. -/
  | declaration
  /-- Statements, without elements. -/
  | typescript
  /-- Statements, with elements. -/
  | tsx
  deriving DecidableEq, Repr

/-- A source text that has been read: its characters, and what they form. -/
structure Source where
  chars : List Char
  items : List Item
  comments : List Comment

/-- The readers with at most `n` of them inside each other. -/
def grammar : Nat → Grammar
  | 0 => .empty
  | n + 1 =>
    { type := fun s c => Read.type (grammar n) s c
      plainType := fun s c => Read.plainType (grammar n) s c
      typeOperand := fun s c => Read.operandType (grammar n) s c
      binding := fun s c => Read.binding (grammar n) s c
      expression := fun s c => Read.expression (grammar n) s c
      assignment := fun s c => Read.assignment (grammar n) s c
      binary := fun level s c => Read.binary (grammar n) level s c
      unary := fun s c => Read.unary (grammar n) s c
      construction := fun s c => Read.construction (grammar n) s c
      leftSide := fun s c => Read.leftSide (grammar n) s c
      members := fun e s c => Read.members (grammar n) e s c
      object := fun s c => Read.objectLiteral (grammar n) s c
      element := fun s c => Read.openElement (grammar n) s c
      statement := fun declares s c => Read.statement (grammar n) declares s c
      item := fun s c => Read.item (grammar n) s c }

/-- The items up to the end of the source. -/
def Read.items (g : Grammar) : Read (List Item) := do
  let items ← many do
    if (← token).lexeme == .finish then return none
    return some (← g.item)
  guard ((← token).lexeme == .finish)
  return items

/-- The settings for a text of `size` bytes. -/
def SourceKind.settings (kind : SourceKind) (size : Nat) : Settings where
  size := size
  elements := kind = .tsx
  declarations := kind = .declaration
  ambient := kind = .declaration

/-- Read a source text; `none` when it is malformed. -/
def parse (kind : SourceKind) (text : String) : Option Source :=
  let chars := sourceChars text
  let size := byteCount chars
  let first := firstToken chars
  match Read.items (grammar (32 * (size + 2))) (kind.settings size) ⟨first, first.span.lo, []⟩ with
  | .ok items last => some ⟨chars, items, (last.token.comments.reverse ++ last.comments).reverse⟩
  | .failed _ => none

/-! ## Slices -/

/-- The characters behind the first `n` bytes. -/
def dropBytes : Nat → List Char → List Char
  | _, [] => []
  | n, c :: s => if n = 0 then c :: s else dropBytes (n - c.utf8Size) s

/-- The characters of the first `n` bytes. -/
def takeBytes : Nat → List Char → List Char
  | _, [] => []
  | n, c :: s => if n = 0 then [] else c :: takeBytes (n - c.utf8Size) s

/-- The text of a span. -/
def Source.slice (s : Source) (span : Span) : List Char :=
  takeBytes (span.hi - span.lo) (dropBytes span.lo s.chars)

end ElementManifest.TypeScript
