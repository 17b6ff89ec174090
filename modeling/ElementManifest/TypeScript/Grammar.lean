import ElementManifest.TypeScript.Read

/-!
# The readers that refer to each other

Types, patterns, expressions and statements nest in each other without end.
Each reader is written over a `Grammar`, the readers it may call for what is
nested in it; `Source` ties the knot.
-/

namespace ElementManifest.TypeScript

/-- The readers that may be called from within any other. -/
structure Grammar where
  /-- A type. -/
  type : Read TypeNode
  /-- A type that is no conditional one. -/
  plainType : Read TypeNode
  /-- The operand of a type operator. -/
  typeOperand : Read TypeNode
  /-- What a name may be bound to. -/
  binding : Read (List Node)
  /-- Expressions with commas between them. -/
  expression : Read Expr
  /-- An expression without commas. -/
  assignment : Read Expr
  /-- The operand of a binary operator, followed by operators that bind closer
  than the given level. -/
  binary : Nat → Read Expr
  /-- The operand of a unary operator. -/
  unary : Read Expr
  /-- An expression that a call may apply to. -/
  construction : Read Expr
  /-- What may stand on the left of an assignment. -/
  leftSide : Read Expr
  /-- The members behind an expression, without calls and without brackets. -/
  members : Expr → Read Expr
  /-- An object literal. -/
  object : Read Expr
  /-- An element, `<a>…</a>`. -/
  element : Read (List Node)
  /-- A statement; every declaration may stand here if the answer is yes. -/
  statement : Bool → Read Stmt
  /-- An item of the body of a module or namespace. -/
  item : Read Item

/-- The grammar in which nothing can be read. -/
def Grammar.empty : Grammar where
  type := Read.fail
  plainType := Read.fail
  typeOperand := Read.fail
  binding := Read.fail
  expression := Read.fail
  assignment := Read.fail
  binary := fun _ => Read.fail
  unary := Read.fail
  construction := Read.fail
  leftSide := Read.fail
  members := fun _ => Read.fail
  object := Read.fail
  element := Read.fail
  statement := fun _ => Read.fail
  item := Read.fail

end ElementManifest.TypeScript
