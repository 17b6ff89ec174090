/-!
# The TypeScript tree

What the reader makes of a source text. Types, object members, declarations and
calls keep their structure, because the other modules look at them. Every other
form keeps only its `parts`: the expressions, types, members and statements in
it, in the order in which they are visited.
-/

namespace ElementManifest.TypeScript

/-- A stretch of the source text, in UTF-8 bytes. -/
structure Span where
  lo : Nat
  hi : Nat
  deriving DecidableEq, Repr

/-- A name with dots, `a.b.c`. -/
inductive EntityName
  | name (text : String)
  | member (left : EntityName) (right : String)
  deriving DecidableEq, Repr

/-- The dotted text of an entity name. -/
def EntityName.text : EntityName → String
  | .name text => text
  | .member left right => left.text ++ "." ++ right

/-- The operators that stand before a type. -/
inductive TypeOperator
  | keyof
  | unique
  | readonly
  deriving DecidableEq, Repr

/-- How a type operator is written. -/
def TypeOperator.text : TypeOperator → String
  | .keyof => "keyof"
  | .unique => "unique"
  | .readonly => "readonly"

/-- What matters of an expression form that keeps only its parts. -/
inductive Form
  /-- A place that can be assigned to, such as `a[i]` or `a as T`. -/
  | place
  /-- An expression with type arguments that is not called. -/
  | applied
  /-- The `!` that rules out an absent value. -/
  | nonNull
  /-- An optional chain, `a?.b`, and what is chained on to it. -/
  | chain
  /-- An arrow function. -/
  | arrow
  /-- An operator before its operand, which is not raised to a power as it stands. -/
  | unary
  /-- The `await` before an operand, which is not raised to a power either. -/
  | awaited
  /-- An operation that nothing is assigned to: two operands, a condition, or a step. -/
  | operation
  /-- Any other form. -/
  | plain
  deriving DecidableEq, Repr

mutual

/-- A type, as written. -/
inductive TypeNode
  | keyword (span : Span) (name : String)
  | text (span : Span) (value : Option String)
  | truth (span : Span) (value : Bool)
  | reference (span : Span) (name : EntityName) (args : List TypeNode)
  | object (span : Span) (members : List Member)
  | array (span : Span) (elem : TypeNode)
  | tuple (span : Span) (elems : List TupleElem)
  | union (span : Span) (branches : List TypeNode)
  | intersection (span : Span) (branches : List TypeNode)
  | paren (span : Span) (inner : TypeNode)
  | operator (span : Span) (op : TypeOperator) (inner : TypeNode)
  | optional (span : Span) (inner : TypeNode)
  | rest (span : Span) (inner : TypeNode)
  | indexed (span : Span) (object index : TypeNode)
  | other (span : Span) (parts : List Node)

/-- An element of a tuple type. The label of a rest element is not kept. -/
inductive TupleElem
  | mk (label : Option String) (type : TypeNode)

/-- A property signature. -/
inductive Property
  | mk (span : Span) (key : Expr) (computed optional : Bool) (type : Option TypeNode)

/-- A member of an object type or an interface body. -/
inductive Member
  | property (p : Property)
  | other (span : Span) (parts : List Node)

/-- An expression. -/
inductive Expr
  | ident (name : String)
  | this
  | string (value : Option String)
  | number (text : String)
  | template (head : Option String) (exprs : List Expr)
  | member (object : Expr) (property : String)
  | call (callee : Expr) (args : List Argument) (typeArgs : List TypeNode)
  | classExpr (name : Option String) (parts : List Node)
  | paren (inner : Expr)
  | object (entries : List Entry)
  | array (elems : List Argument)
  | assign (isPlain : Bool) (target : List Node) (value : Expr)
  | form (kind : Form) (parts : List Node)

/-- An argument of a call or an element of an array. -/
inductive Argument
  | mk (spread : Bool) (value : Expr)

/-- An entry of an object literal. -/
inductive Entry
  | shorthand (name : String)
  | defaulted (name : String) (value : Expr)
  | pair (key : List Node) (value : Expr)
  | spread (value : Expr)
  | method (parts : List Node)

/-- A type parameter. -/
inductive TypeParam
  | mk (name : String) (bound default : Option TypeNode)

/-- A name behind `extends` or `implements`. -/
inductive Heritage
  | mk (base : Expr) (args : List TypeNode)

/-- An interface declaration. `bodyStart` is where its brace opens. -/
inductive Interface
  | mk (name : String) (params : List TypeParam) (parents : List Heritage)
      (bodyStart : Nat) (members : List Member)

/-- A type alias declaration. -/
inductive Alias
  | mk (name : String) (params : List TypeParam) (type : TypeNode)

/-- A statement. -/
inductive Stmt
  | interface (d : Interface)
  | typeAlias (d : Alias)
  | form (parts : List Node)

/-- A part of a form. -/
inductive Node
  | expr (e : Expr)
  | type (t : TypeNode)
  | member (m : Member)
  | stmt (s : Stmt)

end

/-! ## Fields -/

namespace TypeNode

/-- Where the type stands. -/
def span : TypeNode → Span
  | keyword span _ | text span _ | truth span _ | reference span _ _ | object span _
  | array span _ | tuple span _ | union span _ | intersection span _ | paren span _
  | operator span _ _ | optional span _ | rest span _ | indexed span _ _ | other span _ => span

end TypeNode

namespace TupleElem

/-- The label that is printed, if there is one. -/
def label : TupleElem → Option String
  | mk label _ => label

/-- The type of the element. -/
def type : TupleElem → TypeNode
  | mk _ type => type

end TupleElem

namespace Property

/-- Where the signature stands, up to and with its terminator. -/
def span : Property → Span
  | mk span _ _ _ _ => span

/-- The key, as an expression. -/
def key : Property → Expr
  | mk _ key _ _ _ => key

/-- Whether the key is written in brackets. -/
def computed : Property → Bool
  | mk _ _ computed _ _ => computed

/-- Whether the property may be absent. -/
def optional : Property → Bool
  | mk _ _ _ optional _ => optional

/-- The type, if one is written. -/
def type : Property → Option TypeNode
  | mk _ _ _ _ type => type

end Property

/-- Where the member stands. -/
def Member.span : Member → Span
  | property p => p.span
  | other span _ => span

namespace TypeParam

/-- The name of the parameter. -/
def name : TypeParam → String
  | mk name _ _ => name

/-- The bound behind `extends`. -/
def bound : TypeParam → Option TypeNode
  | mk _ bound _ => bound

/-- The type that stands in for a missing argument. -/
def default : TypeParam → Option TypeNode
  | mk _ _ default => default

end TypeParam

namespace Heritage

/-- The expression that names the parent. -/
def base : Heritage → Expr
  | mk base _ => base

/-- The type arguments of the parent. -/
def args : Heritage → List TypeNode
  | mk _ args => args

end Heritage

namespace Interface

/-- The name of the interface. -/
def name : Interface → String
  | mk name _ _ _ _ => name

/-- Its type parameters. -/
def params : Interface → List TypeParam
  | mk _ params _ _ _ => params

/-- The parents behind `extends`. -/
def parents : Interface → List Heritage
  | mk _ _ parents _ _ => parents

/-- Where the body opens. -/
def bodyStart : Interface → Nat
  | mk _ _ _ bodyStart _ => bodyStart

/-- The members of the body. -/
def members : Interface → List Member
  | mk _ _ _ _ members => members

end Interface

namespace Alias

/-- The name of the alias. -/
def name : Alias → String
  | mk name _ _ => name

/-- Its type parameters. -/
def params : Alias → List TypeParam
  | mk _ params _ => params

/-- The type that it names. -/
def type : Alias → TypeNode
  | mk _ _ type => type

end Alias

/-! ## Modules -/

/-- A name brought in by an import: `imported` as `local`, the default export,
or all exports under one name. -/
inductive ImportSpecifier
  | named (imported : Option String) (localName : String)
  | default (localName : String)
  | namespace (localName : String)
  deriving DecidableEq, Repr

/-- A name in an export list; `none` for a name without text. -/
inductive ExportSpecifier
  | named (inner : Option String) (exported : Option String)
  | namespace
  deriving DecidableEq, Repr

/-- An item of a module. The source of an import or export is `none` when its
string has no text; an export without a source has no outer `some`. -/
inductive Item
  | stmt (s : Stmt)
  | exportStmt (s : Stmt)
  | exportDefaultInterface (d : Interface)
  | imports (source : Option String) (specifiers : List ImportSpecifier) (parts : List Node)
  | exports (source : Option (Option String)) (specifiers : List ExportSpecifier)
      (parts : List Node)
  | exportAll (source : Option String) (parts : List Node)
  | other (parts : List Node)

end ElementManifest.TypeScript
