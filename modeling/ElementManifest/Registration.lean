import ElementManifest.TypeDecl

/-!
# Registrations

A custom element is registered by a call such as `customElements.define("x-tag", XTag)`.
Only the form of the call counts; nothing is evaluated. The calls of a source
are visited outside in, and in order.
-/

namespace ElementManifest

open ElementManifest.TypeScript

/-- The registration of an element: its tag and the name of its class, if the
class has one. -/
structure Registration where
  tag : String
  className : Option String
  deriving DecidableEq, Repr

/-- The functions that register elements unless told otherwise. -/
def defaultRegisterFunctions : List String :=
  ["customElements.define", "window.customElements.define", "defineElement"]

/-- A call, as it is written. -/
structure Call where
  callee : Expr
  args : List Argument

/-! ## The calls of a source -/

mutual

/-- The calls in a type. -/
def TypeScript.TypeNode.calls : TypeNode → List Call
  | .keyword _ _ | .text _ _ | .truth _ _ => []
  | .reference _ _ args => TypeNode.listCalls args
  | .object _ members => Member.listCalls members
  | .array _ elem => elem.calls
  | .tuple _ elems => TupleElem.listCalls elems
  | .union _ branches | .intersection _ branches => TypeNode.listCalls branches
  | .paren _ inner | .operator _ _ inner | .optional _ inner | .rest _ inner => inner.calls
  | .indexed _ base index => base.calls ++ index.calls
  | .other _ parts => Node.listCalls parts

/-- The calls in types. -/
def TypeScript.TypeNode.listCalls : List TypeNode → List Call
  | [] => []
  | t :: ts => t.calls ++ TypeNode.listCalls ts

/-- The calls in a type that may be missing. -/
def TypeScript.TypeNode.optionCalls : Option TypeNode → List Call
  | none => []
  | some t => t.calls

/-- The calls in the elements of a tuple. -/
def TypeScript.TupleElem.listCalls : List TupleElem → List Call
  | [] => []
  | .mk _ type :: es => type.calls ++ TupleElem.listCalls es

/-- The calls in members. -/
def TypeScript.Member.listCalls : List Member → List Call
  | [] => []
  | m :: ms => m.calls ++ Member.listCalls ms

/-- The calls in a member. -/
def TypeScript.Member.calls : Member → List Call
  | .property (.mk _ key _ _ type) => key.calls ++ TypeNode.optionCalls type
  | .other _ parts => Node.listCalls parts

/-- The calls in an expression. -/
def TypeScript.Expr.calls : Expr → List Call
  | .ident _ | .this | .string _ | .number _ => []
  | .template _ exprs => Expr.listCalls exprs
  | .member inner _ => inner.calls
  | .call callee args typeArgs =>
    ⟨callee, args⟩ :: (callee.calls ++ Argument.listCalls args ++ TypeNode.listCalls typeArgs)
  | .classExpr _ parts => Node.listCalls parts
  | .paren inner => inner.calls
  | .object entries => Entry.listCalls entries
  | .array elems => Argument.listCalls elems
  | .assign _ target value => Node.listCalls target ++ value.calls
  | .form _ parts => Node.listCalls parts

/-- The calls in expressions. -/
def TypeScript.Expr.listCalls : List Expr → List Call
  | [] => []
  | e :: es => e.calls ++ Expr.listCalls es

/-- The calls in arguments. -/
def TypeScript.Argument.listCalls : List Argument → List Call
  | [] => []
  | .mk _ value :: as => value.calls ++ Argument.listCalls as

/-- The calls in the entries of an object. -/
def TypeScript.Entry.listCalls : List Entry → List Call
  | [] => []
  | e :: es => e.calls ++ Entry.listCalls es

/-- The calls in an entry of an object. -/
def TypeScript.Entry.calls : Entry → List Call
  | .shorthand _ => []
  | .defaulted _ value | .spread value => value.calls
  | .pair key value => Node.listCalls key ++ value.calls
  | .method parts => Node.listCalls parts

/-- The calls in type parameters. -/
def TypeScript.TypeParam.listCalls : List TypeParam → List Call
  | [] => []
  | .mk _ bound default :: ps =>
    TypeNode.optionCalls bound ++ TypeNode.optionCalls default ++ TypeParam.listCalls ps

/-- The calls in parents. -/
def TypeScript.Heritage.listCalls : List Heritage → List Call
  | [] => []
  | .mk base args :: hs => base.calls ++ TypeNode.listCalls args ++ Heritage.listCalls hs

/-- The calls in an interface. -/
def TypeScript.Interface.calls : Interface → List Call
  | .mk _ params parents _ members =>
    TypeParam.listCalls params ++ Heritage.listCalls parents ++ Member.listCalls members

/-- The calls in an alias. -/
def TypeScript.Alias.calls : Alias → List Call
  | .mk _ params type => TypeParam.listCalls params ++ type.calls

/-- The calls in a statement. -/
def TypeScript.Stmt.calls : Stmt → List Call
  | .interface d => d.calls
  | .typeAlias d => d.calls
  | .form parts => Node.listCalls parts

/-- The calls in a part. -/
def TypeScript.Node.calls : Node → List Call
  | .expr e => e.calls
  | .type t => t.calls
  | .member m => m.calls
  | .stmt s => s.calls

/-- The calls in parts. -/
def TypeScript.Node.listCalls : List Node → List Call
  | [] => []
  | n :: ns => n.calls ++ Node.listCalls ns

end

/-- The calls of a source. -/
def TypeScript.Source.calls (s : Source) : List Call :=
  s.items.flatMap fun item => Node.listCalls item.parts

/-! ## The form of a registration -/

/-- The dotted text of a callee, through any parentheses. -/
def TypeScript.Expr.calleeText? : Expr → Option String
  | .ident name => some name
  | .member inner property => do return (← inner.calleeText?) ++ "." ++ property
  | .this => some "this"
  | .paren inner => inner.calleeText?
  | _ => none

/-- The tag that an argument tells: a string, or a template without expressions. -/
def tagOf? : Expr → Option String
  | .string value => value
  | .template head [] => head
  | _ => none

/-- The class that an argument names; the inner option is empty for a class
without a name. -/
def classOf? : Expr → Option (Option String)
  | .ident name => some (some name)
  | .classExpr name _ => some name
  | _ => none

/-- The registration that arguments tell. -/
def Registration.ofArgs? : List Argument → Option Registration
  | .mk false tag :: .mk false cls :: _ => do return ⟨← tagOf? tag, ← classOf? cls⟩
  | _ => none

/-- The registration that a call is, if it calls one of `functions`. -/
def Call.registration? (functions : List String) (c : Call) : Option Registration := do
  let callee ← c.callee.calleeText?
  if functions.contains callee then Registration.ofArgs? c.args else none

/-- The registrations of a source, in order. -/
def TypeScript.Source.registrations (functions : List String) (s : Source) : List Registration :=
  s.calls.filterMap (Call.registration? functions)

end ElementManifest
