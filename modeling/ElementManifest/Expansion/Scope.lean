import ElementManifest.Program.Lookup

/-!
# Scopes and open symbols

A type parameter is bound to its argument together with the place where the
argument is written: its file and the scope around it. So an argument keeps its
meaning wherever the parameter is used.
-/

namespace ElementManifest.Expansion

open ElementManifest.TypeScript

/-- The type parameters that are bound, the newest first. Each has the file of its
argument and the scope around it. -/
inductive Scope
  | empty
  | bind (name : String) (file : Nat) (type : TypeNode) (around : Scope) (rest : Scope)

/-- Type arguments together with the place where they are written. -/
structure Arguments where
  file : Nat
  scope : Scope
  types : List TypeNode

/-- No arguments. -/
def Arguments.none : Arguments := ⟨rootFile, .empty, []⟩

/-- Bind parameters of a declaration in `file` to arguments, from left to right.
A parameter without an argument takes its default, which may use the
parameters before it; without a default it stays unbound. -/
def bindParams (file : Nat) (scope : Scope) : List TypeParam → Arguments → Scope
  | [], _ => scope
  | param :: params, ⟨argFile, around, arg :: args⟩ =>
    bindParams file (.bind param.name argFile arg around scope) params ⟨argFile, around, args⟩
  | param :: params, ⟨argFile, around, []⟩ =>
    let scope := match param.default with
      | some type => .bind param.name file type scope scope
      | none => scope
    bindParams file scope params ⟨argFile, around, []⟩

/-! ## Open symbols -/

/-- How many symbols may be open inside each other. -/
def maxDepth : Nat := 12

/-- The symbols that are being expanded, each one once, and not too many. -/
structure OpenSymbols where
  keys : List (Nat × String)
  nodup : keys.Nodup
  bounded : keys.length ≤ maxDepth

namespace OpenSymbols

/-- No symbol is open. -/
def none : OpenSymbols := ⟨[], .nil, Nat.zero_le _⟩

/-- Open a symbol; nothing if it is open already, or if too many are. -/
def enter? (s : OpenSymbols) (symbol : Symbol) : Option OpenSymbols :=
  if h : (symbol.file, symbol.name) ∉ s.keys ∧ s.keys.length < maxDepth then
    some ⟨(symbol.file, symbol.name) :: s.keys, List.nodup_cons.mpr ⟨h.1, s.nodup⟩, h.2⟩
  else .none

end OpenSymbols

end ElementManifest.Expansion
