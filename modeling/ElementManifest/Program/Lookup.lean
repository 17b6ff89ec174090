import ElementManifest.Program.Load

/-!
# Looking up names

A name is found among the declarations of a file, or by following its links to
other files. Only so many links are followed, so that a circle ends.
-/

namespace ElementManifest

/-- A name with its declarations and the file that they are in. -/
structure Symbol where
  file : Nat
  name : String
  decls : List TypeDecl

/-- The symbol of a group of declarations. -/
def DeclGroup.symbol (g : DeclGroup) (file : Nat) : Symbol :=
  ⟨file, g.name, g.decls⟩

/-- A dotted name at its first dot. -/
def splitDot? (name : String) : Option (String × String) :=
  let chars := name.toList
  let first := chars.takeWhile (· ≠ '.')
  match chars.drop first.length with
  | [] => none
  | _ :: rest => some (String.ofList first, String.ofList rest)

namespace Program

/-- How many steps a search takes at most. -/
def maxSteps : Nat := 17

/-- The file of a module. -/
def moduleFile? (p : Program) (module : Path) : Option Nat :=
  (p.modules.find? (·.1.same module)).bind Prod.snd

mutual

/-- The symbol that a name means inside a file, in at most `n` steps. -/
def lookupInside (p : Program) : Nat → Nat → String → Option Symbol
  | 0, _, _ => none
  | n + 1, file, name => do
    let current ← p.files[file]?
    match splitDot? name with
    | some (ns, rest) =>
      let target ← p.moduleFile? (← current.namespaces.lookup ns)
      lookupExport p n target rest
    | none =>
      match current.group? name with
      | some g => return g.symbol file
      | none =>
        let link ← current.imports.lookup name
        lookupExport p n (← p.moduleFile? link.module) link.name

/-- The symbol that a file exports under a name, in at most `n` steps. A
declaration counts even if it is not exported. -/
def lookupExport (p : Program) : Nat → Nat → String → Option Symbol
  | 0, _, _ => none
  | n + 1, file, name => do
    let current ← p.files[file]?
    match current.localExports.lookup name with
    | some localName => lookupInside p n file localName
    | none =>
      match current.group? name with
      | some g => return g.symbol file
      | none =>
        match current.reexports.lookup name with
        | some link => lookupExport p n (← p.moduleFile? link.module) link.name
        | none =>
          current.starExports.findSome? fun module => do
            lookupExport p n (← p.moduleFile? module) name

end

/-- The symbol that a name means inside a file. -/
def lookup (p : Program) (file : Nat) (name : String) : Option Symbol :=
  p.lookupInside maxSteps file name

/-- The symbol that a name means inside a file or among its exports. -/
def findType (p : Program) (file : Nat) (name : String) : Option Symbol :=
  (p.lookup file name).orElse fun _ => p.lookupExport maxSteps file name

end Program

end ElementManifest
