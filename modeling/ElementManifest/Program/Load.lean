import ElementManifest.Files.System
import ElementManifest.Program.File

/-!
# Loading programs

A program is a root file with all files that it links to, directly or through
others. Files are loaded breadth first, up to a limit. A linked file that is
missing or malformed is left out.
-/

namespace ElementManifest

open ElementManifest.TypeScript

/-- A root file, the first of the list, with the files it links to. Each module
that was looked for has its file, by its position, or none. -/
structure Program where
  files : List SourceFile
  modules : List (Path × Option Nat)

/-- The position of the root file. -/
def rootFile : Nat := 0

namespace Program

/-- The number of files at which a program is full. -/
def maxFiles : Nat := 64

/-- The text without an ending that it has. -/
def dropEnding (ending text : String) : String :=
  String.ofList (text.toList.take (text.length - ending.length))

/-- The paths at which the file of a module may be, in the order of the search. -/
def fileCandidates (module : Path) : List Path :=
  let text := module.text
  if text.endsWith ".js" then
    let stem := dropEnding ".js" text
    [⟨stem ++ ".d.ts"⟩, ⟨stem ++ ".ts"⟩]
  else if text.endsWith ".ts" then [module]
  else [⟨text ++ ".d.ts"⟩, ⟨text ++ ".ts"⟩, module.join ⟨"index.d.ts"⟩, module.join ⟨"index.ts"⟩]

/-- Load the file of a module. The first candidate that is a file decides. -/
def loadModule (fs : FileSystem) (module : Path) : Option SourceFile := do
  let path ← (fileCandidates module).find? fs.isFile
  let text ← (fs.read path).toOption
  return .ofSource path (← Source.read path text)

/-- The position of the file with a path. -/
def position? (p : Program) (path : Path) : Option Nat :=
  p.files.findIdx? (·.path.same path)

/-- The program with the file that a module turned out to have. Two modules may
have the same file. -/
def add (p : Program) (module : Path) : Option SourceFile → Program
  | none => { p with modules := p.modules ++ [(module, none)] }
  | some file =>
    match p.position? file.path with
    | some n => { p with modules := p.modules ++ [(module, some n)] }
    | none =>
      { files := p.files ++ [file]
        modules := p.modules ++ [(module, some p.files.length)] }

/-- The modules that are still to be looked for because of a new file. -/
def newModules (before after : Program) : List Path :=
  (after.files.drop before.files.length).flatMap SourceFile.linkedModules

/-- Whether a module has been looked for. -/
def knows (p : Program) (module : Path) : Bool :=
  p.modules.any (·.1.same module)

theorem length_files_add (p : Program) (module : Path) (file : Option SourceFile) :
    (p.add module file).files.length = p.files.length
      ∨ (p.add module file).files.length = p.files.length + 1 := by
  unfold add
  split
  · exact .inl rfl
  · split
    · exact .inl rfl
    · exact .inr (by simp)

theorem newModules_eq_nil {before after : Program}
    (h : after.files.length ≤ before.files.length) : newModules before after = [] := by
  simp [newModules, List.drop_eq_nil_of_le h]

/-- Load the modules in a queue, and those they link to. -/
def loadAll (fs : FileSystem) (p : Program) : List Path → Program
  | [] => p
  | module :: queue =>
    if maxFiles ≤ p.files.length then p
    else if p.knows module then loadAll fs p queue
    else
      let next := p.add module (loadModule fs module)
      loadAll fs next (queue ++ newModules p next)
termination_by queue => (maxFiles - p.files.length, queue.length)
decreasing_by
  · exact Prod.Lex.right _ (Nat.lt_succ_self _)
  next full _ =>
    rcases length_files_add p module (loadModule fs module) with h | h
    · rw [newModules_eq_nil (Nat.le_of_eq h), h, List.append_nil]
      exact Prod.Lex.right _ (Nat.lt_succ_self _)
    · exact Prod.Lex.left _ _ (by rw [h]; omega)

/-- The program of a root file alone. -/
def ofRoot (root : SourceFile) : Program where
  files := [root]
  modules := []

/-- Load the program of a root file with the given text; `none` when the text
is malformed. -/
def load (fs : FileSystem) (path : Path) (text : String) : Option Program := do
  let root := SourceFile.ofSource path (← Source.read path text)
  return loadAll fs (ofRoot root) root.linkedModules

end Program

end ElementManifest
