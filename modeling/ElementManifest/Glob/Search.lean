import ElementManifest.Files.Walk
import ElementManifest.Glob.Match

/-!
# Searching with patterns

A path pattern is split at its slashes, and each part is a pattern for one name.
A part that is a plain name is followed without a look at its neighbours. The
paths that are found do not start with `./`.
-/

namespace ElementManifest.Glob

open ElementManifest.Text

/-- The path that what is in a directory is named behind. -/
def namingBase (path : Path) : Path :=
  if path.components = [.here] then .empty else path

/-- Whether a pattern may stand for `.` and `..`. -/
def startsWithDot (p : Pattern) : Bool :=
  p.tokens.head? = some (.literal '.')

section

variable (fs : FileSystem) (onlyDirectories : Bool)

/-- The path that a plain name leads to, if there is something. -/
def followName (path : Path) (name : String) : Option Path :=
  let next := (namingBase path).join ⟨name⟩
  let found := if name = "." || name = ".." then fs.isDirectory path else fs.pathExists next
  if found then some next else none

/-- What is in a directory that a pattern stands for. Its own names count for
patterns that start with a dot. -/
def matchesIn (p : Pattern) (path : Path) : List Path :=
  match fs.find? path with
  | some (.directory es) =>
    let base := namingBase path
    let special := if startsWithDot p then [".", ".."] else []
    ((es.map Prod.fst).filter p.isMatch).map (fun name => base.join ⟨name⟩)
      ++ (special.filter p.isMatch).map fun name => path.join ⟨name⟩
  | _ => []

/-- Everything below a directory. -/
def allBelow (path : Path) : List (Path × FileTree) :=
  ((fs.find? path).map (FileTree.descendants (namingBase path))).getD []

/-- The paths below `path` that patterns stand for, one pattern for each part. -/
def searchFrom : List Pattern → Path → List Path
  | [], path => if onlyDirectories && !fs.isDirectory path then [] else [path]
  | p :: ps, path =>
    match p.literal? with
    | some name => ((followName fs path name).map fun next => searchFrom ps next).getD []
    | none =>
      if p.isRecursive then
        match ps with
        | [] => ((allBelow fs path).filter fun e => e.2.isDirectory).map Prod.fst
        | q :: qs =>
          if q.isRecursive then searchFrom (q :: qs) path
          else
            ((allBelow fs path).filter fun e => (e.1.fileName?).any q.isMatch).flatMap fun e =>
              searchFrom qs e.1
      else (matchesIn fs p path).flatMap fun next => searchFrom ps next

end

/-- The parts of a path pattern. A slash at the end does not start one more. -/
def partsOf (text : List Char) : List (List Char) :=
  let parts := splitOn (· = '/') text
  if parts.getLast? = some [] then parts.dropLast else parts

/-- The paths that a path pattern stands for. -/
def search (fs : FileSystem) (text : String) : Except PatternError (List Path) := do
  let _ ← Pattern.parse text
  let chars := text.toList
  let start : Path × List (List Char) :=
    match chars with
    | ['/'] => (⟨"/"⟩, [[]])
    | '/' :: s => (⟨"/"⟩, partsOf s)
    | s => (⟨"."⟩, partsOf s)
  let patterns ← start.2.mapM fun part => Pattern.parse (String.ofList part)
  let onlyDirectories := chars.getLast? = some '/'
  return if patterns.isEmpty then [] else searchFrom fs onlyDirectories patterns start.1

end ElementManifest.Glob
