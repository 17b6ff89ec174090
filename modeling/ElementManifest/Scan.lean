import ElementManifest.Config
import ElementManifest.Glob.Search
import ElementManifest.Text.Search

/-!
# Scanning for modules

The directories that are included are walked through. Paths that are ignored do
not count, but what is below them is still looked at on its own.
-/

namespace ElementManifest

open ElementManifest.Glob ElementManifest.Text

/-- The files that are modules, in the order of their paths, and how many paths
could not be walked through. -/
structure ScanResult where
  files : List Path
  skipped : Nat
  deriving DecidableEq, Repr

namespace Scan

/-- The patterns for test files. -/
def testFilePatterns : List String :=
  ["**/*.test.tsx", "**/*.test.ts", "**/*.test.jsx", "**/*.test.js",
   "**/*.spec.tsx", "**/*.spec.ts", "**/*.spec.jsx", "**/*.spec.js", "**/__tests__/**"]

/-- The patterns that can be read. -/
def patternsOf (texts : List String) : List Pattern :=
  texts.filterMap fun text => (Pattern.parse text).toOption

/-! ## Which paths count -/

/-- The paths that are ignored: everything below some paths, and what some
patterns stand for. -/
structure Ignored where
  paths : List Path
  patterns : List Pattern

/-- What is ignored in a base directory. -/
def ignoredIn (base : Path) (ignores : List String) (testFiles : Bool) : Ignored where
  paths := (ignores.filter fun p => !isGlob p).map fun p => base.join ⟨p⟩
  patterns := patternsOf (ignores.filter isGlob) ++
    if testFiles then patternsOf testFilePatterns else []

/-- Whether a path is ignored. Patterns are matched with the path as written. -/
def Ignored.contains (i : Ignored) (path : Path) : Bool :=
  i.paths.any path.startsWith || i.patterns.any (·.isMatch path.text)

/-- The extensions of modules. -/
def moduleExtensions : List String :=
  ["tsx", "ts", "jsx", "js", "mjs"]

/-- Whether a path has the name of a module. Files that only describe types have
other names. -/
def isModuleFile (path : Path) : Bool :=
  match path.fileName? with
  | none => false
  | some name =>
    !name.endsWith ".d.ts" && !hasInfix ".types.".toList name.toList
      && path.extension?.any moduleExtensions.contains

/-! ## Where modules are looked for -/

/-- The directories that an include names. A pattern stands for directories only. -/
def rootsOf (fs : FileSystem) (base : Path) (included : String) : List Path :=
  let path := base.join ⟨included⟩
  if isGlob included then
    match search fs path.text with
    | .ok found => found.filter fs.isDirectory
    | .error _ => []
  else if fs.pathExists path then [path]
  else []

/-- The directories that are walked through. -/
def roots (fs : FileSystem) (base : Path) (includes : List String) : List Path :=
  if includes.isEmpty then [base] else includes.flatMap (rootsOf fs base)

/-! ## Scanning -/

/-- Put a path into a list in order, unless the same path is there. -/
def insertPath (path : Path) : List Path → List Path
  | [] => [path]
  | p :: ps =>
    match path.compare p with
    | .lt => path :: p :: ps
    | .eq => p :: ps
    | .gt => p :: insertPath path ps

/-- The modules that are found by walking through a directory. -/
def modulesBelow (fs : FileSystem) (ignored : Ignored) (root : Path) : List Path :=
  (((fs.walk? root).getD []).filter fun (path, t) =>
    t.isFile && isModuleFile path && !ignored.contains path).map Prod.fst

end Scan

/-- Scan a base directory for modules. -/
def scan (fs : FileSystem) (base : Path) (includes ignores : List String) (ignoreTestFiles : Bool) :
    ScanResult :=
  let ignored := Scan.ignoredIn base ignores ignoreTestFiles
  let roots := Scan.roots fs base includes
  { files := (roots.flatMap (Scan.modulesBelow fs ignored)).foldl (fun ps p => Scan.insertPath p ps) []
    skipped := (roots.filter fun root => (fs.walk? root).isNone).length }

end ElementManifest
