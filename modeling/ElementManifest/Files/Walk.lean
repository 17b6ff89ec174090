import ElementManifest.Files.System

/-!
# Walking through directories
-/

namespace ElementManifest

mutual

/-- Everything below a directory at a path, each thing before what it holds. -/
def FileTree.descendants (path : Path) : FileTree → List (Path × FileTree)
  | .file _ => []
  | .directory es => FileTree.entriesBelow path es

/-- The entries of a directory at a path and everything below them. -/
def FileTree.entriesBelow (path : Path) : List (String × FileTree) → List (Path × FileTree)
  | [] => []
  | (name, t) :: es =>
    let p := path.join ⟨name⟩
    (p, t) :: (t.descendants p ++ FileTree.entriesBelow path es)

end

/-- What a path leads to and everything below it, or nothing if there is nothing. -/
def FileSystem.walk? (fs : FileSystem) (path : Path) : Option (List (Path × FileTree)) :=
  (fs.find? path).map fun t => (path, t) :: t.descendants path

end ElementManifest
