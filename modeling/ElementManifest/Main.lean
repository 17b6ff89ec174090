import ElementManifest.CommandLine.Run

/-!
# The program

A command works on a copy of the directories it may look at, and says what it
prints and writes. Links are not followed.
-/

open ElementManifest ElementManifest.CommandLine

namespace ElementManifest.Main

/-- Read a directory with everything in it. A file that cannot be read has no text. -/
partial def readTree (dir : String) : IO FileTree := do
  let mut entries : List (String × FileTree) := []
  for entry in ← (← IO.FS.realPath dir).readDir do
    let path := entry.path.toString
    match (← entry.path.symlinkMetadata).type with
    | .dir => entries := (entry.fileName, ← readTree path) :: entries
    | .file =>
      let bytes ← try some <$> IO.FS.readBinFile path catch _ => pure none
      entries := (entry.fileName, .file (bytes.bind String.fromUTF8?)) :: entries
    | _ => pure ()
  return .directory entries

/-- The place of a real path. -/
def placeOf (path : String) : Place :=
  (Path.mk path).components.filterMap fun
    | .name text => some text
    | _ => none

/-- Add what a path really leads to, if it leads to anything. -/
def addTree (tree : FileTree) (path : String) : IO FileTree := do
  try
    let real := (← IO.FS.realPath path)
    if ← real.isDir then return tree.put (placeOf real.toString) (← readTree real.toString)
    let bytes ← IO.FS.readBinFile real
    return tree.put (placeOf real.toString) (.file (String.fromUTF8? bytes))
  catch _ => return tree

/-- The paths that a command may look at besides the working directory. -/
def pathsOf : Command → List Path
  | .analyze common outFile _ _ => common.root :: outFile.toList.map Path.parent
  | .inspect common typesFile _ => [common.root, typesFile.parent]
  | _ => []

/-- The copy of the file system for a command. -/
def fileSystemFor (command : Command) : IO FileSystem := do
  let here := (← IO.currentDir).toString
  let paths := (pathsOf command).filter (·.text ≠ "")
  let configs := paths.flatMap fun p => p.ancestors.map (·.join ⟨Config.fileName⟩)
  let mut root := FileTree.empty
  for path in configs ++ paths ++ [⟨here⟩] do
    root ← addTree root path.text
  return ⟨root, placeOf here⟩

/-- Write a file, and make the directories it is in. -/
def write (w : Written) : IO Unit := do
  if w.path.parent.text ≠ "" then IO.FS.createDirAll w.path.parent.text
  IO.FS.writeFile w.path.text w.text

/-- Print what there is instead of a command. -/
def showUsage : Usage → IO Unit
  | .displayHelp => IO.print helpText
  | .displayVersion => IO.println "tagmeta 0.3.0"
  | usage => IO.eprintln ("error: " ++ usage.name)

end ElementManifest.Main

open ElementManifest.Main in
/-- Run the program with arguments. -/
def main (args : List String) : IO UInt32 := do
  match CommandLine.parse args with
  | .error usage =>
    showUsage usage
    return usage.code.toUInt32
  | .ok command =>
    let result := run (← fileSystemFor command) command
    try
      for w in result.written.toList do write w
    catch e =>
      -- what was foreseen is told below
      unless result.status matches .error _ _ do
        IO.eprintln ("Error: " ++ toString e)
        return 2
    IO.print result.stdout
    IO.eprint result.stderr
    if let .error message cause := result.status then
      IO.eprintln ("Error: " ++ ": ".intercalate (message :: cause.toList))
    return result.status.code
