import ElementManifest.Files.Tree
import ElementManifest.Path

/-!
# The file system

A tree of files and the place of the working directory in it. A path is followed
part by part: each part needs a directory to start from, so that a slash at the
end is only right behind a directory, and `..` is taken where it stands.
-/

namespace ElementManifest

/-- A place in a tree, as the names on the way down. -/
abbrev Place := List String

/-- A file system as a program sees it. -/
structure FileSystem where
  root : FileTree
  workPlace : Place

/-- Why a file could not be read. -/
inductive ReadError
  | notFound
  | isDirectory
  | notText
  deriving DecidableEq, Repr

/-- The text of an error. -/
def ReadError.message : ReadError → String
  | notFound => "No such file or directory (os error 2)"
  | isDirectory => "Is a directory (os error 21)"
  | notText => "stream did not contain valid UTF-8"

namespace FileSystem

/-! ## Following paths -/

/-- Whether there is a directory at a place. -/
def isDirectoryAt (fs : FileSystem) (place : Place) : Bool :=
  (fs.root.at? place).any FileTree.isDirectory

/-- The place that one part of a path leads to. -/
def placeBehind (place : Place) (part : List Char) : Place :=
  if part = [] ∨ part = ['.'] then place
  else if part = ['.', '.'] then place.dropLast
  else place ++ [String.ofList part]

/-- Follow one part of a path. -/
def step (fs : FileSystem) (place : Place) (part : List Char) : Option Place :=
  if fs.isDirectoryAt place then some (placeBehind place part) else none

/-- Where a path starts. -/
def start (fs : FileSystem) (p : Path) : Place :=
  if p.isAbsolute then [] else fs.workPlace

/-- The place that a path leads to. There may be nothing at it. -/
def place? (fs : FileSystem) (p : Path) : Option Place :=
  if p.text = "" then none else p.parts.foldlM fs.step (fs.start p)

/-- What a path leads to. -/
def find? (fs : FileSystem) (p : Path) : Option FileTree :=
  (fs.place? p).bind fs.root.at?

/-- Whether a path leads to anything. -/
def pathExists (fs : FileSystem) (p : Path) : Bool :=
  (fs.find? p).isSome

/-- Whether a path leads to a file. -/
def isFile (fs : FileSystem) (p : Path) : Bool :=
  (fs.find? p).any FileTree.isFile

/-- Whether a path leads to a directory. -/
def isDirectory (fs : FileSystem) (p : Path) : Bool :=
  (fs.find? p).any FileTree.isDirectory

/-- Read the text of a file. -/
def read (fs : FileSystem) (p : Path) : Except ReadError String :=
  match fs.find? p with
  | some (.file (some text)) => .ok text
  | some (.file none) => .error .notText
  | some (.directory _) => .error .isDirectory
  | none => .error .notFound

/-- The text of a file, empty when it cannot be read. -/
def textAt (fs : FileSystem) (p : Path) : String :=
  (fs.read p).toOption.getD ""

/-! ## Changes -/

/-- Make a directory at a place where nothing is; `none` when a file is there, or when the
directory that it is to be made in is missing. -/
def makeDirectoryAt (fs : FileSystem) (place : Place) : Option FileSystem :=
  match fs.root.at? place with
  | some (.directory _) => some fs
  | some (.file _) => none
  | none =>
    if fs.isDirectoryAt place.dropLast then some { fs with root := fs.root.put place .empty }
    else none

/-- Follow parts of a path, and make the directories that they lead to. The first one that
cannot be made is the last one that is tried; the answer tells whether there is none. -/
def makeAlong (fs : FileSystem) (place : Place) : List (List Char) → FileSystem × Bool
  | [] => (fs, true)
  | part :: parts =>
    match fs.makeDirectoryAt (placeBehind place part) with
    | some made => makeAlong made (placeBehind place part) parts
    | none => (fs, false)

/-- Make a directory and all those on the way to it, as far as they can be made, and tell
whether they all could. -/
def makeWay (fs : FileSystem) (p : Path) : FileSystem × Bool :=
  if p.text = "" then (fs, true) else fs.makeAlong (fs.start p) p.parts

/-- Make a directory and all those on the way to it; `none` if that is not possible. -/
def makeDirectories (fs : FileSystem) (p : Path) : Option FileSystem :=
  match fs.makeWay p with
  | (made, true) => some made
  | (_, false) => none

/-- Write a file into a directory that is there. -/
def write (fs : FileSystem) (p : Path) (text : String) : Option FileSystem := do
  let place ← fs.place? p
  if fs.isDirectoryAt place || !fs.isDirectoryAt place.dropLast then none
  else some { fs with root := fs.root.put place (.file (some text)) }

end FileSystem

end ElementManifest
