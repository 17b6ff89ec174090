import ElementManifest.Table

/-!
# File trees

A directory with everything in it, or one file. Names are looked up one by one
on the way down.
-/

namespace ElementManifest

/-- A file or a directory. A file whose bytes are no text in UTF-8 has none. -/
inductive FileTree
  | file (text : Option String)
  | directory (entries : List (String × FileTree))

namespace FileTree

/-- A directory without entries. -/
def empty : FileTree := directory []

/-- Whether this is a file. -/
def isFile : FileTree → Bool
  | file _ => true
  | directory _ => false

/-- Whether this is a directory. -/
def isDirectory : FileTree → Bool
  | file _ => false
  | directory _ => true

/-- What a directory holds. -/
def entries : FileTree → List (String × FileTree)
  | file _ => []
  | directory es => es

/-- What a directory holds under a name. -/
def child? (t : FileTree) (name : String) : Option FileTree :=
  t.entries.lookup name

/-- What is found by following names. -/
def at? (t : FileTree) : List String → Option FileTree
  | [] => some t
  | name :: names => (t.child? name).bind (·.at? names)

/-- The tree with another in the place the names lead to. Directories that are
missing on the way are made; a file on the way is left as it is. -/
def put : FileTree → List String → FileTree → FileTree
  | _, [], new => new
  | file text, _ :: _, _ => file text
  | directory es, name :: names, new =>
    directory (Table.set name (put ((es.lookup name).getD empty) names new) es)

/-- The tree without what the names lead to. -/
def remove : FileTree → List String → FileTree
  | t, [] => t
  | file text, _ :: _ => file text
  | directory es, [name] => directory (es.filter (·.1 != name))
  | directory es, name :: names =>
    match es.lookup name with
    | some t => directory (Table.set name (remove t names) es)
    | none => directory es

end FileTree

end ElementManifest
