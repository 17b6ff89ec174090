import ElementManifest.Text.Split

/-!
# Paths

A path is kept as it is written. What it means is given by its components: empty
parts do not count, nor does a `.` behind the first part. Two spellings with
the same components are the same path, and paths are ordered by components.
-/

namespace ElementManifest

open ElementManifest.Text

/-- A path, as written. -/
structure Path where
  text : String
  deriving DecidableEq, Repr, Inhabited

/-- A component of a path. -/
inductive Component
  | root
  | here
  | up
  | name (text : String)
  deriving DecidableEq, Repr

namespace Component

/-- How a component is written. -/
def text : Component → String
  | root => "/"
  | here => "."
  | up => ".."
  | name text => text

/-- The rank of the kind of a component. -/
def rank : Component → Nat
  | root => 0
  | here => 1
  | up => 2
  | name _ => 3

/-- Components in order: by kind, names by their characters. -/
def compare (a b : Component) : Ordering :=
  match a, b with
  | name s, name t => Ord.compare s t
  | a, b => Ord.compare a.rank b.rank

end Component

namespace Path

/-- The empty path. -/
def empty : Path := ⟨""⟩

/-- The parts of a path between its slashes. -/
def parts (p : Path) : List (List Char) :=
  splitOn (· = '/') p.text.toList

/-- Whether a path starts at the root. -/
def isAbsolute (p : Path) : Bool :=
  p.text.toList.head? = some '/'

/-- A part behind the first as a component, if it counts. -/
def componentOf (part : List Char) : Option Component :=
  if part = [] ∨ part = ['.'] then none
  else if part = ['.', '.'] then some .up
  else some (.name (String.ofList part))

/-- The components of a path. -/
def components (p : Path) : List Component :=
  match p.parts with
  | [] => []
  | first :: rest =>
    let start := if p.isAbsolute then [Component.root]
      else if first = ['.'] then [Component.here] else (componentOf first).toList
    start ++ rest.filterMap componentOf

/-- Whether two spellings mean the same path. -/
def same (p q : Path) : Bool :=
  p.components = q.components

/-- Lists of components in order. -/
def compareComponents : List Component → List Component → Ordering
  | [], [] => .eq
  | [], _ :: _ => .lt
  | _ :: _, [] => .gt
  | a :: as, b :: bs => (a.compare b).then (compareComponents as bs)

/-- Paths in order. -/
def compare (p q : Path) : Ordering :=
  compareComponents p.components q.components

/-- A path behind another. An absolute one stands for itself. -/
def join (p q : Path) : Path :=
  if q.isAbsolute ∨ p.text = "" then q
  else if p.text.toList.getLast? = some '/' then ⟨p.text ++ q.text⟩
  else ⟨p.text ++ "/" ++ q.text⟩

/-- The path of components, with slashes between them. -/
def ofComponents : List Component → Path
  | .root :: cs => ⟨"/" ++ "/".intercalate (cs.map Component.text)⟩
  | cs => ⟨"/".intercalate (cs.map Component.text)⟩

/-! ## The last component -/

/-- Whether a part counts; `before` are the parts before it, read backwards. -/
def counts (part : List Char) (before : List (List Char)) : Bool :=
  part ≠ [] && (part ≠ ['.'] || before.isEmpty)

/-- The parts of a path read backwards, from the last one that counts. -/
def dropUncounted : List (List Char) → List (List Char)
  | [] => []
  | part :: before => if counts part before then part :: before else dropUncounted before

/-- The path without its last component, spelled as before; `none` when there is
no component to leave out. -/
def parent? (p : Path) : Option Path :=
  match dropUncounted p.parts.reverse with
  | [] => none
  | _ :: before =>
    match dropUncounted before with
    | [] => some ⟨if p.isAbsolute then "/" else ""⟩
    | kept => some ⟨String.ofList (joinWith ['/'] kept.reverse)⟩

/-- The path without its last component, empty when there is none. -/
def parent (p : Path) : Path :=
  p.parent?.getD empty

/-- A path with the `n` paths that follow when the last component is left out
again and again. -/
def ancestorsUpTo : Nat → Path → List Path
  | 0, p => [p]
  | n + 1, p => p :: (p.parent?.map (ancestorsUpTo n)).getD []

/-- A path and all paths that are left when the last component is left out again
and again. Each one has a shorter text. -/
def ancestors (p : Path) : List Path :=
  ancestorsUpTo p.text.length p

/-- The last component, when it is a name. -/
def fileName? (p : Path) : Option String :=
  match p.components.getLast? with
  | some (.name text) => some text
  | _ => none

/-- A file name cut at its last dot. A dot at the start does not cut. -/
def cutName (name : List Char) : List Char × Option (List Char) :=
  match name.reverse.dropWhile (· ≠ '.') with
  | '.' :: stem =>
    if stem.isEmpty then (name, none)
    else (stem.reverse, some (name.drop (stem.length + 1)))
  | _ => (name, none)

/-- The file name without its extension. -/
def fileStem? (p : Path) : Option String :=
  p.fileName?.map fun name => String.ofList (cutName name.toList).1

/-- The extension of the file name. -/
def extension? (p : Path) : Option String :=
  p.fileName?.bind fun name => (cutName name.toList).2.map String.ofList

/-! ## Prefixes -/

/-- The components of `p` behind those of `base`, if `p` starts with them. -/
def behind? (p base : Path) : Option (List Component) :=
  if base.components.isPrefixOf p.components then
    some (p.components.drop base.components.length)
  else none

/-- Whether the components of `p` start with those of `base`. -/
def startsWith (p base : Path) : Bool :=
  base.components.isPrefixOf p.components

/-! ## Normal form -/

/-- The components so far, read backwards, after one more: a step up takes back
the last one, whatever it is. -/
def normalStep (taken : List Component) : Component → List Component
  | .here => taken
  | .up =>
    match taken with
    | [] => [.up]
    | .root :: rest => .up :: .root :: rest
    | _ :: rest => rest
  | .root => [.root]
  | .name text => .name text :: taken

/-- The path without steps to itself or up, as far as they can be taken back. -/
def normalize (p : Path) : Path :=
  ofComponents (p.components.foldl normalStep []).reverse

end Path

end ElementManifest
