import ElementManifest.Resolved

/-!
# The cache of contexts

The contexts that were used last are kept, the least recently used one first.
A context is used again only for the text that it was built from. Every context
that is built has a serial number, so that two of them can be told apart.
-/

namespace ElementManifest

/-- A context with the number of the build that made it. -/
structure Cached where
  serial : Nat
  context : Context

/-- A bounded cache. -/
structure Cache where
  capacity : Nat
  /-- The contexts, the least recently used one first. -/
  entries : List Cached
  /-- How many contexts have been stored so far. -/
  stored : Nat

namespace Cache

/-- How many contexts a cache keeps unless told otherwise. -/
def defaultCapacity : Nat := 16

/-- An empty cache that keeps at least one context. -/
def ofCapacity (capacity : Nat) : Cache :=
  ⟨max capacity 1, [], 0⟩

/-- Whether an entry belongs to a path. -/
def isFor (path : Path) (e : Cached) : Bool :=
  e.context.path.same path

/-- Whether a context is kept for a path. -/
def contains (c : Cache) (path : Path) : Bool :=
  c.entries.any (isFor path)

/-- The cache without the context of a path. -/
def without (c : Cache) (path : Path) : Cache :=
  { c with entries := c.entries.filter fun e => !isFor path e }

/-- Look for the context of a path and a text. One that is found becomes the most
recently used one. One that was built from another text is dropped. -/
def lookup (c : Cache) (path : Path) (text : String) : Option Cached × Cache :=
  match c.entries.find? (isFor path) with
  | none => (none, c)
  | some e =>
    let rest := c.without path
    if e.context.text = text then (some e, { rest with entries := rest.entries ++ [e] })
    else (none, rest)

/-- Store a new context as the most recently used one. The least recently used
ones make room for it. -/
def store (c : Cache) (context : Context) : Cached × Cache :=
  let e : Cached := ⟨c.stored, context⟩
  let entries := (c.without context.path).entries ++ [e]
  (e, { c with entries := entries.drop (entries.length - c.capacity), stored := c.stored + 1 })

/-- The context of a file with the given text, from the cache or newly built. -/
def request (fs : FileSystem) (c : Cache) (path : Path) (text : String) :
    Except ExtractError Cached × Cache :=
  match c.lookup path text with
  | (some e, c) => (.ok e, c)
  | (none, c) =>
    match Context.build fs path text with
    | .ok context =>
      let (e, c) := c.store context
      (.ok e, c)
    | .error e => (.error e, c)

end Cache

end ElementManifest
