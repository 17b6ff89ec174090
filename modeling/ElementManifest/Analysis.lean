import ElementManifest.AsWritten
import ElementManifest.Cache
import ElementManifest.Companion
import ElementManifest.Inference
import ElementManifest.Manifest.Registry

/-!
# Analysis of registrations

A registration declares an element, and the configuration type in the companion
file of its module tells the attributes. The ways to find that type are tried in
a fixed order until one finds properties:

1. each candidate name, with names resolved
2. the first exported configuration type, with names resolved
3. each candidate name, as written
4. the first exported configuration type, as written

The first two are left out when names are not to be resolved.
-/

namespace ElementManifest

/-- How modules are analyzed. -/
structure AnalysisOptions where
  /-- Whether names in types are resolved. -/
  semantic : Bool := true
  registerFunctions : List String := defaultRegisterFunctions
  deriving DecidableEq, Repr

/-- Which way has found the properties. -/
inductive Provenance
  | resolved (name : String)
  | asWritten (name : Option String)
  | nothing
  deriving DecidableEq, Repr

/-- How a provenance is shown. -/
def Provenance.text : Provenance → String
  | resolved name => "semantic (" ++ name ++ ")"
  | asWritten (some name) => "syntactic (" ++ name ++ ")"
  | asWritten none => "syntactic (first exported *" ++ Naming.configSuffix ++ ")"
  | nothing => "none"

/-- What has become of a registration. -/
inductive Outcome
  | merged (tag : String) (companion : Path) (provenance : Provenance) (added : Nat)
  | noCompanion (tag : String)
  | unreadable (tag : String) (companion : Path)
  deriving DecidableEq, Repr

/-- The tag of the registration. -/
def Outcome.tag : Outcome → String
  | merged tag _ _ _ => tag
  | noCompanion tag => tag
  | unreadable tag _ => tag

namespace Analysis

/-! ## Finding the properties -/

/-- A way that has found properties, and the properties. -/
abbrev Finding := Provenance × List Shape

/-- The properties of a candidate with names resolved. -/
def resolvedCandidate (c : Context) (name : String) : Option Finding :=
  match c.extract (some name) with
  | .found shapes => some (.resolved name, shapes)
  | _ => none

/-- What is found with names resolved. -/
def findResolved (c : Context) (candidates : List String) : Option Finding :=
  (candidates.findSome? (resolvedCandidate c)).orElse fun _ =>
    c.firstConfigType.map fun (name, shapes) => (.resolved name, shapes)

/-- The properties of a type as written. -/
def writtenCandidate (companion : Path) (text : String) (name : Option String) : Option Finding :=
  match AsWritten.extract companion text name with
  | .found shapes => some (.asWritten name, shapes)
  | _ => none

/-- What is found as written. -/
def findWritten (companion : Path) (text : String) (candidates : List String) : Option Finding :=
  (candidates.map some ++ [none]).findSome? (writtenCandidate companion text)

/-- What is found with names resolved, in a context from the cache. Nothing is
found without a context. -/
def findCached (fs : FileSystem) (cache : Cache) (companion : Path) (text : String)
    (candidates : List String) : Option Finding × Cache :=
  match cache.request fs companion text with
  | (.ok e, cache) => (findResolved e.context candidates, cache)
  | (.error _, cache) => (none, cache)

/-- The properties of the configuration type in a companion file. -/
def findProperties (fs : FileSystem) (options : AnalysisOptions) (cache : Cache)
    (companion : Path) (text : String) (candidates : List String) : Finding × Cache :=
  let (finding, cache) :=
    if options.semantic then findCached fs cache companion text candidates else (none, cache)
  ((finding.orElse fun _ => findWritten companion text candidates).getD (.nothing, []), cache)

/-! ## Registrations -/

/-- A module document and the cache, which change from registration to registration. -/
structure State where
  doc : ModuleDocument
  cache : Cache

/-- Analyze a registration of a module. -/
def analyzeRegistration (fs : FileSystem) (options : AnalysisOptions) (module : Path)
    (st : State) (r : Registration) : Outcome × State :=
  let doc := st.doc.register r
  match Companion.locate? fs module with
  | none => (.noCompanion r.tag, { st with doc })
  | some companion =>
    match fs.read companion with
    | .error _ => (.unreadable r.tag companion, { st with doc })
    | .ok text =>
      let candidates := Companion.typeNames r.className (Companion.baseName? module)
      let ((provenance, shapes), cache) :=
        findProperties fs options st.cache companion text candidates
      let (doc, added) := doc.merge r.className (some r.tag) (shapes.map Inference.attributeOf)
      (.merged r.tag companion provenance added, ⟨doc, cache⟩)

/-- Analyze the registrations of a module, one after the other. -/
def analyzeAll (fs : FileSystem) (options : AnalysisOptions) (module : Path) (st : State) :
    List Registration → List Outcome × State
  | [] => ([], st)
  | r :: rs =>
    let (outcome, st) := analyzeRegistration fs options module st r
    let (outcomes, st) := analyzeAll fs options module st rs
    (outcome :: outcomes, st)

/-- Analyze the text of a module; nothing when it is malformed. -/
def analyzeModule (fs : FileSystem) (options : AnalysisOptions) (module : Path) (text : String)
    (st : State) : Option (List Outcome × State) :=
  (TypeScript.Source.read module text).map fun source =>
    analyzeAll fs options module st (source.registrations options.registerFunctions)

/-! ## Single files -/

/-- The attributes in a types file. -/
structure Inspection where
  typesFile : Path
  candidates : List String
  provenance : Provenance
  attributes : List Attribute
  deriving DecidableEq, Repr

/-- Why a types file could not be inspected. -/
inductive InspectError
  | notFound (path : Path)
  | unreadable (path : Path) (error : ReadError)
  deriving DecidableEq, Repr

/-- The text of an error. -/
def InspectError.message : InspectError → String
  | notFound path => "Types file not found: " ++ path.text
  | unreadable path _ => "Failed to read " ++ path.text

/-- The reason behind an error, if there is more to tell. -/
def InspectError.cause? : InspectError → Option String
  | notFound _ => none
  | unreadable _ error => some error.message

/-- The names that are looked for in a types file. -/
def inspectedNames (types : Path) : Option String → List String
  | some name => [name]
  | none => Companion.namesInFile types

/-- Inspect a types file. -/
def inspect (fs : FileSystem) (options : AnalysisOptions) (cache : Cache) (types : Path)
    (name : Option String) : Except InspectError Inspection × Cache :=
  if !fs.isFile types then (.error (.notFound types), cache)
  else
    match fs.read types with
    | .error e => (.error (.unreadable types e), cache)
    | .ok text =>
      let candidates := inspectedNames types name
      let ((provenance, shapes), cache) :=
        findProperties fs options cache types text candidates
      (.ok ⟨types, candidates, provenance, shapes.map Inference.attributeOf⟩, cache)

end Analysis

end ElementManifest
