import ElementManifest.Analysis
import ElementManifest.Scan

/-!
# Analysis of projects

All modules of a project are analyzed in the order of their paths, with one cache.
A module that cannot be read or is malformed is reported and left out.
-/

namespace ElementManifest

/-- A module that could not be analyzed, and why. -/
structure ModuleFailure where
  module : String
  message : String
  deriving DecidableEq, Repr

/-- What has become of a registration in a module. -/
structure RegistrationReport where
  module : String
  outcome : Outcome
  deriving DecidableEq, Repr

/-- The result of the analysis of a project. -/
structure ProjectReport where
  manifest : PackageManifest
  outcomes : List RegistrationReport
  failures : List ModuleFailure
  scanned : Nat
  skipped : Nat
  deriving DecidableEq, Repr

namespace Project

/-- The path of a module in its project, with slashes between the names. -/
def modulePath (root file : Path) : String :=
  "/".intercalate (((file.behind? root).getD file.components).map Component.text)

/-- The document and the outcomes of a module, or why there are none. -/
inductive ModuleResult
  | analyzed (doc : ModuleDocument) (outcomes : List Outcome)
  | failed (module message : String)
  deriving DecidableEq, Repr

/-- Analyze a file of a project. -/
def analyzeFile (fs : FileSystem) (options : AnalysisOptions) (root : Path) (cache : Cache)
    (file : Path) : ModuleResult × Cache :=
  let module := modulePath root file
  match fs.read file with
  | .error e => (.failed module e.message, cache)
  | .ok text =>
    match Analysis.analyzeModule fs options file text ⟨.ofPath module, cache⟩ with
    | none => (.failed module (malformedText file), cache)
    | some (outcomes, st) => (.analyzed st.doc outcomes, st.cache)

/-- Analyze files of a project, one after the other. -/
def analyzeFiles (fs : FileSystem) (options : AnalysisOptions) (root : Path) (cache : Cache) :
    List Path → List ModuleResult × Cache
  | [] => ([], cache)
  | file :: files =>
    let (result, cache) := analyzeFile fs options root cache file
    let (results, cache) := analyzeFiles fs options root cache files
    (result :: results, cache)

namespace ModuleResult

/-- The document, if there is one. -/
def doc? : ModuleResult → Option ModuleDocument
  | analyzed doc _ => some doc
  | failed _ _ => none

/-- The outcomes of the registrations of a module. -/
def reports : ModuleResult → List RegistrationReport
  | analyzed doc outcomes => outcomes.map (⟨doc.path, ·⟩)
  | failed _ _ => []

/-- The failure, if there is one. -/
def failure? : ModuleResult → Option ModuleFailure
  | analyzed _ _ => none
  | failed module message => some ⟨module, message⟩

end ModuleResult

/-- The report of the results of a scan. -/
def report (found : ScanResult) (results : List ModuleResult) : ProjectReport where
  manifest := .ofModules (results.filterMap ModuleResult.doc?)
  outcomes := results.flatMap ModuleResult.reports
  failures := results.filterMap ModuleResult.failure?
  scanned := found.files.length
  skipped := found.skipped

/-- Analyze a project. -/
def analyze (fs : FileSystem) (options : AnalysisOptions) (cache : Cache) (root : Path)
    (config : Config) : ProjectReport × Cache :=
  let found := scan fs root config.includes config.ignores config.ignoreTestFiles
  let (results, cache) := analyzeFiles fs options root cache found.files
  (report found results, cache)

end Project

end ElementManifest
