import ElementManifest.CommandLine.Arguments
import ElementManifest.CommandLine.Report
import ElementManifest.Manifest.Codec

/-!
# Running commands

A command tells what it prints and how it ends, and it writes one file at most.
-/

namespace ElementManifest.CommandLine

/-- How a command ends. -/
inductive Status
  | success
  | failure
  /-- It is given up, with a message and the reason behind it. -/
  | error (message : String) (cause : Option String)
  deriving DecidableEq, Repr

/-- The exit code of a status. -/
def Status.code : Status → UInt32
  | success => 0
  | failure => 1
  | error _ _ => 2

/-- A file that is written. -/
structure Written where
  path : Path
  text : String
  deriving DecidableEq, Repr

/-- What a command does. -/
structure Result where
  status : Status
  stdout : String := ""
  stderr : String := ""
  /-- The file that it writes, or fails to write. -/
  written : Option Written := none
  deriving DecidableEq, Repr

/-- A command that is given up. -/
def Result.error (message : String) (cause : Option String) : Result :=
  { status := .error message cause }

/-! ## The project of a command -/

/-- The root of the project. -/
def CommonOptions.root (common : CommonOptions) : Path :=
  common.sourceRoot.getD ⟨"."⟩

/-- The settings of the project, as far as the options do not change them. -/
def CommonOptions.config (common : CommonOptions) (fs : FileSystem) :
    Except Config.LoadError Config := do
  let config := (← Config.load fs common.root).config
  return { config with semantic := config.semantic && !common.noSemantic }

/-- How modules are analyzed with the given settings. -/
def analysisOptions (config : Config) : AnalysisOptions :=
  ⟨config.semantic, config.registerFunctions⟩

/-- An empty cache. -/
def newCache : Cache := .ofCapacity Cache.defaultCapacity

/-- The text of a manifest file. -/
def manifestText (m : PackageManifest) : String :=
  line m.toJson.pretty

/-! ## Writing -/

/-- The file system with a file written, and the directories it is in. If that is not possible
there is a message, and what has been made by then stays. -/
def writeManifest (fs : FileSystem) (w : Written) : FileSystem × Option String :=
  match fs.makeWay w.path.parent with
  | (made, false) => (made, some ("Failed to create directory: " ++ w.path.parent.text))
  | (made, true) =>
    match made.write w.path w.text with
    | none => (made, some ("Failed to write manifest: " ++ w.path.text))
    | some fs => (fs, none)

/-- The file system after a command. -/
def Result.apply (r : Result) (fs : FileSystem) : FileSystem :=
  match r.written with
  | some w => (writeManifest fs w).1
  | none => fs

/-! ## Commands -/

/-- Where the manifest of a project is written: where the options tell, else where the settings do. -/
def manifestPath (common : CommonOptions) (config : Config) (outFile : Option Path) : Path :=
  outFile.getD (common.root.join ⟨config.outFile⟩)

/-- Analyze a project, and print or write its manifest. -/
def runAnalyze (fs : FileSystem) (common : CommonOptions) (outFile : Option Path)
    (stdout strict : Bool) : Result :=
  match common.config fs with
  | .error e => .error e.message e.cause?
  | .ok config =>
    let report := (Project.analyze fs (analysisOptions config) newCache common.root config).1
    let manifest := manifestText report.manifest
    let status := if strict && !report.failures.isEmpty then Status.failure else .success
    let warning := warningText report common.verbose
    if stdout then
      { status, stdout := manifest, stderr := analysisText report none common.verbose ++ warning }
    else
      let path := manifestPath common config outFile
      let file := ⟨path, manifest⟩
      match (writeManifest fs file).2 with
      | some message => { Result.error message none with written := some file }
      | none =>
        { status, stdout := analysisText report (some path) common.verbose, stderr := warning
          written := some file }

/-- Print the attributes in a types file. -/
def runInspect (fs : FileSystem) (common : CommonOptions) (typesFile : Path)
    (typeName : Option String) : Result :=
  match common.config fs with
  | .error e => .error e.message e.cause?
  | .ok config =>
    match (Analysis.inspect fs (analysisOptions config) newCache typesFile typeName).1 with
    | .error e => .error e.message e.cause?
    | .ok i =>
      { status := if i.attributes.isEmpty then .failure else .success
        stdout := inspectionText i }

/-- Write a configuration file with all defaults, unless there is one. -/
def runInit (fs : FileSystem) : Result :=
  let path : Path := ⟨Config.fileName⟩
  if fs.pathExists path then { status := .failure, stderr := existsLine }
  else { status := .success, stdout := createdLine, written := some ⟨path, Config.defaultText⟩ }

/-- Run a command. -/
def run (fs : FileSystem) : Command → Result
  | .analyze common outFile stdout strict => runAnalyze fs common outFile stdout strict
  | .inspect common typesFile typeName => runInspect fs common typesFile typeName
  | .init => runInit fs
  | .nothing => { status := .success, stdout := helpText }

end ElementManifest.CommandLine
