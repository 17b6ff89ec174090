import ElementManifest.Files.System
import ElementManifest.Glob.Pattern
import ElementManifest.Json.Decode
import ElementManifest.Json.Reader
import ElementManifest.Json.Writer
import ElementManifest.Registration
import ElementManifest.Text.Blank
import ElementManifest.Text.Quoted

/-!
# Configuration

A project may have a configuration file in its root directory or above it. A
setting that it leaves out has its default.
-/

namespace ElementManifest

open ElementManifest.Glob ElementManifest.Text

/-- The settings of a project. -/
structure Config where
  /-- The directories with modules, or patterns for them. -/
  includes : List String := ["src"]
  /-- The paths that are left out, or patterns for them. -/
  ignores : List String := ["**/node_modules/**", "**/dist/**"]
  ignoreTestFiles : Bool := true
  registerFunctions : List String := defaultRegisterFunctions
  /-- Whether names in types are resolved. -/
  semantic : Bool := true
  /-- Where the manifest is written. -/
  outFile : String := "custom-elements.json"
  deriving DecidableEq, Repr

/-- Whether a text is a pattern. Other texts are paths. -/
def isGlob (text : String) : Bool :=
  text.toList.any fun c => c = '*' || c = '?'

namespace Config

/-- The name of configuration files. -/
def fileName : String := ".tagmetarc.json"

/-! ## JSON -/

/-- Settings as JSON. -/
def toJson (c : Config) : Json :=
  .object
    [("includes", .ofStrings c.includes),
     ("ignores", .ofStrings c.ignores),
     ("ignoreTestFiles", .bool c.ignoreTestFiles),
     ("registerFunctions", .ofStrings c.registerFunctions),
     ("semantic", .bool c.semantic),
     ("outFile", .string c.outFile)]

/-- The names of the settings, in order. -/
def fieldNames : List String :=
  ["includes", "ignores", "ignoreTestFiles", "registerFunctions", "semantic", "outFile"]

/-- Settings of JSON. -/
def ofJson? (v : Json) : Option Config := do
  let base : Config := {}
  match ← v.record? fieldNames with
  | [includes, ignores, ignoreTestFiles, registerFunctions, semantic, outFile] =>
    return {
        includes := ← Json.withDefault base.includes Json.strings? includes
        ignores := ← Json.withDefault base.ignores Json.strings? ignores
        ignoreTestFiles := ← Json.withDefault base.ignoreTestFiles Json.bool? ignoreTestFiles
        registerFunctions :=
          ← Json.withDefault base.registerFunctions Json.strings? registerFunctions
        semantic := ← Json.withDefault base.semantic Json.bool? semantic
        outFile := ← Json.withDefault base.outFile Json.string? outFile }
  | _ => none

/-- Settings in the text of a configuration file. -/
def parse? (text : String) : Option Config :=
  (Json.parse text).bind ofJson?

/-- The text of a configuration file with all defaults. -/
def defaultText : String :=
  (toJson {}).pretty

/-! ## Validity -/

/-- What can be wrong with settings. -/
inductive Fault
  | badIgnore (pattern : String) (error : PatternError)
  | badInclude (pattern : String) (error : PatternError)
  | emptyFunction
  deriving DecidableEq, Repr

/-- The text of a fault. -/
def Fault.message : Fault → String
  | badIgnore pattern _ => "Invalid glob pattern in 'ignores': \"" ++ pattern ++ "\""
  | badInclude pattern _ => "Invalid glob pattern in 'includes': \"" ++ pattern ++ "\""
  | emptyFunction => "'registerFunctions' must not contain empty names"

/-- The reason behind a fault, if there is more to tell. -/
def Fault.cause? : Fault → Option String
  | badIgnore _ error => some error.message
  | badInclude _ error => some error.message
  | emptyFunction => none

/-- The first fault among patterns. -/
def patternFault? (fault : String → PatternError → Fault) (patterns : List String) :
    Option Fault :=
  patterns.findSome? fun p =>
    match Pattern.parse p with
    | .ok _ => none
    | .error e => some (fault p e)

/-- The first fault of settings. All ignores are read as patterns, even those
that are taken as paths. -/
def fault? (c : Config) : Option Fault :=
  (patternFault? .badIgnore c.ignores).orElse fun _ =>
    (patternFault? .badInclude (c.includes.filter isGlob)).orElse fun _ =>
      if c.registerFunctions.any fun f => (trim f.toList).isEmpty then some .emptyFunction
      else none

/-! ## Files -/

/-- The first of directories that has a configuration file. The search ends where a
repository starts. -/
def findIn (fs : FileSystem) : List Path → Option Path
  | [] => none
  | dir :: dirs =>
    if fs.pathExists (dir.join ⟨fileName⟩) then some (dir.join ⟨fileName⟩)
    else if fs.pathExists (dir.join ⟨".git"⟩) then none
    else findIn fs dirs

/-- The configuration file for a directory: its own or that of a directory above. -/
def find? (fs : FileSystem) (start : Path) : Option Path :=
  findIn fs start.ancestors

/-- Why a configuration file could not be used. -/
inductive LoadError
  | unreadable (path : Path) (error : ReadError)
  | malformed (path : Path)
  | invalid (fault : Fault)
  deriving DecidableEq, Repr

/-- The text of an error. -/
def LoadError.message : LoadError → String
  | unreadable path _ => "Failed to read config file: " ++ quoted path.text
  | malformed path => "Failed to parse config file: " ++ quoted path.text
  | invalid fault => fault.message

/-- The reason behind an error, if there is more to tell. -/
def LoadError.cause? : LoadError → Option String
  | unreadable _ error => some error.message
  | malformed _ => none
  | invalid fault => fault.cause?

/-- Settings with the file that they come from, if there is one. -/
structure Loaded where
  config : Config
  path : Option Path

/-- Read a configuration file. -/
def read (fs : FileSystem) (path : Path) : Except LoadError Config :=
  match fs.read path with
  | .error e => .error (.unreadable path e)
  | .ok text =>
    match parse? text with
    | none => .error (.malformed path)
    | some c =>
      match c.fault? with
      | some fault => .error (.invalid fault)
      | none => .ok c

/-- The settings for a directory. -/
def load (fs : FileSystem) (start : Path) : Except LoadError Loaded :=
  match find? fs start with
  | none => .ok ⟨{}, none⟩
  | some path => (read fs path).map fun config => ⟨config, some path⟩

end Config

end ElementManifest
