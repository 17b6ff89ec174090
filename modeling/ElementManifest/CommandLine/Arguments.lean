import ElementManifest.Path

/-!
# Command line arguments

The arguments are read from left to right. An option that takes a value waits for
it until the next argument; it is settled when another one is read, and errors
show in that order. Behind `--` no argument is an option.
-/

namespace ElementManifest.CommandLine

/-- Why there are no arguments to work with. -/
inductive Usage
  | displayHelp
  | displayVersion
  | invalidSubcommand
  | missingArgument
  | conflict
  | unknownArgument
  | invalidValue
  | tooManyValues
  deriving DecidableEq, Repr

/-- The name of a usage. -/
def Usage.name : Usage → String
  | displayHelp => "DisplayHelp"
  | displayVersion => "DisplayVersion"
  | invalidSubcommand => "InvalidSubcommand"
  | missingArgument => "MissingRequiredArgument"
  | conflict => "ArgumentConflict"
  | unknownArgument => "UnknownArgument"
  | invalidValue => "InvalidValue"
  | tooManyValues => "TooManyValues"

/-- The exit code of a usage. -/
def Usage.code : Usage → Nat
  | displayHelp => 0
  | displayVersion => 0
  | _ => 2

/-! ## Options -/

/-- The kinds of options and arguments. -/
inductive Kind
  /-- It is given or not. -/
  | flag
  /-- It has a text. -/
  | text
  /-- It has a path, which is not empty. -/
  | path
  /-- It ends the reading. -/
  | stop (usage : Usage)
  deriving DecidableEq, Repr

/-- Whether an option of a kind takes a value. -/
def Kind.takesValue : Kind → Bool
  | text => true
  | path => true
  | _ => false

/-- An option, or an argument that is told by its position. -/
structure Slot where
  name : String
  short : Option Char
  kind : Kind
  deriving DecidableEq, Repr

/-- What a command accepts: its options, and an argument by position. -/
structure Form where
  options : List Slot
  positional : Option Slot

/-- The option for help. -/
def helpOption : Slot := ⟨"help", some 'h', .stop .displayHelp⟩

/-- The option for the version. -/
def versionOption : Slot := ⟨"version", some 'V', .stop .displayVersion⟩

/-- The options that commands share. -/
def commonOptions : List Slot :=
  [⟨"source-root", none, .path⟩, ⟨"no-semantic", none, .flag⟩, ⟨"verbose", some 'v', .flag⟩,
   helpOption]

/-- What the analysis of a project accepts. -/
def analyzeForm : Form where
  options := [⟨"out-file", none, .path⟩, ⟨"stdout", none, .flag⟩, ⟨"strict", none, .flag⟩]
    ++ commonOptions
  positional := none

/-- What the inspection of a file accepts. -/
def inspectForm : Form where
  options := ⟨"type", none, .text⟩ :: commonOptions
  positional := some ⟨"types-file", none, .path⟩

/-- What the creation of a configuration file accepts. -/
def initForm : Form := ⟨[helpOption], none⟩

/-- What the program accepts before a command. -/
def programForm : Form := ⟨[helpOption, versionOption], none⟩

/-! ## Reading -/

/-- What has been read so far. -/
structure Reading where
  /-- The values that are settled, under the names of their slots. -/
  given : List (String × String) := []
  /-- The slot that was met last, and its value if it has one. -/
  waiting : Option (Slot × Option String) := none
  /-- Whether the argument by position has been met. -/
  filled : Bool := false
  /-- Whether `--` has been met. -/
  trailing : Bool := false

namespace Reading

/-- Settle the value of a slot. It may not be settled yet. -/
def give (r : Reading) (slot : Slot) (value : String) : Except Usage Reading :=
  if (r.given.lookup slot.name).isSome then .error .conflict
  else if slot.kind = .path && value = "" then .error .invalidValue
  else .ok { r with given := r.given ++ [(slot.name, value)] }

/-- Settle what is waiting. -/
def settle (r : Reading) : Except Usage Reading :=
  match r.waiting with
  | none => .ok r
  | some (_, none) => .error .invalidValue
  | some (slot, some value) => { r with waiting := none }.give slot value

/-- Set a flag, or stop. -/
def setFlag (r : Reading) (slot : Slot) : Except Usage Reading := do
  let r ← r.settle
  match slot.kind with
  | .stop usage => .error usage
  | _ => r.give slot "true"

/-- An option, with the value behind its `=` if there is one. -/
def option (r : Reading) (slot : Slot) (value : Option String) : Except Usage Reading :=
  match slot.kind.takesValue, value with
  | true, some value => do (← r.settle).give slot value
  | true, none => do return { ← r.settle with waiting := some (slot, none) }
  | false, some _ => .error .tooManyValues
  | false, none => r.setFlag slot

/-- The options behind one hyphen, each with a single letter. -/
def shortOptions (form : Form) (r : Reading) : List Char → Except Usage Reading
  | [] => .ok r
  | c :: cs =>
    match form.options.find? (·.short = some c) with
    | none => .error .unknownArgument
    | some slot => do shortOptions form (← r.setFlag slot) cs

/-- An option behind two hyphens. -/
def longOption (form : Form) (r : Reading) (text : List Char) : Except Usage Reading :=
  let name := text.takeWhile (· ≠ '=')
  let value := match text.drop name.length with
    | [] => none
    | _ :: value => some (String.ofList value)
  match form.options.find? (·.name == String.ofList name) with
  | none => .error .unknownArgument
  | some slot => r.option slot value

/-- An argument that is no option and no value of one. -/
def positional (form : Form) (r : Reading) (arg : String) : Except Usage Reading :=
  match form.positional with
  | some slot =>
    if r.filled then .error .unknownArgument
    else do return { ← r.settle with waiting := some (slot, some arg), filled := true }
  | none => .error .unknownArgument

/-- Read an argument. -/
def argument (form : Form) (r : Reading) (arg : String) : Except Usage Reading :=
  if r.trailing then r.positional form arg
  else
    match arg.toList with
    | ['-', '-'] => .ok { r with trailing := true }
    | '-' :: '-' :: text => r.longOption form text
    | '-' :: c :: cs => r.shortOptions form (c :: cs)
    | _ =>
      match r.waiting with
      | some (slot, none) => .ok { r with waiting := some (slot, some arg) }
      | _ => r.positional form arg

/-- The value of a slot. -/
def value? (r : Reading) (name : String) : Option String :=
  r.given.lookup name

/-- Whether a flag is set. -/
def has (r : Reading) (name : String) : Bool :=
  (r.value? name).isSome

/-- The path in a slot. -/
def path? (r : Reading) (name : String) : Option Path :=
  (r.value? name).map Path.mk

end Reading

/-- Read the arguments of a command. -/
def readArguments (form : Form) (args : List String) : Except Usage Reading := do
  (← args.foldlM (Reading.argument form) {}).settle

/-! ## Commands -/

/-- The options that commands share. -/
structure CommonOptions where
  sourceRoot : Option Path
  noSemantic : Bool
  verbose : Bool
  deriving DecidableEq, Repr

/-- What the program is to do. -/
inductive Command
  | analyze (common : CommonOptions) (outFile : Option Path) (stdout strict : Bool)
  | inspect (common : CommonOptions) (typesFile : Path) (typeName : Option String)
  | init
  | nothing
  deriving DecidableEq, Repr

/-- The common options among arguments. -/
def Reading.common (r : Reading) : CommonOptions :=
  ⟨r.path? "source-root", r.has "no-semantic", r.has "verbose"⟩

/-- The command for the analysis of a project. -/
def analyzeCommand (args : List String) : Except Usage Command := do
  let r ← readArguments analyzeForm args
  if r.has "out-file" && r.has "stdout" then .error .conflict
  else return .analyze r.common (r.path? "out-file") (r.has "stdout") (r.has "strict")

/-- The command for the inspection of a file. -/
def inspectCommand (args : List String) : Except Usage Command := do
  let r ← readArguments inspectForm args
  match r.path? "types-file" with
  | some types => return .inspect r.common types (r.value? "type")
  | none => .error .missingArgument

/-- The command for the creation of a configuration file. -/
def initCommand (args : List String) : Except Usage Command := do
  let _ ← readArguments initForm args
  return .init

/-- The names of commands. -/
def commandNames : List String := ["analyze", "inspect", "init", "help"]

/-- What asking for help with a command leads to. -/
def helpFor : List String → Usage
  | [] => .displayHelp
  | [name] => if commandNames.contains name then .displayHelp else .invalidSubcommand
  | _ => .invalidSubcommand

/-- Read a command behind the options of the program. -/
def readCommand (trailing : Bool) : List String → Except Usage Command
  | [] => .ok .nothing
  | arg :: args =>
    if trailing then
      .error (if commandNames.contains arg then .unknownArgument else .invalidSubcommand)
    else if arg = "analyze" then analyzeCommand args
    else if arg = "inspect" then inspectCommand args
    else if arg = "init" then initCommand args
    else if arg = "help" then .error (helpFor args)
    else if arg = "--" then readCommand true args
    else
      match arg.toList with
      | '-' :: _ :: _ => do
        let _ ← Reading.argument programForm {} arg
        readCommand false args
      | _ => .error .invalidSubcommand

/-- Read the arguments of the program. -/
def parse (args : List String) : Except Usage Command :=
  readCommand false args

end ElementManifest.CommandLine
