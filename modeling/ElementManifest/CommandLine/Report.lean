import ElementManifest.Project

/-!
# Texts for the terminal

Every text ends with a line break.
-/

namespace ElementManifest.CommandLine

/-- The mark of a success. -/
def successMark : String := "\u2713"

/-- The mark of a failure. -/
def failureMark : String := "\u2718"

/-- A text of its own line. -/
def line (text : String) : String :=
  text ++ "\n"

/-- A number of things. -/
def counted (n : Nat) (word : String) : String :=
  toString n ++ " " ++ word ++ if n = 1 then "" else "s"

/-- What is told about the outcome of a registration. -/
def outcomeDetail : Outcome → String
  | .merged _ _ provenance added => provenance.text ++ ", " ++ counted added "attribute" ++ " added"
  | .noCompanion _ => "no companion types file"
  | .unreadable _ companion => "cannot read " ++ companion.text

/-- The line about a registration. -/
def outcomeLine (r : RegistrationReport) : String :=
  line ("  <" ++ r.outcome.tag ++ "> " ++ r.module ++ " " ++ outcomeDetail r.outcome)

/-- The line about a module that could not be analyzed. -/
def failureLine (f : ModuleFailure) : String :=
  line ("warning: " ++ f.module ++ ": " ++ f.message)

/-- The lines about every registration and every failure. -/
def detailLines (report : ProjectReport) : String :=
  String.join (report.outcomes.map outcomeLine ++ report.failures.map failureLine)

/-- The line with the numbers of a report. -/
def summaryLine (report : ProjectReport) : String :=
  line (successMark ++ " Analyzed " ++ counted report.scanned "source file" ++ " - "
    ++ counted report.manifest.declarationCount "declaration" ++ ", "
    ++ counted report.manifest.attributeCount "attribute")

/-- The line about the file with the manifest, if there is one. -/
def writtenLine : Option Path → String
  | some path => line ("  Wrote " ++ path.text)
  | none => ""

/-- The text about a project. -/
def analysisText (report : ProjectReport) (outFile : Option Path) (verbose : Bool) : String :=
  (if verbose then detailLines report else "") ++ summaryLine report ++ writtenLine outFile

/-- The warning about modules that could not be analyzed, unless they are listed. -/
def warningText (report : ProjectReport) (verbose : Bool) : String :=
  let n := report.failures.length
  if n > 0 && !verbose then
    line ("warning: " ++ toString n ++ " file(s) could not be parsed (use -v for details)")
  else ""

/-- The lines about an attribute. -/
def attributeLines (a : Attribute) : String :=
  line ("  " ++ a.name ++ (if a.optional then "?" else "") ++ ": " ++ a.type ++ "  ["
    ++ a.serializedAs.text ++ "]") ++ line ("      " ++ a.description)

/-- The line that tells that there are no attributes. -/
def noAttributesLine (candidates : List String) : String :=
  let tried := if candidates.isEmpty then "" else " (tried " ++ ", ".intercalate candidates ++ ")"
  line (failureMark ++ " No attributes found" ++ tried)

/-- The text about a types file. -/
def inspectionText (i : Analysis.Inspection) : String :=
  line (i.typesFile.text ++ " (" ++ i.provenance.text ++ ")")
    ++ if i.attributes.isEmpty then noAttributesLine i.candidates
      else String.join (i.attributes.map attributeLines)

/-- The line about a new configuration file. -/
def createdLine : String :=
  line (successMark ++ " Created " ++ Config.fileName)

/-- The line about a configuration file that is there already. -/
def existsLine : String :=
  line ("Error: " ++ Config.fileName ++ " already exists")

/-- What the program does, in one sentence. -/
def aboutText : String :=
  "Extracts custom-element attributes from companion TypeScript config types into a component manifest"

/-- The text about the commands. -/
def helpText : String :=
  line aboutText ++ "\n" ++ line "Usage: tagmeta [COMMAND]" ++ "\n" ++ line "Commands:"
    ++ line "  analyze  Extract element attributes from companion types and write the manifest"
    ++ line "  inspect  Print the attributes extracted from a single companion types file"
    ++ line "  init     Initialize a new .tagmetarc.json configuration file"
    ++ line "  help     Print this message or the help of the given subcommand(s)"
    ++ "\n" ++ line "Options:" ++ line "  -h, --help     Print help"
    ++ line "  -V, --version  Print version"

end ElementManifest.CommandLine
