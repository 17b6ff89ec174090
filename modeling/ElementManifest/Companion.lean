import ElementManifest.Files.System
import ElementManifest.Naming

/-!
# Companion files

A module describes the configuration of its element in a file beside it,
`date-picker.types.d.ts` or `date-picker.types.ts` for `date-picker.ts`.
-/

namespace ElementManifest.Companion

/-- The name of a module without its last extension. -/
def baseName? (module : Path) : Option String :=
  module.fileStem?.filter (· ≠ "")

/-- What the names of companion files end with, the preferred one first. -/
def endings : List String := [".types.d.ts", ".types.ts"]

/-- The paths at which the companion of a module may be. -/
def candidates (module : Path) : List Path :=
  match baseName? module with
  | some base => endings.map fun ending => module.parent.join ⟨base ++ ending⟩
  | none => []

/-- The companion of a module. -/
def locate? (fs : FileSystem) (module : Path) : Option Path :=
  (candidates module).find? fs.isFile

/-! ## Names of configuration types -/

/-- The names that the configuration type of an element may have, from the name
of its class and the name of its module; the most specific first. -/
def typeNames (className base : Option String) : List String :=
  let byClass := (className.map (· ++ Naming.configSuffix)).toList
  let byModule := (base.map Naming.configTypeName).toList
  byClass ++ byModule.filter fun name => !byClass.contains name

/-- The name of the module that a types file belongs to, by the name of the file. -/
def moduleBase? (types : Path) : Option String := do
  let name ← types.fileName?
  let ending ← [".types.d.ts", ".types.ts", ".d.ts", ".ts"].find? (name.endsWith ·)
  let base := String.ofList (name.toList.take (name.length - ending.length))
  if base = "" then none else some base

/-- The names that the configuration type in a types file may have. -/
def namesInFile (types : Path) : List String :=
  ((moduleBase? types).map Naming.configTypeName).toList

end ElementManifest.Companion
