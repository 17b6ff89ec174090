import ElementManifest.CommandLine.Run
import ElementManifest.Proofs.JsonTexts

/-!
# Documents and settings are read back

Each decoder undoes its encoder: the names of the fields and of the choices are the same on
both sides, and a field that is left out stands for what was there. Since none of the values has
a number in it, the written texts are read back as well (`Json.parse_pretty`).
-/

namespace ElementManifest

open Json

/-! ## Lists and choices -/

/-- A list is read back if its items are. -/
theorem mapM_map_of_decodes {α : Type} {e : α → Json} {d : Json → Option α}
    (h : ∀ a, d (e a) = some a) (as : List α) : (as.map e).mapM d = some as := by
  rw [List.mapM_map, show d ∘ e = fun a => pure (id a) from funext h, List.mapM_pure, List.map_id]
  rfl

theorem list?_of_decodes {α : Type} {e : α → Json} {d : Json → Option α}
    (h : ∀ a, d (e a) = some a) (as : List α) : list? d (.array (as.map e)) = some as :=
  mapM_map_of_decodes h as

theorem strings?_ofStrings (texts : List String) : (ofStrings texts).strings? = some texts :=
  mapM_map_of_decodes (e := Json.string) (fun _ => rfl) texts

theorem DeclarationKind.ofText?_text (k : DeclarationKind) : ofText? k.text = some k := by
  cases k <;> rfl

/-! ## Documents -/

theorem Attribute.ofJson?_toJson (a : Attribute) : ofJson? a.toJson = some a := by
  obtain ⟨name, type, summary, serializedAs, description, optional⟩ := a
  cases summary <;> cases serializedAs <;> rfl

theorem Declaration.ofJson?_toJson (d : Declaration) : ofJson? d.toJson = some d := by
  obtain ⟨kind, name, tagName, attributes⟩ := d
  have hattributes := list?_of_decodes Attribute.ofJson?_toJson attributes
  have hfields : (Declaration.mk kind name tagName attributes).toJson.record?
      ["kind", "name", "tagName", "attributes"] =
      some [some (.string kind.text), name.map .string, tagName.map .string,
        some (.array (attributes.map Attribute.toJson))] := by
    cases name <;> cases tagName <;> rfl
  have hoptional : ∀ text : Option String, optionalText (text.map .string) = some text := by
    intro text
    cases text <;> rfl
  rw [ofJson?, hfields]
  simp only [Option.bind_eq_bind, Option.bind_some, Option.pure_def, required, choice?,
    DeclarationKind.ofText?_text, hoptional, withDefault, hattributes]

/-- An optional field is there exactly if its value is. -/
theorem Declaration.get?_toJson (d : Declaration) :
    d.toJson.get? "name" = d.name.map .string ∧
      d.toJson.get? "tagName" = d.tagName.map .string := by
  obtain ⟨kind, name, tagName, attributes⟩ := d
  constructor <;> cases name <;> cases tagName <;> rfl

theorem ModuleDocument.ofJson?_toJson (m : ModuleDocument) : ofJson? m.toJson = some m := by
  obtain ⟨kind, path, declarations⟩ := m
  have hdeclarations := list?_of_decodes Declaration.ofJson?_toJson declarations
  have hfields : (ModuleDocument.mk kind path declarations).toJson.record?
      ["kind", "path", "declarations"] =
      some [some (.string kind), some (.string path),
        some (.array (declarations.map Declaration.toJson))] := rfl
  rw [ofJson?, hfields]
  simp only [Option.bind_eq_bind, Option.bind_some, Option.pure_def, required, string?,
    withDefault, hdeclarations]

theorem PackageManifest.ofJson?_toJson (m : PackageManifest) : ofJson? m.toJson = some m := by
  obtain ⟨schemaVersion, modules⟩ := m
  have hmodules := list?_of_decodes ModuleDocument.ofJson?_toJson modules
  have hfields : (PackageManifest.mk schemaVersion modules).toJson.record?
      ["schemaVersion", "modules"] =
      some [some (.string schemaVersion), some (.array (modules.map ModuleDocument.toJson))] := rfl
  rw [ofJson?, hfields]
  simp only [Option.bind_eq_bind, Option.bind_some, Option.pure_def, required, string?, hmodules]

theorem Config.ofJson?_toJson (c : Config) : ofJson? c.toJson = some c := by
  obtain ⟨includes, ignores, ignoreTestFiles, registerFunctions, semantic, outFile⟩ := c
  have hfields : (Config.mk includes ignores ignoreTestFiles registerFunctions semantic
      outFile).toJson.record? fieldNames =
      some [some (ofStrings includes), some (ofStrings ignores), some (.bool ignoreTestFiles),
        some (ofStrings registerFunctions), some (.bool semantic), some (.string outFile)] := rfl
  rw [ofJson?, hfields]
  simp only [Option.bind_eq_bind, Option.bind_some, Option.pure_def, withDefault,
    strings?_ofStrings, bool?, string?]

/-! ## Texts -/

theorem itemsHaveText_map {α : Type} {e : α → Json} (h : ∀ a, hasText (e a) = true)
    (as : List α) : itemsHaveText (as.map e) = true := by
  induction as with
  | nil => rfl
  | cons a as ih => rw [List.map_cons, itemsHaveText, h a, ih]; rfl

theorem hasText_ofStrings (texts : List String) : hasText (ofStrings texts) = true :=
  itemsHaveText_map (fun _ => rfl) texts

theorem Attribute.hasText_toJson (a : Attribute) : hasText a.toJson = true :=
  rfl

theorem Declaration.hasText_toJson (d : Declaration) : hasText d.toJson = true := by
  obtain ⟨kind, name, tagName, attributes⟩ := d
  have hattributes := itemsHaveText_map Attribute.hasText_toJson attributes
  cases name <;> cases tagName <;> simp [toJson, textField, hasText, fieldsHaveText, hattributes]

theorem ModuleDocument.hasText_toJson (m : ModuleDocument) : hasText m.toJson = true := by
  simp [toJson, hasText, fieldsHaveText, itemsHaveText_map Declaration.hasText_toJson]

theorem PackageManifest.hasText_toJson (m : PackageManifest) : hasText m.toJson = true := by
  simp [toJson, hasText, fieldsHaveText, itemsHaveText_map ModuleDocument.hasText_toJson]

theorem Config.hasText_toJson (c : Config) : hasText c.toJson = true := by
  simp [toJson, hasText, fieldsHaveText, hasText_ofStrings]

/-- The text of a manifest file is that of its manifest. -/
theorem PackageManifest.parse_manifestText (m : PackageManifest) :
    (Json.parse (CommandLine.manifestText m)).bind ofJson? = some m := by
  have hparse : Json.parse (CommandLine.manifestText m) = some m.toJson :=
    parse_pretty (hasText_toJson m) (g := "\n") (by simp [isGap])
  rw [hparse]
  exact ofJson?_toJson m

/-- Settings that are written are read back. -/
theorem Config.parse?_pretty (c : Config) : parse? c.toJson.pretty = some c := by
  have hparse := parse_pretty (hasText_toJson c) (g := "") (by simp)
  rw [String.append_empty] at hparse
  rw [parse?, hparse]
  exact ofJson?_toJson c

namespace Config

/-- A file with settings is read as these settings, if nothing is wrong with them. -/
theorem read_of_pretty {fs : FileSystem} {path : Path} {c : Config}
    (hfile : fs.read path = .ok c.toJson.pretty) :
    read fs path = c.fault?.elim (.ok c) (fun fault => .error (.invalid fault)) := by
  rw [read, hfile]
  dsimp only
  rw [parse?_pretty]
  dsimp only
  cases c.fault? <;> rfl

/-- **Documents and settings are read back as they were written.** A field without a value is
left out of a declaration. Written settings that nothing is wrong with are the ones that are
loaded from their file, as are the defaults from the text that is written for them. -/
theorem codecs_read_back :
    (∀ m : ModuleDocument, ModuleDocument.ofJson? m.toJson = some m) ∧
    (∀ m : PackageManifest, PackageManifest.ofJson? m.toJson = some m ∧
      (Json.parse (CommandLine.manifestText m)).bind PackageManifest.ofJson? = some m) ∧
    (∀ d : Declaration, d.toJson.get? "name" = d.name.map .string ∧
      d.toJson.get? "tagName" = d.tagName.map .string) ∧
    (∀ c : Config, ofJson? c.toJson = some c ∧ parse? c.toJson.pretty = some c) ∧
    parse? defaultText = some {} ∧
    ∀ (fs : FileSystem) (start path : Path), find? fs start = some path →
      (fs.read path = .ok defaultText → load fs start = .ok ⟨{}, some path⟩) ∧
      ∀ c : Config, c.fault? = none → fs.read path = .ok c.toJson.pretty →
        load fs start = .ok ⟨c, some path⟩ := by
  have hload : ∀ (fs : FileSystem) (start path : Path), find? fs start = some path →
      ∀ c : Config, c.fault? = none → fs.read path = .ok c.toJson.pretty →
        load fs start = .ok ⟨c, some path⟩ := by
    intro fs start path hfind c hfault hfile
    rw [load, hfind]
    dsimp only
    rw [read_of_pretty hfile, hfault]
    rfl
  refine ⟨ModuleDocument.ofJson?_toJson,
    fun m => ⟨PackageManifest.ofJson?_toJson m, PackageManifest.parse_manifestText m⟩,
    Declaration.get?_toJson, fun c => ⟨ofJson?_toJson c, parse?_pretty c⟩, parse?_pretty {}, ?_⟩
  intro fs start path hfind
  have hdefault : ({} : Config).fault? = none := by decide +kernel
  exact ⟨hload fs start path hfind {} hdefault, hload fs start path hfind⟩

/-- Settings with a pattern, and with a quote in a name. -/
def quotedSettings : Config :=
  { includes := ["lib/*"], semantic := false, outFile := "a\"b.json" }

/-- A directory with a configuration file in it. -/
def settingsFile (text : String) : FileSystem :=
  ⟨.directory [(fileName, .file (some text))], []⟩

theorem codecs_read_back_settings_file :
    load (settingsFile quotedSettings.toJson.pretty) ⟨"."⟩ =
      .ok ⟨quotedSettings, some ⟨"./.tagmetarc.json"⟩⟩ ∧
    load (settingsFile defaultText) ⟨"."⟩ = .ok ⟨{}, some ⟨"./.tagmetarc.json"⟩⟩ := by
  obtain ⟨-, -, -, -, -, hload⟩ := codecs_read_back
  have hfind : ∀ text, find? (settingsFile text) ⟨"."⟩ = some ⟨"./.tagmetarc.json"⟩ :=
    fun _ => rfl
  have hread : ∀ text, (settingsFile text).read ⟨"./.tagmetarc.json"⟩ = .ok text :=
    fun _ => rfl
  have hfault : quotedSettings.fault? = none := by decide +kernel
  exact ⟨(hload _ _ _ (hfind _)).2 quotedSettings hfault (hread _),
    (hload _ _ _ (hfind _)).1 (hread _)⟩

end Config

end ElementManifest
