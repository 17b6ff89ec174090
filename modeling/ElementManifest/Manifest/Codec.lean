import ElementManifest.Json.Decode
import ElementManifest.Manifest.Document

/-!
# Manifest documents as JSON
-/

namespace ElementManifest

open Json

/-! ## Writing -/

/-- An attribute as JSON. -/
def Attribute.toJson (a : Attribute) : Json :=
  .object
    [("name", .string a.name),
     ("type", .object [("text", .string a.type), ("summary", .string a.summary.text)]),
     ("serializedAs", .string a.serializedAs.text),
     ("description", .string a.description),
     ("optional", .bool a.optional)]

/-- A field with a text, left out when there is none. -/
def textField (name : String) : Option String → List (String × Json)
  | some text => [(name, .string text)]
  | none => []

/-- A declaration as JSON. -/
def Declaration.toJson (d : Declaration) : Json :=
  .object
    ([("kind", .string d.kind.text)] ++ textField "name" d.name ++ textField "tagName" d.tagName
      ++ [("attributes", .array (d.attributes.map Attribute.toJson))])

/-- A module document as JSON. -/
def ModuleDocument.toJson (m : ModuleDocument) : Json :=
  .object
    [("kind", .string m.kind),
     ("path", .string m.path),
     ("declarations", .array (m.declarations.map Declaration.toJson))]

/-- A manifest as JSON. -/
def PackageManifest.toJson (m : PackageManifest) : Json :=
  .object
    [("schemaVersion", .string m.schemaVersion),
     ("modules", .array (m.modules.map ModuleDocument.toJson))]

/-! ## Reading -/

/-- The kind of a type with the given name. -/
def Summary.ofText? (text : String) : Option Summary :=
  [Summary.string, .number, .boolean, .array, .object, .unknown].find? (·.text == text)

/-- The way of writing with the given name. -/
def Serialization.ofText? (text : String) : Option Serialization :=
  [Serialization.json, .booleanAttr, .number, .string, .propertyOnly].find? (·.text == text)

/-- The kind of a declaration with the given name. -/
def DeclarationKind.ofText? (text : String) : Option DeclarationKind :=
  [DeclarationKind.classDecl, .customElement].find? (·.text == text)

/-- The text and the kind of a type. -/
def Attribute.typeOfJson? (v : Json) : Option (String × Summary) := do
  match ← v.record? ["text", "summary"] with
  | [text, kind] =>
    return (← required string? text, ← Summary.ofText? (← required choice? kind))
  | _ => none

/-- An attribute of JSON. -/
def Attribute.ofJson? (v : Json) : Option Attribute := do
  match ← v.record? ["name", "type", "serializedAs", "description", "optional"] with
  | [name, type, serializedAs, description, optional] =>
    let (type, kind) ← required typeOfJson? type
    return {
        name := ← required string? name
        type := type
        summary := kind
        serializedAs := ← Serialization.ofText? (← required choice? serializedAs)
        description := ← required string? description
        optional := ← required bool? optional }
  | _ => none

/-- A declaration of JSON. -/
def Declaration.ofJson? (v : Json) : Option Declaration := do
  match ← v.record? ["kind", "name", "tagName", "attributes"] with
  | [kind, name, tagName, attributes] =>
    return {
        kind := ← DeclarationKind.ofText? (← required choice? kind)
        name := ← optionalText name
        tagName := ← optionalText tagName
        attributes := ← withDefault [] (list? Attribute.ofJson?) attributes }
  | _ => none

/-- A module document of JSON. -/
def ModuleDocument.ofJson? (v : Json) : Option ModuleDocument := do
  match ← v.record? ["kind", "path", "declarations"] with
  | [kind, path, declarations] =>
    return {
        kind := ← required string? kind
        path := ← required string? path
        declarations := ← withDefault [] (list? Declaration.ofJson?) declarations }
  | _ => none

/-- A manifest of JSON. -/
def PackageManifest.ofJson? (v : Json) : Option PackageManifest := do
  match ← v.record? ["schemaVersion", "modules"] with
  | [schemaVersion, modules] =>
    return {
        schemaVersion := ← required string? schemaVersion
        modules := ← required (list? ModuleDocument.ofJson?) modules }
  | _ => none

end ElementManifest
