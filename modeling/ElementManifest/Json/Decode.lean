import ElementManifest.Json.Value

/-!
# Decoding records

A record is written as an object, whose other fields are ignored, or as the
array of its fields in order. A field that is written twice is an error.
-/

namespace ElementManifest.Json

/-- The value of a field; none inside when it is missing, none outside when it
is there more than once. -/
def uniqueField (fields : List (String × Json)) (name : String) : Option (Option Json) :=
  match fieldValues name fields with
  | [] => some none
  | [v] => some (some v)
  | _ => none

/-- The values of the fields of a record, in order. -/
def record? (names : List String) : Json → Option (List (Option Json))
  | object fields => names.mapM (uniqueField fields)
  | array items =>
    if items.length ≤ names.length then
      some (items.map some ++ List.replicate (names.length - items.length) none)
    else none
  | _ => none

/-- Decode a field that has to be there. -/
def required (decode : Json → Option α) (field : Option Json) : Option α :=
  field.bind decode

/-- Decode a field that has a default. -/
def withDefault (default : α) (decode : Json → Option α) : Option Json → Option α
  | some v => decode v
  | none => some default

/-- Decode a text that may be missing or null. -/
def optionalText : Option Json → Option (Option String)
  | none => some none
  | some null => some none
  | some v => v.string?.map some

/-- Decode the items of an array. -/
def list? (decode : Json → Option α) (v : Json) : Option (List α) := do
  (← v.array?).mapM decode

/-- The name of a choice without a value: a text, or an object with that one
field and nothing in it. -/
def choice? : Json → Option String
  | string s => some s
  | object [(name, null)] => some name
  | _ => none

end ElementManifest.Json
