/-!
# JSON values

Objects keep the order of their fields, and all fields of one name. A string
that holds half of a surrogate pair has no text; it is a value of its own, and so
is an object with such a name among its fields.
-/

namespace ElementManifest

/-- A JSON value. -/
inductive Json
  | null
  | bool (b : Bool)
  /-- A number written with digits alone. -/
  | natural (n : Nat)
  /-- Any other number. -/
  | number
  | string (s : String)
  /-- A string without a text, or an object with a name without one. -/
  | broken
  | array (items : List Json)
  | object (fields : List (String × Json))

namespace Json

/-- The values of the fields called `name`. -/
def fieldValues (name : String) (fields : List (String × Json)) : List Json :=
  (fields.filter fun f => f.1 == name).map Prod.snd

/-- The first field called `name` of an object. -/
def get? (v : Json) (name : String) : Option Json :=
  match v with
  | object fields => (fieldValues name fields).head?
  | _ => none

/-- The text of a string. -/
def string? : Json → Option String
  | string s => some s
  | _ => none

/-- The value of a truth. -/
def bool? : Json → Option Bool
  | bool b => some b
  | _ => none

/-- The items of an array. -/
def array? : Json → Option (List Json)
  | array items => some items
  | _ => none

/-- The texts of an array of strings. -/
def strings? (v : Json) : Option (List String) := do
  (← v.array?).mapM string?

/-- A text or nothing, as a value. -/
def ofOption : Option String → Json
  | some s => string s
  | none => null

/-- Texts as an array. -/
def ofStrings (texts : List String) : Json :=
  array (texts.map string)

end Json

end ElementManifest
