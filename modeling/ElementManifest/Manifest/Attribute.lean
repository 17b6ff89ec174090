/-!
# Attributes

What a manifest says about an attribute of an element.
-/

namespace ElementManifest

/-- The primitive kind of a type. -/
inductive Summary
  | string
  | number
  | boolean
  | array
  | object
  | unknown
  deriving DecidableEq, Repr

/-- How a manifest names a kind. -/
def Summary.text : Summary → String
  | string => "string"
  | number => "number"
  | boolean => "boolean"
  | array => "array"
  | object => "object"
  | unknown => "unknown"

/-- How a property is written as an attribute: as JSON, by being there, as a
number, as a string, or not at all. -/
inductive Serialization
  | json
  | booleanAttr
  | number
  | string
  | propertyOnly
  deriving DecidableEq, Repr

/-- How a manifest names a way of writing. -/
def Serialization.text : Serialization → String
  | json => "json"
  | booleanAttr => "boolean-attr"
  | number => "number"
  | string => "string"
  | propertyOnly => "property-only"

/-- An attribute of an element. -/
structure Attribute where
  name : String
  type : String
  summary : Summary
  serializedAs : Serialization
  description : String
  optional : Bool
  deriving DecidableEq, Repr

end ElementManifest
