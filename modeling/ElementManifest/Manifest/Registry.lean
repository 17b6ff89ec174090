import ElementManifest.Manifest.Document

/-!
# The registry

A module document grows in two ways: a registration declares an element, and
attributes are added to a declaration. Nothing is taken away.
-/

namespace ElementManifest.ModuleDocument

/-- The declarations with the tag of the class set, or with the class added. -/
def setTag (name tag : String) : List Declaration → List Declaration
  | [] => [.ofClass name tag]
  | d :: ds =>
    if d.name == some name then { d with tagName := some tag } :: ds else d :: setTag name tag ds

/-- The document with a registration. A class is declared once; its tag is that
of the last registration. A registration without a class name always adds a declaration. -/
def register (doc : ModuleDocument) (r : Registration) : ModuleDocument :=
  { doc with declarations :=
      match r.className with
      | some name => setTag name r.tag doc.declarations
      | none => doc.declarations ++ [.ofTag r.tag] }

/-- The attributes among `more` that a declaration does not have yet, each name
once. `known` are those that it has. -/
def newAttributes (known : List Attribute) : List Attribute → List Attribute
  | [] => []
  | a :: more =>
    if known.any (·.name == a.name) then newAttributes known more
    else a :: newAttributes (known ++ [a]) more

/-- The declaration that attributes of a registration belong to, by its position:
the first one with the name of the class, else the first one with the tag. -/
def position? (doc : ModuleDocument) (className tag : Option String) : Option Nat :=
  let byClass := className.bind fun name => doc.declarations.findIdx? (·.name == some name)
  byClass.orElse fun _ => tag.bind fun t => doc.declarations.findIdx? (·.tagName == some t)

/-- The declaration with attributes behind its own. -/
def append (more : List Attribute) (d : Declaration) : Declaration :=
  { d with attributes := d.attributes ++ more }

/-- The document with those attributes added to a declaration that it does not
have yet, and how many they are. Without a declaration they are dropped. -/
def merge (doc : ModuleDocument) (className tag : Option String) (more : List Attribute) :
    ModuleDocument × Nat :=
  match doc.position? className tag with
  | none => (doc, 0)
  | some n =>
    let known := (doc.declarations[n]?.map (·.attributes)).getD []
    let new := newAttributes known more
    ({ doc with declarations := doc.declarations.modify n (append new) }, new.length)

end ElementManifest.ModuleDocument
