import ElementManifest.Expansion.ObjectText
import ElementManifest.Proofs.Levels
import ElementManifest.TypeDecl

/-!
# Spellings of a type

One type can be spelled in many ways: with blanks between its tokens, with a separator behind
the last member or without one, with either quotes. `Spells` tells which texts are spellings of
a type that no name stands in.

> `Spells.reads`: what the inference finds in a spelling is told by the type.

So it finds the same in all spellings of a type (`Spells.summaryOf_eq`,
`Spells.serializationOf_eq`). A name is a matter of its own: in quotes it is left out, and without
quotes it may have one of the words in it that the inference looks for.
-/

namespace ElementManifest.Inference

open ElementManifest.Text ElementManifest.TypeScript ElementManifest.Expansion

/-! ## Words and patterns -/

/-- The words that the inference looks for anywhere in a text. -/
def words : List (List Char) :=
  ["string", "number", "boolean", "array", "readonly", "object", "record", "null",
   "undefined"].map String.toList

/-- All that the inference looks for anywhere in a text. -/
def patterns : List (List Char) :=
  words ++ ["[]".toList, "\x7b".toList, "|".toList]

/-- A text that stands for itself: it has no marks in it, and no blanks at its ends. -/
structure IsWord (w : List Char) : Prop where
  plain : ∀ c ∈ w, isMark c = false
  first : ∃ c, w.head? = some c ∧ isBlank c = false
  last : ∃ c, w.getLast? = some c ∧ isBlank c = false

/-- Blanks between tokens. -/
def Blanks (b : List Char) : Prop :=
  ∀ c ∈ b, isBlank c = true

/-- What may stand between two members. -/
def Gap (g : List Char) : Prop :=
  ∀ c ∈ g, isBlank c = true ∨ c = ';' ∨ c = ','

/-- What may stand between a name and the colon behind it. -/
def Mid (o : List Char) : Prop :=
  ∀ c ∈ o, isBlank c = true ∨ c = '?'

/-- What the inference sees of a name that is written out. -/
def printedKey (name : String) : List Char :=
  if isBare name.toList then fold name.toList else []

/-- The text of a truth. -/
def truthText (value : Bool) : List Char :=
  if value then "true".toList else "false".toList

/-! ## Spellings -/

/-- Whether a text spells the name of a member, and tells the same words as the name does
when it is written out. -/
inductive SpellsKey (name : String) : List Char → Prop
  | plain {k : List Char} (hk : ∀ c ∈ k, isMark c = false)
      (hwords : ∀ w ∈ words, w <:+: fold k ↔ w <:+: printedKey name) : SpellsKey name k
  | quoted {q : Char} {body : List Char} (hq : q = '"' ∨ q = '\'')
      (hbody : staysInside q false body = true)
      (hwords : ∀ w ∈ words, ¬w <:+: printedKey name) : SpellsKey name (q :: (body ++ [q]))

/-- Whether a text spells the label of an element, if it has one. The label of a rest element is
not kept, so it tells none of the words. -/
inductive SpellsLabel : Option String → List Char → Prop
  | none : SpellsLabel none []
  | hidden {d l o b : List Char} (hd : Blanks d) (hlabel : ∀ c ∈ l, isMark c = false)
      (hwords : ∀ w ∈ words, ¬w <:+: fold l) (ho : Mid o) (hb : Blanks b) :
      SpellsLabel none ("...".toList ++ d ++ l ++ o ++ ':' :: b)
  | some {label : String} {o b : List Char} (hlabel : ∀ c ∈ label.toList, isMark c = false)
      (ho : Mid o) (hb : Blanks b) : SpellsLabel (some label) (label.toList ++ o ++ ':' :: b)

/-- Whether a text may stand behind the name of a member without a type. It is of any type. -/
inductive SpellsNoType : List Char → Prop
  | missing {o : List Char} (ho : Mid o) : SpellsNoType o
  | any {o b : List Char} (ho : Mid o) (hb : Blanks b) :
      SpellsNoType (o ++ ':' :: (b ++ "any".toList))

/-- Whether a type is a union. -/
def isUnion : TypeNode → Bool
  | .union _ _ => true
  | _ => false

mutual

/-- Whether a text spells a type that no name stands in. The source tells the texts of keywords,
numbers and templates. -/
inductive Spells (s : Source) : TypeNode → List Char → Prop
  | keyword {span : Span} {name : String} (h : IsWord (s.slice span)) :
      Spells s (.keyword span name) (s.slice span)
  | truth {span : Span} {value : Bool} : Spells s (.truth span value) (truthText value)
  | number {span : Span} {parts : List Node} (h : IsWord (s.slice span)) :
      Spells s (.other span parts) (s.slice span)
  | template {span : Span} {parts : List Node} {body : List Char}
      (htext : s.slice span = '\x60' :: (body ++ ['\x60']))
      (hbody : staysInside '\x60' false body = true) : Spells s (.other span parts) (s.slice span)
  | literal {span : Span} {value : String} {q : Char} {body : List Char} (hq : q = '"' ∨ q = '\'')
      (hbody : staysInside q false body = true) :
      Spells s (.text span (some value)) (q :: (body ++ [q]))
  | untold {span : Span} {q : Char} {body : List Char} (hq : q = '"' ∨ q = '\'')
      (htext : s.slice span = q :: (body ++ [q])) (hbody : staysInside q false body = true) :
      Spells s (.text span none) (s.slice span)
  | array {span : Span} {elem : TypeNode} {x b : List Char} (h : Spells s elem x)
      (hunion : isUnion elem = false) (hb : Blanks b) :
      Spells s (.array span elem) (x ++ (b ++ "[]".toList))
  | empty {span : Span} : Spells s (.tuple span []) "[]".toList
  | tuple {span : Span} {e : TupleElem} {es : List TupleElem} {x : List Char}
      (h : SpellsElems s (e :: es) x) : Spells s (.tuple span (e :: es)) ('[' :: (x ++ [']']))
  | union {span : Span} {t u : TypeNode} {ts : List TypeNode} {x : List Char}
      (h : SpellsBranches s (t :: u :: ts) x) : Spells s (.union span (t :: u :: ts)) x
  | barred {span : Span} {t u : TypeNode} {ts : List TypeNode} {b x : List Char} (hb : Blanks b)
      (h : SpellsBranches s (t :: u :: ts) x) :
      Spells s (.union span (t :: u :: ts)) ('|' :: (b ++ x))
  | paren {span : Span} {inner : TypeNode} {b x b' : List Char} (hb : Blanks b)
      (h : Spells s inner x) (hb' : Blanks b') :
      Spells s (.paren span inner) ('(' :: (b ++ x ++ b' ++ [')']))
  | object {span : Span} {members : List Member} {x : List Char} (h : SpellsMembers s members x) :
      Spells s (.object span members) ('\x7b' :: (x ++ ['\x7d']))

/-- Whether a text spells what stands in a tuple behind a label. -/
inductive SpellsSlot (s : Source) : TypeNode → List Char → Prop
  | plain {t : TypeNode} {x : List Char} (h : Spells s t x) : SpellsSlot s t x
  | optional {span : Span} {inner : TypeNode} {x b : List Char} (h : Spells s inner x)
      (hunion : isUnion inner = false) (hb : Blanks b) :
      SpellsSlot s (.optional span inner) (x ++ (b ++ ['?']))
  | rest {span : Span} {inner : TypeNode} {b x : List Char} (hb : Blanks b)
      (h : Spells s inner x) : SpellsSlot s (.rest span inner) ("...".toList ++ b ++ x)

/-- Whether a text spells the elements of a tuple. A comma may stand behind the last one. -/
inductive SpellsElems (s : Source) : List TupleElem → List Char → Prop
  | nil {b : List Char} (hb : Blanks b) : SpellsElems s [] b
  | last {label : Option String} {t : TypeNode} {b l x b' : List Char} (hb : Blanks b)
      (hl : SpellsLabel label l) (h : SpellsSlot s t x) (hb' : Blanks b') :
      SpellsElems s [.mk label t] (b ++ l ++ x ++ b')
  | cons {label : Option String} {t : TypeNode} {es : List TupleElem} {b l x b' rest : List Char}
      (hb : Blanks b) (hl : SpellsLabel label l) (h : SpellsSlot s t x) (hb' : Blanks b')
      (hrest : SpellsElems s es rest) :
      SpellsElems s (.mk label t :: es) (b ++ l ++ x ++ b' ++ ',' :: rest)

/-- Whether a text spells the branches of a union. -/
inductive SpellsBranches (s : Source) : List TypeNode → List Char → Prop
  | last {t : TypeNode} {x : List Char} (h : Spells s t x) (hunion : isUnion t = false) :
      SpellsBranches s [t] x
  | cons {t : TypeNode} {ts : List TypeNode} {x b b' rest : List Char} (h : Spells s t x)
      (hunion : isUnion t = false) (hb : Blanks b) (hb' : Blanks b')
      (hrest : SpellsBranches s ts rest) :
      SpellsBranches s (t :: ts) (x ++ b ++ '|' :: (b' ++ rest))

/-- Whether a text spells the members of an object type, which are all properties. Two members
have something between them. -/
inductive SpellsMembers (s : Source) : List Member → List Char → Prop
  | nil {g : List Char} (hg : Gap g) : SpellsMembers s [] g
  | typed {p : Property} {name : String} {t : TypeNode} {ms : List Member}
      {g k o b x rest : List Char} (hg : Gap g) (hname : p.name? = some name)
      (hk : SpellsKey name k) (ho : Mid o) (hb : Blanks b) (htype : p.type = some t)
      (h : Spells s t x) (hrest : SpellsMembers s ms rest)
      (hsep : ms = [] ∨ ∃ c, rest.head? = some c ∧ Gap [c]) :
      SpellsMembers s (.property p :: ms) (g ++ k ++ o ++ ':' :: (b ++ x ++ rest))
  | untyped {p : Property} {name : String} {ms : List Member} {g k z rest : List Char} (hg : Gap g)
      (hname : p.name? = some name) (hk : SpellsKey name k) (hz : SpellsNoType z)
      (htype : p.type = none) (hrest : SpellsMembers s ms rest)
      (hsep : ms = [] ∨ ∃ c, rest.head? = some c ∧ Gap [c]) :
      SpellsMembers s (.property p :: ms) (g ++ k ++ z ++ rest)

end

end ElementManifest.Inference
