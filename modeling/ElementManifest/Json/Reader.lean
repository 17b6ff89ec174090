import ElementManifest.Json.Value
import ElementManifest.Text.Units

/-!
# Reading JSON

Strict JSON and nothing around it but blanks. Values nest as deep as the text
is long, which bounds the recursion.
-/

namespace ElementManifest.Json

open ElementManifest.Text (hexNumber charsOfUnits)

/-- Whether `c` may stand between the tokens. -/
def isGap (c : Char) : Bool :=
  c = ' ' || c = '\n' || c = '\r' || c = '\t'

/-- The text without the blanks at its start. -/
def skipGap (s : List Char) : List Char :=
  s.dropWhile isGap

/-! ## Strings -/

/-- What follows a backslash: its code unit, and how many characters it takes. -/
def escapeUnit : List Char → Option (Nat × Nat)
  | '"' :: _ => some ('"'.toNat, 1)
  | '\\' :: _ => some ('\\'.toNat, 1)
  | '/' :: _ => some ('/'.toNat, 1)
  | 'b' :: _ => some (8, 1)
  | 'f' :: _ => some (12, 1)
  | 'n' :: _ => some (10, 1)
  | 'r' :: _ => some (13, 1)
  | 't' :: _ => some (9, 1)
  | 'u' :: a :: b :: c :: d :: _ => (hexNumber [a, b, c, d]).map (·, 5)
  | _ => none

/-- The code units of a string up to its closing quote, and the text behind it.
`units` is what has been read, backwards. -/
def stringUnits (skip : Nat) (units : List Nat) : List Char → Option (List Nat × List Char)
  | [] => none
  | c :: s =>
    match skip with
    | skip + 1 => stringUnits skip units s
    | 0 =>
      if c = '"' then some (units.reverse, s)
      else if c = '\\' then
        match escapeUnit s with
        | some (n, k) => stringUnits k (n :: units) s
        | none => none
      else if c.toNat < 0x20 then none
      else stringUnits 0 (c.toNat :: units) s

/-! ## Numbers -/

/-- The digits at the start of a text, at least one, and the rest. -/
def digits1 (s : List Char) : Option (List Char × List Char) :=
  let ds := s.takeWhile Char.isDigit
  if ds.isEmpty then none else some (ds, s.drop ds.length)

/-- The text behind an optional fraction. -/
def skipFraction : List Char → Option (List Char)
  | '.' :: s => (digits1 s).map Prod.snd
  | s => some s

/-- The text behind an optional exponent. -/
def skipExponent : List Char → Option (List Char)
  | e :: s =>
    if e = 'e' ∨ e = 'E' then
      let s := match s with
        | '+' :: s => s
        | '-' :: s => s
        | s => s
      (digits1 s).map Prod.snd
    else some (e :: s)
  | [] => some []

/-- A number and the text behind it. A whole number does not start with a zero. -/
def readNumber (s : List Char) : Option (Json × List Char) := do
  let (negative, s) := match s with
    | '-' :: s => (true, s)
    | s => (false, s)
  let (ds, rest) ← match s with
    | '0' :: rest => some (['0'], rest)
    | s => digits1 s
  if ds = ['0'] ∧ (rest.head?.any Char.isDigit) then none
  let final ← skipExponent (← skipFraction rest)
  if negative || final.length ≠ rest.length then some (number, final)
  else some (natural (ds.foldl (fun n d => n * 10 + (d.toNat - '0'.toNat)) 0), final)

/-! ## Values -/

/-- The object of some fields, broken when one of their names is. -/
def ofFields (fields : List (Option String × Json)) : Json :=
  match fields.mapM fun f => f.1.map (·, f.2) with
  | some fields => object fields
  | none => broken

/-- The text behind `word`, if `s` starts with it. -/
def skipWord (word : String) (s : List Char) : Option (List Char) :=
  if word.toList.isPrefixOf s then some (s.drop word.length) else none

mutual

/-- A value at the start of a text, and the text behind it. At most `n` values
are nested in each other. -/
def readValue : Nat → List Char → Option (Json × List Char)
  | 0, _ => none
  | n + 1, s =>
    match s with
    | '"' :: s => do
      let (units, rest) ← stringUnits 0 [] s
      match charsOfUnits units with
      | some cs => some (string (String.ofList cs), rest)
      | none => some (broken, rest)
    | '[' :: s =>
      match skipGap s with
      | ']' :: rest => some (array [], rest)
      | s => do
        let (items, rest) ← readItems n s
        some (array items, rest)
    | '\x7b' :: s =>
      match skipGap s with
      | '\x7d' :: rest => some (object [], rest)
      | s => do
        let (fields, rest) ← readFields n s
        some (ofFields fields, rest)
    | 'n' :: _ => (skipWord "null" s).map (null, ·)
    | 't' :: _ => (skipWord "true" s).map (bool true, ·)
    | 'f' :: _ => (skipWord "false" s).map (bool false, ·)
    | _ => readNumber s

/-- Items with commas between them, and the text behind the closing bracket. -/
def readItems : Nat → List Char → Option (List Json × List Char)
  | 0, _ => none
  | n + 1, s => do
    let (v, rest) ← readValue n s
    match skipGap rest with
    | ',' :: rest => do
      let (vs, rest) ← readItems n (skipGap rest)
      some (v :: vs, rest)
    | ']' :: rest => some ([v], rest)
    | _ => none

/-- Fields with commas between them, and the text behind the closing brace. A name
may be without a text. -/
def readFields : Nat → List Char → Option (List (Option String × Json) × List Char)
  | 0, _ => none
  | n + 1, s =>
    match s with
    | '"' :: s => do
      let (units, rest) ← stringUnits 0 [] s
      let name := (charsOfUnits units).map String.ofList
      match skipGap rest with
      | ':' :: rest => do
        let (v, rest) ← readValue n (skipGap rest)
        match skipGap rest with
        | ',' :: rest => do
          let (fs, rest) ← readFields n (skipGap rest)
          some ((name, v) :: fs, rest)
        | '\x7d' :: rest => some ([(name, v)], rest)
        | _ => none
      | _ => none
    | _ => none

end

/-- The value that a text consists of; `none` when it is not JSON. -/
def parse (text : String) : Option Json := do
  let s := skipGap text.toList
  let (v, rest) ← readValue (2 * s.length + 2) s
  if (skipGap rest).isEmpty then some v else none

end ElementManifest.Json
