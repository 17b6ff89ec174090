import ElementManifest.Text.CaseTables

/-!
# Lower and upper case

The full case mappings of the Unicode standard, without a locale. Two rules
look beyond a table of single characters: a dotted capital I becomes two
characters, and a capital sigma at the end of a word takes its final form.
-/

namespace ElementManifest.Text

/-- The lower case of one character, wherever it stands. -/
def lowerChar (c : Char) : List Char :=
  if c.toNat < 0x80 then [c.toLower]
  else if c = '\u0130' then ['i', '\u0307']
  else [(lowerRuns.find? c.toNat).elim c Char.ofNat]

/-- The upper case of one character. -/
def upperChar (c : Char) : List Char :=
  if c.toNat < 0x80 then [c.toUpper]
  else match longUpper.find? (·.1 == c) with
    | some (_, cs) => cs
    | none => [(upperRuns.find? c.toNat).elim c Char.ofNat]

/-- Whether the first character that is not skipped in a search for a cased
neighbour has a case. -/
def meetsCased (s : List Char) : Bool :=
  (s.dropWhile caseIgnorableRanges.contains).head?.any casedRanges.contains

/-- The lower case of a capital sigma: final when a cased character stands
before it, `before` read backwards, and none after it. -/
def lowerSigma (before after : List Char) : Char :=
  if meetsCased before && !meetsCased after then 'ς' else 'σ'

/-- The lower case of `s` behind the text whose reversal is `before`. -/
def lowerAfter (before : List Char) : List Char → List Char
  | [] => []
  | c :: s =>
    (if c = 'Σ' then [lowerSigma before s] else lowerChar c) ++ lowerAfter (c :: before) s

/-- The lower case of a text. -/
def lower (s : List Char) : List Char :=
  lowerAfter [] s

end ElementManifest.Text
