import ElementManifest.Text.Units

/-!
# Escapes

What a backslash stands for in names, strings and templates.
-/

namespace ElementManifest.TypeScript

open ElementManifest.Text

/-- The value of the next `room` hexadecimal digits, and how many characters
they take. Underscores between them are passed over. -/
def exactHex (value count : Nat) : Nat → List Char → Option (Nat × Nat)
  | 0, _ => some (value, count)
  | _ + 1, [] => none
  | room + 1, c :: s =>
    if c = '_' then exactHex value (count + 1) (room + 1) s
    else
      match hexValue c with
      | some d => exactHex (value * 16 + d) (count + 1) room s
      | none => none

/-- Whether `n` is one half of a surrogate pair. -/
def isSurrogate (n : Nat) : Bool :=
  0xD800 ≤ n && n ≤ 0xDFFF

/-- The code point of `u{X…}` behind its brace, and how many characters it takes
with the brace that closes it. Half of a pair is written with four digits. -/
def bracedEscape (s : List Char) : Option (Nat × Nat) :=
  let run := s.takeWhile fun c => c == '_' || (hexValue c).isSome
  let ds := run.filter (· != '_')
  let fitsHalf := exactHex 0 0 4 run |>.any fun (_, k) => k == run.length
  match hexNumber ds, (s.drop run.length).head? with
  | some n, some '\x7d' =>
    if ds.isEmpty || 0x10FFFF < n || (isSurrogate n && !fitsHalf) then none
    else some (n, run.length + 1)
  | _, _ => none

/-- The code point of `uXXXX` behind its first letter, and its length. Behind the
first half of a pair another escape must be written in the same way; the two
make one code point if it is the second half. -/
def pairedEscape (s : List Char) : Option (Nat × Nat) :=
  match exactHex 0 0 4 s with
  | none => none
  | some (n, k) =>
    match s.drop k with
    | '\\' :: 'u' :: t =>
      if 0xD800 ≤ n ∧ n ≤ 0xDBFF then
        match exactHex 0 0 4 t with
        | none => none
        | some (m, j) =>
          if 0xDC00 ≤ m ∧ m ≤ 0xDFFF then
            some (0x10000 + (n - 0xD800) * 0x400 + (m - 0xDC00), k + j + 2)
          else some (n, k)
      else some (n, k)
    | _ => some (n, k)

/-- The code point of `uXXXX` or `u{X…}` at the start of `s`, and its length. -/
def unicodeEscape (s : List Char) : Option (Nat × Nat) :=
  match s with
  | 'u' :: '\x7b' :: s => (bracedEscape s).map fun (n, k) => (n, k + 2)
  | 'u' :: s => (pairedEscape s).map fun (n, k) => (n, k + 1)
  | _ => none

/-- Whether `c` ends a line. -/
def isLineEnd (c : Char) : Bool :=
  c = '\n' || c = '\r' || c = '\u2028' || c = '\u2029'

/-- Whether `c` is an octal digit. -/
def isOctal (c : Char) : Bool :=
  '0' ≤ c && c ≤ '7'

/-- The octal digits at the start of `s` that form one escape. -/
def octalDigits (s : List Char) : List Char :=
  let room := match s with
    | c :: _ => if c ≤ '3' then 3 else 2
    | [] => 0
  (s.take room).takeWhile isOctal

/-- What the text behind a backslash stands for, as code units, and how much of
it belongs to the escape; `none` for an escape that is malformed. -/
def escape (s : List Char) : Option (List Nat × Nat) :=
  match s with
  | [] => none
  | '\r' :: '\n' :: _ => some ([], 2)
  | 'n' :: _ => some ([10], 1)
  | 't' :: _ => some ([9], 1)
  | 'r' :: _ => some ([13], 1)
  | 'b' :: _ => some ([8], 1)
  | 'v' :: _ => some ([11], 1)
  | 'f' :: _ => some ([12], 1)
  | 'x' :: s => (exactHex 0 0 2 s).map fun (n, k) => ([n], k + 1)
  | 'u' :: _ => (unicodeEscape s).map fun (n, k) => ([n], k)
  | c :: _ =>
    if isLineEnd c then some ([], 1)
    else if isOctal c then
      let ds := octalDigits s
      some ([ds.foldl (fun n d => n * 8 + (d.toNat - '0'.toNat)) 0], ds.length)
    else some ([c.toNat], 1)

/-- An escape inside a template, where digits other than a lone zero are malformed. -/
def templateEscape (s : List Char) : Option (List Nat × Nat) :=
  match s with
  | '0' :: c :: _ => if c.isDigit then none else escape s
  | c :: _ => if '1' ≤ c ∧ c ≤ '9' then none else escape s
  | [] => escape s

end ElementManifest.TypeScript
