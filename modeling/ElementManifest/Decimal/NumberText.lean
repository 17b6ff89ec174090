/-!
# Texts that are numbers

A decimal with an optional sign, point and exponent, or one of the words for
what is no finite number, in any case.
-/

namespace ElementManifest.Decimal

/-- The text behind an optional sign. -/
def skipSign : List Char → List Char
  | '+' :: s => s
  | '-' :: s => s
  | s => s

/-- Whether a text is an exponent, or empty. -/
def isExponent : List Char → Bool
  | [] => true
  | e :: s =>
    let ds := skipSign s
    (e = 'e' || e = 'E') && !ds.isEmpty && ds.all Char.isDigit

/-- Whether a text is a decimal without a sign. -/
def isPlainDecimal (s : List Char) : Bool :=
  let whole := s.takeWhile Char.isDigit
  let rest := s.drop whole.length
  match rest with
  | '.' :: rest =>
    let part := rest.takeWhile Char.isDigit
    !(whole.isEmpty && part.isEmpty) && isExponent (rest.drop part.length)
  | rest => !whole.isEmpty && isExponent rest

/-- Whether a text is a number. -/
def isNumberText (s : List Char) : Bool :=
  let s := skipSign s
  let word := String.ofList (s.map Char.toLower)
  word == "inf" || word == "infinity" || word == "nan" || isPlainDecimal s

end ElementManifest.Decimal
