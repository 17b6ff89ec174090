import ElementManifest.Decimal.Shortest

/-!
# Numerals

The value of the digits of a numeral. Digits in another base than ten are taken
in one by one, and the sum is rounded each time; decimal digits are rounded once.
-/

namespace ElementManifest.Decimal

/-- The value of a digit in bases up to sixteen, zero for other characters. -/
def digitValue (c : Char) : Nat :=
  if c.isDigit then c.toNat - '0'.toNat
  else if 'a' ≤ c ∧ c ≤ 'f' then c.toNat - 'a'.toNat + 10
  else if 'A' ≤ c ∧ c ≤ 'F' then c.toNat - 'A'.toNat + 10
  else 0

/-- The whole number written by decimal digits. -/
def decimalNat (ds : List Char) : Nat :=
  ds.foldl (fun n d => n * 10 + digitValue d) 0

/-- The number nearest to a whole number, as a whole number. -/
def roundNat (n : Nat) : Nat :=
  match Binary64.ofNat n with
  | some x => let (num, den) := x.toFraction; num / den
  | none => n

/-- The number written by digits of the base `base`. -/
def ofRadixDigits (base : Nat) (ds : List Char) : Option Binary64 :=
  Binary64.ofNat (ds.foldl (fun n d => roundNat (n * base + digitValue d)) 0)

/-- The number `whole.part · 10 ^ power`. -/
def ofDecimalDigits (whole part : List Char) (power : Int) : Option Binary64 :=
  Binary64.ofDecimal (decimalNat (whole ++ part)) (power - part.length)

example : plainText (ofDecimalDigits ['1'] ['5', '0'] 2) = "150" := by decide +kernel
example : plainText (ofRadixDigits 16 ['f', 'F']) = "255" := by decide +kernel

end ElementManifest.Decimal
