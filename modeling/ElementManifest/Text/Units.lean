/-!
# Code units

Escapes are written with hexadecimal digits and may stand for one half of a
surrogate pair, so escaped text is gathered as code units and code points. Two
halves that meet become one character; a text with a half left over has no value.
-/

namespace ElementManifest.Text

/-- The value of a hexadecimal digit. -/
def hexValue (c : Char) : Option Nat :=
  if '0' ≤ c ∧ c ≤ '9' then some (c.toNat - '0'.toNat)
  else if 'a' ≤ c ∧ c ≤ 'f' then some (c.toNat - 'a'.toNat + 10)
  else if 'A' ≤ c ∧ c ≤ 'F' then some (c.toNat - 'A'.toNat + 10)
  else none

/-- The number written by hexadecimal digits, all of them. -/
def hexNumber (ds : List Char) : Option Nat :=
  ds.foldl (fun n d => do return (← n) * 16 + (← hexValue d)) (some 0)

/-- The characters that code units and code points stand for, or `none` when
half of a pair is left over. -/
def charsOfUnits : List Nat → Option (List Char)
  | [] => some []
  | [n] => if 0xD800 ≤ n ∧ n ≤ 0xDFFF then none else some [Char.ofNat n]
  | n :: m :: ns =>
    if 0xD800 ≤ n ∧ n ≤ 0xDBFF then
      if 0xDC00 ≤ m ∧ m ≤ 0xDFFF then
        (charsOfUnits ns).map (Char.ofNat (0x10000 + (n - 0xD800) * 0x400 + (m - 0xDC00)) :: ·)
      else none
    else if 0xDC00 ≤ n ∧ n ≤ 0xDFFF then none
    else (charsOfUnits (m :: ns)).map (Char.ofNat n :: ·)

/-- The text that code units stand for. -/
def textOfUnits (ns : List Nat) : Option String :=
  (charsOfUnits ns).map String.ofList

end ElementManifest.Text
