/-!
# Non-negative binary floating point numbers of 64 bits

A finite number is `mant · 2 ^ expo` with `mant < 2 ^ 53` and `-1074 ≤ expo`;
`expo` is the least possible one. Reading rounds a quotient to the nearest
number, ties to the even mantissa.
-/

namespace ElementManifest.Decimal

/-- A finite non-negative number, `mant · 2 ^ expo`. -/
structure Binary64 where
  mant : Nat
  expo : Int
  deriving DecidableEq, Repr

namespace Binary64

/-- The numerator and the denominator of `num / den / 2 ^ q`. -/
def scale (num den : Nat) (q : Int) : Nat × Nat :=
  if 0 ≤ q then (num, den * Nat.pow 2 q.toNat) else (num * Nat.pow 2 (-q).toNat, den)

/-- The quotient rounded to the nearest whole number, a half to the even one. -/
def roundDiv (num den : Nat) : Nat :=
  let quot := num / den
  let twice := 2 * (num % den)
  if twice < den ∨ (twice = den ∧ quot % 2 = 0) then quot else quot + 1

/-- The exponent of the numbers around `num / den`: the least one that leaves a
mantissa below `2 ^ 53`. -/
def exponentOf (num den : Nat) : Int :=
  let q : Int := (Nat.log2 num : Int) - (Nat.log2 den : Int) - 53
  let (n, d) := scale num den q
  max (if n < d * Nat.pow 2 53 then q else q + 1) (-1074)

/-- The number nearest to `num / den`, or `none` when it lies beyond them all. -/
def nearest (num den : Nat) : Option Binary64 :=
  let q := exponentOf num den
  let (n, d) := scale num den q
  let m := roundDiv n d
  let (m, q) := if m = Nat.pow 2 53 then (Nat.pow 2 52, q + 1) else (m, q)
  if q ≤ 971 then some ⟨m, q⟩ else none

/-- The number nearest to a whole number. -/
def ofNat (n : Nat) : Option Binary64 :=
  nearest n 1

/-- The number nearest to `digits · 10 ^ power`. Beyond the reach of every
finite number the power decides alone, so that no huge power is computed. -/
def ofDecimal (digits : Nat) (power : Int) : Option Binary64 :=
  if digits = 0 then some ⟨0, -1074⟩
  else
    let places : Int := (Nat.toDigits 10 digits).length + power
    if 400 < places then none
    else if places < -400 then some ⟨0, -1074⟩
    else if 0 ≤ power then nearest (digits * Nat.pow 10 power.toNat) 1
    else nearest digits (Nat.pow 10 (-power).toNat)

/-- The numerator and the denominator of the number. -/
def toFraction (x : Binary64) : Nat × Nat :=
  if 0 ≤ x.expo then (x.mant * Nat.pow 2 x.expo.toNat, 1) else (x.mant, Nat.pow 2 (-x.expo).toNat)

end Binary64

end ElementManifest.Decimal
