import ElementManifest.Decimal.Binary64

/-!
# The shortest decimal that reads back

The decimal written for a number is the one with the fewest digits among those
whose nearest number it is, and of these the one closest to it, the greater of
two that are equally close. It is written in plain notation: no exponent, no
point behind a whole number.
-/

namespace ElementManifest.Decimal

/-- `digits · 10 ^ power`. -/
structure Scaled where
  digits : Nat
  power : Int
  deriving DecidableEq, Repr

/-- The decimals that read back as a positive number: the reals from `low` to
`high`, in units of a quarter of its last binary place, with the two ends when
`closed`. -/
structure Interval where
  low : Nat
  value : Nat
  high : Nat
  closed : Bool

/-- The interval of a number. Below a power of two the numbers lie twice as
dense as above it. -/
def Binary64.interval (x : Binary64) : Interval where
  low := 4 * x.mant - (if x.mant = Nat.pow 2 52 ∧ -1074 < x.expo then 1 else 2)
  value := 4 * x.mant
  high := 4 * x.mant + 2
  closed := x.mant % 2 = 0

/-- Whether `n / d` units lie in the interval. -/
def Interval.holds (i : Interval) (n d : Nat) : Bool :=
  if i.closed then i.low * d ≤ n && n ≤ i.high * d else i.low * d < n && n < i.high * d

/-- A decimal in units of a quarter of the last place of `x`, as a fraction. -/
def Binary64.inUnits (x : Binary64) (d : Scaled) : Nat × Nat :=
  let (n, m) := if 0 ≤ d.power then (d.digits * Nat.pow 10 d.power.toNat, 1)
    else (d.digits, Nat.pow 10 (-d.power).toNat)
  let q := x.expo - 2
  if 0 ≤ q then (n, m * Nat.pow 2 q.toNat) else (n * Nat.pow 2 (-q).toNat, m)

/-- The two decimals around `x` on the grid of `10 ^ power`. -/
def Binary64.neighbours (x : Binary64) (power : Int) : Scaled × Scaled :=
  let (n, d) := x.toFraction
  let below :=
    if 0 ≤ power then n / (d * Nat.pow 10 power.toNat) else n * Nat.pow 10 (-power).toNat / d
  (⟨below, power⟩, ⟨below + 1, power⟩)

/-- The neighbour of `x` on the grid of `10 ^ power` that reads back, the closer
one if both do, and of two equally close ones the greater. -/
def Binary64.onGrid (x : Binary64) (power : Int) : Option Scaled :=
  let i := x.interval
  let (below, above) := x.neighbours power
  let (bn, bd) := x.inUnits below
  let (an, ad) := x.inUnits above
  match i.holds bn bd, i.holds an ad with
  | true, true =>
    if (i.value * bd - bn) * ad < (an - i.value * ad) * bd then some below else some above
  | true, false => some below
  | false, true => some above
  | false, false => none

/-- The first grid, from the power `power` downwards, that has a decimal. -/
def Binary64.searchGrids (x : Binary64) (power : Int) : Nat → Scaled
  | 0 => (x.neighbours power).1
  | more + 1 =>
    match x.onGrid power with
    | some d => d
    | none => x.searchGrids (power - 1) more

/-- The shortest decimal of a number. Seventeen digits always suffice. -/
def Binary64.shortest (x : Binary64) : Scaled :=
  if x.mant = 0 then ⟨0, 0⟩
  else
    let (n, d) := x.toFraction
    let places : Int := (Nat.toDigits 10 n).length - (Nat.toDigits 10 d).length
    x.searchGrids places 19

/-- A decimal in plain notation. -/
def Scaled.plain (d : Scaled) : List Char :=
  let ds := Nat.toDigits 10 d.digits
  if 0 ≤ d.power then
    if d.digits = 0 then ['0'] else ds ++ List.replicate d.power.toNat '0'
  else
    let places := (-d.power).toNat
    let ds := List.replicate (places + 1 - ds.length) '0' ++ ds
    let whole := ds.take (ds.length - places)
    let part := (ds.drop (ds.length - places)).reverse.dropWhile (· == '0')
    if part.isEmpty then whole else whole ++ '.' :: part.reverse

/-- The text of a number, with a word for what lies beyond them all. -/
def plainText : Option Binary64 → String
  | none => "inf"
  | some x => String.ofList x.shortest.plain

example : plainText (Binary64.ofDecimal 1 (-1)) = "0.1" := by decide +kernel
example : plainText (Binary64.ofDecimal 1 21) = "1000000000000000000000" := by decide +kernel
example : plainText (Binary64.ofDecimal 9007199254740993 0) = "9007199254740992" := by
  decide +kernel

end ElementManifest.Decimal
