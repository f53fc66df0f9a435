import MarkupQuery.Decimal.Dyadic

/-!
# The shortest decimal that reads back

A positive floating-point number `m * 2 ^ q` stands for an interval of reals: those that round to
it.  `shortest` looks for a point of that interval on ever finer decimal grids, with one digit, two
digits and so on up to seventeen, and takes the first it finds; of two points on one grid it takes
the nearer to the number, and the greater when both are equally near.  All comparisons are between
natural numbers.
-/

namespace MarkupQuery.Decimal

/-- The number `coefficient * 10 ^ exponent`. -/
structure Scaled where
  coefficient : Nat
  exponent : Int
  deriving DecidableEq, Repr

/-- The number of decimal digits of a natural number, none for zero. -/
def digitCount (n : Nat) : Nat :=
  if n = 0 then 0 else (Nat.toDigits 10 n).length

/-- The exponent of the leading decimal digit of the fraction `num / den`, both positive. -/
def leadingExponent (num den : Nat) : Int :=
  if den ≤ num then (digitCount (num / den) : Int) - 1
  else -(digitCount ((den - 1) / num) : Int)

/-- The reals that round to a positive number, in quarters of the last binary place: from
`lower * unit` to `upper * unit` around `4 * mantissa * unit`, where `unit` is `2 ^ exponent`. -/
structure RoundingInterval where
  centre : Nat
  lower : Nat
  upper : Nat
  exponent : Int
  /-- Whether the two ends round to the number as well. -/
  closed : Bool

/-- Half a place to each side; below a power of two the places are half as wide. -/
def RoundingInterval.ofDyadic (d : Dyadic) : RoundingInterval :=
  let narrow := d.mantissa = Nat.pow 2 52 ∧ -1074 < d.exponent
  { centre := 4 * d.mantissa
    lower := if narrow then 4 * d.mantissa - 1 else 4 * d.mantissa - 2
    upper := 4 * d.mantissa + 2
    exponent := d.exponent - 2
    closed := d.mantissa % 2 = 0 }

/-- Factors that carry the interval's unit and the grid step `10 ^ e` to whole numbers: their
quotient is `2 ^ exponent / 10 ^ e`. -/
def RoundingInterval.scales (r : RoundingInterval) (e : Int) : Nat × Nat :=
  (Nat.pow 2 r.exponent.toNat * Nat.pow 10 (-e).toNat,
    Nat.pow 2 (-r.exponent).toNat * Nat.pow 10 e.toNat)

/-- The best multiple of `10 ^ e` that rounds to the number, if there is one.  Only the two
multiples around the number can be the best. -/
def RoundingInterval.onGrid? (r : RoundingInterval) (e : Int) : Option Nat :=
  let (s, t) := r.scales e
  let below := r.centre * s / t
  let above := below + 1
  let inside (c : Nat) : Bool :=
    if r.closed then r.lower * s ≤ c * t && c * t ≤ r.upper * s
    else r.lower * s < c * t && c * t < r.upper * s
  match inside below, inside above with
  | true, true =>
    some (if r.centre * s - below * t < above * t - r.centre * s then below else above)
  | true, false => some below
  | false, true => some above
  | false, false => none

/-- The first grid with a point of the interval, the finest being the last of the list. -/
def RoundingInterval.firstOnGrids (r : RoundingInterval) (top : Int) : List Nat → Scaled
  | [] => ⟨0, 0⟩
  | n :: rest =>
    match r.onGrid? (top - n) with
    | some c => ⟨c, top - n⟩
    | none => r.firstOnGrids top rest

/-- The shortest decimal that rounds to a positive number. -/
def shortest (d : Dyadic) : Scaled :=
  let r := RoundingInterval.ofDyadic d
  let (s, t) := r.scales 0
  r.firstOnGrids (leadingExponent (r.centre * s) t) (List.range 17)

end MarkupQuery.Decimal
