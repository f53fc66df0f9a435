/-!
# Floating-point numbers as dyadic fractions

A finite floating-point number is a sign and a natural number times a power of two.  In this form
its digits and its truncated remainder are questions about natural numbers.
-/

namespace MarkupQuery.Decimal

/-- The number `± mantissa * 2 ^ exponent`. -/
structure Dyadic where
  negative : Bool
  mantissa : Nat
  exponent : Int
  deriving DecidableEq, Repr

namespace Dyadic

/-- The fraction and exponent fields of a finite number; subnormal numbers share the least
exponent with the smallest normal ones. -/
def ofFloat? (x : Float) : Option Dyadic :=
  let bits := x.toBits.toNat
  let negative := bits / Nat.pow 2 63 == 1
  let field : Nat := bits / Nat.pow 2 52 % Nat.pow 2 11
  let fraction := bits % Nat.pow 2 52
  if field = Nat.pow 2 11 - 1 then none
  else if field = 0 then some ⟨negative, fraction, -1074⟩
  else some ⟨negative, Nat.pow 2 52 + fraction, (field : Int) - 1075⟩

/-- The floating-point number nearest to a dyadic fraction.  A power of two with a negative
exponent is five to the opposite power behind as many decimal places. -/
def toFloat (d : Dyadic) : Float :=
  let size :=
    if 0 ≤ d.exponent then Float.ofScientific (d.mantissa * Nat.pow 2 d.exponent.toNat) false 0
    else Float.ofScientific (d.mantissa * Nat.pow 5 (-d.exponent).toNat) true (-d.exponent).toNat
  if d.negative then -size else size

/-- The remainder of the division rounded toward zero; it has the sign of the dividend. -/
def rem (a b : Dyadic) : Dyadic :=
  let e := min a.exponent b.exponent
  let scaled (d : Dyadic) : Nat := d.mantissa * Nat.pow 2 (d.exponent - e).toNat
  ⟨a.negative, scaled a % scaled b, e⟩

end Dyadic

/-- The value that is no number. -/
def notANumber : Float := 0 / 0

/-- The remainder `a - b * q`, where `q` is the quotient rounded toward zero.  There is none when
`a` is infinite or `b` is zero, and an infinite `b` leaves `a` as it is. -/
def remainder (a b : Float) : Float :=
  match Dyadic.ofFloat? a, Dyadic.ofFloat? b with
  | some x, some y => if y.mantissa = 0 then notANumber else (x.rem y).toFloat
  | some _, none => if b.isNaN then notANumber else a
  | none, _ => notANumber

end MarkupQuery.Decimal
