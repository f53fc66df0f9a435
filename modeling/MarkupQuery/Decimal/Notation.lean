import MarkupQuery.Decimal.Shortest

/-!
# Written numbers

How a floating-point number is written, and how digits are read.  Both notations of this library
write the shortest decimal that reads back; `Layout` holds what they differ in.
-/

namespace MarkupQuery.Decimal

/-- What a way to write numbers decides besides the digits. -/
structure Layout where
  /-- Whether a number with this exponent of its leading digit is written without an exponent. -/
  positional : Int → Bool
  /-- What follows the digits of a whole number. -/
  wholeEnd : String
  /-- The two zeros. -/
  zero : String
  negativeZero : String
  infinity : String
  notANumber : String

/-- The notation of path expressions: never an exponent, whole numbers without a point, one zero. -/
def Layout.plain : Layout where
  positional := fun _ => true
  wholeEnd := ""
  zero := "0"
  negativeZero := "0"
  infinity := "Infinity"
  notANumber := "NaN"

/-- The notation of messages: an exponent from `10 ^ 16` on and below `10 ^ -4`, and a fraction
that is always written. -/
def Layout.diagnostic : Layout where
  positional := fun e => -4 ≤ e && e < 16
  wholeEnd := ".0"
  zero := "0.0"
  negativeZero := "-0.0"
  infinity := "inf"
  notANumber := "NaN"

/-- Digits with a decimal point: `e` is the exponent of the last of them. -/
def positionalText (wholeEnd : String) (digits : List Char) (e : Int) : String :=
  if 0 ≤ e then String.ofList (digits ++ List.replicate e.toNat '0') ++ wholeEnd
  else
    let places := (-e).toNat
    if places < digits.length then
      let whole := digits.length - places
      String.ofList (digits.take whole) ++ "." ++ String.ofList (digits.drop whole)
    else "0." ++ String.ofList (List.replicate (places - digits.length) '0' ++ digits)

/-- One digit, the others behind a point, and the exponent of the first. -/
def exponentText (digits : List Char) (leading : Int) : String :=
  let tail := digits.drop 1
  String.ofList (digits.take 1) ++ (if tail.isEmpty then "" else "." ++ String.ofList tail) ++
    "e" ++ toString leading

/-- A positive decimal in a layout.  Zeros at the end of the coefficient go to the exponent. -/
def Layout.writeDecimal (layout : Layout) (d : Scaled) : String :=
  let all := Nat.toDigits 10 d.coefficient
  let digits := (all.reverse.dropWhile (· == '0')).reverse
  let e := d.exponent + (all.length - digits.length : Nat)
  let leading := e + digits.length - 1
  if layout.positional leading then positionalText layout.wholeEnd digits e
  else exponentText digits leading

/-- A number in a layout. -/
def Layout.write (layout : Layout) (x : Float) : String :=
  match Dyadic.ofFloat? x with
  | none =>
    if x.isNaN then layout.notANumber
    else if x < 0 then "-" ++ layout.infinity else layout.infinity
  | some d =>
    if d.mantissa = 0 then if d.negative then layout.negativeZero else layout.zero
    else (if d.negative then "-" else "") ++ layout.writeDecimal (shortest d)

/-- The number that decimal digits stand for. -/
def natOfDigits (digits : List Char) : Nat :=
  digits.foldl (fun n c => 10 * n + (c.toNat - '0'.toNat)) 0

/-- The floating-point number nearest to the given whole digits and decimal places. -/
def ofDigits (whole places : List Char) : Float :=
  Float.ofScientific (natOfDigits (whole ++ places)) true places.length

end MarkupQuery.Decimal
