import AttributeStore.Decimal.Binary

/-!
# Shortest decimal text

The fewest digits from which a floating number reads back, and among those the nearest to it,
written with a point and never with an exponent.

A decimal reads back when it lies between the two midpoints with the neighbouring values, the
midpoints themselves included for an even magnitude. If any point of a decimal grid lies there,
so does one of the two grid points around the value, and only those are tried.
-/

namespace AttributeStore.Decimal

/-- A positive decimal `0.d₁d₂… * 10 ^ point`. -/
structure Digits where
  /-- The digits after the point. -/
  digits : List Char
  /-- How far the point stands to the right of its place in front of the digits. -/
  point : Int
deriving DecidableEq, Repr

namespace Digits

def trimZeros (digits : List Char) : List Char :=
  (digits.reverse.dropWhile (· = '0')).reverse

/-- The number `count * 10 ^ exponent`. -/
def ofCount (count : Nat) (exponent : Int) : Digits :=
  let all := Decimal.digits count
  ⟨trimZeros all, exponent + all.length⟩

def text (d : Digits) : List Char :=
  if d.point ≤ 0 then
    '0' :: '.' :: (List.replicate (-d.point).toNat '0' ++ d.digits)
  else
    let whole := d.point.toNat
    if d.digits.length ≤ whole then
      d.digits ++ List.replicate (whole - d.digits.length) '0'
    else d.digits.take whole ++ '.' :: d.digits.drop whole

end Digits

namespace Format

/-- The place of the first decimal digit of a positive quotient: the number of digits before the
point, or minus the number of zeros after it. -/
def leadingPlace (n d : Nat) : Int :=
  ((Decimal.digits (n * tenTo 400 / d)).length : Int) - 400

/-- A multiple of `10 ^ exponent` between two bounds over a divisor, the bounds included when
`closed` holds. -/
def between (closed : Bool) (low high d count : Nat) (exponent : Int) : Bool :=
  let scaled := if 0 ≤ exponent then count * tenTo exponent.toNat * d else count * d
  let factor := if 0 ≤ exponent then 1 else tenTo (-exponent).toNat
  if closed then low * factor ≤ scaled && scaled ≤ high * factor
  else low * factor < scaled && scaled < high * factor

/-- The decimal with a number of digits that reads back to a magnitude and is nearest to its
value, a tie going up. -/
def withDigits (format : Format) (magnitude count : Nat) : Option Digits :=
  let here := format.units magnitude
  let low := format.units (magnitude - 1) + here
  let high := here + format.units (magnitude + 1)
  let divisor := twoTo (format.scale + 1)
  let exponent := leadingPlace (2 * here) divisor - count
  let n := if 0 ≤ exponent then 2 * here else 2 * here * tenTo (-exponent).toNat
  let d := if 0 ≤ exponent then divisor * tenTo exponent.toNat else divisor
  let below := n / d
  let closed := magnitude % 2 = 0
  let fits := fun c => between closed low high divisor c exponent
  let ordered := if 2 * (n % d) < d then [below, below + 1] else [below + 1, below]
  (ordered.find? fits).map fun c => Digits.ofCount c exponent

/-- The shortest decimal that reads back to a positive finite magnitude; seventeen digits always
suffice. -/
def shortest (format : Format) (magnitude : Nat) : Digits :=
  ((List.range 17).findSome? fun count => format.withDigits magnitude (count + 1)).getD
    ⟨[], 0⟩

end Format

def Binary.text (format : Format) (x : Binary) : String :=
  if x.isNaN format then "NaN"
  else
    let body :=
      if x.magnitude = 0 then ['0']
      else if x.isFinite format then (format.shortest x.magnitude).text
      else "inf".toList
    String.ofList (if x.negative then '-' :: body else body)

end AttributeStore.Decimal
