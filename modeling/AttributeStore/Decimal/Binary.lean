import AttributeStore.Decimal.Literal
import AttributeStore.Decimal.Power

/-!
# Binary floating numbers

A floating number is a sign and a magnitude: the natural number that its exponent and fraction
bits form. Magnitudes grow with the values they stand for, so the order of finite numbers is the
order of signed magnitudes. `Format.nearest` rounds a quotient of naturals to the nearest value
of a format, a half going to the even neighbour.
-/

namespace AttributeStore.Decimal

/-- A quotient rounded to the nearest natural, a half going to the even one. -/
def roundHalfEven (n d : Nat) : Nat :=
  let quotient := n / d
  let rest := n % d
  if 2 * rest < d then quotient
  else if d < 2 * rest then quotient + 1
  else quotient + quotient % 2

structure Format where
  /-- The number of bits after the leading one. -/
  fractionBits : Nat
  /-- The smallest positive value is two to minus this power. -/
  scale : Nat
  /-- The magnitude of infinity; larger ones stand for no number. -/
  infinity : Nat
deriving DecidableEq, Repr

namespace Format

/-- Sixty-four bits: eleven for the exponent, fifty-two for the fraction. -/
def double : Format := ⟨52, 1074, 2047 * twoTo 52⟩

/-- Thirty-two bits: eight for the exponent, twenty-three for the fraction. -/
def single : Format := ⟨23, 149, 255 * twoTo 23⟩

/-- The value of a magnitude, counted in the smallest positive value of the format. -/
def units (format : Format) (magnitude : Nat) : Nat :=
  let one := twoTo format.fractionBits
  if magnitude < one then magnitude
  else (magnitude % one + one) * twoTo (magnitude / one - 1)

/-- The magnitude of the value nearest to a quotient. -/
def nearest (format : Format) (n d : Nat) : Nat :=
  let scaled := n * twoTo format.scale
  let shift := (scaled / d).log2 - format.fractionBits
  min format.infinity
    (shift * twoTo format.fractionBits + roundHalfEven scaled (d * twoTo shift))

/-- The magnitude of the value nearest to `significand * 10 ^ exponent`. Numbers beyond every
finite value or below half the smallest one are recognised by their digit count, so no power of
ten larger than needed is formed. -/
def nearestDecimal (format : Format) (significand : Nat) (exponent : Int) : Nat :=
  let top := exponent + (digits significand).length
  if significand = 0 ∨ top < -400 then 0
  else if 400 < top then format.infinity
  else if 0 ≤ exponent then format.nearest (significand * tenTo exponent.toNat) 1
  else format.nearest significand (tenTo (-exponent).toNat)

end Format

/-- A floating number of some format. -/
structure Binary where
  /-- Whether the sign bit is set. -/
  negative : Bool
  /-- The natural number that the other bits form. -/
  magnitude : Nat
deriving DecidableEq, Repr

namespace Binary

/-- The number of a sequence of bytes, the sign bit first. -/
def ofBytes (bytes : List UInt8) : Binary :=
  let sign := twoTo (8 * bytes.length - 1)
  let bits := bytes.foldl (fun bits byte => 256 * bits + byte.toNat) 0
  ⟨sign ≤ bits, bits % sign⟩

def bytes (count : Nat) (x : Binary) : List UInt8 :=
  let bits := (if x.negative then twoTo (8 * count - 1) else 0) + x.magnitude
  (List.range count).map fun i => UInt8.ofNat (bits / twoTo (8 * (count - 1 - i)))

/-- The magnitude with its sign; both zeros give zero. -/
def signed (x : Binary) : Int :=
  if x.negative then -(x.magnitude : Int) else x.magnitude

def isNaN (format : Format) (x : Binary) : Bool :=
  format.infinity < x.magnitude

def isFinite (format : Format) (x : Binary) : Bool :=
  x.magnitude < format.infinity

/-- The order of two numbers; none when one of them is no number. -/
def compare? (format : Format) (x y : Binary) : Option Ordering :=
  if x.isNaN format || y.isNaN format then none
  else some (compare x.signed y.signed)

def ofLiteral (format : Format) (literal : Literal) : Binary :=
  ⟨literal.negative, format.nearestDecimal literal.significand literal.exponent⟩

/-- The number that a text stands for: a decimal literal, or after an optional sign one of the
words `inf`, `infinity` and `nan` in any case. -/
def ofText? (format : Format) (text : List Char) : Option Binary :=
  let (negative, unsigned) := splitSign text
  let word := unsigned.map Char.toLower
  if word = "inf".toList ∨ word = "infinity".toList then some ⟨negative, format.infinity⟩
  else if word = "nan".toList then
    some ⟨negative, format.infinity + twoTo (format.fractionBits - 1)⟩
  else (Literal.parse text).map (ofLiteral format)

/-- The number of another format that is nearest; what is no number stays none. -/
def convert (source target : Format) (x : Binary) : Binary :=
  if x.isNaN source then ⟨x.negative, target.infinity + twoTo (target.fractionBits - 1)⟩
  else if x.isFinite source then
    ⟨x.negative, target.nearest (source.units x.magnitude) (twoTo source.scale)⟩
  else ⟨x.negative, target.infinity⟩

end Binary

end AttributeStore.Decimal
