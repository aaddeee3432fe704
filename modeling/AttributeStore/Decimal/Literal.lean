/-!
# Decimal literals

The text of a decimal number: an optional sign, digits with an optional point among or beside
them, and an optional exponent. `Literal.parse` takes such a text apart; what it stands for is
`significand * 10 ^ exponent`, negated when `negative` holds. `isDecimal` only checks a text, by
cutting it at its first exponent letter and at its first point.
-/

namespace AttributeStore.Decimal

/-- The sign in front of a text, true for a minus, and the text after it. -/
def splitSign : List Char → Bool × List Char
  | '-' :: rest => (true, rest)
  | '+' :: rest => (false, rest)
  | text => (false, text)

def ofDigits (digits : List Char) : Nat :=
  digits.foldl (fun value digit => 10 * value + (digit.toNat - '0'.toNat)) 0

/-- The decimal digits of a number, without leading zeros; zero has one digit. -/
def digits (n : Nat) : List Char :=
  Nat.toDigits 10 n

def integerText (value : Int) : String :=
  String.ofList (if value < 0 then '-' :: digits value.natAbs else digits value.natAbs)

/-- A number as its text gives it. -/
structure Literal where
  /-- Whether a minus stands in front. -/
  negative : Bool
  /-- The digits before the point. -/
  integer : List Char
  /-- The digits after the point. -/
  fraction : List Char
  /-- The power of ten after the exponent letter, zero without one. -/
  power : Int
deriving DecidableEq, Repr

namespace Literal

/-- The digits at the head of a text, those after a point that follows them, and the rest. -/
def scanMantissa (text : List Char) : List Char × List Char × List Char :=
  let integer := text.takeWhile Char.isDigit
  match text.dropWhile Char.isDigit with
  | '.' :: rest => (integer, rest.takeWhile Char.isDigit, rest.dropWhile Char.isDigit)
  | rest => (integer, [], rest)

/-- The power of ten that an exponent names: nothing, or a letter `e` and a signed number. -/
def scanPower : List Char → Option Int
  | [] => some 0
  | letter :: rest =>
    if letter = 'e' ∨ letter = 'E' then
      match splitSign rest with
      | (_, []) => none
      | (negative, power) =>
        if power.all Char.isDigit then
          some (if negative then -(ofDigits power : Int) else ofDigits power)
        else none
    else none

/-- The parts of a decimal text; none when the text is no decimal number. -/
def parse (text : List Char) : Option Literal :=
  let (negative, unsigned) := splitSign text
  match scanMantissa unsigned with
  | ([], [], _) => none
  | (integer, fraction, rest) =>
    (scanPower rest).map fun power => { negative, integer, fraction, power }

/-- All digits of the number read as one natural number. -/
def significand (literal : Literal) : Nat :=
  ofDigits (literal.integer ++ literal.fraction)

def exponent (literal : Literal) : Int :=
  literal.power - literal.fraction.length

end Literal

/-- What stands in front of the first character of a kind, and what follows that character if
there is one. -/
def cutAt (cut : Char → Bool) : List Char → List Char × Option (List Char)
  | [] => ([], none)
  | c :: rest =>
    if cut c then ([], some rest)
    else
      let (front, back) := cutAt cut rest
      (c :: front, back)

def isExponentLetter (c : Char) : Bool :=
  c = 'e' || c = 'E'

def isDecimal (text : String) : Bool :=
  let (mantissa, exponent) := cutAt isExponentLetter (splitSign text.toList).2
  let (integer, fraction) := cutAt (· = '.') mantissa
  let fraction := fraction.getD []
  if integer.isEmpty && fraction.isEmpty then false
  else if !(integer.all Char.isDigit && fraction.all Char.isDigit) then false
  else match exponent with
    | none => true
    | some exponent =>
      let power := (splitSign exponent).2
      !power.isEmpty && power.all Char.isDigit

end AttributeStore.Decimal
