import AttributeStore.Decimal.Binary
import AttributeStore.Decimal.Integer

/-!
# Numbers of a lenient reader

Every decimal literal is a number, whatever zeros stand in front of it and whether or not digits
stand on both sides of its point. One without point and exponent is an integer if 64 bits hold it,
with a sign only where a minus is written; any other is the floating number of 64 bits nearest to
it, which may be infinite. A floating number stands for an integer of a range when the integer
nearest to it within the range, cut off toward zero, is the same floating number again.
-/

namespace AttributeStore

namespace Decimal

/-- The value of a range that is nearest to an integer. -/
def IntegerKind.clamp (kind : IntegerKind) (value : Int) : Int :=
  max (-(kind.depth : Int)) (min kind.largest value)

def Binary.ofInt (format : Format) (value : Int) : Binary :=
  ⟨value < 0, format.nearest value.natAbs 1⟩

/-- The size of a number without its fraction. -/
def Binary.wholePart (format : Format) (x : Binary) : Nat :=
  format.units x.magnitude / twoTo format.scale

end Decimal

namespace Json

open Decimal

/-- A number that a lenient reader takes. -/
inductive Numeral
  | integer (value : Int)
  | floating (value : Binary)
deriving DecidableEq, Repr

namespace Numeral

def integer? (text : List Char) : Option Int :=
  let kind := if text.head? = some '-' then IntegerKind.int64 else .nat64
  (readInteger kind text).toOption

def ofText? (text : List Char) : Option Numeral :=
  match integer? text with
  | some value => some (integer value)
  | none => (Literal.parse text).map fun literal => floating (Binary.ofLiteral .double literal)

def isFinite : Numeral → Bool
  | integer _ => true
  | floating value => value.isFinite .double

def toInteger? (kind : IntegerKind) : Numeral → Option Int
  | integer value => if kind.Fits value then some value else none
  | floating value =>
    let size : Int := value.wholePart .double
    let integer := kind.clamp (if value.negative then -size else size)
    if (Binary.ofInt .double integer).signed = value.signed then some integer else none

end Numeral

end Json

end AttributeStore
