import AttributeStore.Decimal.Integer
import AttributeStore.Decimal.Shortest

/-!
# Numbers

A number is kept as decimal text, so that no precision is lost on its way to the store and back.
Texts that come from callers are checked against the decimal grammar; those that come from the
store are taken as they are.
-/

namespace AttributeStore

/-- A number, as its text. -/
structure Number where
  text : String
deriving DecidableEq, Repr

namespace Number

open Decimal

def ofText? (text : String) : Option Number :=
  if isDecimal text then some ⟨text⟩ else none

def ofInt (value : Int) : Number :=
  ⟨integerText value⟩

/-- The number of a floating one, unless it is infinite or no number. -/
def ofBinary? (format : Format) (x : Binary) : Option Number :=
  if x.isFinite format then some ⟨x.text format⟩ else none

def toInt64? (number : Number) : Option Int :=
  (readInteger .int64 number.text.toList).toOption

/-- The nearest floating number of 64 bits, if the text stands for one. -/
def toDouble? (number : Number) : Option Binary :=
  Binary.ofText? .double number.text.toList

end Number

end AttributeStore
