import AttributeStore.Decimal.Literal
import AttributeStore.Decimal.Power

/-!
# Integers of bounded width

Reading a text as an integer that has to fit a number of bits. The text is read from the left,
and the first character that is no digit or that takes the value out of range decides the error.
-/

namespace AttributeStore.Decimal

/-- A range of machine integers: how many bits there are, and whether one of them is a sign. -/
structure IntegerKind where
  /-- Whether negative values exist. -/
  signed : Bool
  /-- The number of bits. -/
  bits : Nat
deriving DecidableEq, Repr

namespace IntegerKind

def int64 : IntegerKind := ⟨true, 64⟩

def nat64 : IntegerKind := ⟨false, 64⟩

def nat32 : IntegerKind := ⟨false, 32⟩

def largest (kind : IntegerKind) : Nat :=
  if kind.signed then twoTo (kind.bits - 1) - 1 else twoTo kind.bits - 1

/-- The size of the smallest value, which is not positive. -/
def depth (kind : IntegerKind) : Nat :=
  if kind.signed then twoTo (kind.bits - 1) else 0

def Fits (kind : IntegerKind) (value : Int) : Prop :=
  -(kind.depth : Int) ≤ value ∧ value ≤ kind.largest

instance (kind : IntegerKind) (value : Int) : Decidable (kind.Fits value) :=
  inferInstanceAs (Decidable (_ ∧ _))

end IntegerKind

/-- Why a text is no integer of a range. -/
inductive IntegerError
  | empty
  | invalidDigit
  | tooLarge
  | tooSmall
deriving DecidableEq, Repr

def IntegerError.message : IntegerError → String
  | empty => "cannot parse integer from empty string"
  | invalidDigit => "invalid digit found in string"
  | tooLarge => "number too large to fit in target type"
  | tooSmall => "number too small to fit in target type"

/-- The number that digits stand for after a value read so far, as long as it stays below a
bound. -/
def readDigits (bound : Nat) (excess : IntegerError) :
    Nat → List Char → Except IntegerError Nat
  | value, [] => .ok value
  | value, c :: rest =>
    if c.isDigit then
      let next := 10 * value + (c.toNat - '0'.toNat)
      if bound < next then .error excess else readDigits bound excess next rest
    else .error .invalidDigit

/-- The integer that a text stands for. Only a signed range takes a minus, and any range one
plus. -/
def readInteger (kind : IntegerKind) (text : List Char) : Except IntegerError Int :=
  match text with
  | [] => .error .empty
  | ['+'] | ['-'] => .error .invalidDigit
  | '+' :: rest => (readDigits kind.largest .tooLarge 0 rest).map Int.ofNat
  | '-' :: rest =>
    if kind.signed then (readDigits kind.depth .tooSmall 0 rest).map fun n => -Int.ofNat n
    else .error .invalidDigit
  | text => (readDigits kind.largest .tooLarge 0 text).map Int.ofNat

end AttributeStore.Decimal
