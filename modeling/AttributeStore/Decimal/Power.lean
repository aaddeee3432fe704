/-!
# Powers

The powers of the two bases of number formats. `tenTo` scales decimals, `twoTo` scales what is
kept in bits.
-/

namespace AttributeStore.Decimal

def twoTo (exponent : Nat) : Nat :=
  Nat.pow 2 exponent

def tenTo (exponent : Nat) : Nat :=
  Nat.pow 10 exponent

theorem twoTo_zero : twoTo 0 = 1 := rfl

theorem twoTo_succ (exponent : Nat) : twoTo (exponent + 1) = twoTo exponent * 2 := rfl

end AttributeStore.Decimal
