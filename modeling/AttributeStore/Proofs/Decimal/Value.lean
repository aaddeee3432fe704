import AttributeStore.Proofs.Decimal.Text
import Mathlib.Data.Rat.Cast.Order
import Mathlib.Data.Set.Basic

/-!
# The numbers of decimal texts

A decimal text stands for a rational number, and one number has many texts: signs, zeros, points
and exponents can be written or left out. The texts of integers are one for each number.
-/

namespace AttributeStore.Decimal

def Literal.value (literal : Literal) : ℚ :=
  (if literal.negative then -1 else 1) * literal.significand * 10 ^ literal.exponent

def value? (text : String) : Option ℚ :=
  (Literal.parse text.toList).map Literal.value

/-- Two decimal texts stand for one number. -/
def SameNumber (left right : String) : Prop :=
  ∃ number, value? left = some number ∧ value? right = some number

/-- Texts of which no two stand for one number. -/
def SpelledOnce (texts : Set String) : Prop :=
  ∀ left ∈ texts, ∀ right ∈ texts, SameNumber left right → left = right

theorem isSome_value? (text : String) : (value? text).isSome = isDecimal text := by
  rw [isDecimal_eq_isSome_parse]
  exact Option.isSome_map

theorem SameNumber.refl {text : String} (h : isDecimal text = true) : SameNumber text text := by
  rw [← isSome_value?] at h
  obtain ⟨number, hnumber⟩ := Option.isSome_iff_exists.1 h
  exact ⟨number, hnumber, hnumber⟩

/-! ## Integers -/

theorem ofDigits_digits (n : Nat) : ofDigits (digits n) = n :=
  Nat.ofDigitChars_toDigits (by decide) (by decide)

def signedDigits (sign digits : List Char) : Int :=
  if sign = ['-'] then -(ofDigits digits : Int) else ofDigits digits

section

variable (digits : List Char)

@[simp]
theorem signedDigits_nil : signedDigits [] digits = ofDigits digits := rfl

@[simp]
theorem signedDigits_plus : signedDigits ['+'] digits = ofDigits digits := rfl

@[simp]
theorem signedDigits_minus : signedDigits ['-'] digits = -ofDigits digits := rfl

end

theorem value?_of_digits {text : String} {sign digits : List Char}
    (htext : text.toList = sign ++ digits) (hs : IsSign sign) (hne : digits ≠ [])
    (hd : AllDigits digits) : value? text = some (signedDigits sign digits : ℚ) := by
  rw [value?, htext, parse_of_digits hs hne hd, Option.map_some, Literal.value,
    Literal.significand, Literal.exponent, List.append_nil, signedDigits]
  by_cases hminus : sign = ['-']
  · simp [hminus]
  · simp [hminus]

theorem exists_sign_integerText (value : Int) :
    ∃ sign, IsSign sign ∧ (integerText value).toList = sign ++ digits value.natAbs ∧
      signedDigits sign (digits value.natAbs) = value := by
  have hvalue (sign : List Char) : signedDigits sign (digits value.natAbs) =
      if sign = ['-'] then -(value.natAbs : Int) else value.natAbs := by
    rw [signedDigits, ofDigits_digits]
  rw [integerText, String.toList_ofList]
  by_cases hneg : value < 0
  · refine ⟨['-'], .minus, if_pos hneg, ?_⟩
    rw [hvalue, if_pos rfl]
    omega
  · refine ⟨[], .absent, if_neg hneg, ?_⟩
    rw [hvalue, if_neg (by decide)]
    omega

theorem value?_integerText (value : Int) : value? (integerText value) = some (value : ℚ) := by
  obtain ⟨sign, hs, htext, hvalue⟩ := exists_sign_integerText value
  rw [value?_of_digits htext hs Nat.toDigits_ne_nil isDigit_of_mem_digits, hvalue]

/-- The texts of integers spell each of them once. -/
theorem spelledOnce_integerText : SpelledOnce (Set.range integerText) := by
  rintro _ ⟨left, rfl⟩ _ ⟨right, rfl⟩ ⟨number, hleft, hright⟩
  rw [value?_integerText] at hleft hright
  have hsame : (left : ℚ) = right := Option.some.inj (hleft.trans hright.symm)
  rw [Int.cast_injective hsame]

end AttributeStore.Decimal
