import AttributeStore.Proofs.Decimal.Integer
import AttributeStore.Proofs.Decimal.Reading

/-!
# Numbers and their texts

Which texts are accepted as numbers, and what is read back from them: every number stands for a
floating one, and those that are written as integers of 64 bits are read as these integers.
-/

namespace AttributeStore.Number

open Decimal

theorem ofText?_eq_some_iff {text : String} {number : Number} :
    ofText? text = some number ↔ isDecimal text = true ∧ number = ⟨text⟩ := by
  rw [ofText?, Option.ite_none_right_eq_some, Option.some_inj, @eq_comm _ number]

/-- Exactly the decimal numbers are accepted, as they are written, and each stands for a floating
number. -/
theorem ofText?_accepts_numerals (text : String) :
    (∀ number, ofText? text = some number ↔ IsNumeral text.toList ∧ number.text = text) ∧
      (IsNumeral text.toList → ∃ x, toDouble? ⟨text⟩ = some x ∧ x.isNaN .double = false) := by
  constructor
  · intro number
    rw [ofText?_eq_some_iff, isDecimal_iff]
    obtain ⟨held⟩ := number
    rw [mk.injEq]
  · intro h
    exact Binary.ofText?_of_isDecimal .double (isDecimal_iff.2 h)

/-- A number may have its point in front and signs on both sides of its letter. -/
theorem ofText?_accepts_numerals_signed :
    IsNumeral "-.5e+1".toList ∧ ofText? "-.5e+1" = some ⟨"-.5e+1"⟩ ∧
      ∃ x, toDouble? ⟨"-.5e+1"⟩ = some x ∧ x.isNaN .double = false := by
  have hnumeral : IsNumeral "-.5e+1".toList :=
    .mk .minus (.fractional (List.cons_ne_nil '5' []) (by decide))
      (.power (.inl rfl) .plus (List.cons_ne_nil '1' []) (by decide))
  obtain ⟨haccepted, hdouble⟩ := ofText?_accepts_numerals "-.5e+1"
  exact ⟨hnumeral, (haccepted _).2 ⟨hnumeral, rfl⟩, hdouble hnumeral⟩

example : ¬ IsNumeral "1.2.3".toList ∧ ¬ IsNumeral "1e".toList ∧ ¬ IsNumeral ".".toList := by
  decide

/-! ## Integers -/

theorem toInt64?_eq_some_iff {number : Number} {k : Int} :
    number.toInt64? = some k ↔ readInteger .int64 number.text.toList = .ok k := by
  rw [toInt64?]
  cases readInteger .int64 number.text.toList with
  | error cause => exact ⟨nofun, nofun⟩
  | ok held => simp [Except.toOption]

theorem fits_int64_iff {k : Int} :
    IntegerKind.int64.Fits k ↔ -2 ^ 63 ≤ k ∧ k ≤ 2 ^ 63 - 1 := Iff.rfl

/-- The texts of integers are accepted and give those of 64 bits back. Of the texts that are
accepted, signed texts of digits are read as integers, as long as these have 64 bits. -/
theorem integers_survive_text :
    (∀ value : Int, ofText? (ofInt value).text = some (ofInt value) ∧
      (ofInt value).toInt64? =
        if -2 ^ 63 ≤ value ∧ value ≤ 2 ^ 63 - 1 then some value else none) ∧
    ∀ text number, ofText? text = some number → ∀ k : Int,
      number.toInt64? = some k ↔
        IsIntegerText text.toList ∧ value? text = some (k : ℚ) ∧
          -2 ^ 63 ≤ k ∧ k ≤ 2 ^ 63 - 1 := by
  have hread (text : String) (k : Int) : toInt64? ⟨text⟩ = some k ↔
      IsIntegerText text.toList ∧ value? text = some (k : ℚ) ∧ -2 ^ 63 ≤ k ∧ k ≤ 2 ^ 63 - 1 := by
    rw [toInt64?_eq_some_iff, readInteger_eq_ok_iff rfl, fits_int64_iff]
  constructor
  · intro value
    refine ⟨ofText?_eq_some_iff.2 ⟨isDecimal_integerText value, rfl⟩, ?_⟩
    have hvalue := value?_integerText value
    split
    · rename_i hfits
      exact (hread _ value).2 ⟨isIntegerText_integerText value, hvalue, hfits⟩
    · rename_i hfits
      refine Option.eq_none_iff_forall_ne_some.2 fun k hk => hfits ?_
      obtain ⟨-, hk, hfitsk⟩ := (hread _ k).1 hk
      have hsame : (value : ℚ) = k := Option.some.inj (hvalue.symm.trans hk)
      rwa [Int.cast_injective hsame]
  · intro text number h k
    obtain ⟨-, rfl⟩ := ofText?_eq_some_iff.1 h
    exact hread text k

/-- The least integer is read, also after a zero; one more than the largest is accepted but not
read. -/
theorem integers_survive_text_ends :
    ofText? "-09223372036854775808" = some ⟨"-09223372036854775808"⟩ ∧
      toInt64? ⟨"-09223372036854775808"⟩ = some (-2 ^ 63) ∧
      ofText? (ofInt (2 ^ 63)).text = some (ofInt (2 ^ 63)) ∧
      (ofInt (2 ^ 63)).toInt64? = none := by
  have haccepted : ofText? "-09223372036854775808" = some ⟨"-09223372036854775808"⟩ := by decide
  have hdigits : AllDigits "09223372036854775808".toList := by decide
  have htext : IsIntegerText "-09223372036854775808".toList := .mk .minus (by decide) hdigits
  have hvalue : value? "-09223372036854775808" = some ((-2 ^ 63 : Int) : ℚ) := by
    decide +kernel
  obtain ⟨hprinted, hread⟩ := integers_survive_text
  refine ⟨haccepted, ?_, (hprinted (2 ^ 63)).1, (hprinted (2 ^ 63)).2⟩
  exact (hread _ _ haccepted (-2 ^ 63)).2 ⟨htext, hvalue, by decide⟩

end AttributeStore.Number
