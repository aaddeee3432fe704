import AttributeStore.Proofs.Decimal.Nearest
import AttributeStore.Proofs.Store.KeyOrder

/-!
# The order of numbers

The store orders numbers by the doubles that are nearest to them. So it never puts two numbers the
wrong way round, and numbers that are doubles stand in their exact order; but different numbers
that become one double are equal for it.
-/

namespace AttributeStore.Store

open Decimal (Binary Literal value?)

theorem numberRank_of_parse {text : String} {literal : Literal}
    (h : Literal.parse text.toList = some literal) :
    numberRank (some (.leaf (.number text))) = (Binary.ofLiteral .double literal).signed := by
  have hdouble : Number.toDouble? ⟨text⟩ = some (Binary.ofLiteral .double literal) :=
    Binary.ofText?_of_parse .double h
  rw [numberRank, hdouble]
  rfl

theorem exists_literal {text : String} {number : Number} (h : Number.ofText? text = some number) :
    number = ⟨text⟩ ∧ Decimal.isDecimal text = true ∧
      ∃ literal, Literal.parse text.toList = some literal ∧
        value? text = some literal.value := by
  obtain ⟨hdecimal, hnumber⟩ := Option.ite_none_right_eq_some.1 h
  have hparse := hdecimal
  rw [Decimal.isDecimal_eq_isSome_parse] at hparse
  obtain ⟨literal, hliteral⟩ := Option.isSome_iff_exists.1 hparse
  refine ⟨(Option.some.inj hnumber).symm, hdecimal, literal, hliteral, ?_⟩
  rw [value?, hliteral, Option.map_some]

/-- The order of two numbers is that of doubles nearest to them. It is the order of the numbers
themselves exactly if they are no different numbers that become one double, and always if both are
doubles. -/
theorem numbers_ordered_as_doubles {left right : String} {a b : Number}
    (ha : Number.ofText? left = some a) (hb : Number.ofText? right = some b) :
    ∃ p q x y, value? left = some p ∧ value? right = some q ∧
      Binary.IsNearest .double p x ∧ Binary.IsNearest .double q y ∧
      compareAttributes? (.leaf (.number a.text)) (.leaf (.number b.text)) =
        some (compare (x.value .double) (y.value .double)) ∧
      (compareAttributes? (.leaf (.number a.text)) (.leaf (.number b.text)) =
          some (compare p q) ↔
        (x.value .double = y.value .double → p = q)) ∧
      (Binary.Represents .double p → Binary.Represents .double q →
        compareAttributes? (.leaf (.number a.text)) (.leaf (.number b.text)) =
          some (compare p q)) := by
  obtain ⟨rfl, hl, literal, hleft, hp⟩ := exists_literal ha
  obtain ⟨rfl, hr, literal', hright, hq⟩ := exists_literal hb
  have hx := Binary.isNearest_ofLiteral Decimal.Format.bounded_double literal
  have hy := Binary.isNearest_ofLiteral Decimal.Format.bounded_double literal'
  have horder := compareAttributes?_number hl hr
  rw [numberRank_of_parse hleft, numberRank_of_parse hright, Binary.compare_signed .double]
    at horder
  refine ⟨_, _, _, _, hp, hq, hx, hy, horder, ?_, ?_⟩
  · rw [horder, Option.some_inj, hx.compare_eq_iff hy]
  · intro hleft hright
    rw [horder, hx.value_eq hleft, hy.value_eq hright]

/-- A thousand is more than nine hundred and ninety-nine and a half. -/
theorem numbers_ordered_as_doubles_thousand :
    Number.ofText? "1e3" = some ⟨"1e3"⟩ ∧ Number.ofText? "999.5" = some ⟨"999.5"⟩ ∧
      compareAttributes? (.leaf (.number "1e3")) (.leaf (.number "999.5")) = some .gt := by
  have hthousand : value? "1e3" = some 1000 := by decide +kernel
  have hless : value? "999.5" = some (1999 / 2) := by decide +kernel
  obtain ⟨p, q, -, -, hp, hq, -, -, -, -, hexact⟩ :=
    @numbers_ordered_as_doubles "1e3" "999.5" _ _ rfl rfl
  obtain rfl : p = 1000 := Option.some.inj (hp.symm.trans hthousand)
  obtain rfl : q = 1999 / 2 := Option.some.inj (hq.symm.trans hless)
  refine ⟨rfl, rfl, (hexact ⟨Binary.ofLiteral .double ⟨false, ['1'], [], 3⟩, ?_, ?_⟩
    ⟨Binary.ofLiteral .double ⟨false, ['9', '9', '9'], ['5'], 0⟩, ?_, ?_⟩).trans ?_⟩
  all_goals decide +kernel

/-- Two numbers that follow each other become one double. -/
theorem equal_neighbours :
    value? "9007199254740992" = some 9007199254740992 ∧
    value? "9007199254740993" = some 9007199254740993 ∧
    compareAttributes? (.leaf (.number "9007199254740992")) (.leaf (.number "9007199254740993")) =
      some .eq :=
  ⟨by decide +kernel, by decide +kernel, by decide +kernel⟩

end AttributeStore.Store
