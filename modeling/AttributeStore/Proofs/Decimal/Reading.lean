import AttributeStore.Number
import AttributeStore.Proofs.Decimal.Grammar

/-!
# Decimal texts are numbers

The floating number nearest to a decimal text exists and is never the one that stands for no
number, so any two decimal texts have an order.
-/

namespace AttributeStore.Decimal

theorem Format.nearest_le (format : Format) (n d : Nat) : format.nearest n d ≤ format.infinity :=
  Nat.min_le_left _ _

theorem Format.nearestDecimal_le (format : Format) (significand : Nat) (exponent : Int) :
    format.nearestDecimal significand exponent ≤ format.infinity := by
  unfold nearestDecimal
  dsimp only
  split
  · exact Nat.zero_le _
  · split
    · exact Nat.le_refl _
    · split
      · exact format.nearest_le _ _
      · exact format.nearest_le _ _

theorem Binary.isNaN_ofLiteral (format : Format) (literal : Literal) :
    (Binary.ofLiteral format literal).isNaN format = false :=
  decide_eq_false (Nat.not_lt.2 (format.nearestDecimal_le _ _))

theorem not_digit_of_toLower {c letter : Char} (h : c.toLower = letter)
    (hdigit : letter.isDigit = false) (hpoint : letter ≠ '.') : c.isDigit = false ∧ c ≠ '.' := by
  constructor
  · cases hd : c.isDigit with
    | false => rfl
    | true =>
      have hlower : c.toLower = c := by
        unfold Char.toLower
        rw [dif_neg]
        rintro ⟨hupper, _⟩
        simp only [Char.isDigit, Bool.and_eq_true, decide_eq_true_eq] at hd
        have hle : 'A'.val ≤ '9'.val := UInt32.le_trans hupper hd.2
        revert hle
        decide
      rw [← h, hlower, hd] at hdigit
      cases hdigit
  · rintro rfl
    exact hpoint (h.symm.trans (by decide))

/-- A text that is a word after its sign is no decimal number. -/
theorem parse_word {text word : List Char} {letter : Char}
    (h : (splitSign text).2.map Char.toLower = letter :: word)
    (hdigit : letter.isDigit = false) (hpoint : letter ≠ '.') : Literal.parse text = none := by
  unfold Literal.parse
  generalize splitSign text = signed at h ⊢
  obtain ⟨negative, unsigned⟩ := signed
  cases unsigned with
  | nil => cases h
  | cons c rest =>
    obtain ⟨hdigit, hpoint⟩ := not_digit_of_toLower (List.cons.inj h).1 hdigit hpoint
    have hscan : Literal.scanMantissa (c :: rest) = ([], [], c :: rest) := by
      unfold Literal.scanMantissa
      rw [List.takeWhile_cons_of_neg (by simp [hdigit]),
        List.dropWhile_cons_of_neg (by simp [hdigit])]
      split
      · rename_i heq
        exact (hpoint (List.cons.inj heq).1).elim
      · rfl
    simp only [hscan]

theorem Binary.ofText?_of_parse (format : Format) {text : List Char} {literal : Literal}
    (h : Literal.parse text = some literal) :
    Binary.ofText? format text = some (ofLiteral format literal) := by
  have hword : ∀ letter word, letter.isDigit = false → letter ≠ '.' →
      (splitSign text).2.map Char.toLower ≠ letter :: word := by
    intro letter word hdigit hpoint hlower
    rw [parse_word hlower hdigit hpoint] at h
    cases h
  unfold ofText?
  dsimp only
  rw [if_neg, if_neg, h]
  · rfl
  · exact hword 'n' _ (by decide) (by decide)
  · rintro (hinf | hinfinity)
    · exact hword 'i' _ (by decide) (by decide) hinf
    · exact hword 'i' _ (by decide) (by decide) hinfinity

/-- A decimal text stands for a number. -/
theorem Binary.ofText?_of_isDecimal (format : Format) {text : String}
    (h : isDecimal text = true) :
    ∃ x, Binary.ofText? format text.toList = some x ∧ x.isNaN format = false := by
  rw [isDecimal_eq_isSome_parse] at h
  obtain ⟨literal, hparse⟩ := Option.isSome_iff_exists.1 h
  exact ⟨_, ofText?_of_parse format hparse, isNaN_ofLiteral format literal⟩

end AttributeStore.Decimal
