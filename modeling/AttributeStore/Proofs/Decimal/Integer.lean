import AttributeStore.Decimal.Integer
import AttributeStore.Proofs.Decimal.Value
import AttributeStore.Proofs.Success

/-!
# Reading integers

Digits are read from the left, and the value read so far never shrinks. So they are read as long
as the whole of them stays below the bound, and a signed text of digits is read as the number that
it stands for if that lies in the range.
-/

namespace AttributeStore.Decimal

/-! ## Digits -/

section Digits

variable {bound value n : Nat} {excess : IntegerError} {digits : List Char}

theorem le_ofDigitChars (digits : List Char) (value : Nat) :
    value ≤ Nat.ofDigitChars 10 digits value := by
  induction digits generalizing value with
  | nil => exact Nat.le_refl value
  | cons c rest ih =>
    have hnext := ih (10 * value + (c.toNat - '0'.toNat))
    rw [Nat.ofDigitChars_cons]
    omega

theorem readDigits_eq_ok_iff (h : value ≤ bound) :
    readDigits bound excess value digits = .ok n ↔
      AllDigits digits ∧ Nat.ofDigitChars 10 digits value = n ∧ n ≤ bound := by
  induction digits generalizing value with
  | nil =>
    have hnil : AllDigits [] := by decide
    rw [readDigits, Nat.ofDigitChars_nil, Except.ok.injEq]
    constructor
    · rintro rfl
      exact ⟨hnil, rfl, h⟩
    · exact fun hread => hread.2.1
  | cons c rest ih =>
    rw [readDigits, Nat.ofDigitChars_cons]
    by_cases hc : c.isDigit = true
    · rw [if_pos hc]
      by_cases hlarge : bound < 10 * value + (c.toNat - '0'.toNat)
      · have hgrows := le_ofDigitChars rest (10 * value + (c.toNat - '0'.toNat))
        simp only [hlarge, ↓reduceIte]
        constructor
        · intro h
          cases h
        · rintro ⟨-, rfl, hle⟩
          omega
      · simp only [hlarge, ↓reduceIte]
        rw [ih (Nat.not_lt.1 hlarge)]
        simp [AllDigits, hc]
    · rw [if_neg hc]
      constructor
      · intro h
        cases h
      · intro hread
        exact absurd (hread.1 c List.mem_cons_self) hc

end Digits

/-! ## Signs -/

/-- An integer as text: an optional sign and digits. -/
inductive IsIntegerText : List Char → Prop
  | mk {sign digits : List Char} : IsSign sign → digits ≠ [] → AllDigits digits →
      IsIntegerText (sign ++ digits)

theorem isIntegerText_integerText (value : Int) : IsIntegerText (integerText value).toList := by
  obtain ⟨sign, hs, htext, -⟩ := exists_sign_integerText value
  rw [htext]
  exact .mk hs Nat.toDigits_ne_nil isDigit_of_mem_digits

section Reading

variable {kind : IntegerKind} {k : Int} {text digits : List Char}

theorem readInteger_unsigned (hne : text ≠ []) (hu : splitSign text = (false, text)) :
    readInteger kind text = (readDigits kind.largest .tooLarge 0 text).map Int.ofNat := by
  unfold readInteger
  split
  · exact absurd rfl hne
  · cases hu
  · cases hu
  · cases hu
  · cases hu
  · rfl

theorem readInteger_plus (hne : digits ≠ []) :
    readInteger kind ('+' :: digits) =
      (readDigits kind.largest .tooLarge 0 digits).map Int.ofNat := by
  obtain ⟨c, rest, rfl⟩ := List.exists_cons_of_ne_nil hne
  rfl

theorem readInteger_minus (hkind : kind.signed = true) (hne : digits ≠ []) :
    readInteger kind ('-' :: digits) =
      (readDigits kind.depth .tooSmall 0 digits).map fun n => -Int.ofNat n := by
  obtain ⟨c, rest, rfl⟩ := List.exists_cons_of_ne_nil hne
  exact if_pos hkind

theorem map_readDigits_eq_ok_iff (hd : AllDigits digits) {bound : Nat} {excess : IntegerError}
    {f : Nat → Int} :
    (readDigits bound excess 0 digits).map f = .ok k ↔
      ofDigits digits ≤ bound ∧ f (ofDigits digits) = k := by
  have hread (n : Nat) : readDigits bound excess 0 digits = .ok n ↔
      ofDigits digits = n ∧ n ≤ bound := by
    rw [readDigits_eq_ok_iff (Nat.zero_le bound), and_iff_right hd]
    rfl
  refine map_eq_ok.trans ?_
  simp only [hread]
  constructor
  · rintro ⟨n, ⟨rfl, hle⟩, hf⟩
    exact ⟨hle, hf⟩
  · rintro ⟨hle, hf⟩
    exact ⟨ofDigits digits, ⟨rfl, hle⟩, hf⟩

theorem readInteger_append (hkind : kind.signed = true) {sign : List Char} (hs : IsSign sign)
    (hne : digits ≠ []) (hd : AllDigits digits) :
    readInteger kind (sign ++ digits) = .ok k ↔ signedDigits sign digits = k ∧ kind.Fits k := by
  unfold IntegerKind.Fits
  cases hs with
  | absent =>
    rw [List.nil_append, readInteger_unsigned hne hd.unsigned, map_readDigits_eq_ok_iff hd,
      signedDigits_nil]
    simp only [Int.ofNat_eq_natCast]
    omega
  | plus =>
    rw [List.singleton_append, readInteger_plus hne, map_readDigits_eq_ok_iff hd,
      signedDigits_plus]
    simp only [Int.ofNat_eq_natCast]
    omega
  | minus =>
    rw [List.singleton_append, readInteger_minus hkind hne, map_readDigits_eq_ok_iff hd,
      signedDigits_minus]
    simp only [Int.ofNat_eq_natCast]
    omega

theorem isIntegerText_of_readInteger (h : readInteger kind text = .ok k) : IsIntegerText text := by
  have hdigits {bound n : Nat} {excess : IntegerError} {digits : List Char}
      (hread : readDigits bound excess 0 digits = .ok n) : AllDigits digits :=
    ((readDigits_eq_ok_iff (Nat.zero_le bound)).1 hread).1
  unfold readInteger at h
  split at h
  · cases h
  · cases h
  · cases h
  · rename_i rest hne
    obtain ⟨n, hread, -⟩ := map_eq_ok.1 h
    exact .mk .plus hne (hdigits hread)
  · rename_i rest hne
    split at h
    · obtain ⟨n, hread, -⟩ := map_eq_ok.1 h
      exact .mk .minus hne (hdigits hread)
    · cases h
  · rename_i hne _ _ _ _
    obtain ⟨n, hread, -⟩ := map_eq_ok.1 h
    exact .mk .absent hne (hdigits hread)

end Reading

/-- A text is read as an integer if it is a signed text of digits and the number that it stands
for lies in the range. -/
theorem readInteger_eq_ok_iff {kind : IntegerKind} (hkind : kind.signed = true) {text : String}
    {k : Int} :
    readInteger kind text.toList = .ok k ↔
      IsIntegerText text.toList ∧ value? text = some (k : ℚ) ∧ kind.Fits k := by
  have hsigned (h : IsIntegerText text.toList) :
      readInteger kind text.toList = .ok k ↔ value? text = some (k : ℚ) ∧ kind.Fits k := by
    generalize hlist : text.toList = list at h
    obtain ⟨hs, hne, hd⟩ := h
    rw [readInteger_append hkind hs hne hd, value?_of_digits hlist hs hne hd, Option.some_inj,
      Int.cast_inj]
  constructor
  · intro h
    have htext := isIntegerText_of_readInteger h
    exact ⟨htext, (hsigned htext).1 h⟩
  · rintro ⟨htext, h⟩
    exact (hsigned htext).2 h

end AttributeStore.Decimal
