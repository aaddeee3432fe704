import AttributeStore.Number
import AttributeStore.Proofs.Decimal.Grammar

/-!
# The texts of numbers are decimal

The text of an integer is decimal, and so is the text of a floating number that is finite. The
others are written as one of three words, none of which is decimal.
-/

namespace AttributeStore.Decimal

/-! ## Digits and a point -/

theorem isDigit_of_mem_digits {n : Nat} : ∀ c ∈ digits n, c.isDigit = true :=
  fun _ h => Nat.isDigit_of_mem_toDigits (by decide) (by decide) h

theorem isDecimal_of_isMantissa {text : List Char} (h : IsMantissa text) (negative : Bool) :
    isDecimal (String.ofList (if negative then '-' :: text else text)) = true := by
  have hnumeral {sign : List Char} (hs : IsSign sign) : IsNumeral (sign ++ text) := by
    have hmk := IsNumeral.mk hs h .absent
    rwa [List.append_nil] at hmk
  rw [isDecimal_iff, String.toList_ofList]
  cases negative with
  | true => exact hnumeral .minus
  | false => exact hnumeral .absent

/-! ## Integers -/

theorem isDecimal_integerText (value : Int) : isDecimal (integerText value) = true := by
  have hdigits : IsMantissa (digits value.natAbs) :=
    .whole Nat.toDigits_ne_nil isDigit_of_mem_digits
  have htext := isDecimal_of_isMantissa hdigits (decide (value < 0))
  rw [integerText]
  simpa only [decide_eq_true_eq] using htext

/-! ## Floating numbers -/

theorem Digits.isDigit_ofCount (count : Nat) (exponent : Int) :
    ∀ c ∈ (Digits.ofCount count exponent).digits, c.isDigit = true := by
  intro c hc
  have hm : c ∈ (Decimal.digits count).reverse.dropWhile (· = '0') := List.mem_reverse.1 hc
  exact isDigit_of_mem_digits c (List.mem_reverse.1 ((List.dropWhile_sublist _).subset hm))

theorem Format.isDigit_shortest (format : Format) (magnitude : Nat) :
    ∀ c ∈ (format.shortest magnitude).digits, c.isDigit = true := by
  unfold shortest
  cases hfound : (List.range 17).findSome? fun count =>
      format.withDigits magnitude (count + 1) with
  | none => exact fun c hc => (List.not_mem_nil hc).elim
  | some found =>
    obtain ⟨count, -, hcount⟩ := List.exists_of_findSome?_eq_some hfound
    obtain ⟨_, -, rfl⟩ := Option.map_eq_some_iff.1 hcount
    exact Digits.isDigit_ofCount _ _

theorem Digits.isMantissa_text {d : Digits} (h : ∀ c ∈ d.digits, c.isDigit = true) :
    IsMantissa d.text := by
  have hzeros : ∀ n, ∀ c ∈ List.replicate n '0', c.isDigit = true := by
    intro n c hc
    rw [List.eq_of_mem_replicate hc]
    decide
  unfold Digits.text
  split
  · exact .pointed (List.cons_ne_nil '0' []) (List.forall_mem_singleton.2 rfl)
      (List.forall_mem_append.2 ⟨hzeros _, h⟩)
  · rename_i hpoint
    have hwhole : 0 < d.point.toNat := by omega
    dsimp only
    split
    · refine .whole ?_ (List.forall_mem_append.2 ⟨h, hzeros _⟩)
      intro hnil
      have hlength := congrArg List.length hnil
      rw [List.length_append, List.length_replicate, List.length_nil] at hlength
      omega
    · rename_i hlonger
      refine .pointed ?_ (fun c hc => h c (List.mem_of_mem_take hc))
        (fun c hc => h c (List.mem_of_mem_drop hc))
      intro hnil
      have hlength := congrArg List.length hnil
      rw [List.length_take, List.length_nil] at hlength
      omega

/-- The words that stand for no finite number. -/
def nonFiniteTexts : List String :=
  ["NaN", "inf", "-inf"]

theorem not_isDecimal_of_mem {text : String} (h : text ∈ nonFiniteTexts) :
    isDecimal text = false := by
  revert text
  decide

namespace Binary

variable {format : Format} {x : Binary}

theorem isDecimal_text (h : x.isFinite format = true) : isDecimal (x.text format) = true := by
  have hfinite : x.magnitude < format.infinity := of_decide_eq_true h
  have hnan : x.isNaN format = false := decide_eq_false (Nat.not_lt.2 (Nat.le_of_lt hfinite))
  rw [text, hnan, h, if_neg Bool.false_ne_true, if_pos rfl]
  by_cases hzero : x.magnitude = 0
  · rw [if_pos hzero]
    have hdigit : IsMantissa ['0'] :=
      .whole (List.cons_ne_nil '0' []) (List.forall_mem_singleton.2 rfl)
    exact isDecimal_of_isMantissa hdigit x.negative
  · rw [if_neg hzero]
    have hdigits := Digits.isMantissa_text (format.isDigit_shortest x.magnitude)
    exact isDecimal_of_isMantissa hdigits x.negative

theorem text_mem_nonFiniteTexts (hformat : 0 < format.infinity) (h : x.isFinite format = false) :
    x.text format ∈ nonFiniteTexts := by
  have hlarge : format.infinity ≤ x.magnitude := Nat.not_lt.1 (of_decide_eq_false h)
  have hzero : x.magnitude ≠ 0 := Nat.ne_of_gt (Nat.lt_of_lt_of_le hformat hlarge)
  rw [text, h, if_neg hzero]
  split
  · exact List.mem_cons_self
  · cases x.negative
    · exact List.mem_cons_of_mem _ List.mem_cons_self
    · exact List.mem_cons_of_mem _ (List.mem_cons_of_mem _ List.mem_cons_self)

/-- The text of a floating number is decimal exactly when the number is finite. -/
theorem isDecimal_text_iff (hformat : 0 < format.infinity) :
    isDecimal (x.text format) = true ↔ x.isFinite format = true := by
  constructor
  · intro hdecimal
    cases h : x.isFinite format with
    | true => rfl
    | false =>
      rw [not_isDecimal_of_mem (text_mem_nonFiniteTexts hformat h)] at hdecimal
      cases hdecimal
  · exact isDecimal_text

end Binary

end AttributeStore.Decimal
