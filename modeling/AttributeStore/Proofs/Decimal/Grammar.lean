import AttributeStore.Decimal.Literal
import Mathlib.Data.List.TakeWhile

/-!
# The grammar of decimal numbers

A decimal number is an optional sign, digits with an optional point among or beside them, and an
optional exponent. A text is checked by cutting it at letters and points, and taken apart by
scanning its digits. Both ways accept exactly the grammar, so they agree on what is decimal.
-/

namespace AttributeStore.Decimal

/-- A text of digits, perhaps of none. -/
def AllDigits (text : List Char) : Prop :=
  ∀ c ∈ text, c.isDigit = true

instance (text : List Char) : Decidable (AllDigits text) :=
  decidable_of_iff (text.all Char.isDigit = true) List.all_eq_true

/-- Nothing, or one sign. -/
inductive IsSign : List Char → Prop
  | absent : IsSign []
  | plus : IsSign ['+']
  | minus : IsSign ['-']

/-- Digits, with or without a point behind them or among them, or digits behind a point. -/
inductive IsMantissa : List Char → Prop
  | whole {integer : List Char} : integer ≠ [] → AllDigits integer → IsMantissa integer
  | pointed {integer fraction : List Char} : integer ≠ [] → AllDigits integer →
      AllDigits fraction → IsMantissa (integer ++ '.' :: fraction)
  | fractional {fraction : List Char} : fraction ≠ [] → AllDigits fraction →
      IsMantissa ('.' :: fraction)

/-- Nothing, or a letter `e`, an optional sign and digits. -/
inductive IsExponent : List Char → Prop
  | absent : IsExponent []
  | power {letter : Char} {sign digits : List Char} : letter = 'e' ∨ letter = 'E' →
      IsSign sign → digits ≠ [] → AllDigits digits → IsExponent (letter :: (sign ++ digits))

/-- A decimal number: an optional sign, digits, and an optional exponent. -/
inductive IsNumeral : List Char → Prop
  | mk {sign mantissa exponent : List Char} : IsSign sign → IsMantissa mantissa →
      IsExponent exponent → IsNumeral (sign ++ (mantissa ++ exponent))

/-! ## Signs -/

theorem splitSign_of_head {text : List Char}
    (h : ∀ c, text.head? = some c → c.isDigit = true ∨ c = '.') :
    splitSign text = (false, text) := by
  unfold splitSign
  split
  · exact absurd (h '-' rfl) (by decide)
  · exact absurd (h '+' rfl) (by decide)
  · rfl

theorem splitSign_append {sign rest : List Char} (hs : IsSign sign)
    (hr : splitSign rest = (false, rest)) :
    splitSign (sign ++ rest) = (decide (sign = ['-']), rest) := by
  cases hs with
  | absent => exact hr
  | plus => rfl
  | minus => rfl

theorem exists_sign (text : List Char) :
    ∃ sign, IsSign sign ∧ sign ++ (splitSign text).2 = text := by
  unfold splitSign
  split
  · exact ⟨['-'], .minus, rfl⟩
  · exact ⟨['+'], .plus, rfl⟩
  · exact ⟨[], .absent, rfl⟩

theorem AllDigits.unsigned {text : List Char} (h : AllDigits text) :
    splitSign text = (false, text) :=
  splitSign_of_head fun c hc => .inl (h c (List.mem_of_head? hc))

theorem IsMantissa.exists_cons {mantissa : List Char} (h : IsMantissa mantissa) :
    ∃ c rest, mantissa = c :: rest ∧ (c.isDigit = true ∨ c = '.') := by
  cases h with
  | whole hne hd =>
    obtain ⟨c, rest, rfl⟩ := List.exists_cons_of_ne_nil hne
    exact ⟨c, rest, rfl, .inl (hd c List.mem_cons_self)⟩
  | pointed hne hd _ =>
    obtain ⟨c, rest, rfl⟩ := List.exists_cons_of_ne_nil hne
    exact ⟨c, _, rfl, .inl (hd c List.mem_cons_self)⟩
  | fractional _ _ => exact ⟨'.', _, rfl, .inr rfl⟩

theorem IsMantissa.unsigned {mantissa : List Char} (h : IsMantissa mantissa)
    (rest : List Char) : splitSign (mantissa ++ rest) = (false, mantissa ++ rest) := by
  obtain ⟨c, tail, rfl, hc⟩ := h.exists_cons
  refine splitSign_of_head fun first hfirst => ?_
  obtain rfl : c = first := Option.some.inj hfirst
  exact hc

/-- Without its sign, a decimal number is a mantissa and an exponent. -/
theorem isNumeral_iff_unsigned {text : List Char} :
    IsNumeral text ↔
      ∃ mantissa exponent, IsMantissa mantissa ∧ IsExponent exponent ∧
        (splitSign text).2 = mantissa ++ exponent := by
  constructor
  · rintro ⟨hs, hm, he⟩
    refine ⟨_, _, hm, he, ?_⟩
    rw [splitSign_append hs (hm.unsigned _)]
  · rintro ⟨mantissa, exponent, hm, he, heq⟩
    obtain ⟨sign, hs, htext⟩ := exists_sign text
    rw [← htext, heq]
    exact .mk hs hm he

/-! ## Exponents -/

theorem isExponentLetter_iff {c : Char} : isExponentLetter c = true ↔ c = 'e' ∨ c = 'E' := by
  simp [isExponentLetter]

theorem isExponent_cons_iff {letter : Char} {rest : List Char}
    (hletter : letter = 'e' ∨ letter = 'E') :
    IsExponent (letter :: rest) ↔ (splitSign rest).2 ≠ [] ∧ AllDigits (splitSign rest).2 := by
  constructor
  · rintro (_ | ⟨-, hs, hne, hd⟩)
    rw [splitSign_append hs hd.unsigned]
    exact ⟨hne, hd⟩
  · rintro ⟨hne, hd⟩
    obtain ⟨sign, hs, hrest⟩ := exists_sign rest
    rw [← hrest]
    exact .power hletter hs hne hd

/-- An exponent does not go on with the number in front of it. -/
theorem IsExponent.head {exponent : List Char} (h : IsExponent exponent) {c : Char}
    (hc : exponent.head? = some c) : c.isDigit = false ∧ c ≠ '.' := by
  cases h with
  | absent => cases hc
  | power hletter =>
    obtain rfl := Option.some.inj hc
    rcases hletter with rfl | rfl
    · decide
    · decide

theorem isSome_scanPower_iff {exponent : List Char} :
    (Literal.scanPower exponent).isSome = true ↔ IsExponent exponent := by
  cases exponent with
  | nil => exact ⟨fun _ => .absent, fun _ => rfl⟩
  | cons letter rest =>
    simp only [Literal.scanPower]
    by_cases hletter : letter = 'e' ∨ letter = 'E'
    · rw [if_pos hletter, isExponent_cons_iff hletter]
      obtain ⟨negative, power⟩ := splitSign rest
      cases power with
      | nil => simp
      | cons c tail => simp [AllDigits, Option.isSome_iff_exists]
    · rw [if_neg hletter]
      refine ⟨nofun, fun h => ?_⟩
      cases h with
      | power h => exact absurd h hletter

/-! ## Cutting -/

section Cutting

variable {cut : Char → Bool} {front back text : List Char} {c : Char}

theorem cutAt_of_forall (h : ∀ c ∈ front, cut c = false) : cutAt cut front = (front, none) := by
  induction front with
  | nil => rfl
  | cons c rest ih =>
    have hrest := ih fun d hd => h d (List.mem_cons_of_mem _ hd)
    have hc := h c List.mem_cons_self
    simp [cutAt, hc, hrest]

theorem cutAt_append (h : ∀ c ∈ front, cut c = false) (hc : cut c = true) :
    cutAt cut (front ++ c :: back) = (front, some back) := by
  induction front with
  | nil => simp [cutAt, hc]
  | cons d rest ih =>
    have hrest := ih fun d hd => h d (List.mem_cons_of_mem _ hd)
    have hd := h d List.mem_cons_self
    simp [cutAt, hd, hrest]

theorem eq_append_of_cutAt (h : cutAt cut text = (front, some back)) :
    ∃ c, cut c = true ∧ text = front ++ c :: back := by
  induction text generalizing front with
  | nil => cases h
  | cons c rest ih =>
    unfold cutAt at h
    split at h
    · rename_i hc
      cases h
      exact ⟨c, hc, rfl⟩
    · cases hrest : cutAt cut rest with
      | mk before after =>
        rw [hrest] at h
        cases h
        obtain ⟨d, hd, rfl⟩ := ih hrest
        exact ⟨d, hd, rfl⟩

theorem eq_of_cutAt (h : cutAt cut text = (front, none)) : text = front := by
  induction text generalizing front with
  | nil => cases h; rfl
  | cons c rest ih =>
    unfold cutAt at h
    split at h
    · cases h
    · cases hrest : cutAt cut rest with
      | mk before after =>
        rw [hrest] at h
        cases h
        rw [ih hrest]

end Cutting

theorem AllDigits.forall_eq_false {text : List Char} (h : AllDigits text) {cut : Char → Bool}
    (hcut : ∀ c, cut c = true → c.isDigit = false) : ∀ c ∈ text, cut c = false := by
  intro c hc
  cases hcc : cut c with
  | false => rfl
  | true =>
    have hdigit := h c hc
    rw [hcut c hcc] at hdigit
    cases hdigit

theorem isDigit_of_isPoint : ∀ c : Char, decide (c = '.') = true → c.isDigit = false := by
  intro c hc
  rw [of_decide_eq_true hc]
  rfl

theorem isDigit_of_isExponentLetter : ∀ c, isExponentLetter c = true → c.isDigit = false := by
  intro c hc
  rcases isExponentLetter_iff.1 hc with rfl | rfl
  · rfl
  · rfl

/-- A mantissa is told by the parts on both sides of its point. -/
theorem isMantissa_iff_of_cutAt {mantissa integer : List Char} {fraction : Option (List Char)}
    (h : cutAt (· = '.') mantissa = (integer, fraction)) :
    IsMantissa mantissa ↔
      (integer ≠ [] ∨ fraction.getD [] ≠ []) ∧ AllDigits integer ∧
        AllDigits (fraction.getD []) := by
  have hnil : AllDigits [] := by decide
  constructor
  · intro hm
    cases hm with
    | whole hne hd =>
      rw [cutAt_of_forall (hd.forall_eq_false isDigit_of_isPoint)] at h
      cases h
      exact ⟨.inl hne, hd, hnil⟩
    | pointed hne hi hf =>
      rw [cutAt_append (hi.forall_eq_false isDigit_of_isPoint) (by decide)] at h
      cases h
      exact ⟨.inl hne, hi, hf⟩
    | fractional hne hf =>
      cases h
      exact ⟨.inr hne, hnil, hf⟩
  · rintro ⟨hne, hi, hf⟩
    cases fraction with
    | none =>
      rw [eq_of_cutAt h]
      exact .whole (hne.resolve_right fun hnil => hnil rfl) hi
    | some fraction =>
      obtain ⟨c, hc, rfl⟩ := eq_append_of_cutAt h
      obtain rfl := of_decide_eq_true hc
      cases integer with
      | nil => exact .fractional (hne.resolve_left fun hnil => hnil rfl) hf
      | cons c rest => exact .pointed (List.cons_ne_nil c rest) hi hf

theorem IsMantissa.forall_isExponentLetter {mantissa : List Char} (h : IsMantissa mantissa) :
    ∀ c ∈ mantissa, isExponentLetter c = false := by
  cases h with
  | whole _ hd => exact hd.forall_eq_false isDigit_of_isExponentLetter
  | pointed _ hi hf =>
    have hi' := hi.forall_eq_false isDigit_of_isExponentLetter
    have hf' := hf.forall_eq_false isDigit_of_isExponentLetter
    exact List.forall_mem_append.2 ⟨hi', List.forall_mem_cons.2 ⟨rfl, hf'⟩⟩
  | fractional _ hf =>
    exact List.forall_mem_cons.2 ⟨rfl, hf.forall_eq_false isDigit_of_isExponentLetter⟩

theorem exists_mantissa_iff_of_cutAt {unsigned mantissa : List Char}
    {exponent : Option (List Char)}
    (h : cutAt isExponentLetter unsigned = (mantissa, exponent)) :
    (∃ m e, IsMantissa m ∧ IsExponent e ∧ unsigned = m ++ e) ↔
      IsMantissa mantissa ∧
        ∀ power ∈ exponent, (splitSign power).2 ≠ [] ∧ AllDigits (splitSign power).2 := by
  constructor
  · rintro ⟨m, e, hm, he, rfl⟩
    cases he with
    | absent =>
      rw [List.append_nil, cutAt_of_forall hm.forall_isExponentLetter] at h
      cases h
      exact ⟨hm, nofun⟩
    | power hletter hs hne hd =>
      rw [cutAt_append hm.forall_isExponentLetter (isExponentLetter_iff.2 hletter)] at h
      cases h
      refine ⟨hm, fun power hpower => ?_⟩
      obtain rfl := Option.some.inj hpower
      exact (isExponent_cons_iff hletter).1 (.power hletter hs hne hd)
  · rintro ⟨hm, hpower⟩
    cases exponent with
    | none => exact ⟨mantissa, [], hm, .absent, by rw [eq_of_cutAt h, List.append_nil]⟩
    | some power =>
      obtain ⟨letter, hletter, rfl⟩ := eq_append_of_cutAt h
      have he := (isExponent_cons_iff (isExponentLetter_iff.1 hletter)).2 (hpower power rfl)
      exact ⟨mantissa, letter :: power, hm, he, rfl⟩

/-- Checking a text accepts exactly the grammar. -/
theorem isDecimal_iff {text : String} : isDecimal text = true ↔ IsNumeral text.toList := by
  rw [isNumeral_iff_unsigned]
  unfold isDecimal
  generalize (splitSign text.toList).2 = unsigned
  cases hexponent : cutAt isExponentLetter unsigned with
  | mk mantissa exponent =>
    rw [exists_mantissa_iff_of_cutAt hexponent]
    cases hfraction : cutAt (· = '.') mantissa with
    | mk integer fraction =>
      rw [isMantissa_iff_of_cutAt hfraction]
      simp only [hfraction]
      cases exponent with
      | none => simp [AllDigits]
      | some power => simp [AllDigits, and_assoc]

/-! ## Scanning -/

theorem takeWhile_isDigit_append {digits rest : List Char} (hd : AllDigits digits)
    (hrest : ∀ c, rest.head? = some c → c.isDigit = false) :
    (digits ++ rest).takeWhile Char.isDigit = digits ∧
      (digits ++ rest).dropWhile Char.isDigit = rest := by
  rw [List.takeWhile_append_of_pos hd, List.dropWhile_append_of_pos hd]
  cases rest with
  | nil => exact ⟨List.append_nil digits, rfl⟩
  | cons c tail =>
    have hc : ¬ c.isDigit = true := by simp [hrest c rfl]
    rw [List.takeWhile_cons_of_neg hc, List.dropWhile_cons_of_neg hc, List.append_nil]
    exact ⟨rfl, rfl⟩

theorem scanMantissa_of_digits {digits exponent : List Char} (hd : AllDigits digits)
    (he : IsExponent exponent) :
    Literal.scanMantissa (digits ++ exponent) = (digits, [], exponent) := by
  obtain ⟨htake, hdrop⟩ := takeWhile_isDigit_append hd fun c hc => (he.head hc).1
  unfold Literal.scanMantissa
  rw [htake, hdrop]
  cases exponent with
  | nil => rfl
  | cons letter rest =>
    split
    · rename_i heq
      cases heq
      exact absurd rfl (he.head rfl).2
    · rfl

theorem scanMantissa_of_point {integer fraction exponent : List Char} (hi : AllDigits integer)
    (hf : AllDigits fraction) (he : IsExponent exponent) :
    Literal.scanMantissa (integer ++ '.' :: (fraction ++ exponent)) =
      (integer, fraction, exponent) := by
  have hpoint : ∀ c, ('.' :: (fraction ++ exponent)).head? = some c → c.isDigit = false := by
    intro c hc
    obtain rfl := Option.some.inj hc
    rfl
  obtain ⟨htake, hdrop⟩ := takeWhile_isDigit_append hi hpoint
  obtain ⟨htake', hdrop'⟩ := takeWhile_isDigit_append hf fun c hc => (he.head hc).1
  unfold Literal.scanMantissa
  rw [htake, hdrop]
  simp only [htake', hdrop']

/-- Scanning a mantissa stops at the exponent. -/
theorem scanMantissa_append {mantissa exponent : List Char} (hm : IsMantissa mantissa)
    (he : IsExponent exponent) :
    ∃ integer fraction, (integer ≠ [] ∨ fraction ≠ []) ∧
      Literal.scanMantissa (mantissa ++ exponent) = (integer, fraction, exponent) := by
  cases hm with
  | whole hne hd => exact ⟨_, _, .inl hne, scanMantissa_of_digits hd he⟩
  | @pointed integer fraction hne hi hf =>
    refine ⟨integer, fraction, .inl hne, ?_⟩
    rw [List.append_assoc, List.cons_append]
    exact scanMantissa_of_point hi hf he
  | fractional hne hf =>
    have hnil : AllDigits [] := by decide
    exact ⟨[], _, .inr hne, scanMantissa_of_point hnil hf he⟩

theorem exists_mantissa_of_scan {text integer fraction rest : List Char}
    (h : Literal.scanMantissa text = (integer, fraction, rest))
    (hne : integer ≠ [] ∨ fraction ≠ []) : ∃ m, IsMantissa m ∧ text = m ++ rest := by
  have htake (list : List Char) : AllDigits (list.takeWhile Char.isDigit) :=
    fun c hc => List.mem_takeWhile_imp hc
  have htext := @List.takeWhile_append_dropWhile _ Char.isDigit text
  unfold Literal.scanMantissa at h
  split at h
  · rename_i after hdrop
    cases h
    have hafter := @List.takeWhile_append_dropWhile _ Char.isDigit after
    rw [hdrop] at htext
    cases hi : text.takeWhile Char.isDigit with
    | nil =>
      rw [hi] at htext hne
      refine ⟨'.' :: after.takeWhile Char.isDigit,
        .fractional (hne.resolve_left fun hnil => hnil rfl) (htake after), ?_⟩
      rw [List.cons_append, hafter]
      exact htext.symm
    | cons digit digits =>
      have hd : AllDigits (digit :: digits) := hi ▸ htake text
      rw [hi] at htext
      refine ⟨digit :: digits ++ '.' :: after.takeWhile Char.isDigit,
        .pointed (List.cons_ne_nil _ _) hd (htake after), ?_⟩
      rw [List.append_assoc, List.cons_append, List.cons_append, hafter]
      exact htext.symm
  · cases h
    exact ⟨text.takeWhile Char.isDigit, .whole (hne.resolve_right fun hnil => hnil rfl)
      (htake text), htext.symm⟩

section Parsing

variable {text unsigned integer fraction rest : List Char} {negative : Bool}

theorem parse_of_scan (hsign : splitSign text = (negative, unsigned))
    (hscan : Literal.scanMantissa unsigned = (integer, fraction, rest))
    (hne : integer ≠ [] ∨ fraction ≠ []) :
    Literal.parse text =
      (Literal.scanPower rest).map fun power => ⟨negative, integer, fraction, power⟩ := by
  unfold Literal.parse
  simp only [hsign, hscan]
  split
  · rename_i heq
    cases heq
    simp at hne
  · rename_i heq
    cases heq
    rfl

theorem parse_of_scan_nil (hsign : splitSign text = (negative, unsigned))
    (hscan : Literal.scanMantissa unsigned = ([], [], rest)) : Literal.parse text = none := by
  unfold Literal.parse
  simp only [hsign, hscan]

theorem parse_of_digits {sign digits : List Char} (hs : IsSign sign) (hne : digits ≠ [])
    (hd : AllDigits digits) :
    Literal.parse (sign ++ digits) = some ⟨decide (sign = ['-']), digits, [], 0⟩ := by
  have hscan := scanMantissa_of_digits hd .absent
  rw [List.append_nil] at hscan
  rw [parse_of_scan (splitSign_append hs hd.unsigned) hscan (.inl hne)]
  rfl

end Parsing

theorem isSome_parse_iff {text : List Char} :
    (Literal.parse text).isSome = true ↔ IsNumeral text := by
  rw [isNumeral_iff_unsigned]
  cases hsign : splitSign text with
  | mk negative unsigned =>
    constructor
    · intro h
      cases hscan : Literal.scanMantissa unsigned with
      | mk integer parts =>
        obtain ⟨fraction, rest⟩ := parts
        by_cases hne : integer ≠ [] ∨ fraction ≠ []
        · obtain ⟨m, hm, htext⟩ := exists_mantissa_of_scan hscan hne
          rw [parse_of_scan hsign hscan hne, Option.isSome_map, isSome_scanPower_iff] at h
          exact ⟨m, rest, hm, h, htext⟩
        · obtain ⟨rfl, rfl⟩ : integer = [] ∧ fraction = [] := by simpa using hne
          rw [parse_of_scan_nil hsign hscan] at h
          cases h
    · rintro ⟨mantissa, exponent, hm, he, rfl⟩
      obtain ⟨integer, fraction, hne, hscan⟩ := scanMantissa_append hm he
      rw [parse_of_scan hsign hscan hne, Option.isSome_map, isSome_scanPower_iff]
      exact he

instance (text : List Char) : Decidable (IsNumeral text) :=
  decidable_of_iff _ isSome_parse_iff

/-- A text is decimal exactly if it can be taken apart. -/
theorem isDecimal_eq_isSome_parse (text : String) :
    isDecimal text = (Literal.parse text.toList).isSome :=
  Bool.eq_iff_iff.2 (isDecimal_iff.trans isSome_parse_iff.symm)

end AttributeStore.Decimal
