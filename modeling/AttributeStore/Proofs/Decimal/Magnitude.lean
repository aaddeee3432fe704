import AttributeStore.Decimal.Binary
import Mathlib.Algebra.Order.Field.Power
import Mathlib.Algebra.Order.Field.Rat
import Mathlib.Tactic.Linarith
import Mathlib.Tactic.LinearCombination
import Mathlib.Tactic.Positivity
import Mathlib.Tactic.Ring

/-!
# Rounding to magnitudes

The values of magnitudes lie a step apart, and the step doubles where the fraction is used up.
Rounding a quotient counts it in steps of the right size, so the magnitude it gives is nearest to
the quotient. Numbers beyond the last midpoint give infinity.
-/

namespace AttributeStore.Decimal

/-! ## Halves -/

theorem le_roundHalfEven (n d : Nat) : n / d ≤ roundHalfEven n d := by
  unfold roundHalfEven
  dsimp only
  split_ifs <;> omega

theorem roundHalfEven_le (n d : Nat) : roundHalfEven n d ≤ n / d + 1 := by
  unfold roundHalfEven
  dsimp only
  split_ifs <;> omega

/-- What is rounded is off by half at most, and by a half only towards an even number. -/
theorem roundHalfEven_spec (n : Nat) {d : Nat} (hd : 0 < d) :
    2 * (roundHalfEven n d * d) ≤ 2 * n + d ∧ 2 * n ≤ 2 * (roundHalfEven n d * d) + d ∧
      (2 * (roundHalfEven n d * d) = 2 * n + d ∨ 2 * n = 2 * (roundHalfEven n d * d) + d →
        roundHalfEven n d % 2 = 0) := by
  have hrest : n % d < d := Nat.mod_lt n hd
  have hn : n / d * d + n % d = n := Nat.div_add_mod' n d
  unfold roundHalfEven
  dsimp only
  split_ifs with hless hmore
  · omega
  · rw [Nat.add_mul]
    omega
  · rcases Nat.mod_two_eq_zero_or_one (n / d) with heven | hodd
    · rw [heven, Nat.add_zero]
      omega
    · rw [hodd, Nat.add_mul]
      omega

namespace Format

variable {format : Format}

/-! ## Magnitudes -/

/-- A magnitude is a count of steps of one size: `shift` of the halvings that a fraction of full
length leaves. -/
theorem units_shift {shift steps : Nat} (hle : steps ≤ 2 * twoTo format.fractionBits)
    (hfull : shift = 0 ∨ twoTo format.fractionBits ≤ steps) :
    format.units (shift * twoTo format.fractionBits + steps) = steps * twoTo shift := by
  have hone : 0 < twoTo format.fractionBits := Nat.two_pow_pos _
  unfold units
  dsimp only
  generalize twoTo format.fractionBits = one at *
  by_cases hsmall : steps < one
  · obtain rfl : shift = 0 := by omega
    rw [if_pos (by omega)]
    simp [twoTo_zero]
  rw [if_neg (by have := Nat.zero_le (shift * one); omega)]
  by_cases hlast : steps = 2 * one
  · have hm : shift * one + steps = (shift + 2) * one := by rw [hlast, ← Nat.add_mul]
    rw [hm, Nat.mul_mod_left, Nat.mul_div_cancel _ hone, hlast]
    show _ * twoTo (shift + 1) = _
    rw [twoTo_succ]
    ring
  · have hm : shift * one + steps = (steps - one) + (shift + 1) * one := by
      rw [Nat.add_mul]
      omega
    rw [hm, Nat.add_mul_mod_self_right, Nat.add_mul_div_right _ _ hone,
      Nat.mod_eq_of_lt (by omega), Nat.div_eq_of_lt (by omega : steps - one < one), Nat.zero_add,
      Nat.add_sub_cancel, Nat.sub_add_cancel (by omega)]

theorem units_succ (format : Format) (m : Nat) :
    format.units (m + 1) =
      format.units m + twoTo (m / twoTo format.fractionBits - 1) := by
  have hone : 0 < twoTo format.fractionBits := Nat.two_pow_pos _
  have hm := Nat.div_add_mod m (twoTo format.fractionBits)
  have hmod := Nat.mod_lt m hone
  have hdiv := Nat.mul_comm (m / twoTo format.fractionBits) (twoTo format.fractionBits)
  obtain ⟨shift, steps, hshift, hsteps, hfull, heq⟩ : ∃ shift steps,
      m / twoTo format.fractionBits - 1 = shift ∧ steps < 2 * twoTo format.fractionBits ∧
      (shift = 0 ∨ twoTo format.fractionBits ≤ steps) ∧
      m = shift * twoTo format.fractionBits + steps := by
    cases hquotient : m / twoTo format.fractionBits with
    | zero => exact ⟨0, m, rfl, by simp_all; omega, .inl rfl, by omega⟩
    | succ shift =>
      refine ⟨shift, twoTo format.fractionBits + m % twoTo format.fractionBits, rfl, by omega,
        .inr (by omega), ?_⟩
      rw [hquotient, Nat.mul_comm, Nat.succ_mul] at hm
      omega
  rw [hshift, heq, units_shift (by omega) hfull, Nat.add_assoc, units_shift (by omega) (by omega),
    Nat.succ_mul]

@[simp] theorem units_zero (format : Format) : format.units 0 = 0 :=
  if_pos (Nat.two_pow_pos _)

theorem scale_pos (format : Format) : (0 : ℚ) < twoTo format.scale := by
  exact_mod_cast Nat.two_pow_pos format.scale

theorem units_strictMono (format : Format) : StrictMono format.units := by
  refine strictMono_nat_of_lt_succ fun m => ?_
  rw [units_succ]
  exact Nat.lt_add_of_pos_right (Nat.two_pow_pos _)

theorem cast_units_lt (format : Format) {m other : Nat} (h : m < other) :
    (format.units m : ℚ) < format.units other := by
  exact_mod_cast format.units_strictMono h

/-! ## The nearest magnitude -/

/-- Among the magnitudes up to a last one, one whose value is nearest to a number of units: the
number lies between the midpoints with the other values, and on a midpoint only for an even
magnitude. -/
structure IsNearest (format : Format) (last : Nat) (number : ℚ) (m : Nat) : Prop where
  le : m ≤ last
  below : ∀ other < m, (format.units other + format.units m : ℚ) ≤ 2 * number
  above : ∀ other > m, other ≤ last → 2 * number ≤ format.units m + format.units other
  even : ∀ other ≠ m, other ≤ last →
    2 * number = format.units m + format.units other → m % 2 = 0

namespace IsNearest

variable {last m other : Nat} {number : ℚ}

theorem zero (h : 2 * number ≤ 1) : format.IsNearest last number 0 where
  le := Nat.zero_le _
  below other h := absurd h (Nat.not_lt_zero _)
  above other hother _ := by
    have hunits : (1 : ℚ) ≤ format.units other := by
      exact_mod_cast Nat.le_trans hother format.units_strictMono.le_apply
    rw [units_zero, Nat.cast_zero, zero_add]
    exact le_trans h hunits
  even _ _ _ _ := rfl

theorem of_last (h : format.units last ≤ number) : format.IsNearest last number last where
  le := Nat.le_refl _
  below other hother := by
    have hunits := format.cast_units_lt hother
    linarith
  above other hother hle := absurd hle (Nat.not_le_of_lt hother)
  even other hne hle htie := by
    have hunits := format.cast_units_lt (Nat.lt_of_le_of_ne hle hne)
    linarith

/-- With fewer magnitudes the nearest one is the same, or the last that is left. -/
theorem cap {fewer : Nat} (h : format.IsNearest last number m) (hfewer : fewer ≤ last) :
    format.IsNearest fewer number (min fewer m) := by
  by_cases hle : m ≤ fewer
  · rw [Nat.min_eq_right hle]
    exact ⟨hle, h.below, fun other hgt hother => h.above other hgt (Nat.le_trans hother hfewer),
      fun other hne hother => h.even other hne (Nat.le_trans hother hfewer)⟩
  · have hlt : fewer < m := Nat.lt_of_not_le hle
    rw [Nat.min_eq_left (Nat.le_of_lt hlt)]
    refine of_last ?_
    have hunits := format.cast_units_lt hlt
    linarith [h.below _ hlt]

theorem abs_le (h : format.IsNearest last number m) (hother : other ≤ last) :
    |number - format.units m| ≤ |number - format.units other| := by
  have hself := le_abs_self (number - format.units other)
  have hneg := neg_le_abs (number - format.units other)
  rcases Nat.lt_trichotomy other m with hlt | rfl | hgt
  · have hunits := format.cast_units_lt hlt
    have hbelow := h.below other hlt
    exact abs_le'.2 ⟨by linarith, by linarith⟩
  · exact le_rfl
  · have hunits := format.cast_units_lt hgt
    have habove := h.above other hgt hother
    exact abs_le'.2 ⟨by linarith, by linarith⟩

theorem even_of_eq (h : format.IsNearest last number m) (hother : other ≤ last) (hne : other ≠ m)
    (htie : |number - format.units m| = |number - format.units other|) : m % 2 = 0 := by
  rcases abs_eq_abs.1 htie with hsame | hopposite
  · have hunits : (format.units m : ℚ) = format.units other := by linarith
    exact absurd (format.units_strictMono.injective (by exact_mod_cast hunits.symm)) hne
  · exact h.even other hne hother (by linarith)

end IsNearest

/-! ## Rounding quotients -/

theorem quotient_bounds (format : Format) (q : Nat) :
    q < 2 * twoTo format.fractionBits * twoTo (q.log2 - format.fractionBits) ∧
      (q.log2 - format.fractionBits = 0 ∨
        twoTo format.fractionBits * twoTo (q.log2 - format.fractionBits) ≤ q) := by
  have hpow : ∀ a b, twoTo a * twoTo b = 2 ^ (a + b) := fun a b => (Nat.pow_add 2 a b).symm
  constructor
  · calc q < 2 ^ (q.log2 + 1) := Nat.lt_log2_self
      _ ≤ 2 ^ (format.fractionBits + (q.log2 - format.fractionBits) + 1) :=
        Nat.pow_le_pow_right (by decide) (by omega)
      _ = 2 * twoTo format.fractionBits * twoTo (q.log2 - format.fractionBits) := by
        rw [Nat.mul_assoc, hpow, Nat.pow_succ, Nat.mul_comm]
  · by_cases hshift : q.log2 - format.fractionBits = 0
    · exact .inl hshift
    · right
      have hq : q ≠ 0 := by
        rintro rfl
        exact hshift (by simp)
      rw [hpow, Nat.add_sub_cancel' (by omega)]
      exact Nat.log2_self_le hq

theorem steps_bounds (format : Format) {n d : Nat} (hd : 0 < d) :
    let shift := (n / d).log2 - format.fractionBits
    let steps := roundHalfEven n (d * twoTo shift)
    steps ≤ 2 * twoTo format.fractionBits ∧
      (shift = 0 ∨ twoTo format.fractionBits ≤ steps ∧
        twoTo format.fractionBits * (d * twoTo shift) ≤ n) := by
  intro shift steps
  obtain ⟨hupper, hlower⟩ := format.quotient_bounds (n / d)
  have hunit : 0 < d * twoTo shift := Nat.mul_pos hd (Nat.two_pow_pos _)
  constructor
  · have hquotient : n / (d * twoTo shift) < 2 * twoTo format.fractionBits := by
      rw [← Nat.div_div_eq_div_mul]
      exact Nat.div_lt_of_lt_mul (by rwa [Nat.mul_comm])
    have hsteps : steps ≤ n / (d * twoTo shift) + 1 := roundHalfEven_le _ _
    omega
  · refine hlower.imp_right fun hlower => ?_
    have hn : twoTo format.fractionBits * (d * twoTo shift) ≤ n := by
      have hmul := Nat.le_trans (Nat.mul_le_mul_right d hlower) (Nat.div_mul_le_self n d)
      rwa [Nat.mul_comm d, ← Nat.mul_assoc]
    have hquotient : twoTo format.fractionBits ≤ n / (d * twoTo shift) :=
      (Nat.le_div_iff_mul_le hunit).2 hn
    exact ⟨Nat.le_trans hquotient (le_roundHalfEven _ _), hn⟩

theorem units_above {shift steps other : Nat} (hle : steps ≤ 2 * twoTo format.fractionBits)
    (hfull : shift = 0 ∨ twoTo format.fractionBits ≤ steps)
    (h : shift * twoTo format.fractionBits + steps < other) :
    steps * twoTo shift + twoTo shift ≤ format.units other := by
  have hone : 0 < twoTo format.fractionBits := Nat.two_pow_pos _
  have hshift : shift ≤
      (shift * twoTo format.fractionBits + steps) / twoTo format.fractionBits - 1 := by
    rw [Nat.mul_comm, Nat.mul_add_div hone]
    rcases hfull with hzero | hfull
    · omega
    · have := (Nat.one_le_div_iff hone).2 hfull
      omega
  calc steps * twoTo shift + twoTo shift
      ≤ format.units (shift * twoTo format.fractionBits + steps + 1) := by
        rw [units_succ, units_shift hle hfull]
        exact Nat.add_le_add_left (Nat.pow_le_pow_right (by decide) hshift) _
    _ ≤ format.units other := format.units_strictMono.monotone h

/-- Smaller magnitudes are at least a step away, unless the steps of the next one are halved. -/
theorem units_below {shift steps other : Nat} (hle : steps ≤ 2 * twoTo format.fractionBits)
    (hinner : shift = 0 ∨ twoTo format.fractionBits < steps)
    (h : other < shift * twoTo format.fractionBits + steps) :
    format.units other + twoTo shift ≤ steps * twoTo shift := by
  have hpos : 0 < steps := by
    rcases hinner with rfl | hinner
    · omega
    · omega
  have hpred : other ≤ shift * twoTo format.fractionBits + (steps - 1) := by omega
  have hother := format.units_strictMono.monotone hpred
  rw [units_shift (by omega) (by omega)] at hother
  calc format.units other + twoTo shift
      ≤ (steps - 1) * twoTo shift + twoTo shift := Nat.add_le_add_right hother _
    _ = steps * twoTo shift := by rw [← Nat.succ_mul, Nat.succ_eq_add_one, Nat.sub_add_cancel hpos]

theorem steps_near {n d step : Nat} (hd : 0 < d) (hstep : 0 < step) :
    let steps := roundHalfEven n (d * step)
    (2 * (steps * step) : ℚ) ≤ 2 * (n / d) + step ∧ (2 * (n / d) : ℚ) ≤ 2 * (steps * step) + step ∧
      ((2 * (steps * step) : ℚ) = 2 * (n / d) + step ∨
          (2 * (n / d) : ℚ) = 2 * (steps * step) + step → steps % 2 = 0) := by
  intro steps
  obtain ⟨hlow, hhigh, heven⟩ := roundHalfEven_spec n (Nat.mul_pos hd hstep)
  have hd' : (0 : ℚ) < d := Nat.cast_pos.2 hd
  have hn : (n : ℚ) = n / d * d := (div_mul_cancel₀ _ (ne_of_gt hd')).symm
  have hscale : ∀ {a b : ℚ}, a * d ≤ b * d → a ≤ b := fun h => le_of_mul_le_mul_right h hd'
  refine ⟨hscale ?_, hscale ?_, ?_⟩
  · have hcast : (2 * (steps * (d * step)) : ℚ) ≤ 2 * n + d * step := by exact_mod_cast hlow
    rw [hn] at hcast
    linarith
  · have hcast : (2 * n : ℚ) ≤ 2 * (steps * (d * step)) + d * step := by exact_mod_cast hhigh
    rw [hn] at hcast
    linarith
  · intro htie
    apply heven
    rcases htie with htie | htie
    · left
      have hcast : (2 * (steps * (d * step)) : ℚ) = 2 * n + d * step := by
        rw [hn]
        linear_combination (d : ℚ) * htie
      exact_mod_cast hcast
    · right
      have hcast : (2 * n : ℚ) = 2 * (steps * (d * step)) + d * step := by
        rw [hn]
        linear_combination (d : ℚ) * htie
      exact_mod_cast hcast

theorem even_of_steps (hf : 0 < format.fractionBits) {shift steps : Nat} (h : steps % 2 = 0) :
    (shift * twoTo format.fractionBits + steps) % 2 = 0 := by
  obtain ⟨bits, hbits⟩ := Nat.exists_eq_succ_of_ne_zero (Nat.ne_of_gt hf)
  rw [hbits, Nat.succ_eq_add_one, twoTo_succ, ← Nat.mul_assoc]
  omega

variable {number : ℚ} {shift steps last : Nat}

theorem isNearest_inner (hf : 0 < format.fractionBits)
    (hle : steps ≤ 2 * twoTo format.fractionBits)
    (hinner : shift = 0 ∨ twoTo format.fractionBits < steps)
    (hlast : shift * twoTo format.fractionBits + steps ≤ last)
    (hlow : (2 * (steps * twoTo shift) : ℚ) ≤ 2 * number + twoTo shift)
    (hhigh : 2 * number ≤ 2 * (steps * twoTo shift) + twoTo shift)
    (heven : (2 * (steps * twoTo shift) : ℚ) = 2 * number + twoTo shift ∨
      2 * number = 2 * (steps * twoTo shift) + twoTo shift → steps % 2 = 0) :
    format.IsNearest last number (shift * twoTo format.fractionBits + steps) := by
  have hfull := hinner.imp_right Nat.le_of_lt
  have hunits : (format.units (shift * twoTo format.fractionBits + steps) : ℚ) =
      steps * twoTo shift := by exact_mod_cast units_shift hle hfull
  have hbelow : ∀ other < shift * twoTo format.fractionBits + steps,
      (format.units other + twoTo shift : ℚ) ≤ steps * twoTo shift := fun other h => by
    exact_mod_cast units_below hle hinner h
  have habove : ∀ other > shift * twoTo format.fractionBits + steps,
      (steps * twoTo shift + twoTo shift : ℚ) ≤ format.units other := fun other h => by
    exact_mod_cast units_above hle hfull h
  refine ⟨hlast, fun other h => ?_, fun other h _ => ?_, fun other hne _ htie =>
    even_of_steps hf (heven ?_)⟩
  · linarith [hbelow other h]
  · linarith [habove other h]
  · rcases Nat.lt_or_gt_of_ne hne with h | h
    · left
      linarith [hbelow other h]
    · right
      linarith [habove other h]

/-- The first magnitude of a step is nearest to what is no smaller and off by half a step at most.
The value before it is half a step away, not a step. -/
theorem isNearest_first (hf : 0 < format.fractionBits)
    (hlast : shift * twoTo format.fractionBits + twoTo format.fractionBits ≤ last)
    (hlow : (twoTo format.fractionBits * twoTo shift : ℚ) ≤ number)
    (hhigh : 2 * number ≤ 2 * (twoTo format.fractionBits * twoTo shift) + twoTo shift) :
    format.IsNearest last number
      (shift * twoTo format.fractionBits + twoTo format.fractionBits) := by
  have hle : twoTo format.fractionBits ≤ 2 * twoTo format.fractionBits := by omega
  have hfull : shift = 0 ∨ twoTo format.fractionBits ≤ twoTo format.fractionBits :=
    .inr (Nat.le_refl _)
  have hunits : (format.units (shift * twoTo format.fractionBits + twoTo format.fractionBits) : ℚ) =
      twoTo format.fractionBits * twoTo shift := by exact_mod_cast units_shift hle hfull
  have hone : twoTo format.fractionBits % 2 = 0 := by
    simpa using @even_of_steps format hf 1 0 rfl
  refine ⟨hlast, fun other h => ?_, fun other h _ => ?_, fun other _ _ _ => even_of_steps hf hone⟩
  · linarith [format.cast_units_lt h]
  · have habove : (twoTo format.fractionBits * twoTo shift + twoTo shift : ℚ) ≤
        format.units other := by exact_mod_cast units_above hle hfull h
    linarith

theorem isNearest_steps (hf : 0 < format.fractionBits) {n d : Nat} (hd : 0 < d) :
    let shift := (n / d).log2 - format.fractionBits
    let m := shift * twoTo format.fractionBits + roundHalfEven n (d * twoTo shift)
    m ≤ last → format.IsNearest last (n / d) m := by
  intro shift m hlast
  obtain ⟨hle, hfull⟩ := format.steps_bounds hd
  have hstep : 0 < twoTo shift := Nat.two_pow_pos shift
  obtain ⟨hlow, hhigh, heven⟩ := steps_near (n := n) hd hstep
  by_cases hinner : shift = 0 ∨ twoTo format.fractionBits < roundHalfEven n (d * twoTo shift)
  · exact isNearest_inner hf hle hinner hlast hlow hhigh heven
  · obtain ⟨hsmall, hexact⟩ := hfull.resolve_left fun hzero => hinner (.inl hzero)
    have hfirst : roundHalfEven n (d * twoTo shift) = twoTo format.fractionBits :=
      Nat.le_antisymm (Nat.le_of_not_lt fun hlt => hinner (.inr hlt)) hsmall
    have hquotient : (twoTo format.fractionBits * twoTo shift : ℚ) ≤ n / d := by
      rw [le_div_iff₀ (Nat.cast_pos.2 hd), mul_assoc, mul_comm (twoTo shift : ℚ)]
      exact_mod_cast hexact
    simp only [m, hfirst] at hlast hhigh ⊢
    exact isNearest_first hf hlast hquotient hhigh

/-- Rounding a quotient gives a nearest magnitude. -/
theorem isNearest_nearest (hf : 0 < format.fractionBits) (n : Nat) {d : Nat} (hd : 0 < d) :
    format.IsNearest format.infinity ((n * twoTo format.scale : Nat) / d)
      (format.nearest n d) :=
  (isNearest_steps hf hd (Nat.le_max_right format.infinity _)).cap (Nat.le_max_left _ _)

/-! ## Decimals -/

theorem cast_tenTo (n : Nat) : (tenTo n : ℚ) = 10 ^ (n : ℤ) := by
  rw [zpow_natCast]
  exact Nat.cast_pow 10 n

theorem decimal_lt (significand : Nat) (exponent : Int) :
    (significand : ℚ) * 10 ^ exponent < 10 ^ (exponent + (digits significand).length) := by
  have hlt : significand < tenTo (digits significand).length :=
    (Nat.length_toDigits_le_iff (by decide) Nat.length_toDigits_pos).1 (Nat.le_refl _)
  calc (significand : ℚ) * 10 ^ exponent
      < tenTo (digits significand).length * 10 ^ exponent := by gcongr
    _ = 10 ^ (exponent + (digits significand).length) := by
      rw [cast_tenTo, ← zpow_add₀ (by norm_num), add_comm]

theorem le_decimal {significand : Nat} (hne : significand ≠ 0) (exponent : Int) :
    (10 : ℚ) ^ (exponent + (digits significand).length - 1) ≤ significand * 10 ^ exponent := by
  have hpos : 0 < (digits significand).length := Nat.length_toDigits_pos
  have hle : tenTo ((digits significand).length - 1) ≤ significand := by
    by_cases hone : (digits significand).length - 1 = 0
    · rw [hone]
      exact Nat.pos_of_ne_zero hne
    · by_contra hlt
      have hlength : (digits significand).length ≤ (digits significand).length - 1 :=
        (Nat.length_toDigits_le_iff (by decide) (Nat.pos_of_ne_zero hone)).2 (Nat.lt_of_not_le hlt)
      omega
  calc (10 : ℚ) ^ (exponent + (digits significand).length - 1)
      = tenTo ((digits significand).length - 1) * 10 ^ exponent := by
        rw [cast_tenTo, ← zpow_add₀ (by norm_num)]
        congr 1
        omega
    _ ≤ significand * 10 ^ exponent := by gcongr

/-- A format in which four hundred places before or after the point are too many. -/
structure Bounded (format : Format) : Prop where
  fraction : 0 < format.fractionBits
  small : 2 * twoTo format.scale ≤ tenTo 400
  large : format.units format.infinity ≤ tenTo 400 * twoTo format.scale

theorem bounded_double : double.Bounded where
  fraction := by decide
  small := by decide +kernel
  large := by decide +kernel

/-- Rounding a decimal gives a nearest magnitude, also where only its places are counted. -/
theorem isNearest_nearestDecimal (h : format.Bounded) (significand : Nat) (exponent : Int) :
    format.IsNearest format.infinity (significand * 10 ^ exponent * twoTo format.scale)
      (format.nearestDecimal significand exponent) := by
  have hupper := decimal_lt significand exponent
  unfold nearestDecimal
  dsimp only
  split_ifs with hzero hlarge hnonneg
  · apply IsNearest.zero
    rcases hzero with rfl | hsmall
    · simp
    · have hvalue : (significand : ℚ) * 10 ^ exponent ≤ 10 ^ (-400 : ℤ) :=
        le_trans hupper.le (zpow_le_zpow_right₀ (by norm_num) (Int.le_of_lt hsmall))
      have hscale : (2 * twoTo format.scale : ℚ) ≤ tenTo 400 := by exact_mod_cast h.small
      calc 2 * ((significand : ℚ) * 10 ^ exponent * twoTo format.scale)
          = significand * 10 ^ exponent * (2 * twoTo format.scale) := by ring
        _ ≤ 10 ^ (-400 : ℤ) * tenTo 400 := by gcongr
        _ = 1 := by rw [cast_tenTo, ← zpow_add₀ (by norm_num)]; rfl
  · apply IsNearest.of_last
    have hvalue : (tenTo 400 : ℚ) ≤ significand * 10 ^ exponent := by
      rw [cast_tenTo]
      refine le_trans (zpow_le_zpow_right₀ (by norm_num) ?_)
        (le_decimal (fun hnone => hzero (.inl hnone)) exponent)
      omega
    calc (format.units format.infinity : ℚ) ≤ tenTo 400 * twoTo format.scale := by
          exact_mod_cast h.large
      _ ≤ significand * 10 ^ exponent * twoTo format.scale := by gcongr
  · have hpower : (tenTo exponent.toNat : ℚ) = 10 ^ exponent := by
      rw [cast_tenTo, Int.toNat_of_nonneg hnonneg]
    have hnearest := isNearest_nearest h.fraction (significand * tenTo exponent.toNat) Nat.one_pos
    simpa [hpower] using hnearest
  · have hpower : (tenTo (-exponent).toNat : ℚ) = (10 ^ exponent)⁻¹ := by
      rw [cast_tenTo, Int.toNat_of_nonneg (by omega), zpow_neg]
    have hcount : (significand * 10 ^ exponent * twoTo format.scale : ℚ) =
        (significand * twoTo format.scale : Nat) / tenTo (-exponent).toNat := by
      rw [hpower, div_inv_eq_mul, Nat.cast_mul]
      ring
    rw [hcount]
    exact isNearest_nearest h.fraction significand (Nat.pow_pos (by decide))

end Format

end AttributeStore.Decimal
