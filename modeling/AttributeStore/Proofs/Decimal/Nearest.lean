import AttributeStore.Proofs.Decimal.Magnitude
import AttributeStore.Proofs.Decimal.Value
import Mathlib.Order.Compare
import Mathlib.Tactic.FieldSimp

/-!
# Rounding to the nearest number

The floating number of a decimal literal is nearest to the number that the literal stands for.
Rounding to a nearest number keeps the order of numbers, but it may take two of them to one.
-/

namespace AttributeStore.Decimal

namespace Binary

variable {format : Format} {x y : Binary}

def sign (negative : Bool) : ℚ :=
  if negative then -1 else 1

/-- The value of a number. Infinity counts for the one that would follow the largest finite
number. -/
def value (format : Format) (x : Binary) : ℚ :=
  sign x.negative * format.units x.magnitude / twoTo format.scale

/-- A number that is nearest to a rational one among all of a format. Of two nearest ones it has
the even magnitude. -/
structure IsNearest (format : Format) (number : ℚ) (x : Binary) : Prop where
  le : x.magnitude ≤ format.infinity
  nearest : ∀ y : Binary, y.magnitude ≤ format.infinity →
    |number - x.value format| ≤ |number - y.value format|
  even : ∀ y : Binary, y.magnitude ≤ format.infinity → y.value format ≠ x.value format →
    |number - x.value format| = |number - y.value format| → x.magnitude % 2 = 0

theorem abs_sub_value (format : Format) (x : Binary) (size : ℚ) :
    |sign x.negative * size - x.value format| =
      |size * twoTo format.scale - format.units x.magnitude| / twoTo format.scale := by
  have hscale := format.scale_pos
  have hvalue : sign x.negative * size - x.value format =
      sign x.negative * ((size * twoTo format.scale - format.units x.magnitude) /
        twoTo format.scale) := by
    unfold value
    field_simp
  have hsign : |sign x.negative| = 1 := by
    cases x.negative <;> simp [sign]
  rw [hvalue, abs_mul, hsign, one_mul, abs_div, abs_of_pos hscale]

/-- Numbers of the other sign are no nearer than zero. -/
theorem exists_same_sign (format : Format) (negative : Bool) {size : ℚ} (hsize : 0 ≤ size)
    (y : Binary) :
    ∃ z : Binary, z.negative = negative ∧ z.magnitude ≤ y.magnitude ∧
      |sign negative * size - z.value format| ≤ |sign negative * size - y.value format| ∧
      (|sign negative * size - z.value format| = |sign negative * size - y.value format| →
        z.value format = y.value format) := by
  by_cases hsign : y.negative = negative
  · exact ⟨y, hsign, Nat.le_refl _, le_rfl, fun _ => rfl⟩
  refine ⟨⟨negative, 0⟩, rfl, Nat.zero_le _, ?_⟩
  have hzero : value format ⟨negative, 0⟩ = 0 := by simp [value]
  have hy : y.value format = -sign negative * (format.units y.magnitude / twoTo format.scale) := by
    have hopposite : sign y.negative = -sign negative := by
      cases hneg : y.negative <;> cases negative <;> simp_all [sign]
    rw [value, hopposite, mul_div_assoc]
  have hpos : (0 : ℚ) ≤ format.units y.magnitude / twoTo format.scale := by positivity
  have habs : ∀ number, 0 ≤ number → |sign negative * number| = number := by
    intro number hnumber
    cases negative <;> simp [sign, abs_of_nonneg hnumber]
  have hdistance : sign negative * size - y.value format =
      sign negative * (size + format.units y.magnitude / twoTo format.scale) := by
    rw [hy]
    ring
  rw [hzero, sub_zero, hdistance, habs _ hsize, habs _ (add_nonneg hsize hpos), hy]
  refine ⟨le_add_of_nonneg_right hpos, fun hsame => ?_⟩
  rw [left_eq_add.1 hsame, mul_zero]

theorem isNearest_of_magnitude {size : ℚ} (hsize : 0 ≤ size)
    (h : format.IsNearest format.infinity (size * twoTo format.scale) x.magnitude) :
    x.IsNearest format (sign x.negative * size) := by
  have hscale := format.scale_pos
  have hsame : ∀ z : Binary, z.negative = x.negative → z.magnitude ≤ format.infinity →
      |sign x.negative * size - x.value format| ≤ |sign x.negative * size - z.value format| := by
    intro z hz hle
    have hdistance := abs_sub_value format z size
    rw [hz] at hdistance
    rw [abs_sub_value, hdistance]
    exact div_le_div_of_nonneg_right (h.abs_le hle) hscale.le
  refine ⟨h.le, fun y hy => ?_, fun y hy hne htie => ?_⟩
  · obtain ⟨z, hz, hmagnitude, hle, -⟩ := exists_same_sign format x.negative hsize y
    exact le_trans (hsame z hz (Nat.le_trans hmagnitude hy)) hle
  · obtain ⟨z, hz, hmagnitude, hle, heq⟩ := exists_same_sign format x.negative hsize y
    have hzle : z.magnitude ≤ format.infinity := Nat.le_trans hmagnitude hy
    have hztie := le_antisymm (hsame z hz hzle) (by rw [htie]; exact hle)
    have hvalue : z.value format ≠ x.value format := by
      rw [heq (hztie.symm.trans htie)]
      exact hne
    refine h.even_of_eq hzle (fun hmagnitude => hvalue ?_) ?_
    · rw [value, value, hz, hmagnitude]
    · have hdistance := abs_sub_value format z size
      rw [hz] at hdistance
      rw [abs_sub_value, hdistance] at hztie
      exact (div_left_inj' hscale.ne').1 hztie

/-- A decimal text stands for a nearest number of the format. -/
theorem isNearest_ofLiteral (h : format.Bounded) (literal : Literal) :
    (ofLiteral format literal).IsNearest format literal.value := by
  have hsize : (0 : ℚ) ≤ literal.significand * 10 ^ literal.exponent := by positivity
  have hnearest := isNearest_of_magnitude (x := ofLiteral format literal) hsize
    (Format.isNearest_nearestDecimal h literal.significand literal.exponent)
  rwa [← mul_assoc] at hnearest

/-! ## Order -/

def ofSigned (signed : Int) : Binary :=
  ⟨decide (signed < 0), signed.natAbs⟩

theorem signed_ofSigned (signed : Int) : (ofSigned signed).signed = signed := by
  by_cases hneg : signed < 0
  · simp only [Binary.signed, ofSigned, hneg, decide_true, ↓reduceIte]
    omega
  · simp only [Binary.signed, ofSigned, hneg, decide_false, Bool.false_eq_true, ↓reduceIte]
    omega

theorem value_ofSigned_natCast (format : Format) (n : Nat) :
    (ofSigned n).value format = format.units n / twoTo format.scale := by
  have hneg : ¬(n : Int) < 0 := by omega
  simp [value, sign, ofSigned, hneg]

theorem value_ofSigned_neg (format : Format) (n : Nat) :
    (ofSigned (-n)).value format = -(format.units n / twoTo format.scale) := by
  cases n with
  | zero => simp [value, ofSigned]
  | succ n =>
    have hneg : -((n + 1 : Nat) : Int) < 0 := by omega
    have habs : (-((n + 1 : Nat) : Int)).natAbs = n + 1 := by omega
    rw [value, ofSigned, habs, decide_eq_true hneg]
    simp [sign, neg_div]

theorem value_ofSigned_signed (format : Format) (x : Binary) :
    (ofSigned x.signed).value format = x.value format := by
  obtain ⟨negative, magnitude⟩ := x
  cases negative with
  | true =>
    refine (value_ofSigned_neg format magnitude).trans ?_
    simp [value, sign, neg_div]
  | false =>
    refine (value_ofSigned_natCast format magnitude).trans ?_
    simp [value, sign]

theorem value_ofSigned_lt (format : Format) {a b : Int} (h : a < b) :
    (ofSigned a).value format < (ofSigned b).value format := by
  have hscale := format.scale_pos
  have hstep : ∀ n, (format.units n / twoTo format.scale : ℚ) <
      format.units (n + 1) / twoTo format.scale := fun n =>
    div_lt_div_of_pos_right (by exact_mod_cast format.units_strictMono n.lt_succ_self) hscale
  suffices hmono : StrictMono fun signed => (ofSigned signed).value format from hmono h
  refine strictMono_int_of_lt_succ fun signed => ?_
  cases signed with
  | ofNat n =>
    have hsucc : Int.ofNat n + 1 = ((n + 1 : Nat) : Int) := rfl
    rw [hsucc, value_ofSigned_natCast]
    exact lt_of_eq_of_lt (value_ofSigned_natCast format n) (hstep n)
  | negSucc n =>
    have hsucc : Int.negSucc n + 1 = -(n : Int) := by omega
    rw [hsucc, value_ofSigned_neg]
    exact lt_of_eq_of_lt (value_ofSigned_neg format (n + 1)) (neg_lt_neg (hstep n))

/-- The order of numbers is the order of their values. -/
theorem compare_signed (format : Format) (x y : Binary) :
    compare x.signed y.signed = compare (x.value format) (y.value format) := by
  have hmono : StrictMono fun signed => (ofSigned signed).value format := fun _ _ h =>
    value_ofSigned_lt format h
  rw [← value_ofSigned_signed format x, ← value_ofSigned_signed format y, ← cmp_eq_compare,
    ← cmp_eq_compare]
  exact (hmono.cmp_map_eq _ _).symm

theorem value_lt_iff (format : Format) (x y : Binary) :
    x.value format < y.value format ↔ x.signed < y.signed := by
  rw [← compare_lt_iff_lt, ← compare_signed, compare_lt_iff_lt]

variable {left right : ℚ}

theorem exists_between (hx : x.magnitude % 2 = 0) (hy : y.magnitude % 2 = 0)
    (hxle : x.magnitude ≤ format.infinity) (hyle : y.magnitude ≤ format.infinity)
    (hlt : y.value format < x.value format) :
    ∃ z : Binary, z.magnitude ≤ format.infinity ∧ y.value format < z.value format ∧
      z.value format < x.value format := by
  rw [value_lt_iff] at hlt
  have hxs : x.signed.natAbs = x.magnitude := by unfold Binary.signed; split <;> omega
  have hys : y.signed.natAbs = y.magnitude := by unfold Binary.signed; split <;> omega
  refine ⟨ofSigned (y.signed + 1), ?_, ?_, ?_⟩
  · show (y.signed + 1).natAbs ≤ _
    omega
  · rw [value_lt_iff, signed_ofSigned]
    omega
  · rw [value_lt_iff, signed_ofSigned]
    omega

/-- Rounding to the nearest number keeps the order. -/
theorem IsNearest.value_le (hx : x.IsNearest format left) (hy : y.IsNearest format right)
    (hle : left ≤ right) : x.value format ≤ y.value format := by
  by_contra hlt
  rw [not_le] at hlt
  have hleft : y.value format + x.value format ≤ 2 * left := by
    have hnear := hx.nearest y hy.le
    have hfar := neg_le_abs (left - x.value format)
    rcases abs_cases (left - y.value format) with ⟨habs, -⟩ | ⟨habs, -⟩
    · linarith
    · linarith
  have hright : 2 * right ≤ y.value format + x.value format := by
    have hnear := hy.nearest x hx.le
    have hfar := le_abs_self (right - y.value format)
    rcases abs_cases (right - x.value format) with ⟨habs, -⟩ | ⟨habs, -⟩
    · linarith
    · linarith
  -- both numbers are one midpoint, so both magnitudes are even
  obtain rfl : left = right := by linarith
  have hmid : |left - x.value format| = |left - y.value format| := by
    have hopposite : left - x.value format = -(left - y.value format) := by linarith
    rw [hopposite, abs_neg]
  obtain ⟨z, hzle, hyz, hzx⟩ := exists_between (hx.even y hy.le hlt.ne hmid)
    (hy.even x hx.le hlt.ne' hmid.symm) hx.le hy.le hlt
  have hnear := hx.nearest z hzle
  rw [abs_of_nonpos (by linarith)] at hnear
  rcases abs_cases (left - z.value format) with ⟨hz, -⟩ | ⟨hz, -⟩ <;> linarith

/-- Rounded numbers have the order of the numbers themselves, unless two different ones become
one. -/
theorem IsNearest.compare_eq_iff (hx : x.IsNearest format left) (hy : y.IsNearest format right) :
    compare (x.value format) (y.value format) = compare left right ↔
      (x.value format = y.value format → left = right) := by
  constructor
  · intro horder hsame
    rw [hsame, compare_eq_iff_eq.2 rfl] at horder
    exact compare_eq_iff_eq.1 horder.symm
  · intro htold
    rcases lt_trichotomy left right with hlt | rfl | hgt
    · have hvalue := lt_of_le_of_ne (hx.value_le hy hlt.le) fun hsame => hlt.ne (htold hsame)
      rw [compare_lt_iff_lt.2 hlt, compare_lt_iff_lt.2 hvalue]
    · have hvalue := le_antisymm (hx.value_le hy le_rfl) (hy.value_le hx le_rfl)
      rw [compare_eq_iff_eq.2 rfl, compare_eq_iff_eq.2 hvalue]
    · have hvalue := lt_of_le_of_ne (hy.value_le hx hgt.le) fun hsame =>
        hgt.ne (htold hsame.symm).symm
      rw [compare_gt_iff_gt.2 hgt, compare_gt_iff_gt.2 hvalue]

/-- A rational number is among the finite ones of a format. -/
def Represents (format : Format) (number : ℚ) : Prop :=
  ∃ x : Binary, x.isFinite format = true ∧ x.value format = number

theorem IsNearest.value_eq {number : ℚ} (hx : x.IsNearest format number)
    (h : Represents format number) : x.value format = number := by
  obtain ⟨y, hfinite, rfl⟩ := h
  have hnear := hx.nearest y (Nat.le_of_lt (of_decide_eq_true hfinite))
  rw [sub_self, abs_zero] at hnear
  exact (sub_eq_zero.1 (abs_nonpos_iff.1 hnear)).symm

end Binary

end AttributeStore.Decimal
