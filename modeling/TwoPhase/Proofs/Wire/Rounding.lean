import Mathlib.Algebra.Order.Field.Power
import Mathlib.Data.Rat.Cast.Order
import Mathlib.Tactic.FieldSimp
import Mathlib.Tactic.Linarith
import Mathlib.Tactic.NormNum
import Mathlib.Tactic.Positivity
import Mathlib.Tactic.Ring
import TwoPhase.Number.Shortest
/-
Rounding, in rational numbers. A decimal that identifies a double rounds to it.

The bits of a double are found by scaling a quotient with a power of two until it lies in a binade
(`Placed`), which is possible in one way only, and by rounding what is then in front of the point. A
decimal that identifies a double lies within half a unit of its significand, so the same power of two
serves, except just below a power of two, where the binade below is met and the rounding carries back.
-/

set_option autoImplicit false

namespace TwoPhase

open Number (Decimal compareScaled identifies)

/-! ## Powers with integer exponents -/

theorem zpow_mul_pow_toNat {b : ℚ} (hb : b ≠ 0) (i : ℤ) : b ^ i * b ^ (-i).toNat = b ^ i.toNat := by
  rw [← zpow_natCast, ← zpow_natCast, ← zpow_add₀ hb]
  congr 1
  omega

theorem zpow_eq_div {b : ℚ} (hb : b ≠ 0) (i : ℤ) : b ^ i = b ^ i.toNat / b ^ (-i).toNat := by
  rw [eq_div_iff (pow_ne_zero _ hb), zpow_mul_pow_toNat hb]

/-- The value of a decimal. -/
def Number.Decimal.value (x : Decimal) : ℚ := x.digits * 10 ^ x.exponent

/-! ## Comparing -/

section
variable (a : ℕ) (i : ℤ) (n : ℕ) (j : ℤ)

/-- Both sides of a comparison, by a common factor. -/
theorem compareScaled_sides :
    ((a * Nat.pow 10 i.toNat * Nat.pow 2 (-j).toNat : ℕ) : ℚ) =
      a * 10 ^ i * (10 ^ (-i).toNat * 2 ^ (-j).toNat) ∧
    ((n * Nat.pow 2 j.toNat * Nat.pow 10 (-i).toNat : ℕ) : ℚ) =
      n * 2 ^ j * (10 ^ (-i).toNat * 2 ^ (-j).toNat) := by
  have hten : (10 : ℚ) ^ i * 10 ^ (-i).toNat = 10 ^ i.toNat := zpow_mul_pow_toNat (by norm_num) i
  have htwo : (2 : ℚ) ^ j * 2 ^ (-j).toNat = 2 ^ j.toNat := zpow_mul_pow_toNat (by norm_num) j
  constructor
  · push_cast [Nat.pow_eq]
    rw [← hten]
    ring
  · push_cast [Nat.pow_eq]
    rw [← htwo]
    ring

theorem compareScaled_eq_gt :
    compareScaled a i n j = .gt ↔ (n : ℚ) * 2 ^ j < a * 10 ^ i := by
  obtain ⟨hleft, hright⟩ := compareScaled_sides a i n j
  rw [compareScaled, Nat.compare_eq_gt, ← Nat.cast_lt (α := ℚ), hleft, hright]
  exact mul_lt_mul_iff_left₀ (by positivity)

theorem compareScaled_eq_lt :
    compareScaled a i n j = .lt ↔ (a : ℚ) * 10 ^ i < n * 2 ^ j := by
  obtain ⟨hleft, hright⟩ := compareScaled_sides a i n j
  rw [compareScaled, Nat.compare_eq_lt, ← Nat.cast_lt (α := ℚ), hleft, hright]
  exact mul_lt_mul_iff_left₀ (by positivity)

theorem compareScaled_eq_eq :
    compareScaled a i n j = .eq ↔ (a : ℚ) * 10 ^ i = n * 2 ^ j := by
  obtain ⟨hleft, hright⟩ := compareScaled_sides a i n j
  rw [compareScaled, Nat.compare_eq_eq, ← Nat.cast_inj (R := ℚ), hleft, hright]
  exact mul_left_inj' (by positivity)

end

namespace Double

/-! ## The parts of a double -/

variable (d : Double)

/-- The significand has at most fifty-three bits. -/
theorem significand_lt : d.significand < 2 ^ 53 := by
  unfold significand
  simp only [Nat.pow_eq]
  split <;> omega

/-- No double has a smaller exponent than the zero. -/
theorem le_exponent : -1074 ≤ d.exponent := by
  unfold exponent
  simp only [Nat.pow_eq]
  split <;> omega

/-- A double is subnormal, or its significand fills all its bits. -/
theorem exponent_eq_or_le : d.exponent = -1074 ∨ 2 ^ 52 ≤ d.significand := by
  unfold exponent significand
  simp only [Nat.pow_eq]
  by_cases h : d.magnitude / 2 ^ 52 = 0
  · exact Or.inl (if_pos h)
  · rw [if_neg h, if_neg h]
    exact Or.inr (Nat.le_add_right _ _)

/-- The bits of the magnitude are the significand and the exponent, with a carry. -/
theorem magnitude_eq : d.magnitude = (d.exponent + 1074).toNat * 2 ^ 52 + d.significand := by
  unfold exponent significand
  simp only [Nat.pow_eq]
  by_cases h : d.magnitude / 2 ^ 52 = 0
  · rw [if_pos h, if_pos h]
    omega
  · rw [if_neg h, if_neg h]
    omega

/-- The least number of a binade but the first has a narrower interval below it. -/
theorem narrowBelow_eq (hsignificand : d.significand = 2 ^ 52) (hexponent : d.exponent ≠ -1074) :
    Number.narrowBelow d = true := by
  have hmagnitude := d.magnitude_eq
  have hle := d.le_exponent
  rw [hsignificand] at hmagnitude
  simp only [Number.narrowBelow, Nat.pow_eq, Bool.and_eq_true, beq_iff_eq, decide_eq_true_eq]
  omega

/-! ## Rounding to a whole number -/

/-- A quotient within half a unit of a whole number rounds to it, from exactly half a unit if it is
even; here without quotients. -/
theorem roundQuotient_of_le {num den k : ℕ} (hden : 0 < den) (hlow : 2 * (k * den) ≤ 2 * num + den)
    (hhigh : 2 * num ≤ 2 * (k * den) + den)
    (hodd : k % 2 = 1 → 2 * (k * den) < 2 * num + den ∧ 2 * num < 2 * (k * den) + den) :
    roundQuotient num den = k := by
  have hnum : num / den * den + num % den = num := Nat.div_add_mod' num den
  have hmod : num % den < den := Nat.mod_lt num hden
  -- the whole part is `k`, or one less
  have hle : k ≤ num / den + 1 := by
    by_contra hgt
    have hmul : (num / den + 2) * den ≤ k * den := Nat.mul_le_mul_right den (by omega)
    rw [Nat.add_mul] at hmul
    omega
  have hge : num / den ≤ k := by
    by_contra hlt
    have hmul : (k + 1) * den ≤ num / den * den := Nat.mul_le_mul_right den (by omega)
    rw [Nat.add_mul] at hmul
    omega
  unfold roundQuotient
  simp only
  generalize num / den = whole at *
  obtain rfl | rfl : k = whole ∨ k = whole + 1 := by omega
  · split
    · omega
    · split
      · rfl
      · omega
  · rw [Nat.add_mul, Nat.one_mul] at hlow hhigh hodd
    split
    · rfl
    · split
      · omega
      · omega

/-- A quotient within half a unit of a whole number rounds to it, from exactly half a unit if it is
even. -/
theorem roundQuotient_eq {num den k : ℕ} (hden : 0 < den) (hlow : (k : ℚ) - 1 / 2 ≤ num / den)
    (hhigh : (num : ℚ) / den ≤ k + 1 / 2)
    (hodd : k % 2 = 1 → (k : ℚ) - 1 / 2 < num / den ∧ (num : ℚ) / den < k + 1 / 2) :
    roundQuotient num den = k := by
  have hpos : (0 : ℚ) < den := by exact_mod_cast hden
  refine roundQuotient_of_le hden ?_ ?_ fun hk => ?_
  · rw [le_div_iff₀ hpos] at hlow
    have hle : (2 : ℚ) * (k * den) ≤ 2 * num + den := by linarith
    exact_mod_cast hle
  · rw [div_le_iff₀ hpos] at hhigh
    have hle : (2 : ℚ) * num ≤ 2 * (k * den) + den := by linarith
    exact_mod_cast hle
  · obtain ⟨hl, hh⟩ := hodd hk
    rw [lt_div_iff₀ hpos] at hl
    rw [div_lt_iff₀ hpos] at hh
    have hl' : (2 : ℚ) * (k * den) < 2 * num + den := by linarith
    have hh' : (2 : ℚ) * num < 2 * (k * den) + den := by linarith
    exact ⟨by exact_mod_cast hl', by exact_mod_cast hh'⟩

/-! ## The binary places that a quotient keeps -/

/-- A value that keeps `s` binary places has fifty-three bits then, or fewer because there are no more
places. -/
structure Placed (v : ℚ) (s : ℤ) : Prop where
  most : s ≤ 1074
  lt : v * 2 ^ s < 2 ^ 53
  full : s = 1074 ∨ 2 ^ 52 ≤ v * 2 ^ s

/-- A value keeps one number of places only. -/
theorem Placed.unique {v : ℚ} {s s' : ℤ} (h : Placed v s) (h' : Placed v s') : s = s' := by
  have hle {s s' : ℤ} (h : Placed v s) (h' : Placed v s') : s' ≤ s := by
    by_contra hlt
    obtain hs | hs := h.full
    · have := h'.most
      omega
    · have hpow : (2 : ℚ) ^ s' = 2 ^ s * 2 ^ (s' - s) := by
        rw [← zpow_add₀ (by norm_num)]
        congr 1
        omega
      have htwo : (2 : ℚ) ^ (1 : ℤ) ≤ 2 ^ (s' - s) :=
        zpow_le_zpow_right₀ (by norm_num) (by omega)
      have hmul : (2 : ℚ) ^ 52 * 2 ≤ v * 2 ^ s * 2 ^ (s' - s) := by
        rw [zpow_one] at htwo
        gcongr
      have hbound := h'.lt
      rw [hpow, ← mul_assoc] at hbound
      linarith
  exact le_antisymm (hle h' h) (hle h h')

theorem scale_pos (num : ℕ) {den : ℕ} (hden : 0 < den) (s : ℤ) : 0 < (scale num den s).2 :=
  Nat.mul_pos hden (Nat.pow_pos (by decide))

/-- Scaling multiplies by a power of two. -/
theorem scale_value (num : ℕ) {den : ℕ} (hden : 0 < den) (s : ℤ) :
    ((scale num den s).1 : ℚ) / (scale num den s).2 = num / den * 2 ^ s := by
  have hpos : (0 : ℚ) < den := by exact_mod_cast hden
  simp only [scale, Nat.pow_eq]
  push_cast
  rw [zpow_eq_div (by norm_num) s]
  field_simp

/-- The first guess is at most one place short. -/
theorem guess_bounds {num den : ℕ} (hnum : 0 < num) (hden : 0 < den) :
    (2 : ℚ) ^ 51 < num / den * 2 ^ (52 - (num.log2 : ℤ) + (den.log2 : ℤ)) ∧
      (num : ℚ) / den * 2 ^ (52 - (num.log2 : ℤ) + (den.log2 : ℤ)) < 2 ^ 53 := by
  have hpos : (0 : ℚ) < den := by exact_mod_cast hden
  -- numerator and denominator are each within a factor of two of a power of two
  have hnumlow : (2 : ℚ) ^ num.log2 ≤ num := by exact_mod_cast Nat.log2_self_le (by omega)
  have hnumhigh : (num : ℚ) < 2 ^ num.log2 * 2 := by
    rw [← pow_succ]
    exact_mod_cast Nat.lt_log2_self
  have hdenlow : (2 : ℚ) ^ den.log2 ≤ den := by exact_mod_cast Nat.log2_self_le (by omega)
  have hdenhigh : (den : ℚ) < 2 ^ den.log2 * 2 := by
    rw [← pow_succ]
    exact_mod_cast Nat.lt_log2_self
  have hpow : (2 : ℚ) ^ (52 - (num.log2 : ℤ) + (den.log2 : ℤ)) =
      2 ^ 52 * 2 ^ den.log2 / 2 ^ num.log2 := by
    rw [zpow_add₀ (by norm_num), zpow_sub₀ (by norm_num), zpow_natCast, zpow_natCast]
    norm_num
    ring
  have hvalue : (num : ℚ) / den * (2 ^ 52 * 2 ^ den.log2 / 2 ^ num.log2) =
      (num * (2 ^ 52 * 2 ^ den.log2)) / (den * 2 ^ num.log2) := by
    field_simp
  have hlog : (0 : ℚ) < 2 ^ num.log2 := by positivity
  have hlog' : (0 : ℚ) < 2 ^ den.log2 := by positivity
  rw [hpow, hvalue, lt_div_iff₀ (by positivity), div_lt_iff₀ (by positivity)]
  constructor
  · calc (2 : ℚ) ^ 51 * (den * 2 ^ num.log2)
        < 2 ^ 51 * (2 ^ den.log2 * 2 * 2 ^ num.log2) := by gcongr
      _ = 2 ^ num.log2 * (2 ^ 52 * 2 ^ den.log2) := by ring
      _ ≤ num * (2 ^ 52 * 2 ^ den.log2) := by gcongr
  · calc (num : ℚ) * (2 ^ 52 * 2 ^ den.log2)
        < 2 ^ num.log2 * 2 * (2 ^ 52 * 2 ^ den.log2) := by gcongr
      _ = 2 ^ 53 * (2 ^ den.log2 * 2 ^ num.log2) := by ring
      _ ≤ 2 ^ 53 * (den * 2 ^ num.log2) := by gcongr

/-- A quotient keeps as many places as it can. -/
theorem placed_places {num den : ℕ} (hnum : 0 < num) (hden : 0 < den) :
    Placed (num / den) (places num den) := by
  obtain ⟨hlow, hhigh⟩ := guess_bounds hnum hden
  have hvpos : (0 : ℚ) < num / den := by
    have h1 : (0 : ℚ) < num := by exact_mod_cast hnum
    have h2 : (0 : ℚ) < den := by exact_mod_cast hden
    positivity
  unfold places
  simp only
  generalize 52 - (num.log2 : ℤ) + (den.log2 : ℤ) = guess at *
  have hscale := scale_value num hden guess
  have hpos : (0 : ℚ) < (scale num den guess).2 := by exact_mod_cast scale_pos num hden guess
  have hless : (scale num den guess).1 < Nat.pow 2 52 * (scale num den guess).2 ↔
      (num : ℚ) / den * 2 ^ guess < 2 ^ 52 := by
    rw [← hscale, div_lt_iff₀ hpos, ← Nat.cast_lt (α := ℚ)]
    push_cast [Nat.pow_eq]
    exact Iff.rfl
  -- without the limit on the places the value would have fifty-three bits
  have hfull : ∃ s : ℤ, (if (scale num den guess).1 < Nat.pow 2 52 * (scale num den guess).2 then
      guess + 1 else guess) = s ∧ (2 : ℚ) ^ 52 ≤ num / den * 2 ^ s ∧
        (num : ℚ) / den * 2 ^ s < 2 ^ 53 := by
    by_cases h : (num : ℚ) / den * 2 ^ guess < 2 ^ 52
    · refine ⟨guess + 1, if_pos (hless.mpr h), ?_, ?_⟩
      · rw [zpow_add_one₀ (by norm_num), ← mul_assoc]
        linarith
      · rw [zpow_add_one₀ (by norm_num), ← mul_assoc]
        linarith
    · exact ⟨guess, if_neg fun hlt => h (hless.mp hlt), not_lt.mp h, hhigh⟩
  obtain ⟨s, hs, hslow, hshigh⟩ := hfull
  rw [hs]
  refine ⟨min_le_right _ _, ?_, ?_⟩
  · have hmono : (2 : ℚ) ^ min s 1074 ≤ 2 ^ s :=
      zpow_le_zpow_right₀ (by norm_num) (min_le_left _ _)
    calc (num : ℚ) / den * 2 ^ min s 1074 ≤ num / den * 2 ^ s := by gcongr
      _ < 2 ^ 53 := hshigh
  · by_cases h : s ≤ 1074
    · rw [min_eq_left h]
      exact Or.inr hslow
    · exact Or.inl (min_eq_right (by omega))

/-! ## What a decimal that identifies a double is near to -/

/-- The lower end of the interval of a double, in quarters of a unit of its significand. -/
def lowerEnd (d : Double) : ℕ :=
  if Number.narrowBelow d then 4 * d.significand - 1 else 4 * d.significand - 2

theorem identifies_eq (d : Double) (x : Decimal) :
    identifies d x =
      ((compareScaled x.digits x.exponent d.lowerEnd (d.exponent - 2) == .gt ||
        (d.significand % 2 == 0 &&
          compareScaled x.digits x.exponent d.lowerEnd (d.exponent - 2) == .eq)) &&
      (compareScaled x.digits x.exponent (4 * d.significand + 2) (d.exponent - 2) == .lt ||
        (d.significand % 2 == 0 &&
          compareScaled x.digits x.exponent (4 * d.significand + 2) (d.exponent - 2) == .eq))) :=
  rfl

/-- The interval of a double: a decimal lies between its ends, and at one of them only if the significand
is even. -/
theorem identifies_iff (d : Double) (x : Decimal) :
    identifies d x = true ↔
      (d.lowerEnd : ℚ) * 2 ^ (d.exponent - 2) ≤ x.value ∧
      x.value ≤ (4 * d.significand + 2 : ℕ) * 2 ^ (d.exponent - 2) ∧
      (d.significand % 2 = 1 → (d.lowerEnd : ℚ) * 2 ^ (d.exponent - 2) < x.value ∧
        x.value < (4 * d.significand + 2 : ℕ) * 2 ^ (d.exponent - 2)) := by
  rw [identifies_eq]
  simp only [Bool.and_eq_true, Bool.or_eq_true, beq_iff_eq, compareScaled_eq_gt,
    compareScaled_eq_lt, compareScaled_eq_eq]
  change (_ < x.value ∨ _ ∧ x.value = _) ∧ (x.value < _ ∨ _ ∧ x.value = _) ↔ _
  generalize (d.lowerEnd : ℚ) * 2 ^ (d.exponent - 2) = low
  generalize ((4 * d.significand + 2 : ℕ) : ℚ) * 2 ^ (d.exponent - 2) = high
  rw [le_iff_lt_or_eq, le_iff_lt_or_eq, eq_comm (a := low)]
  rcases Nat.mod_two_eq_zero_or_one d.significand with h | h
  · simp [h]
  · simp only [h, Nat.one_ne_zero, false_and, or_false, true_implies]
    constructor
    · rintro ⟨hl, hh⟩
      exact ⟨Or.inl hl, Or.inl hh, hl, hh⟩
    · rintro ⟨-, -, hboth⟩
      exact hboth

/-- Whether a decimal identifies a double is a matter of its value. -/
theorem identifies_congr (d : Double) {x y : Decimal} (h : x.value = y.value) :
    identifies d x = identifies d y := by
  rw [Bool.eq_iff_iff, identifies_iff, identifies_iff, h]

/-- A decimal that identifies a double is near to its significand, in units of the significand. -/
theorem near_of_identifies {d : Double} {x : Decimal} (h : identifies d x = true) :
    (d.lowerEnd : ℚ) / 4 ≤ x.value * 2 ^ (-d.exponent) ∧
      (d.significand : ℚ) - 1 / 2 ≤ x.value * 2 ^ (-d.exponent) ∧
      x.value * 2 ^ (-d.exponent) ≤ d.significand + 1 / 2 ∧
      (d.significand % 2 = 1 → (d.significand : ℚ) - 1 / 2 < x.value * 2 ^ (-d.exponent) ∧
        x.value * 2 ^ (-d.exponent) < d.significand + 1 / 2) := by
  obtain ⟨hlow, hhigh, hodd⟩ := (identifies_iff d x).mp h
  have hzpos : (0 : ℚ) < 2 ^ (-d.exponent) := by positivity
  -- the ends of the interval are in quarters of the unit of the significand
  have hunit (a : ℚ) : a * 2 ^ (d.exponent - 2) * 2 ^ (-d.exponent) = a / 4 := by
    rw [mul_assoc, ← zpow_add₀ (by norm_num), show d.exponent - 2 + -d.exponent = -2 by ring]
    norm_num
    ring
  have hhalf : (d.significand : ℚ) - 1 / 2 ≤ d.lowerEnd / 4 := by
    have hnat : 4 * d.significand ≤ d.lowerEnd + 2 := by
      unfold lowerEnd
      split <;> omega
    have hrat : (4 : ℚ) * d.significand ≤ d.lowerEnd + 2 := by exact_mod_cast hnat
    linarith
  have hupper : ((4 * d.significand + 2 : ℕ) : ℚ) / 4 = d.significand + 1 / 2 := by
    push_cast
    ring
  have hlow' : (d.lowerEnd : ℚ) / 4 ≤ x.value * 2 ^ (-d.exponent) := by
    rw [← hunit]
    gcongr
  have hhigh' : x.value * 2 ^ (-d.exponent) ≤ d.significand + 1 / 2 := by
    rw [← hupper, ← hunit]
    gcongr
  refine ⟨hlow', hhalf.trans hlow', hhigh', fun hm => ?_⟩
  obtain ⟨hl, hh⟩ := hodd hm
  constructor
  · refine lt_of_le_of_lt hhalf ?_
    rw [← hunit]
    gcongr
  · rw [← hupper, ← hunit]
    gcongr

/-- The value of a decimal that identifies a double other than zero is positive. -/
theorem value_pos_of_identifies {d : Double} {x : Decimal} (hpos : d.significand ≠ 0)
    (h : identifies d x = true) : 0 < x.value := by
  obtain ⟨-, hhalf, -, -⟩ := near_of_identifies h
  have hone : (1 : ℚ) ≤ d.significand := by exact_mod_cast Nat.one_le_iff_ne_zero.mpr hpos
  have hzpos : (0 : ℚ) < 2 ^ (-d.exponent) := by positivity
  by_contra hnot
  have hle : x.value * 2 ^ (-d.exponent) ≤ 0 :=
    mul_nonpos_of_nonpos_of_nonneg (not_lt.mp hnot) hzpos.le
  linarith

/-- The bits of a value, by the places that it keeps and the whole number that is then nearest. -/
theorem quotientBits_eq {num den k : ℕ} {v : ℚ} {s : ℤ} (hden : 0 < den) (hpos : 0 < v)
    (hvalue : (num : ℚ) / den = v) (hplaced : Placed v s) (hlow : (k : ℚ) - 1 / 2 ≤ v * 2 ^ s)
    (hhigh : v * 2 ^ s ≤ k + 1 / 2)
    (hodd : k % 2 = 1 → (k : ℚ) - 1 / 2 < v * 2 ^ s ∧ v * 2 ^ s < k + 1 / 2) :
    quotientBits num den = (1074 - s).toNat * 2 ^ 52 + k := by
  have hnum : num ≠ 0 := by
    rintro rfl
    rw [← hvalue, Nat.cast_zero, zero_div] at hpos
    exact lt_irrefl 0 hpos
  have hplaces : places num den = s := by
    have hown := placed_places (Nat.pos_of_ne_zero hnum) hden
    rw [hvalue] at hown
    exact hown.unique hplaced
  have hscale := scale_value num hden s
  rw [hvalue] at hscale
  have hround : roundQuotient (scale num den s).1 (scale num den s).2 = k := by
    refine roundQuotient_eq (scale_pos num hden s) ?_ ?_ ?_
    · rw [hscale]
      exact hlow
    · rw [hscale]
      exact hhigh
    · rw [hscale]
      exact hodd
  rw [quotientBits, if_neg hnum]
  simp only [Nat.pow_eq]
  rw [hplaces, hround]

/-- What identifies a double and lies below its binade is rounded up into it. -/
theorem quotientBits_of_below {d : Double} {x : Decimal} (hpos : d.significand ≠ 0)
    (h : identifies d x = true) {num den : ℕ} (hden : 0 < den)
    (hvalue : (num : ℚ) / den = x.value) (hexponent : d.exponent ≠ -1074)
    (hbelow : x.value * 2 ^ (-d.exponent) < 2 ^ 52) : quotientBits num den = d.magnitude := by
  obtain ⟨hlow, hhalf, -, -⟩ := near_of_identifies h
  have hleast : d.significand = 2 ^ 52 := by
    have hnormal : 2 ^ 52 ≤ d.significand := d.exponent_eq_or_le.resolve_left hexponent
    have hcast : (d.significand : ℚ) < (2 ^ 52 : ℕ) + 1 := by
      push_cast
      linarith
    have hnat : d.significand < 2 ^ 52 + 1 := by exact_mod_cast hcast
    omega
  have hnarrow : (d.lowerEnd : ℚ) = 4 * 2 ^ 52 - 1 := by
    rw [lowerEnd, if_pos (d.narrowBelow_eq hleast hexponent), hleast]
    norm_num
  -- one binary place more is kept than the double has, and rounding carries it away
  have hdouble : x.value * 2 ^ (-d.exponent + 1) = 2 * (x.value * 2 ^ (-d.exponent)) := by
    rw [zpow_add_one₀ (by norm_num)]
    ring
  have hle := d.le_exponent
  rw [hnarrow] at hlow
  have hplaced : Placed x.value (-d.exponent + 1) :=
    ⟨by omega, by rw [hdouble]; linarith, Or.inr (by rw [hdouble]; linarith)⟩
  have hbits := quotientBits_eq (k := 2 ^ 53) hden (value_pos_of_identifies hpos h) hvalue hplaced
    (by rw [hdouble]; push_cast; linarith) (by rw [hdouble]; push_cast; linarith)
    (fun hmod => absurd hmod (by norm_num))
  rw [hbits, d.magnitude_eq, hleast]
  omega

/-- **A decimal that identifies a double rounds to it.** -/
theorem quotientBits_of_identifies {d : Double} {x : Decimal} (hpos : d.significand ≠ 0)
    (h : identifies d x = true) {num den : ℕ} (hden : 0 < den)
    (hvalue : (num : ℚ) / den = x.value) : quotientBits num den = d.magnitude := by
  obtain ⟨-, hhalf, hhigh, hodd⟩ := near_of_identifies h
  have hle := d.le_exponent
  by_cases hfull : -d.exponent = 1074 ∨ (2 : ℚ) ^ 52 ≤ x.value * 2 ^ (-d.exponent)
  · have hsignificand : (d.significand : ℚ) + 1 ≤ 2 ^ 53 := by exact_mod_cast d.significand_lt
    have hplaced : Placed x.value (-d.exponent) := ⟨by omega, by linarith, hfull⟩
    have hshift : 1074 - -d.exponent = d.exponent + 1074 := by ring
    rw [quotientBits_eq hden (value_pos_of_identifies hpos h) hvalue hplaced hhalf hhigh hodd,
      d.magnitude_eq, hshift]
  · obtain ⟨hne, hlt⟩ := not_or.mp hfull
    exact quotientBits_of_below hpos h hden hvalue (by omega) (not_le.mp hlt)

end Double

end TwoPhase
