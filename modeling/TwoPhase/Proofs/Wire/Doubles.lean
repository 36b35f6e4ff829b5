import TwoPhase.Proofs.Wire.Numerals
import TwoPhase.Proofs.Wire.Rounding
/-
Doubles are read back. The digits that are written for a double identify it (`identifies_shortest`), its
text spells their value wherever the point goes and whether or not there is an exponent
(`spells_decimal`), and the value rounds to the double again, as it is read by rounding correctly.
-/

set_option autoImplicit false

namespace TwoPhase

open Number (Decimal Tie identifies compareScaled)

/-! ## The digits of a double -/

namespace Number

/-- Zeros behind the digits are made up for by the exponent. -/
theorem Decimal.value_mul_pow (n k : ℕ) (e : ℤ) :
    (⟨n * 10 ^ k, e - k⟩ : Decimal).value = (⟨n, e⟩ : Decimal).value := by
  rw [Decimal.value, Decimal.value, zpow_sub₀ (by norm_num), zpow_natCast]
  push_cast
  field_simp

theorem Decimal.strip_value (x : Decimal) (fuel : ℕ) : (x.strip fuel).value = x.value := by
  induction fuel generalizing x with
  | zero => rfl
  | succ fuel ih =>
    unfold Decimal.strip
    split
    · rename_i h
      rw [ih]
      have hdigits : (x.digits : ℚ) = (x.digits / 10 : ℕ) * 10 := by
        have hnat : x.digits = x.digits / 10 * 10 := by omega
        exact_mod_cast hnat
      rw [Decimal.value, Decimal.value, hdigits, zpow_add_one₀ (by norm_num)]
      ring
    · rfl

/-- The nearer of two neighbours is one of them. -/
theorem nearer_eq_or (tie : Tie) (m : ℕ) (q : ℤ) (lower : ℕ) (e : ℤ) :
    nearer tie m q lower e = lower ∨ nearer tie m q lower e = lower + 1 := by
  unfold nearer
  split
  · exact Or.inl rfl
  · exact Or.inr rfl
  · cases tie with
    | toEven =>
      obtain h | h := Nat.mod_two_eq_zero_or_one lower
      · exact Or.inl (by simp [h])
      · exact Or.inr (by simp [h])
    | awayFromZero => exact Or.inr rfl

/-- A point of a grid is chosen for a double only if it identifies the double. -/
theorem identifies_of_onGrid {tie : Tie} {d : Double} {e : ℤ} {x : Decimal}
    (h : onGrid? tie d e = some x) : identifies d x = true := by
  unfold onGrid? at h
  simp only at h
  split at h
  · rename_i hlow hhigh
    rw [← Option.some.inj h]
    obtain hnearer | hnearer := nearer_eq_or tie d.significand d.exponent _ e
    · rw [hnearer]
      exact hlow
    · rw [hnearer]
      exact hhigh
  · rename_i hlow _
    rw [← Option.some.inj h]
    exact hlow
  · rename_i _ hhigh
    rw [← Option.some.inj h]
    exact hhigh
  · contradiction

theorem exactDecimal_value (m : ℕ) (q : ℤ) : (exactDecimal m q).value = m * 2 ^ q := by
  have hten : (10 : ℚ) ^ (-q).toNat = 2 ^ (-q).toNat * 5 ^ (-q).toNat := by
    rw [← mul_pow]
    norm_num
  simp only [Decimal.value, exactDecimal, Nat.pow_eq]
  push_cast
  rw [zpow_neg, zpow_natCast, hten, zpow_eq_div (by norm_num) q]
  field_simp

/-- The exact value of a double identifies it. -/
theorem identifies_exact {d : Double} (hpos : d.significand ≠ 0) :
    identifies d (exactDecimal d.significand d.exponent) = true := by
  have hvalue : (exactDecimal d.significand d.exponent).value =
      4 * d.significand * 2 ^ (d.exponent - 2) := by
    rw [exactDecimal_value, zpow_sub₀ (by norm_num)]
    ring
  have hzpos : (0 : ℚ) < 2 ^ (d.exponent - 2) := by positivity
  have hlow : (d.lowerEnd : ℚ) < 4 * d.significand := by
    have hnat : d.lowerEnd < 4 * d.significand := by
      unfold Double.lowerEnd
      split <;> omega
    exact_mod_cast hnat
  have hhigh : (4 * d.significand : ℚ) < (4 * d.significand + 2 : ℕ) := by
    push_cast
    linarith
  rw [Double.identifies_iff, hvalue]
  have hl : (d.lowerEnd : ℚ) * 2 ^ (d.exponent - 2) < 4 * d.significand * 2 ^ (d.exponent - 2) := by
    gcongr
  have hh : 4 * d.significand * 2 ^ (d.exponent - 2) <
      ((4 * d.significand + 2 : ℕ) : ℚ) * 2 ^ (d.exponent - 2) := by
    gcongr
  exact ⟨hl.le, hh.le, fun _ => ⟨hl, hh⟩⟩

/-- **The digits that are written for a double identify it.** -/
theorem identifies_shortest (tie : Tie) {d : Double} (hpos : d.significand ≠ 0) :
    identifies d (shortest tie d) = true := by
  unfold shortest
  rw [if_neg hpos]
  simp only
  rw [Double.identifies_congr d (Decimal.strip_value _ 400)]
  generalize hfound : ((List.range 17).findSome? fun n =>
    onGrid? tie d (decimalScale d.significand d.exponent - (n + 1 : ℕ))) = found
  cases found with
  | none => exact identifies_exact hpos
  | some x =>
    obtain ⟨n, -, hn⟩ := List.exists_of_findSome?_eq_some hfound
    exact identifies_of_onGrid hn

/-- The number zero has no digits but a zero, and no exponent. -/
theorem shortest_of_zero (tie : Tie) {d : Double} (hzero : d.significand = 0) :
    shortest tie d = ⟨0, 0⟩ :=
  if_pos hzero

end Number

/-! ## The text of a decimal -/

namespace Json.Reader

/-- A number with a point or an exponent, as its text gives it. -/
structure Spelling where
  whole : List Char
  places : Option (List Char)
  exponent : Option ℤ
  isWhole : IsWhole whole
  isFraction : ∀ cs ∈ places, IsRun cs ∧ cs ≠ []
  isDecimal : places.isSome ∨ exponent.isSome

/-- The decimal that a text spells. -/
def Spelling.decimal (s : Spelling) : Decimal :=
  ⟨Nat.ofDigitChars 10 (s.whole ++ s.places.getD []) 0,
    s.exponent.getD 0 - ((s.places.getD []).length : ℤ)⟩

/-- What is read for a number with a point or an exponent is the decimal that its text spells. -/
theorem Spelling.numberRead_eq (s : Spelling) (negative : Bool) :
    numberRead negative s.whole s.places s.exponent =
      decimalNumeral negative s.decimal.digits s.decimal.exponent := by
  obtain ⟨whole, places, exponent, -, -, hdecimal⟩ := s
  cases places with
  | some cs => rfl
  | none =>
    cases exponent with
    | some i => rfl
    | none => simp at hdecimal

section
variable {x : Decimal}

theorem isRun_zeros (n : ℕ) : IsRun (Number.zeros n) := by
  intro c hc
  rw [List.eq_of_mem_replicate hc]
  rfl

/-- A run of digits that begins as the digits of a number that is not zero may be before a point. -/
theorem isWhole_of_head {n : ℕ} (hn : n ≠ 0) {cs : List Char} (hrun : IsRun cs) (hne : cs ≠ [])
    (hhead : cs.head? = (Number.digits n).head?) : IsWhole cs := by
  obtain ⟨c, rest, rfl⟩ := List.exists_cons_of_ne_nil hne
  refine ⟨hrun, Or.inr ⟨c, rest, rfl, head_digits hn c ?_⟩⟩
  rw [← hhead]
  rfl

theorem length_digits_pos (n : ℕ) : 0 < (Number.digits n).length :=
  List.length_pos_iff.mpr Nat.toDigits_ne_nil

theorem ofDigitChars_digits (n : ℕ) : Nat.ofDigitChars 10 (Number.digits n) 0 = n :=
  Nat.ofDigitChars_ten_toDigits

/-- A text without a sign spells the value of a decimal. -/
def Spells (text : List Char) (x : Decimal) : Prop :=
  ∃ s : Spelling, numberText s.whole s.places s.exponent = text ∧ s.decimal.value = x.value

/-- Digits on both sides of a point spell those digits, as many places behind it as there are. -/
theorem spells_pointed {whole places : List Char} (hwhole : IsWhole whole) (hplaces : IsRun places)
    (hne : places ≠ [])
    (hvalue : (⟨Nat.ofDigitChars 10 (whole ++ places) 0, -(places.length : ℤ)⟩ : Decimal).value =
      x.value) : Spells (whole ++ '.' :: places) x := by
  refine ⟨⟨whole, some places, none, hwhole, ?_, Or.inl rfl⟩, ?_, ?_⟩
  · rintro cs hcs
    obtain rfl := Option.some.inj hcs
    exact ⟨hplaces, hne⟩
  · rw [numberText, placesText, exponentTail, List.append_nil]
  · rw [← hvalue, Spelling.decimal, Option.getD_some, Option.getD_none, zero_sub]

/-- The point stands behind all digits and some zeros. -/
theorem spells_behind (hzero : x.digits = 0 → x.exponent = 0) (hexponent : 0 ≤ x.exponent) :
    Spells (Number.digits x.digits ++ Number.zeros x.exponent.toNat ++ ['.', '0']) x := by
  have hdigits := isRun_digits x.digits
  have hne : Number.digits x.digits ≠ [] := List.length_pos_iff.mp (length_digits_pos x.digits)
  refine spells_pointed ?_ (isRun_zeros 1) (by decide) ?_
  · by_cases hx : x.digits = 0
    · rw [hzero hx, Int.toNat_zero, Number.zeros, List.replicate_zero, List.append_nil]
      exact isWhole_digits x.digits
    · refine isWhole_of_head hx (List.forall_mem_append.mpr ⟨hdigits, isRun_zeros _⟩) ?_ ?_
      · exact List.append_ne_nil_of_left_ne_nil hne _
      · rw [List.head?_append_of_ne_nil _ hne]
  · have hzeros : Number.zeros x.exponent.toNat ++ ['0'] =
        List.replicate (x.exponent.toNat + 1) '0' := by
      rw [List.replicate_succ']
      rfl
    have hvalue : Nat.ofDigitChars 10
        (Number.digits x.digits ++ Number.zeros x.exponent.toNat ++ ['0']) 0 =
        x.digits * 10 ^ (x.exponent.toNat + 1) := by
      rw [List.append_assoc, hzeros, Nat.ofDigitChars_append, ofDigitChars_digits,
        Nat.ofDigitChars_replicate_zero, Nat.mul_comm]
    have hplace : -((['0'] : List Char).length : ℤ) = x.exponent - (x.exponent.toNat + 1 : ℕ) := by
      rw [List.length_singleton]
      omega
    rw [hvalue, hplace]
    exact Decimal.value_mul_pow _ _ _

/-- The point stands among the digits. -/
theorem spells_among (hx : x.digits ≠ 0) {point : ℕ} (hpos : 0 < point)
    (hpoint : (point : ℤ) = (Number.digits x.digits).length + x.exponent)
    (hexponent : x.exponent < 0) :
    Spells ((Number.digits x.digits).take point ++ '.' :: (Number.digits x.digits).drop point) x := by
  have hdigits := isRun_digits x.digits
  have hlength := length_digits_pos x.digits
  refine spells_pointed ?_ (fun c hc => hdigits c (List.mem_of_mem_drop hc)) ?_ ?_
  · refine isWhole_of_head hx (fun c hc => hdigits c (List.mem_of_mem_take hc)) ?_ ?_
    · rw [← List.length_pos_iff, List.length_take]
      omega
    · rw [List.head?_take, if_neg (by omega)]
  · rw [← List.length_pos_iff, List.length_drop]
    omega
  · have hplaces : -(((Number.digits x.digits).drop point).length : ℤ) = x.exponent := by
      rw [List.length_drop]
      omega
    rw [List.take_append_drop, ofDigitChars_digits, hplaces]

/-- The point stands before the digits, behind it some zeros. -/
theorem spells_before {gap : ℕ}
    (hgap : -(gap : ℤ) = (Number.digits x.digits).length + x.exponent) :
    Spells (['0', '.'] ++ Number.zeros gap ++ Number.digits x.digits) x := by
  have hne : Number.digits x.digits ≠ [] := List.length_pos_iff.mp (length_digits_pos x.digits)
  have hzeros : ['0'] ++ Number.zeros gap = List.replicate (gap + 1) '0' := rfl
  have hplaces : -((Number.zeros gap ++ Number.digits x.digits).length : ℤ) = x.exponent := by
    rw [List.length_append, Number.zeros, List.length_replicate]
    omega
  have hspells : Spells (['0'] ++ '.' :: (Number.zeros gap ++ Number.digits x.digits)) x := by
    refine spells_pointed ⟨isRun_zeros 1, Or.inl rfl⟩
      (List.forall_mem_append.mpr ⟨isRun_zeros gap, isRun_digits x.digits⟩)
      (List.append_ne_nil_of_right_ne_nil _ hne) ?_
    rw [← List.append_assoc, hzeros, Nat.ofDigitChars_append, Nat.ofDigitChars_replicate_zero,
      Nat.mul_zero, ofDigitChars_digits, hplaces]
  rw [List.append_assoc]
  exact hspells

/-- The digits of a decimal, with the point behind, among or before them. -/
theorem spells_positional (hzero : x.digits = 0 → x.exponent = 0) :
    Spells (Number.positional x) x := by
  unfold Number.positional
  simp only
  by_cases hexponent : 0 ≤ x.exponent
  · rw [if_pos hexponent]
    exact spells_behind hzero hexponent
  · rw [if_neg hexponent]
    by_cases hpoint : 0 < ((Number.digits x.digits).length : ℤ) + x.exponent
    · rw [if_pos hpoint]
      exact spells_among (fun hx => hexponent (hzero hx).ge) (by omega) (by omega) (by omega)
    · rw [if_neg hpoint]
      exact spells_before (by omega)

/-- One digit before the point, the others behind it, and the exponent of the first. -/
theorem spells_scientific (hx : x.digits ≠ 0) : Spells (Number.scientific true x) x := by
  have hdigits := isRun_digits x.digits
  obtain ⟨c, cs, hcs⟩ := List.exists_cons_of_ne_nil (Nat.toDigits_ne_nil (n := x.digits) (b := 10))
  change Number.digits x.digits = c :: cs at hcs
  have hwhole : IsWhole [c] := by
    refine isWhole_of_head hx ?_ (by simp) (by rw [hcs]; rfl)
    rintro c' hc'
    obtain rfl := List.mem_singleton.mp hc'
    exact hdigits c' (by rw [hcs]; exact List.mem_cons_self)
  have hvalue : Nat.ofDigitChars 10 (c :: cs) 0 = x.digits := by
    rw [← hcs]
    exact ofDigitChars_digits x.digits
  unfold Number.scientific
  simp only [hcs, List.length_cons, List.take_succ_cons, List.take_zero, List.drop_succ_cons,
    List.drop_zero]
  -- a single digit is written without a point
  by_cases hone : cs = []
  · subst hone
    refine ⟨⟨[c], none, some x.exponent, hwhole, fun _ h => by contradiction, Or.inr rfl⟩, ?_, ?_⟩
    · simp [numberText, placesText, exponentTail, exponentText]
    · rw [Spelling.decimal]
      simp only [Option.getD_none, Option.getD_some, List.append_nil, hvalue, List.length_nil]
      congr 2
      omega
  · have hpos := List.length_pos_iff.mpr hone
    refine ⟨⟨[c], some cs, some (x.exponent + cs.length), hwhole, ?_, Or.inl rfl⟩, ?_, ?_⟩
    · rintro cs' hcs'
      obtain rfl := Option.some.inj hcs'
      exact ⟨fun d hd => hdigits d (by rw [hcs]; exact List.mem_cons_of_mem c hd), hone⟩
    · have hlead : ((cs.length + 1 : ℕ) : ℤ) + x.exponent - 1 = x.exponent + cs.length := by
        push_cast
        ring
      rw [if_neg (by omega), hlead]
      simp [numberText, placesText, exponentTail, exponentText]
    · rw [Spelling.decimal]
      simp only [Option.getD_some, List.singleton_append, hvalue]
      congr 2
      omega

/-- **A decimal is spelled by what is written for it**, wherever the point goes. -/
theorem spells_decimal (hzero : x.digits = 0 → x.exponent = 0) :
    Spells (Number.wire.decimal x) x := by
  unfold Number.Layout.decimal
  split
  · exact spells_positional hzero
  · rename_i hscientific
    refine spells_scientific fun hx => hscientific ?_
    rw [Number.Layout.isPositional, hx]
    rfl

end

end Json.Reader

/-! ## From decimals to doubles -/

namespace Double

variable {d : Double}

/-- A double is its sign and its magnitude. -/
theorem ofParts_self (d : Double) : ofParts d.isNegative d.magnitude = d := by
  have hlt : d.bits.toNat < 2 ^ 64 := d.bits.toNat_lt
  have hparts : d.magnitude + (if d.isNegative then Nat.pow 2 63 else 0) = d.bits.toNat := by
    simp only [isNegative, magnitude, Nat.pow_eq, decide_eq_true_eq]
    split <;> omega
  rw [ofParts, hparts, UInt64.ofNat_toNat]

/-- Only the zeros have no significand. -/
theorem magnitude_eq_zero (hzero : d.significand = 0) : d.magnitude = 0 := by
  have hexponent : d.exponent = -1074 := d.exponent_eq_or_le.resolve_right (by rw [hzero]; decide)
  rw [magnitude_eq, hzero, hexponent]
  rfl

/-- No number has a greater exponent. -/
theorem exponent_le (h : d.isFinite = true) : d.exponent ≤ 971 := by
  unfold isFinite infinityBits at h
  unfold exponent
  simp only [Nat.pow_eq, decide_eq_true_eq] at h ⊢
  split <;> omega

/-- A power of ten is greater than the third power of the same power of two. -/
theorem two_pow_le_ten_pow {n k : ℕ} (h : n ≤ 3 * k) : (2 : ℚ) ^ n ≤ 10 ^ k :=
  calc (2 : ℚ) ^ n ≤ 2 ^ (3 * k) := pow_le_pow_right₀ (by norm_num) h
    _ = (2 ^ 3) ^ k := pow_mul 2 3 k
    _ ≤ 10 ^ k := pow_le_pow_left₀ (by norm_num) (by norm_num) k

/-- What identifies a number is less than all powers of two from the greatest on. -/
theorem value_lt_of_identifies (hfinite : d.isFinite = true) {x : Decimal}
    (h : identifies d x = true) : x.value < 2 ^ 1024 := by
  obtain ⟨-, -, hhigh, -⟩ := near_of_identifies h
  have hsignificand : (d.significand : ℚ) + 1 ≤ 2 ^ 53 := by exact_mod_cast d.significand_lt
  have hvalue : x.value = x.value * 2 ^ (-d.exponent) * 2 ^ d.exponent := by
    rw [mul_assoc, ← zpow_add₀ (by norm_num), neg_add_cancel, zpow_zero, mul_one]
  have hpow : (2 : ℚ) ^ d.exponent ≤ 2 ^ (971 : ℤ) :=
    zpow_le_zpow_right₀ (by norm_num) (exponent_le hfinite)
  calc x.value = x.value * 2 ^ (-d.exponent) * 2 ^ d.exponent := hvalue
    _ ≤ (d.significand + 1 / 2) * 2 ^ d.exponent := by gcongr
    _ < 2 ^ 53 * 2 ^ d.exponent := by
        gcongr
        linarith
    _ ≤ 2 ^ 53 * 2 ^ (971 : ℤ) := by gcongr
    _ = 2 ^ 1024 := by
        rw [← zpow_natCast, ← zpow_natCast, ← zpow_add₀ (by norm_num)]
        norm_num

/-- What identifies a number other than zero is not less than half the least of them. -/
theorem le_value_of_identifies (hpos : d.significand ≠ 0) {x : Decimal}
    (h : identifies d x = true) : (2 : ℚ) ^ (-1075 : ℤ) ≤ x.value := by
  obtain ⟨-, hlow, -, -⟩ := near_of_identifies h
  have hsignificand : (1 : ℚ) ≤ d.significand := by exact_mod_cast Nat.one_le_iff_ne_zero.mpr hpos
  have hvalue : x.value = x.value * 2 ^ (-d.exponent) * 2 ^ d.exponent := by
    rw [mul_assoc, ← zpow_add₀ (by norm_num), neg_add_cancel, zpow_zero, mul_one]
  have hpow : (2 : ℚ) ^ (-1074 : ℤ) ≤ 2 ^ d.exponent :=
    zpow_le_zpow_right₀ (by norm_num) d.le_exponent
  calc (2 : ℚ) ^ (-1075 : ℤ) = 1 / 2 * 2 ^ (-1074 : ℤ) := by
        rw [show (-1075 : ℤ) = -1 + -1074 by norm_num, zpow_add₀ (by norm_num)]
        norm_num
    _ ≤ 1 / 2 * 2 ^ d.exponent := by gcongr
    _ ≤ x.value * 2 ^ (-d.exponent) * 2 ^ d.exponent := by
        gcongr
        linarith
    _ = x.value := hvalue.symm

/-- The digits and the exponent of a decimal give its order of magnitude. -/
theorem value_bounds {x : Decimal} (hx : x.digits ≠ 0) :
    (10 : ℚ) ^ (x.exponent + ((Nat.toDigits 10 x.digits).length : ℤ) - 1) ≤ x.value ∧
      x.value < 10 ^ (x.exponent + ((Nat.toDigits 10 x.digits).length : ℤ)) := by
  have hlength : 0 < (Nat.toDigits 10 x.digits).length := List.length_pos_iff.mpr Nat.toDigits_ne_nil
  have hlt : x.digits < 10 ^ (Nat.toDigits 10 x.digits).length :=
    (Nat.length_toDigits_le_iff (by decide) hlength).mp (Nat.le_refl _)
  have hle : 10 ^ ((Nat.toDigits 10 x.digits).length - 1) ≤ x.digits := by
    by_cases hone : (Nat.toDigits 10 x.digits).length = 1
    · rw [hone]
      exact Nat.one_le_iff_ne_zero.mpr hx
    · by_contra hnot
      have hshort := (Nat.length_toDigits_le_iff (b := 10) (by decide) (by omega)).mpr
        (Nat.lt_of_not_le hnot)
      omega
  have hlt' : (x.digits : ℚ) < 10 ^ (Nat.toDigits 10 x.digits).length := by exact_mod_cast hlt
  have hle' : (10 : ℚ) ^ ((Nat.toDigits 10 x.digits).length - 1) ≤ x.digits := by exact_mod_cast hle
  have hsplit : x.exponent + ((Nat.toDigits 10 x.digits).length : ℤ) - 1 =
      ((Nat.toDigits 10 x.digits).length - 1 : ℕ) + x.exponent := by omega
  rw [hsplit, zpow_add₀ (by norm_num), zpow_natCast, Decimal.value, add_comm x.exponent,
    zpow_add₀ (by norm_num), zpow_natCast]
  constructor <;> gcongr

/-- **A decimal that identifies a number is read as it.** -/
theorem ofDecimal_of_identifies (hfinite : d.isFinite = true) (hpos : d.significand ≠ 0)
    {x : Decimal} (h : identifies d x = true) (negative : Bool) :
    ofDecimal? negative x.digits x.exponent = some (ofParts negative d.magnitude) := by
  have hhigh := value_lt_of_identifies hfinite h
  have hlow := le_value_of_identifies hpos h
  have hx : x.digits ≠ 0 := by
    intro hzero
    have hvalue := value_pos_of_identifies hpos h
    rw [Decimal.value, hzero] at hvalue
    simp at hvalue
  obtain ⟨hleast, hmost⟩ := value_bounds hx
  unfold ofDecimal?
  simp only
  generalize x.exponent + ((Nat.toDigits 10 x.digits).length : ℤ) = top at *
  -- the number is finite and not zero, so the decimal is within the exponents that are not cut off
  have hmin : ¬ top < -400 := by
    intro htop
    refine lt_irrefl x.value ?_
    calc x.value < 10 ^ top := hmost
      _ ≤ 10 ^ (-400 : ℤ) := zpow_le_zpow_right₀ (by norm_num) htop.le
      _ ≤ 2 ^ (-1075 : ℤ) := by
          rw [zpow_neg, zpow_neg, ← Nat.cast_ofNat (R := ℤ), zpow_natCast, ← Nat.cast_ofNat (R := ℤ),
            zpow_natCast]
          exact inv_anti₀ (by positivity) (two_pow_le_ten_pow (by norm_num))
      _ ≤ x.value := hlow
  have hmax : ¬ 400 < top := by
    intro htop
    refine lt_irrefl x.value ?_
    calc x.value < 2 ^ 1024 := hhigh
      _ ≤ 10 ^ 400 := two_pow_le_ten_pow (by norm_num)
      _ = 10 ^ ((400 : ℕ) : ℤ) := (zpow_natCast _ _).symm
      _ ≤ 10 ^ (top - 1) := zpow_le_zpow_right₀ (by norm_num) (by omega)
      _ ≤ x.value := hleast
  -- what is left is a quotient whose value is that of the decimal
  have hden : 0 < Nat.pow 10 (-x.exponent).toNat := Nat.pow_pos (by decide)
  have hvalue : ((x.digits * Nat.pow 10 x.exponent.toNat : ℕ) : ℚ) /
      (Nat.pow 10 (-x.exponent).toNat : ℕ) = x.value := by
    simp only [Nat.pow_eq]
    push_cast
    rw [Decimal.value, zpow_eq_div (by norm_num) x.exponent, mul_div_assoc]
  rw [if_neg (by omega), if_neg hmax, ofQuotient?, quotientBits_of_identifies hpos h hden hvalue]
  exact if_pos (of_decide_eq_true hfinite)

end Double

/-! ## Doubles -/

namespace Json

open Reader

/-- The text of a number, with its sign. -/
theorem exists_text {d : Double} (hfinite : d.isFinite = true) :
    ∃ s : Spelling, double d =
        (signedText d.isNegative s.whole s.places s.exponent).map Ascii.octet ∧
      decimalNumeral d.isNegative s.decimal.digits s.decimal.exponent = pure (.float d) := by
  have hzero : (Number.shortest .toEven d).digits = 0 → (Number.shortest .toEven d).exponent = 0 := by
    intro hdigits
    by_cases hpos : d.significand = 0
    · rw [Number.shortest_of_zero _ hpos]
    · have hvalue := Double.value_pos_of_identifies hpos (Number.identifies_shortest .toEven hpos)
      rw [Decimal.value, hdigits] at hvalue
      simp at hvalue
  obtain ⟨s, htext, hvalue⟩ := spells_decimal hzero
  have hnan : d.isNaN = false := by
    unfold Double.isFinite at hfinite
    unfold Double.isNaN
    simp only [decide_eq_true_eq, decide_eq_false_iff_not] at hfinite ⊢
    omega
  refine ⟨s, ?_, ?_⟩
  · rw [double, Number.Layout.double, hnan, if_neg (by decide), if_pos hfinite, signedText, htext]
    rfl
  · have hread : Double.ofDecimal? d.isNegative s.decimal.digits s.decimal.exponent =
        some (Double.ofParts d.isNegative d.magnitude) := by
      -- zero is read by its digits alone, any other number by the interval of what identifies it
      by_cases hpos : d.significand = 0
      · rw [Number.shortest_of_zero _ hpos] at hvalue
        have hdigits : s.decimal.digits = 0 := by
          simpa [Decimal.value, zpow_ne_zero] using hvalue
        rw [Double.ofDecimal?, hdigits, Double.magnitude_eq_zero hpos]
        rfl
      · refine Double.ofDecimal_of_identifies hfinite hpos ?_ _
        rw [Double.identifies_congr d hvalue]
        exact Number.identifies_shortest .toEven hpos
    rw [decimalNumeral, hread, Double.ofParts_self]

/-- **A double that is a number is read back.** -/
theorem double_yields {d : Double} (hfinite : d.isFinite = true) :
    Yields Reader.double (double d) True d := by
  intro rest hrest
  obtain ⟨s, htext, hread⟩ := exists_text hfinite
  have hnumeral : numeral "f64" (double d ++ rest) = .ok (.float d, rest) := by
    rw [htext, numeral_run "f64" d.isNegative s.places s.exponent s.isWhole s.isFraction hrest,
      s.numberRead_eq, hread, pure_run]
  refine gives_ok ?_
  rw [Reader.double, bind_ok hnumeral]
  rfl

/-- A double that is a number is written without brackets. -/
theorem nests_double {d : Double} (hfinite : d.isFinite = true) : Nests (double d) 0 := by
  obtain ⟨s, htext, -⟩ := exists_text hfinite
  rw [htext]
  exact nests_signedText _ _ _ s.isWhole.1 fun cs hcs => (s.isFraction cs hcs).1

end Json

end TwoPhase
