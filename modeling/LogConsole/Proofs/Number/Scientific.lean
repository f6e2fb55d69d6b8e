import LogConsole.Proofs.Number.Packing

/-!
# LogConsole.Proofs.Number.Scientific

Decimals as binary64 numbers.

* `mul_eq`, `div_eq`    — products and quotients of numbers are rounded once;
* `ofScientific_eq`     — so is a decimal, also where it is small enough to be the quotient or the
  product of two numbers that are exact;
* `floatOfDecimal_eq`   — a decimal, however long it is, becomes the number that it rounds to.
-/

namespace LogConsole.Number

open Float.Model Float.Model.UnpackedFloat

/-! ## Products and quotients -/

theorem le_targetExponent {a : Nat} {k : Int} (h : 52 ≤ a.log2 ∨ k ≤ -1074) :
    k ≤ Format.binary64.targetExponent (totalExponent a k) := by
  have target : Format.binary64.targetExponent (totalExponent a k)
      = max (a.log2 + 1 + k - 53) (-1074) := rfl
  omega

theorem mul_eq {m a b : Nat} {e j k : Int} {s t : Sign} (ha : 0 < a) (hb : 0 < b)
    (long : 2 ^ 52 ≤ a * b) (c : Canonical m e)
    (r : RoundsTo m e ((a * 2 ^ j) * (b * 2 ^ k))) :
    UnpackedFloat.mul .binary64 (.finite s a j ha) (.finite t b k hb)
      = .finite (s * t) m e c.positive := by
  have exact : Truncates (.ofMantissaAndAccuracy (a * b) .exact)
      ((a * 2 ^ j) * (b * 2 ^ k) / 2 ^ (j + k)) := by
    rw [show ((a : ℚ) * 2 ^ j) * (b * 2 ^ k) / 2 ^ (j + k) = (a * b : Nat) by
      rw [zpow_add₀ two_ne_zero]
      push_cast
      field_simp]
    exact truncates_exact _
  exact roundWithAccuracy_eq _ c r exact
    (le_targetExponent (.inl ((Nat.le_log2 (Nat.mul_pos ha hb).ne').2 long)))

theorem div_eq {m a b : Nat} {e j k : Int} {s t : Sign} (ha : 0 < a) (hb : 0 < b)
    (c : Canonical m e) (r : RoundsTo m e ((a * 2 ^ j) / (b * 2 ^ k))) :
    UnpackedFloat.div .binary64 (.finite s a j ha) (.finite t b k hb)
      = .finite (s / t) m e c.positive := by
  have target : Format.binary64.targetExponent (totalExponent a j - totalExponent b k)
      = max (a.log2 + 1 + j - (b.log2 + 1 + k) - 53) (-1074) := rfl
  simp only [UnpackedFloat.div, divCore, target, Nat.shiftLeft_eq]
  obtain ⟨q, hq⟩ : ∃ q, q = min (j - k) (max (a.log2 + 1 + j - (b.log2 + 1 + k) - 53) (-1074)) :=
    ⟨_, rfl⟩
  rw [← hq]
  obtain ⟨n, hn⟩ : ∃ n : Nat, (n : Int) = j - k - q := ⟨(j - k - q).toNat, by omega⟩
  rw [show (j - k - q).toNat = n by omega]
  have value : (a * 2 ^ j) / (b * 2 ^ k) / 2 ^ q = ((a * 2 ^ n : Nat) : ℚ) / b := by
    have power : (2 : ℚ) ^ j = 2 ^ n * 2 ^ q * 2 ^ k := by
      rw [← zpow_natCast, ← zpow_add₀ two_ne_zero, ← zpow_add₀ two_ne_zero]
      congr 1
      omega
    push_cast
    rw [power]
    field_simp
  refine roundWithAccuracy_eq _ c r (by rw [value]; exact truncates_quotient _ hb) ?_
  refine le_targetExponent ?_
  by_cases small : q ≤ -1074
  · exact .inr small
  · refine .inl ?_
    have size : 52 + (b.log2 + 1) ≤ a.log2 + n := by omega
    have long : 2 ^ 52 ≤ a * 2 ^ n / b := by
      rw [Nat.le_div_iff_mul_le hb]
      calc 2 ^ 52 * b ≤ 2 ^ 52 * 2 ^ (b.log2 + 1) := Nat.mul_le_mul_left _ Nat.lt_log2_self.le
        _ = 2 ^ (52 + (b.log2 + 1)) := (Nat.pow_add ..).symm
        _ ≤ 2 ^ (a.log2 + n) := Nat.pow_le_pow_right two_pos size
        _ = 2 ^ a.log2 * 2 ^ n := Nat.pow_add ..
        _ ≤ a * 2 ^ n := Nat.mul_le_mul_right _ (Nat.log2_self_le ha.ne')
    exact (Nat.le_log2 (by omega)).2 long

/-! ## Whole numbers and powers of ten -/

/-- A whole number that is exact, as the format has it. -/
theorem canonical_nat {n : Nat} (some : 0 < n) (fits : n < 2 ^ 53) :
    Canonical (n * 2 ^ (52 - n.log2)) (n.log2 - 52) := by
  have size : n.log2 < 53 := (Nat.log2_lt some.ne').2 fits
  have high : n < 2 ^ (n.log2 + 1) := Nat.lt_log2_self
  refine ⟨by positivity, ?_, by omega, .inl ?_⟩
  · calc n * 2 ^ (52 - n.log2) < 2 ^ (n.log2 + 1) * 2 ^ (52 - n.log2) :=
          Nat.mul_lt_mul_of_pos_right high (by positivity)
      _ = 2 ^ 53 := by rw [← Nat.pow_add]; congr 1; omega
  · calc 2 ^ 52 = 2 ^ n.log2 * 2 ^ (52 - n.log2) := by rw [← Nat.pow_add]; congr 1; omega
      _ ≤ n * 2 ^ (52 - n.log2) := Nat.mul_le_mul_right _ (Nat.log2_self_le some.ne')

theorem unpack_nat {n : Nat} (some : 0 < n) (fits : n < 2 ^ 53) :
    n.toUInt64.toFloat.toModel.unpack
      = .finite .positive (n * 2 ^ (52 - n.log2)) (n.log2 - 52)
          (canonical_nat some fits).positive := by
  have size : n.log2 < 53 := (Nat.log2_lt some.ne').2 fits
  have c := canonical_nat some fits
  have word : n.toUInt64.toNat = n := Nat.mod_eq_of_lt (fits.trans (by decide))
  have normal : UnpackedFloat.ofUInt64 .binary64 n.toUInt64
      = .finite .positive (n * 2 ^ (52 - n.log2)) ((n.log2 : Int) - 52) c.positive := by
    have target : Format.binary64.targetExponent (totalExponent n 0)
        = max ((n.log2 : Int) + 1 + 0 - 53) (-1074) := rfl
    simp only [UnpackedFloat.ofUInt64, UnpackedFloat.ofNat, UnpackedFloat.ofInt,
      UnpackedFloat.normalize, word]
    rw [show compare (n : Int) 0 = .gt from Int.compare_eq_gt.2 (by omega)]
    simp only [UnpackedFloat.round, decreaseExponent, Int.toNat_natCast, target, Nat.shiftLeft_eq]
    rw [show (0 - max ((n.log2 : Int) + 1 + 0 - 53) (-1074)).toNat = 52 - n.log2 by omega,
      show (0 : Int) - (52 - n.log2 : Nat) = n.log2 - 52 by omega]
    refine roundWithAccuracy_eq _ c (roundsTo_self _ _) ?_ (le_of_eq c.targetExponent.symm)
    rw [mul_div_cancel_right₀ _ (by positivity)]
    exact truncates_exact _
  change UnpackedFloat.unpack .binary64 (UnpackedFloat.pack .binary64 _) = _
  rw [normal]
  exact unpack_pack _ c (by omega)

/-- The numbers of the table are the powers of ten that they stand for. -/
theorem powers_exact : ∀ n : Fin Float.exactlyRepresentablePowersOfTen.size,
    isNegative Float.exactlyRepresentablePowersOfTen[n] = false ∧
      ∃ b ∈ Binary.ofFloat? Float.exactlyRepresentablePowersOfTen[n],
        2 ^ 52 ≤ b.mantissa ∧
          b.mantissa * 2 ^ b.exponent.toNat = 10 ^ n.1 * 2 ^ (-b.exponent).toNat := by
  decide +kernel

theorem powers_size : Float.exactlyRepresentablePowersOfTen.size = 23 := by
  simp [Float.exactlyRepresentablePowersOfTen]

theorem unpack_power {n : Nat} (h : n < Float.exactlyRepresentablePowersOfTen.size) :
    ∃ p k, ∃ some : 0 < p,
      (Float.exactlyRepresentablePowersOfTen[n]).toModel.unpack = .finite .positive p k some ∧
        2 ^ 52 ≤ p ∧ (p : ℚ) * 2 ^ k = 10 ^ n := by
  obtain ⟨positive, b, hb, full, value⟩ := powers_exact ⟨n, h⟩
  refine ⟨_, _, _, (unpack_binary hb).trans (by rw [signBit, positive]; rfl), full, ?_⟩
  have value : (b.mantissa : ℚ) * 2 ^ b.exponent.toNat = 10 ^ n * 2 ^ (-b.exponent).toNat := by
    exact_mod_cast value
  have power : (2 : ℚ) ^ b.exponent = 2 ^ b.exponent.toNat / 2 ^ (-b.exponent).toNat := by
    rw [← zpow_natCast, ← zpow_natCast, ← zpow_sub₀ two_ne_zero]
    congr 1
    omega
  rw [power, ← mul_div_assoc, value, mul_div_cancel_right₀ _ (by positivity)]

/-! ## Decimals -/

theorem unpacked_ofScientific {a m : Nat} {k e : Int} (some : 0 < a) (c : Canonical m e)
    (least : -(2048 + a.log2) ≤ k) (most : k ≤ 2048) (r : RoundsTo m e (a * 10 ^ k)) :
    UnpackedFloat.ofScientific .binary64 a k = .finite .positive m e c.positive := by
  have size : ((2 : Int) ^ Format.binary64.exponentBits) = 2048 := rfl
  have bits : Format.binary64.mantissaBits = 53 := rfl
  simp only [UnpackedFloat.ofScientific, size, bits]
  rw [dif_neg some.ne', if_neg (by omega), if_neg (by omega)]
  by_cases whole : 0 ≤ k
  · rw [if_pos whole]
    refine mul_eq (s := .positive) (t := .positive) _ _ ?_ c ?_
    · rw [Nat.shiftLeft_eq]
      calc 2 ^ 52 ≤ 2 ^ 53 := Nat.pow_le_pow_right two_pos (by omega)
        _ ≤ a * 2 ^ 53 := Nat.le_mul_of_pos_left _ some
        _ ≤ a * 2 ^ 53 * 10 ^ k.toNat := Nat.le_mul_of_pos_right _ (by positivity)
    · have value : ((a <<< 53 : Nat) * 2 ^ (-(53 : Nat) : Int))
          * ((10 ^ k.toNat : Nat) * 2 ^ (0 : Int)) = (a * 10 ^ k : ℚ) := by
        rw [Nat.shiftLeft_eq, zpow_toNat whole, zpow_neg, zpow_natCast]
        push_cast
        rw [mul_one]
        field_simp
        norm_num
      rw [value]
      exact r
  · rw [if_neg whole]
    refine div_eq (s := .positive) (t := .positive) _ _ c ?_
    have value : (a * 2 ^ (0 : Int)) / ((10 ^ (-k).toNat : Nat) * 2 ^ (0 : Int))
        = (a * 10 ^ k : ℚ) := by
      rw [zpow_neg_toNat (le_of_not_ge whole)]
      push_cast
      rw [mul_one, mul_one, div_eq_mul_inv]
    rw [value]
    exact r

/-- The power of ten that a decimal is multiplied with. -/
def signedExponent (negative : Bool) (k : Nat) : Int := if negative then -k else k

theorem ofScientific_eq {a m k : Nat} {e : Int} (negative : Bool) (some : 0 < a)
    (c : Canonical m e) (range : e ≤ 971) (bounds : k ≤ 2048 + if negative then a.log2 else 0)
    (r : RoundsTo m e (a * 10 ^ signedExponent negative k)) :
    (Float.ofScientific a negative k).toModel.unpack = .finite .positive m e c.positive := by
  unfold Float.ofScientific
  by_cases small : a < 2 ^ 53 ∧ k ≤ 22
  · have listed : k < Float.exactlyRepresentablePowersOfTen.size := by rw [powers_size]; omega
    obtain ⟨p, j, positive, power, full, value⟩ := unpack_power listed
    have whole : ((a * 2 ^ (52 - a.log2) : Nat) : ℚ) * 2 ^ ((a.log2 : Int) - 52) = a := by
      have := (Nat.log2_lt some.ne').2 small.1
      push_cast
      rw [mul_assoc, ← zpow_natCast, ← zpow_add₀ two_ne_zero]
      rw [show ((52 - a.log2 : Nat) : Int) + (a.log2 - 52) = 0 by omega, zpow_zero, mul_one]
    have number := unpack_nat some small.1
    rw [dif_pos small]
    cases negative with
    | true =>
      change UnpackedFloat.unpack .binary64 (UnpackedFloat.pack .binary64
        (UnpackedFloat.div .binary64 (a.toUInt64.toFloat).toModel.unpack
          (Float.exactlyRepresentablePowersOfTen[k]).toModel.unpack)) = _
      rw [number, power, div_eq (s := .positive) (t := .positive) _ _ c]
      · exact unpack_pack _ c range
      · rw [whole, value, div_eq_mul_inv, ← zpow_natCast, ← zpow_neg]
        exact r
    | false =>
      change UnpackedFloat.unpack .binary64 (UnpackedFloat.pack .binary64
        (UnpackedFloat.mul .binary64 (a.toUInt64.toFloat).toModel.unpack
          (Float.exactlyRepresentablePowersOfTen[k]).toModel.unpack)) = _
      have long : 2 ^ 52 ≤ a * 2 ^ (52 - a.log2) * p :=
        full.trans (Nat.le_mul_of_pos_left _ (by positivity))
      rw [number, power, mul_eq (s := .positive) (t := .positive) _ _ long c]
      · exact unpack_pack _ c range
      · rw [whole, value, ← zpow_natCast]
        exact r
  · rw [dif_neg small]
    change UnpackedFloat.unpack .binary64 (UnpackedFloat.pack .binary64
      (UnpackedFloat.ofScientific .binary64 a (signedExponent negative k))) = _
    rw [unpacked_ofScientific some c _ _ r]
    · exact unpack_pack _ c range
    · cases negative <;> simp only [signedExponent] <;> grind
    · cases negative <;> simp only [signedExponent] <;> grind

theorem countDigits_spec {n : Nat} (some : 0 < n) :
    10 ^ (countDigits n - 1) ≤ n ∧ n < 10 ^ countDigits n := by
  have digit : 0 < countDigits n := Nat.length_toDigits_pos
  refine ⟨?_, (Nat.length_toDigits_le_iff (by decide) digit).1 (le_refl _)⟩
  by_cases one : countDigits n = 1
  · rw [one]
    exact some
  · refine le_of_not_gt fun less => ?_
    have fewer := (Nat.length_toDigits_le_iff (by decide) (by omega)).2 less
    exact absurd fewer (by unfold countDigits at *; omega)

theorem countDigits_le_log2 {n : Nat} (some : 0 < n) : countDigits n ≤ n.log2 + 1 := by
  have power : 2 ^ (countDigits n - 1) ≤ n :=
    (Nat.pow_le_pow_left (by decide) _).trans (countDigits_spec some).1
  have := (Nat.le_log2 some.ne').2 power
  omega

theorem range_lt : (2 : ℚ) ^ (1075 : Int) < 10 ^ (400 : Int) := by
  calc (2 : ℚ) ^ (1075 : Int) = (2 ^ 43) ^ 25 := by rw [← pow_mul]; rfl
    _ < (10 ^ 16) ^ 25 := pow_lt_pow_left₀ (by norm_num) (by norm_num) (by decide)
    _ = 10 ^ (400 : Int) := by rw [← pow_mul]; rfl

/-- Where the leading digit is of a decimal that rounds to a number in the range of the format. -/
theorem lead_bounds {a m : Nat} {k e : Int} (some : 0 < a) (c : Canonical m e) (range : e ≤ 971)
    (r : RoundsTo m e (a * 10 ^ k)) : -400 ≤ k + countDigits a ∧ k + countDigits a ≤ 400 := by
  have power : (0 : ℚ) < 2 ^ e := by positivity
  have ten : (0 : ℚ) < 10 ^ k := by positivity
  obtain ⟨below, above⟩ := r.nearest.bounds
  rw [le_div_iff₀ power] at below
  rw [div_le_iff₀ power] at above
  obtain ⟨low, high⟩ := countDigits_spec some
  have digit : 0 < countDigits a := Nat.length_toDigits_pos
  have one : (1 : ℚ) ≤ m := by exact_mod_cast c.positive
  have fits : (m : ℚ) + 1 ≤ 2 ^ 53 := by exact_mod_cast c.fits
  constructor
  · have upper : (a * 10 ^ k : ℚ) < 10 ^ (countDigits a + k : Int) := by
      rw [zpow_add₀ (by norm_num), zpow_natCast]
      exact mul_lt_mul_of_pos_right (by exact_mod_cast high) ten
    have least : (10 : ℚ) ^ (-400 : Int) < a * 10 ^ k := by
      calc (10 : ℚ) ^ (-400 : Int) < 2 ^ (-1075 : Int) := by
            rw [zpow_neg, zpow_neg]
            exact inv_strictAnti₀ (by positivity) range_lt
        _ = 1 / 2 * 2 ^ (-1074 : Int) := by
            rw [one_div, ← zpow_neg_one, ← zpow_add₀ two_ne_zero]
            rfl
        _ ≤ 1 / 2 * 2 ^ e := by gcongr <;> first | exact c.least | norm_num
        _ ≤ (m - 1 / 2) * 2 ^ e := by gcongr; linarith
        _ ≤ a * 10 ^ k := below
    have := (zpow_lt_zpow_iff_right₀ (by norm_num : (1 : ℚ) < 10)).1 (least.trans upper)
    omega
  · have lower : (10 : ℚ) ^ (countDigits a - 1 + k : Int) ≤ a * 10 ^ k := by
      have before : (countDigits a - 1 : Int) = (countDigits a - 1 : Nat) := by omega
      rw [zpow_add₀ (by norm_num), before, zpow_natCast]
      exact mul_le_mul_of_nonneg_right (by exact_mod_cast low) ten.le
    have most : (a * 10 ^ k : ℚ) < 10 ^ (400 : Int) := by
      calc (a * 10 ^ k : ℚ) ≤ (m + 1 / 2) * 2 ^ e := above
        _ ≤ 2 ^ 53 * 2 ^ e := by gcongr; linarith
        _ ≤ 2 ^ 53 * 2 ^ (971 : Int) := by gcongr; norm_num
        _ = 2 ^ (1024 : Int) := by rw [← zpow_natCast, ← zpow_add₀ two_ne_zero]; rfl
        _ ≤ 2 ^ (1075 : Int) := zpow_le_zpow_right₀ one_le_two (by decide)
        _ < 10 ^ (400 : Int) := range_lt
    have := (zpow_lt_zpow_iff_right₀ (by norm_num : (1 : ℚ) < 10)).1 (lower.trans_lt most)
    omega

/-- A decimal becomes the number that it rounds to. -/
theorem floatOfDecimal_eq {a m : Nat} {k e : Int} (some : 0 < a) (c : Canonical m e)
    (range : e ≤ 971) (r : RoundsTo m e (a * 10 ^ k)) :
    (floatOfDecimal a k).toModel.unpack = .finite .positive m e c.positive := by
  obtain ⟨low, high⟩ := lead_bounds some c range r
  have digits := countDigits_le_log2 some
  simp only [floatOfDecimal, beq_iff_eq, some.ne', if_false, not_lt.2 low, not_lt.2 high]
  by_cases whole : 0 ≤ k
  · rw [if_pos whole]
    refine ofScientific_eq false (Nat.mul_pos some (Nat.pow_pos (by decide))) c range
      (by simp) ?_
    have value : ((a * tenTo k.toNat : Nat) * 10 ^ signedExponent false 0 : ℚ) = a * 10 ^ k := by
      rw [zpow_toNat whole]
      simp [signedExponent, tenTo]
    exact value ▸ r
  · rw [if_neg whole]
    refine ofScientific_eq true some c range (by simp only [if_true]; omega) ?_
    rwa [show signedExponent true (-k).toNat = k by simp only [signedExponent, if_true]; omega]

end LogConsole.Number
