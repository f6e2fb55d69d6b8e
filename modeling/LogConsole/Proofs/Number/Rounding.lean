import Mathlib
import LogConsole.Number.Text

/-!
# LogConsole.Proofs.Number.Rounding

Rounding to binary64.

* `Canonical m e`   — `m · 2 ^ e` as the format has it: a full mantissa, or the least exponent;
* `Nearest n x`     — `n` is the whole number nearest to `x`, the even one of two;
* `RoundsTo m e x`  — `m · 2 ^ e` is the number of the format nearest to `x`;
* `Truncates em x`  — a mantissa with its two further bits says where `x` is;
* `roundWithAccuracy_eq` — such a mantissa is rounded to the number that `x` rounds to.
-/

namespace LogConsole.Number

open Float.Model Float.Model.UnpackedFloat

structure Canonical (m : Nat) (e : Int) : Prop where
  positive : 0 < m
  fits : m < 2 ^ 53
  least : -1074 ≤ e
  full : 2 ^ 52 ≤ m ∨ e = -1074

/-! ## Powers -/

theorem zpow_toNat {b : ℚ} {k : Int} (h : 0 ≤ k) : b ^ k = b ^ k.toNat := by
  rw [← zpow_natCast, Int.toNat_of_nonneg h]

theorem zpow_neg_toNat {b : ℚ} {k : Int} (h : k ≤ 0) : b ^ k = (b ^ (-k).toNat)⁻¹ := by
  rw [← zpow_natCast, ← zpow_neg, Int.toNat_of_nonneg (by omega), neg_neg]

/-! ## The nearest whole number -/

def Nearest (n : Nat) (x : ℚ) : Prop := |x - n| < 1 / 2 ∨ |x - n| = 1 / 2 ∧ n % 2 = 0

theorem nearest_of_close {n : Nat} {x : ℚ} (close : |x - n| ≤ 1 / 2)
    (tie : |x - n| = 1 / 2 → n % 2 = 0) : Nearest n x :=
  (lt_or_eq_of_le close).imp_right fun same => ⟨same, tie same⟩

theorem Nearest.bounds {n : Nat} {x : ℚ} (h : Nearest n x) : n - 1 / 2 ≤ x ∧ x ≤ n + 1 / 2 := by
  have close : |x - n| ≤ 1 / 2 := h.elim le_of_lt fun h => le_of_eq h.1
  obtain ⟨below, above⟩ := abs_le.1 close
  constructor <;> linarith

theorem Nearest.unique {n k : Nat} {x : ℚ} (hn : Nearest n x) (hk : Nearest k x) : n = k := by
  wlog le : n ≤ k generalizing n k
  · exact (this hk hn (Nat.le_of_not_le le)).symm
  obtain ⟨-, above⟩ := hn.bounds
  obtain ⟨below, -⟩ := hk.bounds
  have near : (k : ℚ) ≤ n + 1 := by linarith
  have near : k ≤ n + 1 := by exact_mod_cast near
  by_contra differ
  obtain rfl : k = n + 1 := by omega
  -- then `x` is half way between the two, which are both even
  have half : x = n + 1 / 2 := by push_cast at below; linarith
  have even {j : Nat} (h : Nearest j x) (far : |x - j| = 1 / 2) : j % 2 = 0 :=
    h.elim (fun h => absurd far h.ne) And.right
  have one := even hn (by rw [half, add_sub_cancel_left]; norm_num)
  have two := even hk (by rw [half]; push_cast; norm_num [abs_of_neg])
  omega

/-- A number of the format, or a number near to the one below it, for which the mantissa may have
one bit more. -/
structure RoundsTo (m : Nat) (e : Int) (x : ℚ) : Prop where
  nearest : Nearest m (x / 2 ^ e)
  finer : m = 2 ^ 52 → -1074 < e → x < m * 2 ^ e → Nearest (2 ^ 53) (x / 2 ^ (e - 1))

theorem roundsTo_self (m : Nat) (e : Int) : RoundsTo m e (m * 2 ^ e) where
  nearest := .inl (by rw [mul_div_cancel_right₀ _ (by positivity), sub_self]; norm_num)
  finer _ _ h := absurd h (lt_irrefl _)

/-! ## Mantissas with two further bits -/

/-- `x` is cut off to the mantissa; the bits tell what has been cut off from a half and from
nothing. -/
structure Truncates (em : ExtendedMantissa) (x : ℚ) : Prop where
  below : em.mantissa ≤ x
  above : x < em.mantissa + 1
  round : em.roundBit = true ↔ em.mantissa + 1 / 2 ≤ x
  sticky : em.stickyBit = true ↔ x ≠ em.mantissa ∧ x ≠ em.mantissa + 1 / 2

theorem truncates_exact (m : Nat) : Truncates (.ofMantissaAndAccuracy m .exact) m where
  below := le_refl _
  above := by simp [ExtendedMantissa.ofMantissaAndAccuracy]
  round := by norm_num [ExtendedMantissa.ofMantissaAndAccuracy]
  sticky := by simp [ExtendedMantissa.ofMantissaAndAccuracy]

/-- What the division of whole numbers leaves is told by the accuracy. -/
theorem truncates_quotient (a : Nat) {d : Nat} (hd : 0 < d) :
    Truncates (.ofMantissaAndAccuracy (a / d) (accuracyOfFraction (a % d) d)) ((a : ℚ) / d) := by
  have hd' : (0 : ℚ) < d := by exact_mod_cast hd
  have split : (a : ℚ) / d = (a / d : Nat) + (a % d : Nat) / d := by
    have whole : (a : ℚ) = d * (a / d : Nat) + (a % d : Nat) := by
      exact_mod_cast (Nat.div_add_mod a d).symm
    field_simp
    linarith
  have less : ((a % d : Nat) : ℚ) / d < 1 := by
    rw [div_lt_one hd']
    exact_mod_cast Nat.mod_lt a hd
  have half : ((a % d : Nat) : ℚ) / d < 1 / 2 ↔ 2 * (a % d) < d := by
    rw [div_lt_div_iff₀ hd' two_pos, one_mul, mul_comm]
    exact_mod_cast Iff.rfl
  have same : ((a % d : Nat) : ℚ) / d = 1 / 2 ↔ 2 * (a % d) = d := by
    rw [div_eq_div_iff hd'.ne' two_ne_zero, one_mul, mul_comm]
    exact_mod_cast Iff.rfl
  rw [split]
  generalize a / d = q
  generalize a % d = r at *
  unfold accuracyOfFraction
  by_cases none : r = 0
  · rw [if_pos none, none, Nat.cast_zero, zero_div, add_zero]
    exact truncates_exact q
  · have some : (0 : ℚ) < r / d := div_pos (by exact_mod_cast Nat.pos_of_ne_zero none) hd'
    rw [if_neg none]
    rcases lt_trichotomy (2 * r) d with cmp | cmp | cmp
    · have low := half.2 cmp
      rw [Nat.compare_eq_lt.2 cmp]
      constructor <;> simp [ExtendedMantissa.ofMantissaAndAccuracy] <;> grind
    · have low := same.2 cmp
      rw [Nat.compare_eq_eq.2 cmp, low]
      constructor <;> norm_num [ExtendedMantissa.ofMantissaAndAccuracy]
    · have high : 1 / 2 < (r : ℚ) / d := by
        refine lt_of_le_of_ne (le_of_not_gt fun h => ?_) fun h => ?_
        · exact absurd (half.1 h) (by omega)
        · exact absurd (same.1 h.symm) (by omega)
      rw [Nat.compare_eq_gt.2 cmp]
      constructor <;> simp [ExtendedMantissa.ofMantissaAndAccuracy] <;> grind

theorem Truncates.shiftRightOne {em : ExtendedMantissa} {x : ℚ} (h : Truncates em x) :
    Truncates em.shiftRightOne (x / 2) := by
  obtain ⟨m, r, s⟩ := em
  obtain ⟨below, above, round, sticky⟩ := h
  have whole : (m : ℚ) = 2 * (m / 2 : Nat) + (m % 2 : Nat) := by
    exact_mod_cast (Nat.div_add_mod m 2).symm
  dsimp only at below above round sticky
  -- the bits that there were come to one: whether anything has been cut off
  have rest : (r || s) = true ↔ x ≠ m := by
    rw [Bool.or_eq_true, round, sticky]
    constructor
    · rintro (h | h) same
      · linarith
      · exact h.1 same
    · intro differ
      by_cases h : (m : ℚ) + 1 / 2 ≤ x
      · exact .inl h
      · exact .inr ⟨differ, fun same => h same.ge⟩
  rcases Nat.mod_two_eq_zero_or_one m with even | odd
  · rw [even, Nat.cast_zero, add_zero] at whole
    constructor <;> simp only [ExtendedMantissa.shiftRightOne, even]
    · linarith
    · linarith
    · exact iff_of_false (by decide) (by linarith)
    · rw [rest, whole]
      exact ⟨fun h => ⟨fun same => h (by linarith), fun same => by linarith⟩,
        fun h same => h.1 (by linarith)⟩
  · rw [odd, Nat.cast_one] at whole
    constructor <;> simp only [ExtendedMantissa.shiftRightOne, odd]
    · linarith
    · linarith
    · exact iff_of_true (by decide) (by linarith)
    · rw [rest, whole]
      exact ⟨fun h => ⟨fun same => by linarith, fun same => h (by linarith)⟩,
        fun h same => h.2 (by linarith)⟩

theorem Truncates.shiftRight {em : ExtendedMantissa} {x : ℚ} (h : Truncates em x) (n : Nat) :
    Truncates (em >>> n) (x / 2 ^ n) := by
  change Truncates (n.repeat ExtendedMantissa.shiftRightOne em) _
  induction n with
  | zero => simpa [Nat.repeat] using h
  | succ n ih =>
    rw [Nat.repeat, pow_succ, ← div_div]
    exact ih.shiftRightOne

theorem Truncates.nearest {em : ExtendedMantissa} {x : ℚ} (h : Truncates em x) :
    Nearest em.roundedMantissa x := by
  obtain ⟨m, r, s⟩ := em
  obtain ⟨below, above, round, sticky⟩ := h
  dsimp only at below above round sticky
  have exact_or_half (h : s = false) : x = m ∨ x = m + 1 / 2 := by
    by_contra differ
    rw [not_or] at differ
    rw [sticky.2 differ] at h
    cases h
  have neither (h : s = true) := sticky.1 h
  cases r with
  | false =>
    have low : x < m + 1 / 2 := lt_of_not_ge fun h => by cases round.2 h
    have down : ExtendedMantissa.roundedMantissa ⟨m, false, s⟩ = m := by cases s <;> rfl
    rw [down]
    exact .inl (abs_lt.2 ⟨by linarith, by linarith⟩)
  | true =>
    have high : (m : ℚ) + 1 / 2 ≤ x := round.1 rfl
    cases s with
    | true =>
      have higher : (m : ℚ) + 1 / 2 < x := lt_of_le_of_ne high (neither rfl).2.symm
      have up : ExtendedMantissa.roundedMantissa ⟨m, true, true⟩ = m + 1 := rfl
      rw [up, Nearest, Nat.cast_add, Nat.cast_one]
      exact .inl (abs_lt.2 ⟨by linarith, by linarith⟩)
    | false =>
      have half : x = m + 1 / 2 := (exact_or_half rfl).resolve_left fun h => by linarith
      have tie : ExtendedMantissa.roundedMantissa ⟨m, true, false⟩ = m + m % 2 := rfl
      rw [tie, half]
      refine .inr ⟨?_, by omega⟩
      rcases Nat.mod_two_eq_zero_or_one m with even | odd
      · rw [even]
        norm_num
      · rw [odd]
        push_cast
        rw [show (m : ℚ) + 1 / 2 - (m + 1) = -(1 / 2) by ring, abs_neg]
        norm_num

/-! ## Rounding -/

/-- Where the mantissa of a number ends that is cut off. -/
theorem Truncates.log2_bounds {em : ExtendedMantissa} {x : ℚ} {e : Int}
    (h : Truncates em (x / 2 ^ e)) (some : em.mantissa ≠ 0) :
    (2 : ℚ) ^ (em.mantissa.log2 + e) ≤ x ∧ x < 2 ^ (em.mantissa.log2 + 1 + e) := by
  have power : (0 : ℚ) < 2 ^ e := by positivity
  have low : (2 : ℚ) ^ em.mantissa.log2 ≤ em.mantissa := by
    exact_mod_cast Nat.log2_self_le some
  have high : (em.mantissa : ℚ) + 1 ≤ 2 ^ (em.mantissa.log2 + 1) := by
    exact_mod_cast Nat.succ_le_of_lt Nat.lt_log2_self
  have below := (le_div_iff₀ power).1 (low.trans h.below)
  have above := (div_lt_iff₀ power).1 (h.above.trans_le high)
  rw [zpow_add₀ two_ne_zero, zpow_add₀ two_ne_zero]
  exact ⟨by exact_mod_cast below, by exact_mod_cast above⟩

theorem zpow_two_lt {a b : Int} {x : ℚ} (ha : (2 : ℚ) ^ a ≤ x) (hb : x < 2 ^ b) : a < b :=
  (zpow_lt_zpow_iff_right₀ one_lt_two).1 (ha.trans_lt hb)

/-- A number that is cut off to nothing where the format ends is below all numbers of the format. -/
theorem Truncates.below_least {em : ExtendedMantissa} {x : ℚ} {k : Int}
    (h : Truncates em (x / 2 ^ k)) (none : em.mantissa = 0) (fine : k ≤ -1074) :
    x < 2 ^ (-1074 : Int) := by
  have above := h.above
  rw [none, Nat.cast_zero, zero_add, div_lt_one (by positivity)] at above
  exact above.trans_le (zpow_le_zpow_right₀ one_le_two fine)

theorem RoundsTo.below {m : Nat} {e : Int} {x : ℚ} (c : Canonical m e) (r : RoundsTo m e x) :
    x < 2 ^ (53 + e) := by
  have power : (0 : ℚ) < 2 ^ e := by positivity
  have fits : (m : ℚ) + 1 ≤ 2 ^ 53 := by exact_mod_cast c.fits
  have high := (div_le_iff₀ power).1 r.nearest.bounds.2
  rw [zpow_add₀ two_ne_zero]
  exact lt_of_le_of_lt high (mul_lt_mul_of_pos_right (by norm_num at fits ⊢; linarith) power)

theorem RoundsTo.above {m : Nat} {e : Int} {x : ℚ} (full : 2 ^ 52 ≤ m) (r : RoundsTo m e x) :
    (2 : ℚ) ^ (51 + e) ≤ x := by
  have power : (0 : ℚ) < 2 ^ e := by positivity
  have full : (2 : ℚ) ^ 52 ≤ m := by exact_mod_cast full
  have low := (le_div_iff₀ power).1 r.nearest.bounds.1
  rw [zpow_add₀ two_ne_zero]
  exact le_trans (mul_le_mul_of_nonneg_right (by norm_num; linarith) power.le) low

/-- What is below the numbers with a full mantissa is rounded to none of them but the least. -/
theorem RoundsTo.least_full {m : Nat} {e : Int} {x : ℚ} (full : 2 ^ 52 ≤ m) (r : RoundsTo m e x)
    (small : x < 2 ^ (52 + e)) : m = 2 ^ 52 ∧ x < m * 2 ^ e := by
  have power : (0 : ℚ) < 2 ^ e := by positivity
  have low := (le_div_iff₀ power).1 r.nearest.bounds.1
  rw [zpow_add₀ two_ne_zero] at small
  have small : x < 2 ^ 52 * 2 ^ e := by exact_mod_cast small
  have least : m = 2 ^ 52 := by
    have : (m : ℚ) - 1 / 2 < 2 ^ 52 := lt_of_mul_lt_mul_right (low.trans_lt small) power.le
    have : (m : ℚ) < 2 ^ 52 + 1 := by linarith
    have : m < 2 ^ 52 + 1 := by exact_mod_cast this
    omega
  refine ⟨least, ?_⟩
  rw [least]
  exact_mod_cast small

/-- The exponent that is chosen is that of the number to round to, or the one below it. -/
theorem targetExponent_eq {m : Nat} {e : Int} {em : ExtendedMantissa} {x : ℚ} {k : Int}
    (c : Canonical m e) (r : RoundsTo m e x) (h : Truncates em (x / 2 ^ k))
    (fine : k ≤ Format.binary64.targetExponent (totalExponent em.mantissa k)) :
    Format.binary64.targetExponent (totalExponent em.mantissa k) = e ∨
      Format.binary64.targetExponent (totalExponent em.mantissa k) = e - 1 ∧
        m = 2 ^ 52 ∧ -1074 < e ∧ x < m * 2 ^ e := by
  have target (j : Int) : Format.binary64.targetExponent j = max (j - 53) (-1074) := rfl
  have total : totalExponent em.mantissa k = em.mantissa.log2 + 1 + k := rfl
  have least := c.least
  have below := r.below c
  rw [total, target] at fine ⊢
  by_cases none : em.mantissa = 0
  · have nothing : k ≤ -1074 ∧ max ((em.mantissa.log2 : Int) + 1 + k - 53) (-1074) = -1074 := by
      rw [none, Nat.log2_zero] at fine ⊢
      omega
    rw [nothing.2]
    rcases c.full with full | last
    · have := zpow_two_lt (r.above full) (h.below_least none nothing.1)
      omega
    · exact .inl last.symm
  · obtain ⟨lower, upper⟩ := h.log2_bounds none
    have one := zpow_two_lt lower below
    rcases c.full with full | last
    · have two := zpow_two_lt (r.above full) upper
      rcases (show (em.mantissa.log2 : Int) + k = 52 + e ∨ (em.mantissa.log2 : Int) + k = 51 + e by
        omega) with size | size
      · exact .inl (by omega)
      · -- then `x` is below the least number with this exponent
        rw [show (em.mantissa.log2 : Int) + 1 + k = 52 + e by omega] at upper ⊢
        obtain ⟨same, small⟩ := r.least_full full upper
        by_cases last : e = -1074
        · exact .inl (by omega)
        · exact .inr ⟨by omega, same, by omega, small⟩
    · exact .inl (by omega)

theorem shiftToExponent_eq {m : Nat} {k t : Int} {acc : Accuracy} (h : k ≤ t) :
    shiftToExponent m k acc t
      = (ExtendedMantissa.ofMantissaAndAccuracy m acc >>> (t - k).toNat, t) := by
  unfold shiftToExponent
  dsimp only
  rw [Int.toNat_of_nonneg (by omega)]
  congr 1
  omega

theorem ofMantissaAndAccuracy_mantissa (m : Nat) (acc : Accuracy) :
    (ExtendedMantissa.ofMantissaAndAccuracy m acc).mantissa = m := by
  rcases acc with _ | (_ | _ | _) <;> rfl

theorem Canonical.targetExponent {m : Nat} {e : Int} (c : Canonical m e) :
    Format.binary64.targetExponent (totalExponent m e) = e := by
  have target : Format.binary64.targetExponent (totalExponent m e)
      = max (m.log2 + 1 + e - 53) (-1074) := rfl
  have high : m.log2 < 53 := (Nat.log2_lt c.positive.ne').2 c.fits
  have := c.least
  rw [target]
  rcases c.full with full | last
  · have low : 52 ≤ m.log2 := (Nat.le_log2 c.positive.ne').2 full
    omega
  · omega

theorem Canonical.shifted {m : Nat} {e : Int} (c : Canonical m e) :
    shiftToTargetExponent .binary64 m e .exact = (⟨m, false, false⟩, e) := by
  rw [shiftToTargetExponent, c.targetExponent, shiftToExponent_eq (le_refl e), sub_self]
  rfl

/-- Where the mantissa has become one bit too long. -/
theorem shifted_carry {e : Int} (h : -1074 < e) :
    shiftToTargetExponent .binary64 (2 ^ 53) (e - 1) .exact = (⟨2 ^ 52, false, false⟩, e) := by
  have target : Format.binary64.targetExponent (totalExponent (2 ^ 53) (e - 1)) = e := by
    have size : Format.binary64.targetExponent (totalExponent (2 ^ 53) (e - 1))
        = max ((2 ^ 53 : Nat).log2 + 1 + (e - 1) - 53) (-1074) := rfl
    rw [size, Nat.log2_two_pow]
    omega
  rw [shiftToTargetExponent, target, shiftToExponent_eq (by omega),
    show (e - (e - 1)).toNat = 1 by omega]
  rfl

/-- The mantissa is rounded where it has been shifted to, and may be shifted once more. -/
theorem roundWithAccuracy_shifts {a n m : Nat} {k t e : Int} {acc : Accuracy}
    {em : ExtendedMantissa} (s : Sign) (positive : 0 < m)
    (first : shiftToTargetExponent .binary64 a k acc = (em, t)) (rounded : em.roundedMantissa = n)
    (second : shiftToTargetExponent .binary64 n t .exact = (⟨m, false, false⟩, e)) :
    roundWithAccuracy .binary64 s a k acc = .finite s m e positive := by
  subst rounded
  simp only [roundWithAccuracy, first, second, positive.ne', dite_false]

/-- A mantissa that says where `x` is, and is fine enough, is rounded to the number that `x` rounds
to. -/
theorem roundWithAccuracy_eq {m a : Nat} {e k : Int} {acc : Accuracy} {x : ℚ} (s : Sign)
    (c : Canonical m e) (r : RoundsTo m e x)
    (h : Truncates (.ofMantissaAndAccuracy a acc) (x / 2 ^ k))
    (fine : k ≤ Format.binary64.targetExponent (totalExponent a k)) :
    roundWithAccuracy .binary64 s a k acc = .finite s m e c.positive := by
  have key := targetExponent_eq c r h (by rwa [ofMantissaAndAccuracy_mantissa])
  rw [ofMantissaAndAccuracy_mantissa] at key
  have first : shiftToTargetExponent .binary64 a k acc = _ := shiftToExponent_eq fine
  generalize Format.binary64.targetExponent (totalExponent a k) = t at *
  have cut := (h.shiftRight (t - k).toNat).nearest
  rw [div_div, ← zpow_natCast, ← zpow_add₀ two_ne_zero, Int.toNat_of_nonneg (by omega),
    add_sub_cancel] at cut
  rcases key with rfl | ⟨rfl, rfl, above, below⟩
  · exact roundWithAccuracy_shifts s c.positive first (cut.unique r.nearest) c.shifted
  · exact roundWithAccuracy_shifts s c.positive first (cut.unique (r.finer rfl above below))
      (shifted_carry above)

end LogConsole.Number
