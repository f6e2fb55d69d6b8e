import LogConsole.Proofs.Number.Scientific

/-!
# LogConsole.Proofs.Number.Shortest

The shortest decimal of a binary64 number.

* `decimalSize_spec`  — the size that is computed is where the leading digit is;
* `onGrid_some`, `onGrid_none` — a grid gives a point of the rounding interval, or neither of the
  two points next to the number is in it;
* `Binary.Admits`     — the rounding interval;
* `shortest_admitted` — a grid of seventeen digits always has a point in it, so that `shortest` is
  in it as well;
* `Binary.Admits.roundsTo` — what is in it is rounded to the number.
-/

namespace LogConsole.Number

def Decimal.value (d : Decimal) : ℚ := d.digits * 10 ^ d.exponent

def Binary.value (b : Binary) : ℚ := b.mantissa * 2 ^ b.exponent

/-! ## Fractions -/

theorem scale2_spec (a : Nat) (e : Int) :
    0 < (scale2 a e).2 ∧ ((scale2 a e).1 : ℚ) / (scale2 a e).2 = a * 2 ^ e := by
  unfold scale2 twoTo
  by_cases whole : 0 ≤ e
  · rw [if_pos whole, zpow_toNat whole]
    exact ⟨one_pos, by simp⟩
  · rw [if_neg whole, zpow_neg_toNat (by omega)]
    exact ⟨Nat.pow_pos two_pos, by simp [div_eq_mul_inv]⟩

theorem scale10_spec (a : Nat) (e : Int) :
    0 < (scale10 a e).2 ∧ ((scale10 a e).1 : ℚ) / (scale10 a e).2 = a * 10 ^ e := by
  unfold scale10 tenTo
  by_cases whole : 0 ≤ e
  · rw [if_pos whole, zpow_toNat whole]
    exact ⟨one_pos, by simp⟩
  · rw [if_neg whole, zpow_neg_toNat (by omega)]
    exact ⟨Nat.pow_pos (by decide), by simp [div_eq_mul_inv]⟩

theorem decimalSize_spec {num den : Nat} (hn : 0 < num) (hd : 0 < den) :
    (10 : ℚ) ^ (decimalSize num den - 1) ≤ num / den ∧
      (num : ℚ) / den < 10 ^ decimalSize num den := by
  have hn' : (0 : ℚ) < num := by exact_mod_cast hn
  have hd' : (0 : ℚ) < den := by exact_mod_cast hd
  unfold decimalSize
  by_cases whole : den ≤ num
  · obtain ⟨low, high⟩ := countDigits_spec (Nat.div_pos whole hd)
    have digit : 0 < countDigits (num / den) := Nat.length_toDigits_pos
    have before : (countDigits (num / den) - 1 : Int) = (countDigits (num / den) - 1 : Nat) := by
      omega
    rw [if_pos whole, before, zpow_natCast, zpow_natCast, le_div_iff₀ hd', div_lt_iff₀ hd']
    exact ⟨by exact_mod_cast (Nat.le_div_iff_mul_le hd).1 low,
      by exact_mod_cast (Nat.div_lt_iff_lt_mul hd).1 high⟩
  · obtain ⟨low, high⟩ := countDigits_spec (Nat.div_pos (le_of_not_ge whole) hn)
    have digit : 0 < countDigits (den / num) := Nat.length_toDigits_pos
    obtain ⟨c, hc⟩ : ∃ c, countDigits (den / num) = c + 1 :=
      ⟨_, (Nat.succ_pred_eq_of_pos digit).symm⟩
    rw [hc] at low high
    have low : num * 10 ^ c ≤ den := by
      rw [mul_comm]
      exact (Nat.le_div_iff_mul_le hn).1 low
    have high : den < 10 ^ (c + 1) * num := (Nat.div_lt_iff_lt_mul hn).1 high
    have power (j : Nat) : (0 : ℚ) < 10 ^ j := by positivity
    simp only [if_neg whole, hc, tenTo, Nat.pow_eq]
    rw [show (-(1 - ((c + 1 : Nat) : Int))).toNat = c by omega]
    by_cases exact : den ≤ num * 10 ^ c
    · have exact : (num : ℚ) / den = 10 ^ (-c : Int) := by
        have same : (num * 10 ^ c : ℚ) = den := by exact_mod_cast Nat.le_antisymm low exact
        rw [zpow_neg, zpow_natCast, ← same]
        field_simp
      rw [if_pos ‹_›, exact]
      exact ⟨zpow_le_zpow_right₀ (by norm_num) (by omega),
        zpow_lt_zpow_right₀ (by norm_num) (by omega)⟩
    · rw [if_neg exact, show (1 - ((c + 1 : Nat) : Int) - 1) = -(c + 1 : Nat) by omega,
        show (1 - ((c + 1 : Nat) : Int)) = -(c : Nat) by omega, zpow_neg, zpow_neg, zpow_natCast,
        zpow_natCast, le_div_iff₀ hd', div_lt_iff₀ hd', inv_mul_le_iff₀ (power _),
        lt_inv_mul_iff₀ (power _), mul_comm (10 ^ c : ℚ)]
      exact ⟨by exact_mod_cast high.le, by exact_mod_cast lt_of_not_ge exact⟩

/-! ## The rounding interval -/

/-- Whether a number lies between two others, which count only if `closed`. -/
def Inside (closed : Bool) (low high x : ℚ) : Prop :=
  if closed then low ≤ x ∧ x ≤ high else low < x ∧ x < high

theorem inInterval_iff {low high den d : Nat} {closed : Bool} {e : Int} (hd : 0 < den) :
    inInterval low high den closed d e = true
      ↔ Inside closed (low / den) (high / den) (d * 10 ^ e) := by
  obtain ⟨hs, value⟩ := scale10_spec d e
  unfold inInterval
  generalize scale10 d e = fraction at hs value ⊢
  obtain ⟨n, s⟩ := fraction
  dsimp only at hs value ⊢
  have hs' : (0 : ℚ) < s := by exact_mod_cast hs
  have hd' : (0 : ℚ) < den := by exact_mod_cast hd
  have above (a : Nat) : (a : ℚ) / den ≤ n / s ↔ a * s ≤ n * den := by
    rw [div_le_div_iff₀ hd' hs']
    exact_mod_cast Iff.rfl
  have below (a : Nat) : (n : ℚ) / s ≤ a / den ↔ n * den ≤ a * s := by
    rw [div_le_div_iff₀ hs' hd']
    exact_mod_cast Iff.rfl
  rw [Inside, ← value]
  cases closed with
  | true => simp only [if_true, above, below, Bool.and_eq_true, decide_eq_true_eq]
  | false =>
    simp only [Bool.false_eq_true, if_false, ← not_le, above, below, Bool.and_eq_true,
      decide_eq_true_eq]

theorem onGrid_some {tie : Tie} {value low high den d : Nat} {closed : Bool} {e : Int}
    (h : onGrid tie value low high den closed e = some d) :
    inInterval low high den closed d e = true := by
  simp only [onGrid] at h
  grind

theorem onGrid_none {tie : Tie} {value low high den : Nat} {closed : Bool} {e : Int} (hd : 0 < den)
    (h : onGrid tie value low high den closed e = none) :
    ∃ d : Nat, (d * 10 ^ e : ℚ) ≤ value / den ∧ (value / den : ℚ) < (d + 1) * 10 ^ e ∧
      ¬ Inside closed (low / den) (high / den) (d * 10 ^ e) ∧
      ¬ Inside closed (low / den) (high / den) ((d + 1 : Nat) * 10 ^ e) := by
  obtain ⟨hs, step⟩ := scale10_spec 1 e
  unfold onGrid at h
  generalize scale10 1 e = fraction at hs step h
  obtain ⟨one, s⟩ := fraction
  dsimp only at hs step h
  have hs' : (0 : ℚ) < s := by exact_mod_cast hs
  have hd' : (0 : ℚ) < den := by exact_mod_cast hd
  have some : 0 < one := by
    refine Nat.pos_of_ne_zero fun none => ?_
    have power : (0 : ℚ) < 10 ^ e := by positivity
    rw [none, Nat.cast_zero, zero_div, Nat.cast_one, one_mul] at step
    exact absurd step power.ne
  have unit : 0 < den * one := Nat.mul_pos hd some
  rw [Nat.cast_one, one_mul] at step
  refine ⟨value * s / (den * one), ?_, ?_, ?_, ?_⟩
  · rw [← step, mul_div_assoc', div_le_div_iff₀ hs' hd']
    have := (Nat.le_div_iff_mul_le unit).1 (le_refl (value * s / (den * one)))
    have : value * s / (den * one) * one * den ≤ value * s := by linarith
    exact_mod_cast this
  · rw [← step, mul_div_assoc', div_lt_div_iff₀ hd' hs']
    have := (Nat.div_lt_iff_lt_mul unit).1 (Nat.lt_succ_self (value * s / (den * one)))
    have : value * s < (value * s / (den * one) + 1) * one * den := by
      linarith
    exact_mod_cast this
  · rw [← inInterval_iff hd]
    grind
  · rw [← inInterval_iff hd]
    grind

theorem dropZeros_value (fuel : Nat) (d : Decimal) : (dropZeros fuel d).value = d.value := by
  induction fuel generalizing d with
  | zero => rfl
  | succ fuel ih =>
    unfold dropZeros
    split
    · rename_i zero
      rw [ih]
      have whole : d.digits = d.digits / 10 * 10 := by
        simp only [Bool.and_eq_true, beq_iff_eq] at zero
        omega
      unfold Decimal.value
      dsimp only
      rw [zpow_add_one₀ (by norm_num), mul_comm (10 ^ d.exponent) (10 : ℚ), ← mul_assoc]
      congr 1
      exact_mod_cast whole.symm
    · rfl

theorem firstGrid_spec {tie : Tie} {value low high den : Nat} {closed : Bool} {k : Int}
    {fuel n : Nat} (h : onGrid tie value low high den closed (k - (n + fuel)) ≠ none) :
    ∃ d e, firstGrid tie value low high den closed k (fuel + 1) n = dropZeros 20 ⟨d, e⟩ ∧
      inInterval low high den closed d e = true := by
  induction fuel generalizing n with
  | zero =>
    obtain ⟨d, hd⟩ := Option.ne_none_iff_exists'.1 h
    rw [Nat.cast_zero, add_zero] at hd
    exact ⟨d, k - n, by simp only [firstGrid, hd], onGrid_some hd⟩
  | succ fuel ih =>
    rw [firstGrid]
    cases grid : onGrid tie value low high den closed (k - n) with
    | some d => exact ⟨d, k - n, rfl, onGrid_some grid⟩
    | none =>
      refine ih ?_
      rwa [show (k - ((n + 1 : Nat) + fuel) : Int) = k - (n + (fuel + 1 : Nat)) by omega]

/-! ## The shortest decimal -/

/-- How many quarters of a step those are below a number that are still rounded to it. -/
def Binary.below (b : Binary) : Nat := if b.narrow then 1 else 2

/-- The numbers that are rounded to a given one. -/
def Binary.Admits (b : Binary) (x : ℚ) : Prop :=
  Inside (b.mantissa % 2 == 0) (b.value - b.below / 4 * 2 ^ b.exponent)
    (b.value + 2 ^ b.exponent / 2) x

theorem inside_of_lt {closed : Bool} {low high x : ℚ} (hl : low < x) (hh : x < high) :
    Inside closed low high x := by
  cases closed with
  | true => exact ⟨hl.le, hh.le⟩
  | false => exact ⟨hl, hh⟩

theorem Binary.below_cases (b : Binary) : b.below = 1 ∨ b.below = 2 := by
  unfold Binary.below
  split
  · exact .inl rfl
  · exact .inr rfl

/-- Seventeen digits are enough: their grid is finer than the numbers of the format are apart. -/
theorem Binary.Proper.fine {b : Binary} (h : b.Proper) :
    b.value < 10 ^ 16 * (b.below / 2 * 2 ^ b.exponent) := by
  have power : (0 : ℚ) < 2 ^ b.exponent := by positivity
  have fits : (b.mantissa : ℚ) < 2 ^ 53 := by exact_mod_cast h.canonical.fits
  rw [Binary.value, ← mul_assoc]
  refine mul_lt_mul_of_pos_right ?_ power
  unfold Binary.below
  split
  · rename_i narrow
    rw [(h.narrow.1 narrow).1]
    norm_num
  · norm_num at fits ⊢
    linarith

/-- One of the two points next to a number is not further from it than half a step. -/
theorem Binary.Proper.admits_neighbour {b : Binary} {d : Nat} {k : Int} (h : b.Proper)
    (size : (10 : ℚ) ^ (k - 1) ≤ b.value) (lower : (d * 10 ^ (k - 17) : ℚ) ≤ b.value)
    (upper : b.value < (d + 1) * 10 ^ (k - 17)) :
    b.Admits (d * 10 ^ (k - 17)) ∨ b.Admits ((d + 1 : Nat) * 10 ^ (k - 17)) := by
  have step : (10 : ℚ) ^ 16 * 10 ^ (k - 17) ≤ b.value := by
    rw [← zpow_natCast, ← zpow_add₀ (by norm_num)]
    rwa [show ((16 : Nat) : Int) + (k - 17) = k - 1 by omega]
  have small : (10 : ℚ) ^ (k - 17) < b.below / 2 * 2 ^ b.exponent :=
    lt_of_mul_lt_mul_left (step.trans_lt h.fine) (by norm_num)
  have power : (0 : ℚ) < 2 ^ b.exponent := by positivity
  by_cases near : b.value - d * 10 ^ (k - 17) < b.below / 4 * 2 ^ b.exponent
  · exact .inl (inside_of_lt (by linarith) (by linarith))
  · refine .inr (inside_of_lt ?_ ?_)
    · push_cast
      rcases b.below_cases with one | two
      · rw [one] at small near ⊢
        linarith
      · rw [two] at small near ⊢
        linarith
    · push_cast
      rcases b.below_cases with one | two
      · rw [one] at small near
        linarith
      · rw [two] at small near
        linarith

theorem scale2_eq (a : Nat) (e : Int) : scale2 a e = (a * (scale2 1 e).1, (scale2 1 e).2) := by
  unfold scale2
  split <;> simp

theorem quarters {one den : Nat} {e : Int} (unit : (one : ℚ) / den = 2 ^ (e - 2)) (n : Nat) :
    ((n * one : Nat) : ℚ) / den = n / 4 * 2 ^ e := by
  rw [Nat.cast_mul, mul_div_assoc, unit, zpow_sub₀ two_ne_zero]
  norm_num
  ring

theorem shortest_admitted (tie : Tie) {b : Binary} (h : b.Proper) :
    b.Admits (shortest tie b).value := by
  obtain ⟨hd, unit⟩ := scale2_spec 1 (b.exponent - 2)
  have mantissa := h.canonical.positive
  unfold shortest
  rw [scale2_eq (4 * b.mantissa)]
  generalize scale2 1 (b.exponent - 2) = fraction at hd unit
  obtain ⟨one, den⟩ := fraction
  dsimp only at hd unit ⊢
  have folded : (if b.narrow then 1 else 2) = b.below := rfl
  rw [Nat.cast_one, one_mul] at unit
  rw [folded]
  have value : ((4 * b.mantissa * one : Nat) : ℚ) / den = b.value := by
    rw [quarters unit, Binary.value]
    push_cast
    ring
  have low : ((4 * b.mantissa * one - b.below * one : Nat) : ℚ) / den
      = b.value - b.below / 4 * 2 ^ b.exponent := by
    have less : b.below ≤ 4 * b.mantissa := by
      rcases b.below_cases with one | two <;> omega
    rw [← Nat.sub_mul, quarters unit, Nat.cast_sub less, Binary.value]
    push_cast
    ring
  have high : ((4 * b.mantissa * one + 2 * one : Nat) : ℚ) / den
      = b.value + 2 ^ b.exponent / 2 := by
    rw [← Nat.add_mul, quarters unit, Binary.value]
    push_cast
    ring
  have positive : 0 < one := by
    refine Nat.pos_of_ne_zero fun none => ?_
    rw [none, Nat.cast_zero, zero_div] at unit
    exact absurd unit (by positivity)
  have nonzero : 0 < 4 * b.mantissa * one := by positivity
  obtain ⟨size, -⟩ := decimalSize_spec nonzero hd
  rw [value] at size
  have some : onGrid tie (4 * b.mantissa * one)
      (4 * b.mantissa * one - b.below * one) (4 * b.mantissa * one + 2 * one) den
      (b.mantissa % 2 == 0)
      (decimalSize (4 * b.mantissa * one) den - ((1 : Nat) + (16 : Nat))) ≠ none := fun none => by
    obtain ⟨d, lower, upper, out, out'⟩ := onGrid_none hd none
    rw [value] at lower upper
    rw [low, high] at out out'
    exact (h.admits_neighbour size lower upper).elim out out'
  obtain ⟨d, k, first, found⟩ := firstGrid_spec some
  rw [inInterval_iff hd, low, high] at found
  rw [first, dropZeros_value]
  exact found

theorem Inside.bounds {closed : Bool} {low high x : ℚ} (h : Inside closed low high x) :
    low ≤ x ∧ x ≤ high := by
  cases closed with
  | true => exact h
  | false => exact ⟨h.1.le, h.2.le⟩

theorem distance_eq (n : Nat) (x : ℚ) (e : Int) :
    |x / 2 ^ e - n| = |x - n * 2 ^ e| / 2 ^ e := by
  have power : (0 : ℚ) < 2 ^ e := by positivity
  rw [show x / 2 ^ e - n = (x - n * 2 ^ e) / 2 ^ e by field_simp, abs_div, abs_of_pos power]

/-- What is admitted is rounded to the number. -/
theorem Binary.Admits.roundsTo {b : Binary} {x : ℚ} (h : b.Proper) (hx : b.Admits x) :
    RoundsTo b.mantissa b.exponent x := by
  have power : (0 : ℚ) < 2 ^ b.exponent := by positivity
  obtain ⟨low, high⟩ := Inside.bounds hx
  have below : (b.below : ℚ) ≤ 2 := by
    rcases b.below_cases with one | two
    · rw [one]; norm_num
    · rw [two]; norm_num
  refine ⟨nearest_of_close ?_ fun tie => ?_, fun least normal under => ?_⟩
  · rw [distance_eq, div_le_iff₀ power, abs_le]
    unfold Binary.value at low high
    constructor <;> nlinarith
  · rw [distance_eq, div_eq_iff power.ne'] at tie
    by_contra odd
    have closed : (b.mantissa % 2 == 0) = false := beq_eq_false_iff_ne.2 odd
    rw [Admits, closed] at hx
    obtain ⟨lower, upper⟩ := hx
    unfold Binary.value at lower upper
    refine absurd tie (ne_of_lt (abs_lt.2 ?_))
    constructor <;> nlinarith
  · -- the interval is narrow there, and the finer grid is that of the numbers below
    have narrow : b.below = 1 := if_pos (h.narrow.2 ⟨least, normal⟩)
    have half : (2 : ℚ) ^ b.exponent = 2 * 2 ^ (b.exponent - 1) := by
      rw [mul_comm, ← zpow_add_one₀ two_ne_zero, sub_add_cancel]
    have power : (0 : ℚ) < 2 ^ (b.exponent - 1) := by positivity
    have same : ((2 ^ 53 : Nat) : ℚ) * 2 ^ (b.exponent - 1) = b.value := by
      rw [Binary.value, least, half]
      push_cast
      ring
    refine nearest_of_close ?_ fun _ => rfl
    rw [distance_eq, div_le_iff₀ power, same, abs_le]
    rw [narrow, half] at low
    have under : x < b.value := under
    push_cast at low
    constructor <;> linarith

end LogConsole.Number
