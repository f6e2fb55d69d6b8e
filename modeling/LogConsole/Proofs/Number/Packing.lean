import LogConsole.Proofs.Number.Rounding

/-!
# LogConsole.Proofs.Number.Packing

Binary64 numbers and their bits.

* `Binary.Proper`  — a number of the format, with what there is to know of its rounding interval;
* `unpack_binary`  — the magnitude that is taken from the bits of a number is what they stand for;
* `unpack_pack`    — the bits of a number that is in the range of the format give that number.
-/

namespace LogConsole.Number

open Float.Model Float.Model.UnpackedFloat

/-! ## The parts of a number -/

theorem exponent_toNat (f : Float) :
    (@unpackExponent .binary64 f.toBits.toBitVec).toNat = expBits f := by
  rw [unpackExponent_def, BitVec.extractLsb'_toNat, Nat.shiftRight_eq_div_pow]
  rfl

theorem fraction_toNat (f : Float) :
    (@unpackMantissa .binary64 f.toBits.toBitVec).toNat = fractionBits f := by
  rw [unpackMantissa_def, BitVec.extractLsb'_toNat, Nat.shiftRight_zero]
  rfl

theorem sign_toNat (f : Float) :
    (@unpackSign .binary64 f.toBits.toBitVec).toNat = f.toBits.toNat / 2 ^ 63 := by
  rw [unpackSign_def, BitVec.extractLsb'_toNat, Nat.shiftRight_eq_div_pow]
  exact Nat.mod_eq_of_lt (Nat.div_lt_of_lt_mul f.toBits.toNat_lt)

theorem exponent_eq_iff (f : Float) (v : BitVec 11) :
    @unpackExponent .binary64 f.toBits.toBitVec = v ↔ expBits f = v.toNat := by
  rw [← exponent_toNat, BitVec.toNat_inj]

theorem fraction_eq_iff (f : Float) (v : BitVec 52) :
    @unpackMantissa .binary64 f.toBits.toBitVec = v ↔ fractionBits f = v.toNat := by
  rw [← fraction_toNat, BitVec.toNat_inj]

def signBit (f : Float) : Sign := if isNegative f then .negative else .positive

theorem sign_eq (f : Float) :
    Sign.ofBitVec (@unpackSign .binary64 f.toBits.toBitVec) = signBit f := by
  have bit : f.toBits.toNat / 2 ^ 63 < 2 := Nat.div_lt_of_lt_mul f.toBits.toNat_lt
  have zero : @unpackSign .binary64 f.toBits.toBitVec = 0#1 ↔ f.toBits.toNat / 2 ^ 63 = 0 := by
    rw [← sign_toNat, ← BitVec.toNat_inj]
    rfl
  have negative : isNegative f = true ↔ f.toBits.toNat / 2 ^ 63 = 1 := beq_iff_eq
  unfold Sign.ofBitVec signBit
  by_cases h : f.toBits.toNat / 2 ^ 63 = 0
  · rw [if_pos (zero.2 h), if_neg (by rw [negative]; omega)]
  · rw [if_neg (mt zero.1 h), if_pos (by rw [negative]; omega)]

theorem expBits_lt (f : Float) : expBits f < 2048 := Nat.mod_lt _ (by decide)

theorem fractionBits_lt (f : Float) : fractionBits f < 2 ^ 52 := Nat.mod_lt _ (by decide)

/-- The bit that the format leaves out. -/
theorem toNat_implicit {n : Nat} (v : BitVec n) : (1#1 ++ v).toNat = 2 ^ n + v.toNat := by
  rw [BitVec.toNat_append, ← Nat.shiftLeft_add_eq_or_of_lt v.isLt, Nat.shiftLeft_eq]
  simp

theorem finite_congr {s : Sign} {m n : Nat} {e k : Int} {h : 0 < m} {h' : 0 < n} (hm : m = n)
    (he : e = k) : UnpackedFloat.finite s m e h = .finite s n k h' := by
  subst hm he
  rfl

/-! ## What the bits stand for -/

theorem unpack_zero {f : Float} (h : Binary.ofFloat? f = none) (finite : isFinite f = true) :
    f.toModel.unpack = .zero (signBit f) := by
  have finite : expBits f ≠ 2047 := by simpa [isFinite] using finite
  have zero : expBits f = 0 ∧ fractionBits f = 0 := by
    simp only [Binary.ofFloat?, beq_iff_eq, finite, if_false] at h
    split at h
    · split at h
      · exact ⟨‹_›, ‹_›⟩
      · cases h
    · cases h
  change UnpackedFloat.unpack .binary64 f.toBits.toBitVec = _
  simp only [UnpackedFloat.unpack]
  rw [if_neg (mt (exponent_eq_iff f (-1#11)).1 finite), if_pos ((exponent_eq_iff f 0#11).2 zero.1),
    dif_pos ((fraction_eq_iff f 0#52).2 zero.2), sign_eq]

/-- A number of the format, of which the interval is narrow below the least mantissa that is full,
but for the least exponent. -/
structure Binary.Proper (b : Binary) : Prop where
  canonical : Canonical b.mantissa b.exponent
  narrow : b.narrow = true ↔ b.mantissa = 2 ^ 52 ∧ -1074 < b.exponent
  range : b.exponent ≤ 971

theorem proper_of_float {f : Float} {b : Binary} (h : Binary.ofFloat? f = some b) : b.Proper := by
  have bits := expBits_lt f
  have fraction := fractionBits_lt f
  have power : twoTo 52 = 2 ^ 52 := rfl
  simp only [Binary.ofFloat?, beq_iff_eq] at h
  split at h
  · cases h
  · split at h
    · split at h
      · cases h
      · rename_i some
        cases h
        exact ⟨⟨Nat.pos_of_ne_zero some, fraction.trans (by decide), le_refl _, .inr rfl⟩, by simp,
          by simp⟩
    · cases h
      refine ⟨⟨?_, ?_, ?_, .inl ?_⟩, ?_, ?_⟩ <;> dsimp only <;> try omega
      simp only [Bool.and_eq_true, beq_iff_eq, bne_iff_ne]
      omega

theorem unpack_binary {f : Float} {b : Binary} (h : Binary.ofFloat? f = some b) :
    f.toModel.unpack
      = .finite (signBit f) b.mantissa b.exponent (proper_of_float h).canonical.positive := by
  change UnpackedFloat.unpack .binary64 f.toBits.toBitVec = _
  simp only [UnpackedFloat.unpack]
  simp only [Binary.ofFloat?, beq_iff_eq] at h
  split at h
  · cases h
  · rename_i finite
    rw [if_neg (mt (exponent_eq_iff f (-1#11)).1 finite)]
    split at h
    · rename_i least
      split at h
      · cases h
      · rename_i some
        cases h
        rw [if_pos ((exponent_eq_iff f 0#11).2 least), dif_neg (mt (fraction_eq_iff f 0#52).1 some),
          sign_eq]
        refine finite_congr (fraction_toNat f) ?_
        rw [exponent_toNat, least]
        rfl
    · rename_i normal
      cases h
      rw [if_neg (mt (exponent_eq_iff f 0#11).1 normal), sign_eq]
      refine finite_congr ?_ ?_
      · rw [toNat_implicit, fraction_toNat, Nat.add_comm]
        rfl
      · rw [exponent_toNat]
        rfl

/-- What a number that is in the range of the format stands for is kept by its bits. -/
theorem unpack_pack {m : Nat} {e : Int} (s : Sign) (c : Canonical m e) (range : e ≤ 971) :
    UnpackedFloat.unpack .binary64 (UnpackedFloat.pack .binary64 (.finite s m e c.positive))
      = .finite s m e c.positive := by
  have least := c.least
  have fits := c.fits
  obtain ⟨b, hb⟩ : ∃ b : Nat, (b : Int) = e + 1075 :=
    ⟨(e + 1075).toNat, Int.toNat_of_nonneg (by omega)⟩
  have biased : (e + Format.binary64.exponentBias + (52 : Nat)).toNat = b := by
    have bias : (Format.binary64.exponentBias : Int) = 1023 := rfl
    omega
  have exponent : (BitVec.ofNat 11 b).toNat = b := Nat.mod_eq_of_lt (by omega)
  have finite : BitVec.ofNat 11 b ≠ -1#11 := by
    rw [ne_eq, ← BitVec.toNat_inj, exponent]
    exact fun h => absurd (show b = 2047 from h) (by omega)
  have some : BitVec.ofNat 11 b ≠ 0#11 := by
    rw [ne_eq, ← BitVec.toNat_inj, exponent]
    exact fun h => absurd (show b = 0 from h) (by omega)
  have digits : m.log2 + 1 = Format.binary64.mantissaBits ↔ 2 ^ 52 ≤ m := by
    have size : m.log2 = 52 ↔ 2 ^ 52 ≤ m ∧ m < 2 ^ 53 := Nat.log2_eq_iff c.positive.ne'
    rw [and_iff_left fits] at size
    exact Nat.succ_inj.trans size
  simp only [UnpackedFloat.pack, biased, digits]
  rw [if_neg (by omega)]
  by_cases full : 2 ^ 52 ≤ m
  · rw [if_pos full]
    simp only [UnpackedFloat.unpack, unpackExponent_packComponents, unpackMantissa_packComponents,
      unpackSign_packComponents, Sign.ofBitVec_toBitVec, finite, some, if_false, exponent]
    refine finite_congr ?_ ?_
    · rw [toNat_implicit, BitVec.toNat_ofNat]
      have once : m / 2 ^ 52 = 1 := Nat.div_eq_of_lt_le (by omega) (by omega)
      have := Nat.div_add_mod m (2 ^ 52)
      rw [once] at this
      omega
    · have bias : (Format.binary64.exponentBias : Int) = 1023 := rfl
      omega
  · rw [if_neg full]
    simp only [UnpackedFloat.unpack, unpackExponent_packComponents, unpackMantissa_packComponents,
      unpackSign_packComponents, Sign.ofBitVec_toBitVec]
    have fraction : (BitVec.ofNat 52 m).toNat = m := Nat.mod_eq_of_lt (by omega)
    have some : BitVec.ofNat 52 m ≠ 0#52 := by
      rw [ne_eq, ← BitVec.toNat_inj, fraction]
      exact c.positive.ne'
    rw [if_neg (by decide), if_pos trivial, dif_neg some]
    refine finite_congr fraction ?_
    rw [c.full.resolve_left full]
    rfl

/-- A number is made up again from what its bits stand for. -/
theorem ofModel_pack_unpack (f : Float) : Float.ofModel (.pack f.toModel.unpack) = f :=
  Float.ofBits_toBits f

end LogConsole.Number
