import LogConsole.Proofs.Json.ReadBack
import LogConsole.Proofs.Number.Shortest

/-!
# LogConsole.Proofs.Number.RoundTrip

What is written of a number is read back.

* `floatOfDecimal_shortest` — the shortest decimal of a number becomes that number;
* `Numeral`          — digits, with or without a point, and an exponent or none;
* `positional_numeral`, `scientific_numeral` — the two notations are numerals of their decimals;
* `readFloat?_plain`, `readFloat?_jsonNumber`, `readInt64?_toString` — the texts of finite numbers,
  in cells and in JSON, and of whole numbers.
-/

namespace LogConsole.Number

open Float.Model Float.Model.UnpackedFloat

/-! ## Signs -/

theorem unpack_injective {f g : Float} (h : f.toModel.unpack = g.toModel.unpack) : f = g := by
  rw [← ofModel_pack_unpack f, ← ofModel_pack_unpack g, h]

/-- A number from its magnitude. -/
theorem applySign_eq {f g : Float} {b : Binary} (h : Binary.ofFloat? f = some b)
    (hg : g.toModel.unpack
      = .finite .positive b.mantissa b.exponent (proper_of_float h).canonical.positive) :
    applySign (isNegative f) g = f := by
  have proper := proper_of_float h
  refine unpack_injective ?_
  rw [unpack_binary h, signBit, applySign]
  cases isNegative f with
  | false => exact hg
  | true =>
    change UnpackedFloat.unpack .binary64 (UnpackedFloat.pack .binary64
      (UnpackedFloat.neg g.toModel.unpack)) = _
    rw [hg]
    exact unpack_pack .negative proper.canonical proper.range

theorem applySign_zero {f : Float} (h : Binary.ofFloat? f = none) (finite : isFinite f = true) :
    applySign (isNegative f) 0.0 = f := by
  refine unpack_injective ?_
  rw [unpack_zero h finite, signBit]
  cases isNegative f <;> rfl

/-- The shortest decimal, however it is written, becomes the number. -/
theorem floatOfDecimal_shortest {f : Float} {b : Binary} {a : Nat} {k : Int} (tie : Tie)
    (h : Binary.ofFloat? f = some b) (same : (a * 10 ^ k : ℚ) = (shortest tie b).value) :
    applySign (isNegative f) (floatOfDecimal a k) = f := by
  have proper := proper_of_float h
  have rounds := (shortest_admitted tie proper).roundsTo proper
  rw [← same] at rounds
  have some : 0 < a := by
    refine Nat.pos_of_ne_zero fun none => ?_
    obtain ⟨below, -⟩ := rounds.nearest.bounds
    have one : (1 : ℚ) ≤ b.mantissa := by exact_mod_cast proper.canonical.positive
    rw [none, Nat.cast_zero, zero_mul, zero_div] at below
    linarith
  exact applySign_eq h (floatOfDecimal_eq some proper.canonical proper.range rounds)

/-! ## Digits -/

theorem digitsValue_eq (cs : List Char) : digitsValue cs = Nat.ofDigitChars 10 cs 0 := by
  unfold digitsValue Nat.ofDigitChars
  congr 1
  funext n c
  rw [Nat.mul_comm]

theorem digitsValue_toDigits (n : Nat) : digitsValue (Nat.toDigits 10 n) = n := by
  rw [digitsValue_eq, Nat.ofDigitChars_ten_toDigits]

theorem digitsValue_zeros_after (cs : List Char) (n : Nat) :
    digitsValue (cs ++ List.replicate n '0') = digitsValue cs * 10 ^ n := by
  induction n with
  | zero => simp
  | succ n ih =>
    rw [List.replicate_succ', ← List.append_assoc, digitsValue, List.foldl_append]
    rw [digitsValue] at ih
    rw [ih, pow_succ, ← Nat.mul_assoc]
    rfl

theorem digitsValue_zeros_before (n : Nat) (cs : List Char) :
    digitsValue (List.replicate n '0' ++ cs) = digitsValue cs := by
  induction n with
  | zero => rfl
  | succ n ih => exact ih

theorem all_digits_toDigits (n : Nat) : ∀ c ∈ Nat.toDigits 10 n, isDigitChar c = true :=
  fun _ h => Json.isDigitChar_of_mem_toDigits h

theorem all_digits_zeros (n : Nat) : ∀ c ∈ List.replicate n '0', isDigitChar c = true := by
  intro c hc
  rw [(List.mem_replicate.1 hc).2]
  rfl

theorem toList_zeros (n : Nat) : (zeros n).toList = List.replicate n '0' := String.toList_ofList

/-! ## Whole numbers -/

theorem takeSign_digit {c : Char} (cs : List Char) (h : isDigitChar c = true) :
    takeSign (c :: cs) = (false, c :: cs) := by
  unfold takeSign
  split
  · rename_i same
    cases same
    exact absurd h (by decide)
  · rename_i same
    cases same
    exact absurd h (by decide)
  · rfl

/-- A sign, which may be left out, and digits. -/
theorem readInt?_digits {text : List Char} {negative : Bool} {n : Nat}
    (sign : takeSign text = (negative, Nat.toDigits 10 n)) :
    readInt? text = some (if negative then -(n : Int) else n) := by
  have full : (Nat.toDigits 10 n).isEmpty = false := by simp [Nat.toDigits_ne_nil]
  have digits : (Nat.toDigits 10 n).all isDigitChar = true :=
    List.all_eq_true.2 (all_digits_toDigits n)
  simp [readInt?, sign, full, digits, digitsValue_toDigits]

theorem readInt?_toString (n : Int) : readInt? (toString n).toList = some n := by
  rw [Json.toList_toString_int]
  split
  · obtain ⟨c, cs, starts, digit⟩ := Json.toDigits_cons n.toNat
    have sign := takeSign_digit cs digit
    rw [← starts] at sign
    rw [readInt?_digits sign]
    simp [Int.toNat_of_nonneg ‹_›]
  · have sign : takeSign ('-' :: Nat.toDigits 10 (-n).toNat) = (true, Nat.toDigits 10 (-n).toNat) :=
      rfl
    rw [readInt?_digits sign, if_pos rfl]
    congr 1
    omega

theorem readInt64?_toString (n : Int64) : readInt64? (toString n.toInt) = some n := by
  have low := n.le_toInt
  have high := n.toInt_lt
  have fits : inInt64 n.toInt = true := by
    simp only [inInt64, Bool.and_eq_true, decide_eq_true_eq]
    omega
  simp only [readInt64?, readInt?_toString, fits, if_true, Int64.ofInt_toInt]

/-! ## Numerals -/

/-- What comes after the digits of a number: nothing, or an exponent. -/
inductive Tail : List Char → Int → Prop where
  | none : Tail [] 0
  | exponent {rest : List Char} {e : Int} (reads : readInt? rest = some e) : Tail ('e' :: rest) e

theorem Tail.reads {tail : List Char} {e : Int} (h : Tail tail e) :
    readExponent? tail = some e := by
  cases h with
  | none => rfl
  | exponent reads => exact reads

/-- The digits before it end there. -/
theorem Tail.parted {tail ds : List Char} {e : Int} (h : Tail tail e)
    (digits : ∀ c ∈ ds, isDigitChar c = true) :
    (ds ++ tail).takeWhile isDigitChar = ds ∧ (ds ++ tail).dropWhile isDigitChar = tail := by
  rw [List.takeWhile_append_of_pos digits, List.dropWhile_append_of_pos digits]
  cases h with
  | none => simp
  | exponent reads => simp [isDigitChar]

/-- A text is a numeral of a decimal: digits, with or without a point, and an exponent or none. -/
inductive Numeral (d : Decimal) (text : List Char) : Prop where
  | whole (cs : List Char) {tail : List Char} {e : Int} (parts : text = cs ++ tail) (some : cs ≠ [])
      (digits : ∀ c ∈ cs, isDigitChar c = true) (ends : Tail tail e)
      (value : (digitsValue cs * 10 ^ e : ℚ) = d.value)
  | point (cs ds : List Char) {tail : List Char} {e : Int} (parts : text = cs ++ '.' :: (ds ++ tail))
      (some : cs ≠ []) (before : ∀ c ∈ cs, isDigitChar c = true)
      (after : ∀ c ∈ ds, isDigitChar c = true) (ends : Tail tail e)
      (value : (digitsValue (cs ++ ds) * 10 ^ (e - ds.length) : ℚ) = d.value)

/-- A numeral is read as a number with the value of its decimal. -/
theorem Numeral.reads {d : Decimal} {text : List Char} (h : Numeral d text) :
    ∃ a k, readDecimal? text = some (a, k) ∧ (a * 10 ^ k : ℚ) = d.value := by
  cases h with
  | @whole cs tail e parts some digits ends value =>
    obtain ⟨before, after⟩ := ends.parted digits
    have full : cs.isEmpty = false := by simpa using some
    refine ⟨digitsValue cs, e, ?_, value⟩
    rw [parts]
    cases ends with
    | none =>
      simp only [readDecimal?, before, after, full]
      rfl
    | exponent reads =>
      simp only [readDecimal?, before, after, full]
      simp [readExponent?, reads]
  | @point cs ds tail e parts some before after ends value =>
    obtain ⟨places, rest⟩ := ends.parted after
    have whole : (cs ++ '.' :: (ds ++ tail)).takeWhile isDigitChar = cs := by
      rw [List.takeWhile_append_of_pos before]
      simp [isDigitChar]
    have others : (cs ++ '.' :: (ds ++ tail)).dropWhile isDigitChar = '.' :: (ds ++ tail) := by
      rw [List.dropWhile_append_of_pos before]
      rfl
    have full : cs.isEmpty = false := by simpa using some
    refine ⟨digitsValue (cs ++ ds), e - ds.length, ?_, value⟩
    simp [readDecimal?, parts, whole, others, places, rest, full, ends.reads]

theorem Numeral.starts {d : Decimal} {text : List Char} (h : Numeral d text) :
    ∃ c cs, text = c :: cs ∧ isDigitChar c = true := by
  cases h with
  | whole cs parts some digits ends value =>
    obtain ⟨c, cs, rfl⟩ := List.exists_cons_of_ne_nil some
    exact ⟨c, _, parts, digits c (by simp)⟩
  | point cs ds parts some before after ends value =>
    obtain ⟨c, cs, rfl⟩ := List.exists_cons_of_ne_nil some
    exact ⟨c, _, parts, before c (by simp)⟩

/-- Digits with zeros after them, and with a point and one more zero or without. -/
theorem whole_numeral {d : Decimal} (large : 0 ≤ d.exponent) {whole : String}
    (h : whole = "" ∨ whole = ".0") :
    Numeral d (Nat.toDigits 10 d.digits ++ List.replicate d.exponent.toNat '0' ++ whole.toList) := by
  have long : ∀ c ∈ Nat.toDigits 10 d.digits ++ List.replicate d.exponent.toNat '0',
      isDigitChar c = true :=
    List.forall_mem_append.2 ⟨all_digits_toDigits d.digits, all_digits_zeros _⟩
  have value : (digitsValue (Nat.toDigits 10 d.digits ++ List.replicate d.exponent.toNat '0') : ℚ)
      = d.value := by
    rw [digitsValue_zeros_after, digitsValue_toDigits, Decimal.value, zpow_toNat large]
    push_cast
    rfl
  rcases h with rfl | rfl
  · exact .whole _ rfl (by simp [Nat.toDigits_ne_nil]) long .none (by rw [zpow_zero, mul_one, value])
  · refine .point _ ['0'] rfl (by simp [Nat.toDigits_ne_nil]) long (by simp [isDigitChar]) .none ?_
    have more := digitsValue_zeros_after
      (Nat.toDigits 10 d.digits ++ List.replicate d.exponent.toNat '0') 1
    rw [List.replicate_one, pow_one] at more
    rw [more, ← value]
    push_cast
    simp

/-- The last digits after a point. -/
theorem pointed_numeral {d : Decimal} {places : Nat} (hp : d.exponent = -places)
    (short : places < (Nat.toDigits 10 d.digits).length) :
    Numeral d ((Nat.toDigits 10 d.digits).take ((Nat.toDigits 10 d.digits).length - places)
      ++ '.' :: (Nat.toDigits 10 d.digits).drop ((Nat.toDigits 10 d.digits).length - places)) := by
  have digits := all_digits_toDigits d.digits
  obtain ⟨cut, hc⟩ : ∃ cut, cut = (Nat.toDigits 10 d.digits).length - places := ⟨_, rfl⟩
  rw [← hc]
  have size : ((Nat.toDigits 10 d.digits).drop cut).length = places := by
    rw [List.length_drop]
    omega
  refine .point _ ((Nat.toDigits 10 d.digits).drop cut) (by rw [List.append_nil]) ?_
    (fun c h => digits c (List.mem_of_mem_take h)) (fun c h => digits c (List.mem_of_mem_drop h))
    .none ?_
  · rw [ne_eq, List.take_eq_nil_iff]
    rintro (none | none)
    · omega
    · exact Nat.toDigits_ne_nil none
  · rw [List.take_append_drop, digitsValue_toDigits, size, zero_sub, ← hp, Decimal.value]

/-- All digits after a point, with zeros before them. -/
theorem fraction_numeral {d : Decimal} {places : Nat} (hp : d.exponent = -places)
    (long : (Nat.toDigits 10 d.digits).length ≤ places) :
    Numeral d (['0'] ++ '.' :: (List.replicate (places - (Nat.toDigits 10 d.digits).length) '0'
      ++ Nat.toDigits 10 d.digits)) := by
  obtain ⟨fill, hf⟩ : ∃ fill, fill = places - (Nat.toDigits 10 d.digits).length := ⟨_, rfl⟩
  rw [← hf]
  have size : (List.replicate fill '0' ++ Nat.toDigits 10 d.digits).length = places := by
    rw [List.length_append, List.length_replicate]
    omega
  have value : digitsValue (['0'] ++ (List.replicate fill '0' ++ Nat.toDigits 10 d.digits))
      = d.digits :=
    (digitsValue_zeros_before (fill + 1) _).trans (digitsValue_toDigits _)
  refine .point _ (List.replicate fill '0' ++ Nat.toDigits 10 d.digits) (by rw [List.append_nil])
    (by simp) (by simp [isDigitChar])
    (List.forall_mem_append.2 ⟨all_digits_zeros _, all_digits_toDigits _⟩) .none ?_
  rw [value, size, zero_sub, ← hp, Decimal.value]

/-- Positional notation, whether or not a whole number ends in a point and a nought. -/
theorem positional_numeral (d : Decimal) {whole : String} (h : whole = "" ∨ whole = ".0") :
    Numeral d (positional d whole).toList := by
  unfold positional
  simp only [Nat.toString_eq_ofList_toDigits, String.toList_ofList, String.length_ofList]
  by_cases large : 0 ≤ d.exponent
  · simp only [if_pos large, String.toList_append, String.toList_ofList, toList_zeros]
    exact whole_numeral large h
  · obtain ⟨places, hp⟩ : ∃ places : Nat, d.exponent = -places := ⟨(-d.exponent).toNat, by omega⟩
    rw [if_neg large, show (-d.exponent).toNat = places by omega]
    by_cases short : places < (Nat.toDigits 10 d.digits).length
    · simp only [if_pos short, String.toList_append, String.toList_ofList, List.append_assoc]
      exact pointed_numeral hp short
    · simp only [if_neg short, String.toList_append, String.toList_ofList, toList_zeros,
        List.append_assoc]
      exact fraction_numeral hp (Nat.le_of_not_lt short)

theorem exponent_tail (e : Int) :
    Tail ('e' :: ((if e < 0 then "-" else "+").toList ++ Nat.toDigits 10 e.natAbs)) e := by
  refine .exponent ?_
  by_cases negative : e < 0
  · have sign : takeSign ('-' :: Nat.toDigits 10 e.natAbs) = (true, Nat.toDigits 10 e.natAbs) := rfl
    rw [if_pos negative]
    refine (readInt?_digits sign).trans ?_
    rw [if_pos rfl]
    congr 1
    omega
  · have sign : takeSign ('+' :: Nat.toDigits 10 e.natAbs) = (false, Nat.toDigits 10 e.natAbs) := rfl
    rw [if_neg negative]
    refine (readInt?_digits sign).trans ?_
    rw [if_neg Bool.false_ne_true]
    congr 1
    omega

/-- The first digit, the others after a point, and the exponent of the first one. -/
theorem scientific_numeral (d : Decimal) : Numeral d (scientific d).toList := by
  have digits := all_digits_toDigits d.digits
  have value := digitsValue_toDigits d.digits
  unfold scientific
  simp only [Nat.toString_eq_ofList_toDigits, String.toList_ofList]
  obtain ⟨c, rest, hc, first⟩ := Json.toDigits_cons d.digits
  rw [hc] at digits value ⊢
  have tail := exponent_tail (d.exponent + ((c :: rest).length : Int) - 1)
  have lead : ∀ i ∈ [c], isDigitChar i = true := List.forall_mem_singleton.2 first
  cases rest with
  | nil =>
    refine .whole [c] ?_ (List.cons_ne_nil _ _) lead tail ?_
    · simp only [String.toList_append, String.toList_singleton, String.toList_ofList,
        List.append_assoc]
      rfl
    · rw [value, Decimal.value]
      simp
  | cons c' rest =>
    have others : ∀ i ∈ c' :: rest, isDigitChar i = true := fun i hi =>
      digits i (List.mem_cons_of_mem _ hi)
    refine .point [c] (c' :: rest) ?_ (List.cons_ne_nil _ _) lead others tail ?_
    · simp only [String.toList_append, String.toList_singleton, String.toList_ofList,
        List.append_assoc]
      rfl
    · rw [List.singleton_append, value, Decimal.value]
      congr 2
      simp only [List.length_cons]
      omega

/-! ## Texts of numbers -/

theorem takeSign_signOf {c : Char} (f : Float) (cs : List Char) (h : isDigitChar c = true) :
    takeSign ((signOf f).toList ++ c :: cs) = (isNegative f, c :: cs) := by
  unfold signOf
  cases isNegative f with
  | false => exact takeSign_digit cs h
  | true => rfl

/-- A text that starts with a digit is not the name of a number. -/
theorem readFloat?_decimal {text : String} {negative : Bool} {c : Char} {cs : List Char} {a : Nat}
    {k : Int} (sign : takeSign text.toList = (negative, c :: cs)) (digit : isDigitChar c = true)
    (decimal : readDecimal? (c :: cs) = some (a, k)) :
    readFloat? text = some (applySign negative (floatOfDecimal a k)) := by
  have same : lowerAscii c = c := by
    simp only [isDigitChar, Bool.and_eq_true, decide_eq_true_eq] at digit
    refine if_neg fun capital => ?_
    simp only [Bool.and_eq_true, decide_eq_true_eq] at capital
    exact absurd (Char.le_trans capital.1 digit.2) (by decide)
  have unnamed (name : String) {i : Char} {rest : List Char} (starts : name.toList = i :: rest)
      (letter : isDigitChar i = false) :
      (String.ofList ((c :: cs).map lowerAscii) == name) = false := by
    refine beq_eq_false_iff_ne.2 fun equal => ?_
    rw [← equal, String.toList_ofList, List.map_cons, same] at starts
    cases starts
    rw [digit] at letter
    cases letter
  have inf := unnamed "inf" rfl rfl
  have infinity := unnamed "infinity" rfl rfl
  have nan := unnamed "nan" rfl rfl
  simp only [readFloat?, sign, inf, infinity, nan, decimal, Bool.or_self, Bool.false_eq_true,
    if_false]

/-- A numeral of the shortest decimal of a number. -/
theorem readFloat?_numeral {f : Float} {b : Binary} {tie : Tie} {text : String}
    (h : Binary.ofFloat? f = some b) (numeral : Numeral (shortest tie b) text.toList) :
    readFloat? (signOf f ++ text) = some f := by
  obtain ⟨a, k, decimal, value⟩ := numeral.reads
  obtain ⟨c, cs, starts, digit⟩ := numeral.starts
  rw [starts] at decimal
  have sign : takeSign (signOf f ++ text).toList = (isNegative f, c :: cs) := by
    rw [String.toList_append, starts]
    exact takeSign_signOf f cs digit
  rw [readFloat?_decimal sign digit decimal, floatOfDecimal_shortest tie h value]

theorem readFloat?_zero {f : Float} {text : String} {k : Int} (h : Binary.ofFloat? f = none)
    (finite : isFinite f = true) (starts : text.toList.head? = some '0')
    (decimal : readDecimal? text.toList = some (0, k)) : readFloat? (signOf f ++ text) = some f := by
  obtain ⟨cs, hcs⟩ := List.head?_eq_some_iff.1 starts
  rw [hcs] at decimal
  have sign : takeSign (signOf f ++ text).toList = (isNegative f, '0' :: cs) := by
    rw [String.toList_append, hcs]
    exact takeSign_signOf f cs rfl
  rw [readFloat?_decimal sign rfl decimal]
  exact congrArg some (applySign_zero h finite)

/-- A finite number is read back from its text. -/
theorem readFloat?_plain {f : Float} (finite : isFinite f = true) :
    readFloat? (plain f) = some f := by
  unfold plain
  cases h : Binary.ofFloat? f with
  | some b => exact readFloat?_numeral h (positional_numeral _ (.inl rfl))
  | none =>
    have number : isNaN f = false := by
      simp only [isFinite, bne_iff_ne] at finite
      simp [isNaN, finite]
    simp only [number, finite, Bool.false_eq_true, if_false, if_true]
    exact readFloat?_zero h finite rfl rfl

/-- A finite number has a JSON form, and is read back from it. -/
theorem readFloat?_jsonNumber {f : Float} (finite : isFinite f = true) :
    ∃ text, jsonNumber? f = some text ∧ readFloat? text = some f := by
  unfold jsonNumber?
  cases h : Binary.ofFloat? f with
  | some b =>
    refine ⟨_, rfl, ?_⟩
    split
    · exact readFloat?_numeral h (positional_numeral _ (.inr rfl))
    · exact readFloat?_numeral h (scientific_numeral _)
  | none =>
    dsimp only
    rw [if_pos finite]
    exact ⟨_, rfl, readFloat?_zero h finite rfl rfl⟩

end LogConsole.Number
