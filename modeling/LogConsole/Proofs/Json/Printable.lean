import LogConsole.Proofs.Json.ReadBack

/-!
# LogConsole.Proofs.Json.Printable

The compact form of a value has no control character, whatever its strings are made of.

* `Printable`           — no character of a text is below U+0020;
* `escapeChar_printable` — an escape stands for every character that is;
* `compactChars_printable` — the compact form of every value, numbers with a fraction included.
-/

namespace LogConsole.Json

/-- No character is below U+0020. -/
def Printable (cs : List Char) : Prop := ∀ c ∈ cs, 0x20 ≤ c.toNat

namespace Printable

-- Named, because the characters can also be tried out one by one, which takes too long.
instance (cs : List Char) : Decidable (Printable cs) :=
  List.decidableBAll (fun c : Char => 0x20 ≤ c.toNat) cs

@[simp] theorem nil : Printable [] := by simp [Printable]

@[simp] theorem cons {c : Char} {cs : List Char} :
    Printable (c :: cs) ↔ 0x20 ≤ c.toNat ∧ Printable cs := by
  simp [Printable]

@[simp] theorem append {cs ds : List Char} :
    Printable (cs ++ ds) ↔ Printable cs ∧ Printable ds := by
  simp [Printable, or_imp, forall_and]

theorem flatMap {α : Type} {f : α → List Char} (h : ∀ a, Printable (f a)) (as : List α) :
    Printable (as.flatMap f) := by
  intro c hc
  obtain ⟨a, -, ha⟩ := List.mem_flatMap.1 hc
  exact h a c ha

theorem sublist {cs ds : List Char} (h : Printable ds) (hs : cs.Sublist ds) : Printable cs :=
  fun c hc => h c (hs.subset hc)

end Printable

/-! ## Strings -/

theorem hexDigit_printable (n : Nat) (h : n < 16) : 0x20 ≤ (hexDigit n).toNat := by
  revert n
  decide

theorem escapeChar_printable (c : Char) : Printable (escapeChar c) := by
  unfold escapeChar
  by_cases plain : 0x20 ≤ c.toNat
  · rw [if_pos plain]
    split
    · decide
    · split
      · decide
      · simpa using plain
  · rw [if_neg plain]
    have high := hexDigit_printable (c.toNat / 16) (by omega)
    have low := hexDigit_printable (c.toNat % 16) (by omega)
    repeat' split
    -- All of them but the last are fixed texts.
    all_goals first | decide | simp [high, low]

theorem quoted_printable (s : String) : Printable (quoted s) := by
  simp [quoted, Printable.flatMap escapeChar_printable]

/-! ## Numbers -/

theorem toDigits_printable (n : Nat) : Printable (Nat.toDigits 10 n) := by
  intro c hc
  have digit := isDigitChar_of_mem_toDigits hc
  simp only [Number.isDigitChar, Bool.and_eq_true, decide_eq_true_eq] at digit
  exact Nat.le_trans (by decide) (UInt32.le_iff_toNat_le.1 (Char.le_def.1 digit.1))

theorem nat_printable (n : Nat) : Printable (toString n).toList := by
  rw [Nat.toString_eq_repr, Nat.toList_repr]
  exact toDigits_printable n

theorem int_printable (n : Int) : Printable (toString n).toList := by
  rw [toList_toString_int]
  split
  · exact toDigits_printable _
  · simp [toDigits_printable]

theorem zeros_printable (n : Nat) : Printable (Number.zeros n).toList := by
  intro c hc
  rw [Number.zeros, String.toList_ofList] at hc
  rw [List.eq_of_mem_replicate hc]
  decide

theorem positional_printable (d : Number.Decimal) {whole : String} (h : Printable whole.toList) :
    Printable (Number.positional d whole).toList := by
  simp only [Number.positional]
  have digits := nat_printable d.digits
  split
  · simp only [String.toList_append, Printable.append]
    exact ⟨⟨digits, zeros_printable _⟩, h⟩
  · split
    · simp only [String.toList_append, String.toList_ofList, Printable.append]
      exact ⟨⟨digits.sublist (List.take_sublist _ _), by decide⟩,
        digits.sublist (List.drop_sublist _ _)⟩
    · simp only [String.toList_append, Printable.append]
      exact ⟨⟨by decide, zeros_printable _⟩, digits⟩

/-- The first digit, a point and the others. -/
theorem mantissa_printable (ds : List Char) : Printable ds →
    Printable (match ds with
      | [] => "0"
      | [c] => String.singleton c
      | c :: rest => String.singleton c ++ "." ++ String.ofList rest : String).toList := by
  intro h
  rcases ds with - | ⟨c, - | ⟨c', rest⟩⟩
  · decide
  · simpa using h
  · simpa using h

theorem scientific_printable (d : Number.Decimal) :
    Printable (Number.scientific d).toList := by
  simp only [Number.scientific, String.toList_append, Printable.append]
  refine ⟨⟨⟨mantissa_printable _ (nat_printable _), by decide⟩, ?_⟩, nat_printable _⟩
  split <;> decide

theorem signOf_printable (f : Float) : Printable (Number.signOf f).toList := by
  unfold Number.signOf
  split <;> decide

theorem jsonNumber_printable {f : Float} {s : String} (h : Number.jsonNumber? f = some s) :
    Printable s.toList := by
  unfold Number.jsonNumber? at h
  split at h
  · obtain rfl := Option.some.inj h
    rw [String.toList_append, Printable.append]
    refine ⟨signOf_printable f, ?_⟩
    split
    · exact positional_printable _ (by decide)
    · exact scientific_printable _
  · split at h
    · obtain rfl := Option.some.inj h
      rw [String.toList_append, Printable.append]
      exact ⟨signOf_printable f, by decide⟩
    · cases h

theorem realText_printable (f : Float) : Printable (realText f) := by
  unfold realText
  split
  · exact jsonNumber_printable ‹_›
  · decide

/-! ## Values -/

mutual

theorem compactChars_printable : ∀ j : Json, Printable (compactChars j)
  | .null | .bool true | .bool false => by decide
  | .int n => int_printable n
  | .real f => realText_printable f
  | .str s => quoted_printable s
  | .arr items => by simp [compactChars, compactItems_printable items]
  | .obj members => by simp [compactChars, compactMembers_printable members]

theorem compactItems_printable : ∀ js : List Json, Printable (compactItems js)
  | [] => Printable.nil
  | [j] => compactChars_printable j
  | j :: k :: rest => by
    simp [compactItems, compactChars_printable j, compactItems_printable (k :: rest)]

theorem compactMembers_printable : ∀ ms : List (String × Json), Printable (compactMembers ms)
  | [] => Printable.nil
  | [(k, j)] => by simp [compactMembers, quoted_printable, compactChars_printable j]
  | (k, j) :: m :: rest => by
    simp [compactMembers, quoted_printable, compactChars_printable j,
      compactMembers_printable (m :: rest)]

end

end LogConsole.Json
