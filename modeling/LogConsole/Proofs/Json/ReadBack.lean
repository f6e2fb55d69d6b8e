import LogConsole.Json.Reader

/-!
# LogConsole.Proofs.Json.ReadBack

What is written in the compact form is read back.

* `Delimited rest`       — what may follow a value inside of an array or an object, or nothing;
* `Reads reader text a`  — the reader takes `a` off the front of `text`, whatever follows it;
* `string_reads`, `int32_reads`, `list_reads`, `variant_reads` — the elementary readers;
* `Shape.Fills`          — the members of an object take a record from one state to another;
* `Shape.read_reads`     — an object is read as the record that its members fill.

A number ends only where something comes that is no part of a number: that is what `Delimited` is
for. An element of an array must not start like the end of the array.
-/

namespace LogConsole.Json

/-! ## Values and what follows them -/

def Delimited (rest : List Char) : Prop :=
  ∀ c tail, rest = c :: tail → c = ',' ∨ c = ']' ∨ c = '\x7d'

theorem delimited_nil : Delimited [] := by
  intro c tail h
  cases h

theorem delimited_comma (rest : List Char) : Delimited (',' :: rest) := by
  intro c tail h
  cases h
  exact .inl rfl

theorem delimited_bracket (rest : List Char) : Delimited (']' :: rest) := by
  intro c tail h
  cases h
  exact .inr (.inl rfl)

theorem delimited_brace (rest : List Char) : Delimited ('\x7d' :: rest) := by
  intro c tail h
  cases h
  exact .inr (.inr rfl)

structure Reads {α : Type} (reader : Reader α) (text : List Char) (a : α) : Prop where
  read : ∀ rest, Delimited rest → reader (text ++ rest) = .ok (a, rest)
  starts : ∃ c tail, text = c :: tail ∧ isJsonBlank c = false ∧ c ≠ ']'

/-- A reader that makes something of what another one has read. -/
theorem Reads.map {α β : Type} {reader : Reader α} {other : Reader β} {text : List Char} {a : α}
    {b : β} (h : Reads reader text a)
    (made : ∀ cs rest, reader cs = .ok (a, rest) → other cs = .ok (b, rest)) :
    Reads other text b :=
  ⟨fun rest hr => made _ rest (h.read rest hr), h.starts⟩

theorem skip_of_not_blank {c : Char} (rest : List Char) (h : isJsonBlank c = false) :
    skip (c :: rest) = c :: rest := by
  simp [skip, h]

/-! ## Strings -/

/-- The digits of an escape are read back as the character that they stand for. -/
theorem hex4?_control (n : Nat) (h : n < 0x20) :
    hex4? '0' '0' (hexDigit (n / 16)) (hexDigit (n % 16)) = some n := by
  revert n
  decide

/-- Below U+0020 there is no surrogate. -/
theorem not_surrogate (n : Nat) (h : n < 0x20) : isTrailing n = false ∧ isLeading n = false := by
  revert n
  decide

theorem stringFrom_plain {c : Char} (acc rest : List Char) (hq : c ≠ '"') (hb : c ≠ '\\')
    (hc : 0x20 ≤ c.toNat) : stringFrom acc (c :: rest) = stringFrom (c :: acc) rest := by
  have : ¬ c.toNat < 0x20 := by omega
  simp [stringFrom, hb, this]

theorem stringFrom_escapeChar (acc rest : List Char) (c : Char) :
    stringFrom acc (escapeChar c ++ rest) = stringFrom (c :: acc) rest := by
  unfold escapeChar
  split
  · subst_vars; simp [stringFrom, simpleEscape?]
  split
  · subst_vars; simp [stringFrom, simpleEscape?]
  split
  · rename_i hq hb hc
    exact stringFrom_plain acc rest hq hb hc
  split
  · subst_vars; simp [stringFrom, simpleEscape?]
  split
  · subst_vars; simp [stringFrom, simpleEscape?]
  split
  · subst_vars; simp [stringFrom, simpleEscape?]
  split
  · subst_vars; simp [stringFrom, simpleEscape?]
  split
  · subst_vars; simp [stringFrom, simpleEscape?]
  · have small : c.toNat < 0x20 := by omega
    obtain ⟨ht, hl⟩ := not_surrogate _ small
    simp only [List.cons_append, List.nil_append, stringFrom, hex4?_control _ small, ht, hl,
      Bool.false_eq_true, if_false, Char.ofNat_toNat]

theorem stringFrom_escaped (cs rest : List Char) :
    ∀ acc, stringFrom acc (cs.flatMap escapeChar ++ '"' :: rest)
      = .ok (String.ofList (acc.reverse ++ cs), rest) := by
  induction cs with
  | nil => intro acc; simp [stringFrom]
  | cons c cs ih =>
    intro acc
    rw [List.flatMap_cons, List.append_assoc, stringFrom_escapeChar, ih]
    simp

/-- A written string without its opening quotation mark. -/
theorem stringFrom_quoted (s : String) (rest : List Char) :
    stringFrom [] (s.toList.flatMap escapeChar ++ '"' :: rest) = .ok (s, rest) := by
  rw [stringFrom_escaped]
  simp

theorem quoted_append (s : String) (rest : List Char) :
    quoted s ++ rest = '"' :: (s.toList.flatMap escapeChar ++ '"' :: rest) := by
  simp [quoted]

theorem quoted_starts (s : String) :
    ∃ c tail, quoted s = c :: tail ∧ isJsonBlank c = false ∧ c ≠ ']' :=
  ⟨'"', _, rfl, rfl, by decide⟩

theorem string_reads (s : String) : Reads string (compactChars (.str s)) s := by
  refine ⟨?_, quoted_starts s⟩
  intro rest _
  rw [compactChars, quoted_append, string, skip_of_not_blank _ (by rfl)]
  exact stringFrom_quoted s rest

/-- A name from a list, with its place there. -/
theorem variant_reads {names : List String} {name : String} {i : Nat}
    (h : names.findIdx? (· == name) = some i) :
    Reads (variant names) (compactChars (.str name)) i := by
  refine ⟨?_, quoted_starts name⟩
  intro rest _
  rw [compactChars, quoted_append, variant, skip_of_not_blank _ (by rfl)]
  simp only [stringFrom_quoted, pickName, h]

/-- A value that does not start like the name of nothing. -/
theorem optional_reads {α : Type} {item : Reader α} {text : List Char} {a : α}
    (h : Reads item text a) (hn : ∀ tail, text ≠ 'n' :: tail) :
    Reads (optional item) text (some a) := by
  refine ⟨?_, h.starts⟩
  intro rest hr
  obtain ⟨c, tail, rfl, hb, -⟩ := h.starts
  have hc : c ≠ 'n' := fun e => hn tail (by rw [e])
  have hi : item (c :: (tail ++ rest)) = .ok (a, rest) := h.read rest hr
  simp [optional, skip_of_not_blank _ hb, hc, hi]

/-! ## Whole numbers -/

theorem isDigitChar_of_mem_toDigits {c : Char} {n : Nat} (h : c ∈ Nat.toDigits 10 n) :
    Number.isDigitChar c = true := by
  have hd := Nat.isDigit_of_mem_toDigits (by decide) (by decide) h
  simpa [Number.isDigitChar, Char.isDigit, Char.le_def] using hd

/-- A digit is none of the characters that a reader looks for before a number. -/
theorem digit_starts {c : Char} (h : Number.isDigitChar c = true) :
    isJsonBlank c = false ∧ c ≠ ']' ∧ c ≠ '-' := by
  refine ⟨?_, ?_, ?_⟩
  · cases hb : isJsonBlank c with
    | false => rfl
    | true =>
      simp only [isJsonBlank, Bool.or_eq_true, beq_iff_eq] at hb
      obtain ((rfl | rfl) | rfl) | rfl := hb <;> exact absurd h (by decide)
  · rintro rfl; exact absurd h (by decide)
  · rintro rfl; exact absurd h (by decide)

theorem not_digit_of_delimited {c : Char} {rest : List Char} (h : Delimited (c :: rest)) :
    Number.isDigitChar c = false := by
  obtain rfl | rfl | rfl := h c rest rfl <;> rfl

theorem le_ofDigitChars (ds : List Char) : ∀ n, n ≤ Nat.ofDigitChars 10 ds n := by
  induction ds with
  | nil => intro n; exact Nat.le_refl n
  | cons c ds ih =>
    intro n
    rw [Nat.ofDigitChars_cons]
    have := ih (10 * n + (c.toNat - '0'.toNat))
    omega

/-- Digits that fit 64 bits are read to the last one. -/
theorem wholeDigits_append {rest : List Char} (hr : Delimited rest) (ds : List Char) :
    ∀ n, (∀ c ∈ ds, Number.isDigitChar c = true) → Nat.ofDigitChars 10 ds n ≤ maxWord →
      wholeDigits n (ds ++ rest) = (Nat.ofDigitChars 10 ds n, 0, rest) := by
  induction ds with
  | nil =>
    intro n _ _
    cases rest with
    | nil => rfl
    | cons c tail =>
      simp only [List.nil_append, wholeDigits, not_digit_of_delimited hr, Bool.false_eq_true,
        if_false]
      rfl
  | cons c ds ih =>
    intro n hd hm
    rw [Nat.ofDigitChars_cons] at hm ⊢
    have hs : n * 10 + (c.toNat - 48) = 10 * n + (c.toNat - '0'.toNat) := by
      rw [Nat.mul_comm]
      rfl
    have fits : ¬ maxWord < 10 * n + (c.toNat - '0'.toNat) := by
      have := le_ofDigitChars ds (10 * n + (c.toNat - '0'.toNat))
      omega
    simp only [List.cons_append, wholeDigits, hd c (by simp), if_true, hs, fits, if_false]
    exact ih _ (fun d hm => hd d (by simp [hm])) hm

/-- Only nought starts with a nought. -/
theorem toDigits_head {n : Nat} (h : 0 < n) :
    ∃ c ds, Nat.toDigits 10 n = c :: ds ∧ c ≠ '0' := by
  induction n using Nat.strongRecOn with
  | ind n ih =>
    rw [Nat.toDigits_eq_if (by decide)]
    split
    · rename_i hn
      have digits : ∀ m : Fin 10, 0 < m.val → m.val.digitChar ≠ '0' := by decide
      exact ⟨_, _, rfl, digits ⟨n, hn⟩ h⟩
    · rename_i hn
      obtain ⟨c, ds, hc, h0⟩ := ih (n / 10) (by omega) (by omega)
      rw [hc]
      exact ⟨c, _, rfl, h0⟩

theorem number_toDigits {rest : List Char} (hr : Delimited rest) (negative : Bool) {n : Nat}
    (hn : n ≤ maxWord) :
    number negative (Nat.toDigits 10 n ++ rest) = wholeEnd negative n 0 rest := by
  rcases Nat.eq_zero_or_pos n with rfl | hpos
  · rw [show Nat.toDigits 10 0 = ['0'] from rfl]
    cases rest with
    | nil => rfl
    | cons c tail => simp [number, not_digit_of_delimited hr]
  · obtain ⟨c, ds, hc, h0⟩ := toDigits_head hpos
    have digits : ∀ d ∈ c :: ds, Number.isDigitChar d = true := by
      intro d hd
      rw [← hc] at hd
      exact isDigitChar_of_mem_toDigits hd
    have value : Nat.ofDigitChars 10 ds (c.toNat - 48) = n := by
      have := Nat.ofDigitChars_toDigits (b := 10) (n := n) (by decide) (by decide)
      rw [hc, Nat.ofDigitChars_cons] at this
      simpa using this
    have whole := wholeDigits_append hr ds (c.toNat - 48) (fun d hd => digits d (by simp [hd]))
      (by rw [value]; exact hn)
    rw [hc, List.cons_append]
    simp only [number, digits c (by simp), if_true, whole, value]

theorem wholeEnd_delimited {rest : List Char} (hr : Delimited rest) (negative : Bool) {n : Nat}
    (hn : negative = true → n ≠ 0 ∧ n ≤ 9223372036854775808) :
    wholeEnd negative n 0 rest = .ok (.int (if negative then -n else n), rest) := by
  have ends : wholeEnd negative n 0 rest
      = if !negative then .ok (.int n, rest)
        else if n == 0 || 9223372036854775808 < n then .ok (.real (-(Float.ofNat n)), rest)
        else .ok (.int (-(n : Int)), rest) := by
    cases rest with
    | nil => rfl
    | cons c tail => obtain rfl | rfl | rfl := hr c tail rfl <;> rfl
  rw [ends]
  cases negative with
  | false => rfl
  | true =>
    obtain ⟨h0, hm⟩ := hn rfl
    simp [h0, hm]

/-- The digits of a number, with their first one apart. -/
theorem toDigits_cons (n : Nat) :
    ∃ c ds, Nat.toDigits 10 n = c :: ds ∧ Number.isDigitChar c = true := by
  obtain ⟨c, ds, hc⟩ := List.exists_cons_of_ne_nil (Nat.toDigits_ne_nil (n := n) (b := 10))
  exact ⟨c, ds, hc, isDigitChar_of_mem_toDigits (n := n) (by simp [hc])⟩

theorem toList_toString_int (n : Int) :
    (toString n).toList =
      if 0 ≤ n then Nat.toDigits 10 n.toNat else '-' :: Nat.toDigits 10 (-n).toNat := by
  rw [Int.toString_eq_repr, Int.repr_eq_if]
  split
  · exact Nat.toList_repr
  · rw [String.toList_append, Nat.toList_repr]
    rfl

theorem toString_int_starts (n : Int) :
    ∃ c tail, (toString n).toList = c :: tail ∧ isJsonBlank c = false ∧ c ≠ ']' := by
  rw [toList_toString_int]
  split
  · obtain ⟨c, ds, hc, digit⟩ := toDigits_cons n.toNat
    obtain ⟨blank, bracket, -⟩ := digit_starts digit
    exact ⟨c, ds, hc, blank, bracket⟩
  · exact ⟨'-', _, rfl, rfl, by decide⟩

/-- A whole number that fits 64 bits. -/
theorem numeral?_int {rest : List Char} (hr : Delimited rest) {n : Int}
    (hl : -9223372036854775808 ≤ n) (hh : n ≤ 9223372036854775807) :
    numeral? ((toString n).toList ++ rest) = some (.ok (.int n, rest)) := by
  rw [toList_toString_int]
  split
  · rename_i hn
    have read := number_toDigits hr false (n := n.toNat) (by unfold maxWord; omega)
    rw [wholeEnd_delimited hr false (by simp)] at read
    obtain ⟨c, ds, hc, digit⟩ := toDigits_cons n.toNat
    obtain ⟨blank, -, minus⟩ := digit_starts digit
    rw [hc, List.cons_append] at read ⊢
    simp only [numeral?, skip_of_not_blank _ blank, digit, if_true, read]
    simp [Int.toNat_of_nonneg hn]
  · rename_i hn
    have read := number_toDigits hr true (n := (-n).toNat) (by unfold maxWord; omega)
    rw [wholeEnd_delimited hr true (by omega)] at read
    rw [List.cons_append, numeral?, skip_of_not_blank _ (by rfl)]
    have value : -((-n).toNat : Int) = n := by omega
    simp only [read, if_true, value]

theorem int32_reads (n : Int32) : Reads int32 (compactChars (.int n.toInt)) n := by
  have hl : -2147483648 ≤ n.toInt := n.le_toInt
  have hh : n.toInt ≤ 2147483647 := n.toInt_le
  refine ⟨?_, toString_int_starts _⟩
  intro rest hr
  rw [compactChars, int32, intBetween, numeral?_int hr (by omega) (by omega)]
  simp [hl, hh]

/-! ## Arrays -/

/-- Elements after the first one. -/
def moreItems (js : List Json) : List Char := js.flatMap fun j => ',' :: compactChars j

theorem compactItems_cons (j : Json) (js : List Json) :
    compactItems (j :: js) = compactChars j ++ moreItems js := by
  induction js generalizing j with
  | nil => simp [compactItems, moreItems]
  | cons k js ih =>
    rw [compactItems, ih]
    · rfl
    · simp

theorem delimited_moreItems (js : List Json) (rest : List Char) :
    Delimited (moreItems js ++ ']' :: rest) := by
  cases js with
  | nil => exact delimited_bracket rest
  | cons j js => exact delimited_comma _

theorem length_le_moreItems (js : List Json) : js.length ≤ (moreItems js).length := by
  induction js with
  | nil => simp
  | cons j js ih =>
    simp only [moreItems, List.flatMap_cons, List.length_append, List.length_cons] at ih ⊢
    omega

section Elements

variable {α : Type} {item : Reader α} {write : α → Json}
  (h : ∀ a, Reads item (compactChars (write a)) a)

include h

theorem elements_more (rest : List Char) (as : List α) :
    ∀ fuel, as.length < fuel →
      elements item fuel false (moreItems (as.map write) ++ ']' :: rest) = .ok (as, rest) := by
  induction as with
  | nil =>
    intro fuel hf
    cases fuel with
    | zero => omega
    | succ fuel => rfl
  | cons a as ih =>
    intro fuel hf
    cases fuel with
    | zero => simp at hf
    | succ fuel =>
      simp only [List.length_cons] at hf
      obtain ⟨c, tail, hc, blank, bracket⟩ := (h a).starts
      have first := (h a).read _ (delimited_moreItems (as.map write) rest)
      have next : nextElement false (moreItems ((a :: as).map write) ++ ']' :: rest)
          = .ok (some (compactChars (write a) ++ (moreItems (as.map write) ++ ']' :: rest))) := by
        simp [nextElement, moreItems, skip_of_not_blank _ (show isJsonBlank ',' = false from rfl),
          hc, skip_of_not_blank _ blank, bracket]
      simp only [elements, next, first, ih fuel (by omega)]

theorem list_reads (as : List α) : Reads (list item) (compactChars (.arr (as.map write))) as := by
  refine ⟨?_, '[', _, rfl, rfl, by decide⟩
  intro rest _
  cases as with
  | nil => rfl
  | cons a as =>
    obtain ⟨c, tail, hc, blank, bracket⟩ := (h a).starts
    have first := (h a).read _ (delimited_moreItems (as.map write) rest)
    have shown : compactChars (.arr ((a :: as).map write)) ++ rest
        = '[' :: (compactChars (write a) ++ (moreItems (as.map write) ++ ']' :: rest)) := by
      rw [compactChars, List.map_cons, compactItems_cons]
      simp
    have next : nextElement true (compactChars (write a) ++ (moreItems (as.map write) ++ ']' :: rest))
        = .ok (some (compactChars (write a) ++ (moreItems (as.map write) ++ ']' :: rest))) := by
      simp [nextElement, hc, skip_of_not_blank _ blank]
    -- the bound on the elements is the number of characters, and each element has its comma
    have enough : as.length
        < (compactChars (write a) ++ (moreItems (as.map write) ++ ']' :: rest)).length := by
      have := length_le_moreItems (as.map write)
      simp only [List.length_map, List.length_append, List.length_cons] at this ⊢
      omega
    rw [shown, list, skip_of_not_blank _ (by rfl)]
    simp only [elements, next, first, elements_more h rest as _ enough]

end Elements

/-! ## Records -/

/-- Members after the first one. -/
def moreMembers (ms : List (String × Json)) : List Char :=
  ms.flatMap fun (k, j) => ',' :: quoted k ++ ':' :: compactChars j

theorem compactMembers_cons (k : String) (j : Json) (ms : List (String × Json)) :
    compactMembers ((k, j) :: ms) = quoted k ++ ':' :: compactChars j ++ moreMembers ms := by
  induction ms generalizing k j with
  | nil => simp [compactMembers, moreMembers]
  | cons m ms ih =>
    rw [compactMembers, ih]
    · simp [moreMembers]
    · simp

theorem delimited_moreMembers (ms : List (String × Json)) (rest : List Char) :
    Delimited (moreMembers ms ++ '\x7d' :: rest) := by
  cases ms with
  | nil => exact delimited_brace rest
  | cons m ms => exact delimited_comma _

theorem length_le_moreMembers (ms : List (String × Json)) :
    ms.length ≤ (moreMembers ms).length := by
  induction ms with
  | nil => simp
  | cons m ms ih =>
    simp only [moreMembers, List.flatMap_cons, List.length_append, List.length_cons] at ih ⊢
    omega

namespace Shape

variable {σ : Type} {shape : Shape σ}

/-- Members that are read one after the other take a record from one state to another. -/
inductive Fills (shape : Shape σ) : σ → List (String × Json) → σ → Prop where
  | nil (a : σ) : Fills shape a [] a
  | cons {a b c : σ} {k : String} {j : Json} {ms : List (String × Json)}
      (named : shape.names.contains k = true) (new : shape.has a k = false)
      (value : Reads (shape.member k a) (compactChars j) b) (more : Fills shape b ms c) :
      Fills shape a ((k, j) :: ms) c

namespace Fills

variable {a b c : σ} {k : String} {j : Json}

theorem append {ms ns : List (String × Json)} (h : Fills shape a ms b) (t : Fills shape b ns c) :
    Fills shape a (ms ++ ns) c := by
  induction h with
  | nil => exact t
  | cons named new value _ ih => exact .cons named new value (ih t)

theorem single (named : shape.names.contains k = true) (new : shape.has a k = false)
    (value : Reads (shape.member k a) (compactChars j) b) : Fills shape a [(k, j)] b :=
  .cons named new value (.nil b)

/-- A member that is left out where it would say nothing. -/
theorem optionally {empty : Bool} (left : empty = true → b = a)
    (there : empty = false → Fills shape a [(k, j)] b) :
    Fills shape a (if empty then [] else [(k, j)]) b := by
  cases empty with
  | true => rw [left rfl]; exact .nil a
  | false => exact there rfl

end Fills

/-- A member after the name of which its value is read. -/
theorem members_named {first : Bool} {a b c : σ} {k : String} {j : Json} {cs after rest : List Char}
    {fuel : Nat} (named : shape.names.contains k = true) (new : shape.has a k = false)
    (value : Reads (shape.member k a) (compactChars j) b) (hr : Delimited after)
    (next : nextName first cs
      = .ok (some (k.toList.flatMap escapeChar ++ '"' :: ':' :: (compactChars j ++ after))))
    (more : shape.members fuel false b after = .ok (c, rest)) :
    shape.members (fuel + 1) first a cs = .ok (c, rest) := by
  have hc : colon (':' :: (compactChars j ++ after)) = .ok (compactChars j ++ after) := rfl
  simp only [members, next, stringFrom_quoted, named, if_true, new, Bool.false_eq_true, if_false,
    hc, value.read after hr, more]

theorem members_more {a b : σ} {ms : List (String × Json)} (h : Fills shape a ms b)
    (rest : List Char) :
    ∀ fuel, ms.length < fuel →
      shape.members fuel false a (moreMembers ms ++ '\x7d' :: rest) = .ok (b, rest) := by
  induction h with
  | nil a =>
    intro fuel hf
    cases fuel with
    | zero => omega
    | succ fuel => rfl
  | @cons a b c k j ms named new value _ ih =>
    intro fuel hf
    cases fuel with
    | zero => simp at hf
    | succ fuel =>
      simp only [List.length_cons] at hf
      refine members_named named new value (delimited_moreMembers ms rest) ?_ (ih fuel (by omega))
      simp [nextName, moreMembers, quoted, skip_of_not_blank _ (show isJsonBlank ',' = false from rfl),
        skip_of_not_blank _ (show isJsonBlank '"' = false from rfl)]

/-- An object is read as the record that its members fill. -/
theorem read_reads {a b : σ} {ms : List (String × Json)} (h : Fills shape a ms b) :
    Reads (shape.read a) (compactChars (.obj ms)) b := by
  refine ⟨?_, '\x7b', _, rfl, rfl, by decide⟩
  intro rest _
  cases h with
  | nil => rfl
  | @cons _ d _ k j ms named new value more =>
    have shown : compactChars (.obj ((k, j) :: ms)) ++ rest
        = '\x7b' :: '"' :: (k.toList.flatMap escapeChar
            ++ '"' :: ':' :: (compactChars j ++ (moreMembers ms ++ '\x7d' :: rest))) := by
      rw [compactChars, compactMembers_cons]
      simp [quoted]
    have next : nextName true ('"' :: (k.toList.flatMap escapeChar
          ++ '"' :: ':' :: (compactChars j ++ (moreMembers ms ++ '\x7d' :: rest))))
        = .ok (some (k.toList.flatMap escapeChar
          ++ '"' :: ':' :: (compactChars j ++ (moreMembers ms ++ '\x7d' :: rest)))) := by
      simp [nextName, skip_of_not_blank _ (show isJsonBlank '"' = false from rfl)]
    rw [shown, Shape.read, skip_of_not_blank _ (by rfl)]
    refine members_named named new value (delimited_moreMembers ms rest) next
      (members_more more rest _ ?_)
    have := length_le_moreMembers ms
    simp only [List.length_append, List.length_cons]
    omega

end Shape

/-! ## Complete texts -/

theorem whole_reads {α : Type} {reader : Reader α} {j : Json} {a : α}
    (h : Reads reader (compactChars j) a) : whole reader j.compact = .ok a := by
  have read := h.read [] delimited_nil
  rw [List.append_nil] at read
  simp only [whole, compact, String.toList_ofList, read]
  rfl

end LogConsole.Json
