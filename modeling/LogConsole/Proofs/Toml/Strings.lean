import LogConsole.Proofs.Text.Span
import LogConsole.Toml.Reader
import LogConsole.Toml.Writer
import Mathlib.Tactic.Common

/-!
# LogConsole.Proofs.Toml.Strings

Texts and names are read back from their written forms, whichever kind of string has been picked.

* `basicFrom_step`    — a character between double quotes is read by itself, escaped or not;
* `NoPair`            — what does not start with two quotes. In a string of several lines a quote
  before it belongs to the text;
* `basicFrom_long`, `literalFrom_long` — strings of several lines, by what stands before their
  closing quotes: at most two more, which are read together with them;
* `value_textChars`   — a text, in the kind of string that its traits decide;
* `simpleKey_keyChars` — a name, bare or in quotes.
-/

namespace LogConsole.Toml

variable {c : Char} {long skipping : Bool}

/-! ## One character -/

theorem basicFrom_simple {e : Char} (stands : simpleEscape? e = some c) (acc rest : List Char) :
    basicFrom long skipping acc ('\\' :: e :: rest) = basicFrom long false (c :: acc) rest := by
  have notShort : e ≠ 'u' := by
    rintro rfl
    simp [simpleEscape?] at stands
  have notLong : e ≠ 'U' := by
    rintro rfl
    simp [simpleEscape?] at stands
  rw [basicFrom]
  · simp only [stands]
  · exact fun _ _ _ _ _ same => absurd same notShort
  · exact fun _ _ _ _ _ _ _ _ _ same => absurd same notLong

theorem basicFrom_code {x y : Char} (stands : codeChar? ['0', '0', x, y] = some c)
    (acc rest : List Char) :
    basicFrom long skipping acc ('\\' :: 'u' :: '0' :: '0' :: x :: y :: rest)
      = basicFrom long false (c :: acc) rest := by
  rw [basicFrom, stands]

theorem basicFrom_plain (quote : c ≠ '"') (backslash : c ≠ '\\')
    (plain : (isPlain c || (long && c == '\n')) = true) (acc rest : List Char) :
    basicFrom long false acc (c :: rest) = basicFrom long false (c :: acc) rest := by
  rw [basicFrom]
  · simp [plain]
  · exact quote
  · exact backslash

/-- The digits of an escape are read back as the control character that they stand for. -/
theorem codeChar?_control (n : Nat) (control : n < 0x20 ∨ n = 0x7F) :
    codeChar? ['0', '0', hexDigit (n / 16), hexDigit (n % 16)] = some (Char.ofNat n) := by
  have small : n < 0x80 := by omega
  have each : ∀ n < 0x80, n < 0x20 ∨ n = 0x7F →
      codeChar? ['0', '0', hexDigit (n / 16), hexDigit (n % 16)] = some (Char.ofNat n) := by decide
  exact each n small control

theorem basicFrom_escapeControl (control : c.toNat < 0x20 ∨ c.toNat = 0x7F)
    (acc rest : List Char) :
    basicFrom long skipping acc (escapeControl c ++ rest)
      = basicFrom long false (c :: acc) rest := by
  unfold escapeControl
  split
  case isTrue same => subst same; exact basicFrom_simple rfl acc rest
  split
  case isTrue same => subst same; exact basicFrom_simple rfl acc rest
  split
  case isTrue same => subst same; exact basicFrom_simple rfl acc rest
  split
  case isTrue same => subst same; exact basicFrom_simple rfl acc rest
  split
  case isTrue same => subst same; exact basicFrom_simple rfl acc rest
  case isFalse =>
    have stands := codeChar?_control c.toNat control
    rw [Char.ofNat_toNat] at stands
    exact basicFrom_code stands acc rest

theorem isPlain_of_not_control (h : ¬ (c.toNat < 0x20 || c.toNat == 0x7F) = true) :
    isPlain c = true := by
  simp only [Bool.or_eq_true, decide_eq_true_eq, beq_iff_eq] at h
  simp only [isPlain, Bool.or_eq_true, Bool.and_eq_true, decide_eq_true_eq, bne_iff_ne]
  omega

/-! ## Double quotes -/

/-- A character that does not stand for itself as a quote is read by itself. -/
theorem basicFrom_step {run : Nat} (shown : ¬ (c = '"' ∧ long = true ∧ run < 2))
    (cs acc tail : List Char) :
    basicFrom long false acc (escaped long run (c :: cs) ++ tail)
      = basicFrom long false (c :: acc) (escaped long 0 cs ++ tail) := by
  rw [escaped]
  split
  case isTrue same =>
    have hidden : ¬ (long && run < 2) = true := by simpa [same] using shown
    subst same
    rw [if_neg hidden]
    exact basicFrom_simple rfl acc _
  case isFalse quote =>
  split
  case isTrue same =>
    subst same
    exact basicFrom_simple rfl acc _
  case isFalse backslash =>
  split
  case isTrue feed =>
    obtain ⟨same, more⟩ : c = '\n' ∧ long = true := by simpa using feed
    subst same
    exact basicFrom_plain quote backslash (by rw [more]; rfl) acc _
  case isFalse =>
  split
  case isTrue control =>
    rw [List.append_assoc]
    exact basicFrom_escapeControl (by simpa using control) acc _
  case isFalse control =>
    exact basicFrom_plain quote backslash (by rw [isPlain_of_not_control control]; rfl) acc _

theorem basicFrom_end (acc rest : List Char) :
    basicFrom false skipping acc ('"' :: rest) = some (String.ofList acc.reverse, rest) := by
  rw [basicFrom.eq_def]
  simp

/-- A string of one line. -/
theorem basicFrom_short (cs rest : List Char) :
    ∀ acc run, basicFrom false false acc (escaped false run cs ++ '"' :: rest)
      = some (String.ofList (acc.reverse ++ cs), rest) := by
  induction cs with
  | nil =>
    intro acc run
    rw [escaped, List.nil_append, basicFrom_end, List.append_nil]
  | cons c cs ih =>
    intro acc run
    rw [basicFrom_step (by simp), ih, List.reverse_cons, List.append_assoc, List.singleton_append]

/-- What does not start with two quotes; before it a quote belongs to the text. -/
def NoPair (q : Char) (cs : List Char) : Prop := ∀ more, cs ≠ q :: q :: more

theorem basicFrom_quote {cs : List Char} (single : NoPair '"' cs) (acc : List Char) :
    basicFrom true skipping acc ('"' :: cs) = basicFrom true false ('"' :: acc) cs := by
  rw [basicFrom]
  · rfl
  · exact fun more => single _
  · exact fun more => single _
  · exact fun more => single _

/-- The closing quotes, with what may stand before them. -/
theorem basicFrom_close {tail : List Char} (after : tail.head? ≠ some '"') (acc : List Char) :
    basicFrom true false acc ('"' :: '"' :: '"' :: tail) = some (String.ofList acc.reverse, tail) ∧
    basicFrom true false acc ('"' :: '"' :: '"' :: '"' :: tail)
      = some (String.ofList ('"' :: acc).reverse, tail) ∧
    basicFrom true false acc ('"' :: '"' :: '"' :: '"' :: '"' :: tail)
      = some (String.ofList ('"' :: '"' :: acc).reverse, tail) := by
  have one : ∀ more, tail ≠ '"' :: more := by
    rintro more rfl
    exact after rfl
  refine ⟨?_, ?_, ?_⟩
  · rw [basicFrom]
    · rfl
    · exact fun more => one _
    · exact one
  · rw [basicFrom]
    · rfl
    · exact one
  · rw [basicFrom]
    rfl

/-- A character starts with a backslash or as itself; a quote as itself only where it may. -/
theorem head_escaped (long : Bool) (run : Nat) (c : Char) (cs : List Char) :
    ∃ d more, escaped long run (c :: cs) = d :: more ∧
      (d = '\\' ∨ d = c ∧ (c = '"' → long = true ∧ run < 2)) := by
  rw [escaped]
  split
  case isTrue same =>
    subst same
    split
    case isTrue room => exact ⟨'"', _, rfl, .inr ⟨rfl, fun _ => by simpa using room⟩⟩
    case isFalse => exact ⟨'\\', _, rfl, .inl rfl⟩
  case isFalse quote =>
  split
  case isTrue => exact ⟨'\\', _, rfl, .inl rfl⟩
  case isFalse =>
  split
  case isTrue feed =>
    have same : c = '\n' := by simp at feed; exact feed.1
    exact ⟨'\n', _, rfl, .inr ⟨same.symm, fun h => absurd h quote⟩⟩
  case isFalse =>
  split
  case isTrue =>
    unfold escapeControl
    split_ifs <;> exact ⟨'\\', _, rfl, .inl rfl⟩
  case isFalse => exact ⟨c, _, rfl, .inr ⟨rfl, fun h => absurd h quote⟩⟩

theorem head_escaped_ne_quote {run : Nat} (shown : ¬ (c = '"' ∧ long = true ∧ run < 2))
    (cs : List Char) : ∃ d more, escaped long run (c :: cs) = d :: more ∧ d ≠ '"' := by
  obtain ⟨d, more, head, form⟩ := head_escaped long run c cs
  refine ⟨d, more, head, ?_⟩
  rcases form with rfl | ⟨rfl, room⟩
  · decide
  · exact fun same => shown ⟨same, room same⟩

theorem escaped_quote {run : Nat} (room : run < 2) (cs : List Char) :
    escaped true run ('"' :: cs) = '"' :: escaped true (run + 1) cs := by
  rw [escaped, if_pos rfl, if_pos (by simpa using room)]

theorem noPair_of_head {q d : Char} (h : d ≠ q) (cs : List Char) : NoPair q (d :: cs) := by
  rintro more same
  cases same
  exact h rfl

theorem noPair_of_second {q d : Char} (h : d ≠ q) (cs : List Char) : NoPair q (q :: d :: cs) := by
  rintro more same
  cases same
  exact h rfl

/-- After a quote two more stand only if they or the closing ones are next. -/
theorem noPair_escaped {run : Nat} (counted : 1 ≤ run) {cs : List Char} (left : cs ≠ [])
    (enough : cs = ['"'] → 2 ≤ run) (tail : List Char) :
    NoPair '"' (escaped true run cs ++ tail) := by
  obtain ⟨d, ds, rfl⟩ := List.exists_cons_of_ne_nil left
  by_cases shown : d = '"' ∧ run < 2
  · obtain ⟨rfl, room⟩ := shown
    have more : ds ≠ [] := by
      rintro rfl
      exact absurd (enough rfl) (by omega)
    obtain ⟨e, es, rfl⟩ := List.exists_cons_of_ne_nil more
    obtain ⟨f, fs, head, other⟩ := @head_escaped_ne_quote e true (run + 1) (by omega) es
    rw [escaped_quote room, head]
    exact noPair_of_second other _
  · obtain ⟨e, es, head, other⟩ := @head_escaped_ne_quote d true run (by simpa using shown) ds
    rw [head]
    exact noPair_of_head other _

/-- A string of several lines. -/
theorem basicFrom_long {tail : List Char} (after : tail.head? ≠ some '"') (cs : List Char) :
    ∀ acc run, basicFrom true false acc (escaped true run cs ++ '"' :: '"' :: '"' :: tail)
      = some (String.ofList (acc.reverse ++ cs), tail) := by
  induction cs with
  | nil =>
    intro acc run
    rw [escaped, List.nil_append, (basicFrom_close after acc).1, List.append_nil]
  | cons c cs ih =>
    intro acc run
    have next (run : Nat) : basicFrom true false (c :: acc)
        (escaped true run cs ++ '"' :: '"' :: '"' :: tail)
        = some (String.ofList (acc.reverse ++ c :: cs), tail) := by
      rw [ih, List.reverse_cons, List.append_assoc, List.singleton_append]
    by_cases shown : c = '"' ∧ run < 2
    · obtain ⟨rfl, room⟩ := shown
      rw [escaped_quote room, List.cons_append]
      rcases eq_or_ne cs [] with rfl | left
      · exact ((basicFrom_close after acc).2.1).trans (by simp)
      by_cases enough : cs = ['"'] → 2 ≤ run + 1
      · rw [basicFrom_quote (noPair_escaped (by omega) left enough _), next]
      · obtain ⟨rfl, few⟩ := Classical.not_imp.1 enough
        obtain rfl : run = 0 := by omega
        exact ((basicFrom_close after acc).2.2).trans (by simp)
    · rw [basicFrom_step (by simpa using shown), next]

/-! ## Single quotes -/

theorem le_longestRun (q : Char) (run : Nat) (cs : List Char) : run ≤ longestRun q run cs := by
  induction cs generalizing run with
  | nil => exact Nat.le_refl run
  | cons c cs ih =>
    rw [longestRun]
    split
    · exact Nat.le_trans (Nat.le_succ run) (ih (run + 1))
    · exact Nat.le_max_left _ _

theorem not_mem_of_longestRun {q : Char} {cs : List Char} (h : longestRun q 0 cs = 0) :
    q ∉ cs := by
  induction cs with
  | nil => exact List.not_mem_nil
  | cons c cs ih =>
    rw [longestRun] at h
    split at h
    case isTrue => exact absurd (le_longestRun q (0 + 1) cs) (by omega)
    case isFalse other =>
      rw [List.mem_cons, not_or]
      exact ⟨Ne.symm other, ih (by omega)⟩

theorem literalFrom_plain (quote : c ≠ '\'') (plain : (isPlain c || (long && c == '\n')) = true)
    (acc rest : List Char) :
    literalFrom long acc (c :: rest) = literalFrom long (c :: acc) rest := by
  rw [literalFrom]
  · simp [plain]
  · exact quote

theorem literalFrom_end (acc rest : List Char) :
    literalFrom false acc ('\'' :: rest) = some (String.ofList acc.reverse, rest) := by
  rw [literalFrom.eq_def]
  simp

/-- A string of one line. -/
theorem literalFrom_short {cs : List Char} (quotes : '\'' ∉ cs)
    (plain : ∀ c ∈ cs, isPlain c = true) (rest : List Char) :
    ∀ acc, literalFrom false acc (cs ++ '\'' :: rest)
      = some (String.ofList (acc.reverse ++ cs), rest) := by
  induction cs with
  | nil =>
    intro acc
    rw [List.nil_append, literalFrom_end, List.append_nil]
  | cons c cs ih =>
    intro acc
    rw [List.mem_cons, not_or] at quotes
    obtain ⟨first, others⟩ := List.forall_mem_cons.1 plain
    rw [List.cons_append, literalFrom_plain (Ne.symm quotes.1) (by rw [first]; rfl),
      ih quotes.2 others, List.reverse_cons, List.append_assoc, List.singleton_append]

theorem literalFrom_quote {cs : List Char} (single : NoPair '\'' cs) (acc : List Char) :
    literalFrom true acc ('\'' :: cs) = literalFrom true ('\'' :: acc) cs := by
  rw [literalFrom]
  · rfl
  · exact fun more => single _
  · exact fun more => single _
  · exact fun more => single _

theorem literalFrom_close {tail : List Char} (after : tail.head? ≠ some '\'') (acc : List Char) :
    literalFrom true acc ('\'' :: '\'' :: '\'' :: tail) = some (String.ofList acc.reverse, tail) ∧
    literalFrom true acc ('\'' :: '\'' :: '\'' :: '\'' :: tail)
      = some (String.ofList ('\'' :: acc).reverse, tail) ∧
    literalFrom true acc ('\'' :: '\'' :: '\'' :: '\'' :: '\'' :: tail)
      = some (String.ofList ('\'' :: '\'' :: acc).reverse, tail) := by
  have one : ∀ more, tail ≠ '\'' :: more := by
    rintro more rfl
    exact after rfl
  refine ⟨?_, ?_, ?_⟩
  · rw [literalFrom]
    · rfl
    · exact fun more => one _
    · exact one
  · rw [literalFrom]
    · rfl
    · exact one
  · rw [literalFrom]
    rfl

/-- After a quote two more stand only if they or the closing ones are next. -/
theorem noPair_literal {run : Nat} (counted : 1 ≤ run) {cs : List Char} (left : cs ≠ [])
    (enough : cs = ['\''] → 2 ≤ run) (few : longestRun '\'' run cs ≤ 2) (tail : List Char) :
    NoPair '\'' (cs ++ tail) := by
  obtain ⟨d, ds, rfl⟩ := List.exists_cons_of_ne_nil left
  by_cases same : d = '\''
  · subst same
    rw [longestRun, if_pos rfl] at few
    have least := le_longestRun '\'' (run + 1) ds
    have more : ds ≠ [] := by
      rintro rfl
      exact absurd (enough rfl) (by omega)
    obtain ⟨e, es, rfl⟩ := List.exists_cons_of_ne_nil more
    refine noPair_of_second ?_ _
    rintro rfl
    rw [longestRun, if_pos rfl] at few
    exact absurd (le_longestRun '\'' (run + 1 + 1) es) (by omega)
  · exact noPair_of_head same _

/-- A string of several lines. -/
theorem literalFrom_long {tail : List Char} (after : tail.head? ≠ some '\'') {cs : List Char}
    (plain : ∀ c ∈ cs, (isPlain c || c == '\n') = true) :
    ∀ acc run, longestRun '\'' run cs ≤ 2 →
      literalFrom true acc (cs ++ '\'' :: '\'' :: '\'' :: tail)
        = some (String.ofList (acc.reverse ++ cs), tail) := by
  induction cs with
  | nil =>
    intro acc run _
    rw [List.nil_append, (literalFrom_close after acc).1, List.append_nil]
  | cons c cs ih =>
    intro acc run few
    obtain ⟨first, others⟩ := List.forall_mem_cons.1 plain
    have next (run : Nat) (few : longestRun '\'' run cs ≤ 2) :
        literalFrom true (c :: acc) (cs ++ '\'' :: '\'' :: '\'' :: tail)
          = some (String.ofList (acc.reverse ++ c :: cs), tail) := by
      rw [ih others _ run few, List.reverse_cons, List.append_assoc, List.singleton_append]
    rw [longestRun] at few
    split at few
    case isTrue same =>
      subst same
      rw [List.cons_append]
      rcases eq_or_ne cs [] with rfl | left
      · exact ((literalFrom_close after acc).2.1).trans (by simp)
      by_cases enough : cs = ['\''] → 2 ≤ run + 1
      · rw [literalFrom_quote (noPair_literal (by omega) left enough few _), next _ few]
      · obtain ⟨rfl, -⟩ := Classical.not_imp.1 enough
        exact ((literalFrom_close after acc).2.2).trans (by simp)
    case isFalse quote =>
      rw [List.cons_append, literalFrom_plain quote (by rw [Bool.true_and]; exact first),
        next 0 (by omega)]

/-! ## Written texts -/

variable {cs tail : List Char}

theorem isPlain_or_feed (h : cs.any isControl = false) :
    ∀ c ∈ cs, (isPlain c || c == '\n') = true := by
  intro c hc
  have free := List.any_eq_false.1 h c hc
  simp only [isControl, isPlain, Bool.or_eq_true, Bool.and_eq_true, decide_eq_true_eq, bne_iff_ne,
    beq_iff_eq] at free ⊢
  by_cases tab : c = '\t'
  · exact .inl (.inl tab)
  by_cases feed : c = '\n'
  · exact .inr feed
  refine .inl (.inr ⟨?_, fun same => free (.inr same)⟩)
  by_contra small
  exact free (.inl ⟨⟨by omega, tab⟩, feed⟩)

theorem isPlain_of_one_line (control : cs.any isControl = false)
    (feed : cs.contains '\n' = false) : ∀ c ∈ cs, isPlain c = true := by
  intro c hc
  have known := isPlain_or_feed control c hc
  have other : c ≠ '\n' := by
    rintro rfl
    exact absurd (List.contains_iff_mem.2 hc) (by rw [feed]; decide)
  simpa [other] using known

/-- What may follow a string. -/
structure AfterText (tail : List Char) : Prop where
  double : tail.head? ≠ some '"'
  single : tail.head? ≠ some '\''

theorem noPair_singleton {q : Char} (h : tail.head? ≠ some q) : NoPair q (q :: tail) := by
  rintro more same
  cases same
  exact h rfl

theorem dropLineFeed_of_head {xs : List Char} (h : xs.head? ≠ some '\n') :
    dropLineFeed xs = xs := by
  unfold dropLineFeed
  split
  · exact absurd rfl h
  · rfl

theorem preferred_spec (t : Traits) :
    (t.preferred = .literal → t.control = false ∧ t.singles = 0 ∧ t.lineFeed = false) ∧
    (t.preferred = .longLiteral → t.control = false ∧ t.singles ≤ 2) := by
  unfold Traits.preferred
  split_ifs <;> simp_all

theorem dropLineFeed_literal (rest : List Char) :
    dropLineFeed (opening (traits cs) ++ (cs ++ '\'' :: rest)) = cs ++ '\'' :: rest := by
  rw [opening]
  split
  case isTrue => rfl
  case isFalse feed =>
    refine dropLineFeed_of_head ?_
    cases cs with
    | nil => simp
    | cons c cs =>
      intro same
      cases same
      exact feed (by simp [traits])

theorem dropLineFeed_escaped (rest : List Char) :
    dropLineFeed (opening (traits cs) ++ (escaped true 0 cs ++ '"' :: rest))
      = escaped true 0 cs ++ '"' :: rest := by
  rw [opening]
  split
  case isTrue => rfl
  case isFalse feed =>
    refine dropLineFeed_of_head ?_
    cases cs with
    | nil => simp [escaped]
    | cons c cs =>
      obtain ⟨d, more, head, form⟩ := head_escaped true 0 c cs
      rw [head]
      intro same
      cases same
      rcases form with slash | ⟨rfl, -⟩
      · exact absurd slash (by decide)
      · exact feed (by simp [traits])

theorem noPair_short (after : tail.head? ≠ some '"') (cs : List Char) :
    NoPair '"' (escaped false 0 cs ++ '"' :: tail) := by
  cases cs with
  | nil => exact noPair_singleton after
  | cons c cs =>
    obtain ⟨d, more, head, other⟩ := @head_escaped_ne_quote c false 0 (by simp) cs
    rw [head]
    exact noPair_of_head other _

theorem noPair_of_not_mem (after : tail.head? ≠ some '\'') (quotes : '\'' ∉ cs) :
    NoPair '\'' (cs ++ '\'' :: tail) := by
  cases cs with
  | nil => exact noPair_singleton after
  | cons c cs => exact noPair_of_head (Ne.symm (not_or.1 (mt List.mem_cons.2 quotes)).1) _

/-- Every text is read back from its written form. -/
theorem value_textChars (fuel : Nat) (cs : List Char) (after : AfterText tail) :
    value (fuel + 1) (textChars cs ++ tail) = some (.text (String.ofList cs), tail) := by
  rw [textChars]
  obtain ⟨literal, longLiteral⟩ := preferred_spec (traits cs)
  cases picked : (traits cs).preferred with
  | basic =>
    simp only [quoted, List.cons_append, List.append_assoc, List.nil_append]
    rw [value, basicFrom_short]
    · rfl
    · exact noPair_short after.double cs
  | literal =>
    obtain ⟨control, singles, feed⟩ := literal picked
    have quotes : '\'' ∉ cs := not_mem_of_longestRun singles
    simp only [quoted, List.cons_append, List.append_assoc, List.nil_append]
    rw [value, literalFrom_short quotes (isPlain_of_one_line control feed)]
    · rfl
    · exact noPair_of_not_mem after.single quotes
  | longBasic =>
    simp only [quoted, List.cons_append, List.append_assoc, List.nil_append]
    rw [value, dropLineFeed_escaped, basicFrom_long after.double]
    rfl
  | longLiteral =>
    obtain ⟨control, singles⟩ := longLiteral picked
    simp only [quoted, List.cons_append, List.append_assoc, List.nil_append]
    rw [value, dropLineFeed_literal,
      literalFrom_long after.single (isPlain_or_feed control) _ 0 singles]
    rfl

/-! ## Written names -/

/-- A name starts the line of an entry, which is neither empty nor a header nor a comment. -/
structure StartsEntry (c : Char) : Prop where
  space : isSpace c = false
  bracket : c ≠ '['
  mark : c ≠ '#'
  feed : c ≠ '\n'

theorem startsEntry_of_bare (bare : isBare c = true) : StartsEntry c := by
  refine ⟨?_, ?_, ?_, ?_⟩
  · rw [Bool.eq_false_iff]
    intro space
    have either : c = ' ' ∨ c = '\t' := by simpa [isSpace] using space
    rcases either with rfl | rfl <;> exact absurd bare (by decide)
  all_goals
    rintro rfl
    exact absurd bare (by decide)

theorem head_keyChars (cs : List Char) : ∃ d more, keyChars cs = d :: more ∧ StartsEntry d := by
  have double : StartsEntry '"' := by constructor <;> decide
  have single : StartsEntry '\'' := by constructor <;> decide
  simp only [keyChars]
  split
  case isTrue bare =>
    obtain ⟨some_left, all⟩ : cs ≠ [] ∧ ∀ c ∈ cs, isBare c = true := by simpa using bare
    obtain ⟨d, ds, rfl⟩ := List.exists_cons_of_ne_nil some_left
    exact ⟨d, ds, rfl, startsEntry_of_bare (all d List.mem_cons_self)⟩
  split
  case isTrue => exact ⟨'"', _, rfl, double⟩
  split
  case isTrue => exact ⟨'\'', _, rfl, single⟩
  case isFalse => exact ⟨'"', _, rfl, double⟩

theorem simpleKey_basic (t : Traits) (cs rest : List Char) :
    simpleKey (quoted t cs .basic ++ rest) = some (String.ofList cs, rest) := by
  simp only [quoted, List.cons_append, List.append_assoc, List.nil_append]
  rw [simpleKey, basicFrom_short]
  rfl

theorem simpleKey_bare {d : Char} {cs rest : List Char} (bare : ∀ c ∈ d :: cs, isBare c = true)
    (ends : ∀ c ∈ rest.head?, isBare c = false) :
    simpleKey (d :: cs ++ rest) = some (String.ofList (d :: cs), rest) := by
  have first : isBare d = true := bare d List.mem_cons_self
  obtain ⟨run, after⟩ := Text.span_append rest bare ends
  rw [simpleKey]
  · rw [run, after]
  · rintro more same
    cases same
    exact absurd first (by decide)
  · rintro more same
    cases same
    exact absurd first (by decide)

/-- Every name is read back from its written form. -/
theorem simpleKey_keyChars (cs : List Char) {rest : List Char}
    (ends : ∀ c ∈ rest.head?, isBare c = false) :
    simpleKey (keyChars cs ++ rest) = some (String.ofList cs, rest) := by
  simp only [keyChars]
  split
  case isTrue bare =>
    obtain ⟨some_left, all⟩ : cs ≠ [] ∧ ∀ c ∈ cs, isBare c = true := by simpa using bare
    obtain ⟨d, ds, rfl⟩ := List.exists_cons_of_ne_nil some_left
    exact simpleKey_bare all ends
  split
  case isTrue => exact simpleKey_basic _ cs rest
  split
  case isTrue literal =>
    obtain ⟨⟨control, feed⟩, singles⟩ : (cs.any isControl = false ∧ cs.contains '\n' = false) ∧
        longestRun '\'' 0 cs = 0 := by simpa [traits] using literal
    simp only [quoted, List.cons_append, List.append_assoc, List.nil_append]
    rw [simpleKey, literalFrom_short (not_mem_of_longestRun singles)
      (isPlain_of_one_line control feed)]
    rfl
  case isFalse => exact simpleKey_basic _ cs rest

theorem skipSpace_of_head {c : Char} (h : isSpace c = false) (cs : List Char) :
    skipSpace (c :: cs) = c :: cs := by
  rw [skipSpace, List.dropWhile_cons, h]
  rfl

/-- The name and the sign of an entry. -/
theorem key_entry (cs rest : List Char) :
    key (keyChars cs ++ ' ' :: '=' :: rest) = some ([String.ofList cs], '=' :: rest) := by
  have untouched : skipSpace (keyChars cs ++ ' ' :: '=' :: rest)
      = keyChars cs ++ ' ' :: '=' :: rest := by
    obtain ⟨d, more, head, starts⟩ := head_keyChars cs
    rw [head]
    exact skipSpace_of_head starts.space _
  rw [key, keyFrom, untouched, simpleKey_keyChars cs (by simp [isBare])]
  have sign : skipSpace (' ' :: '=' :: rest) = '=' :: rest := by
    simp [skipSpace, isSpace]
  simp only [sign]
  rfl

end LogConsole.Toml
