import LogConsole.Proofs.MessageFormat.Masking

/-!
# LogConsole.Proofs.MessageFormat.NormalForm

A format of a message has nothing left in it to mask.

* `Normal cs`          — no string closes in a text, and no number stands in it as a word;
* `Finds m P`          — a matcher finds the texts of a kind, so a clear text holds none of them;
* `Keeps m r`          — a pass of one matcher makes no match of another, nor of itself;
* `Masks.clear_self`, `Masks.clear` — so a pass clears a text of its own matches, and what was clear
  of others stays so;
* `formats_are_normal` — the result.

A mark is neither a quote nor part of a word. What it takes the place of is read as it is by a
string that is still open, and stands between characters that belong to no word.
-/

namespace LogConsole.MessageFormat

open Text (isWord isDigit)

/-! ## Normal texts -/

/-- No string closes in a text, and no hexadecimal number and no number stands in it as a word. -/
structure Normal (cs : List Char) : Prop where
  strings : ∀ before t after, cs = before ++ t ++ after → ¬ Quoted t
  hexadecimals : ∀ before t after, cs = before ++ t ++ after →
    ¬ (Standing before.getLast? after ∧ Hexadecimal t)
  numbers : ∀ before t after, cs = before ++ t ++ after →
    ¬ (Standing before.getLast? after ∧ Number t)

/-- A matcher finds the texts of a kind, perhaps longer ones than are asked for. -/
structure Finds (m : Matcher) (P : Option Char → List Char → List Char → Prop) : Prop where
  sound {before : Option Char} {cs after : List Char} (h : m before cs = some after) :
    ∃ t, P before t after ∧ cs = t ++ after
  complete {before : Option Char} {t after : List Char} (h : P before t after) :
    t ≠ [] ∧ m before (t ++ after) ≠ none

/-- A text is clear if nothing of the kind is in it. -/
theorem Finds.clear_iff {m : Matcher} {P : Option Char → List Char → List Char → Prop}
    (finds : Finds m P) {cs : List Char} : Clear m none cs ↔
      ∀ before t after, cs = before ++ t ++ after → ¬ P before.getLast? t after := by
  rw [MessageFormat.clear_iff]
  simp only [Option.or_none]
  constructor
  · intro clear before t after parts match_
    obtain ⟨nonempty, found⟩ := finds.complete match_
    obtain ⟨c, rest, rfl⟩ := List.exists_cons_of_ne_nil nonempty
    refine found (clear before c (rest ++ after) ?_)
    rw [parts, List.append_assoc, List.cons_append]
  · intro absent front c rest parts
    cases found : m front.getLast? (c :: rest) with
    | none => rfl
    | some after =>
      obtain ⟨t, match_, split⟩ := finds.sound found
      exact absurd match_ (absent front t after (by rw [parts, split, List.append_assoc]))

theorem finds_quoted : Finds afterQuoted fun _ t _ => Quoted t where
  sound {before cs after} h := by
    cases cs with
    | nil => cases h
    | cons c rest =>
      obtain ⟨mark, closed⟩ := afterQuoted_eq_some h
      obtain ⟨inner, inside, rfl⟩ := (afterQuote_eq_some_iff mark).1 closed
      exact ⟨_, .intro mark inside, by simp⟩
  complete {before t after} h := by
    obtain ⟨mark, inside⟩ := h
    rename_i quote inner
    refine ⟨List.cons_ne_nil _ _, ?_⟩
    have closed : afterQuote quote (inner ++ quote :: after) = some after :=
      (afterQuote_eq_some_iff mark).2 ⟨inner, inside, rfl⟩
    rw [List.append_assoc, List.cons_append, List.singleton_append]
    exact fun silent => Option.some_ne_none _ (closed.symm.trans ((if_pos mark).symm.trans silent))

theorem finds_hexadecimal : Finds afterHex fun before t after =>
    Standing before after ∧ Hexadecimal t where
  sound h := by
    obtain ⟨t, hex, parts, place⟩ := afterHex_eq_some_iff.1 h
    exact ⟨t, ⟨place, hex⟩, parts⟩
  complete {before t after} h := by
    obtain ⟨place, hex⟩ := h
    have found : afterHex before (t ++ after) = some after :=
      afterHex_eq_some_iff.2 ⟨t, hex, rfl, place⟩
    refine ⟨?_, found ▸ Option.some_ne_none after⟩
    obtain ⟨digits, -, -, rfl⟩ := hex
    exact List.cons_ne_nil _ _

theorem finds_number : Finds afterNumber fun before t after =>
    Standing before after ∧ Number t where
  sound h := by
    obtain ⟨t, number, parts, place⟩ := afterNumber_sound h
    exact ⟨t, ⟨place, number⟩, parts⟩
  complete {before t after} h := by
    obtain ⟨place, number⟩ := h
    obtain ⟨ds, rest, run, parts, -⟩ := number.exists_digits
    refine ⟨fun empty => run.nonempty ?_, afterNumber_complete number place⟩
    exact (List.append_eq_nil_iff.1 (parts.symm.trans empty)).1

theorem normal_iff {cs : List Char} : Normal cs ↔
    Clear afterQuoted none cs ∧ Clear afterHex none cs ∧ Clear afterNumber none cs := by
  rw [finds_quoted.clear_iff, finds_hexadecimal.clear_iff, finds_number.clear_iff]
  exact ⟨fun h => ⟨h.strings, h.hexadecimals, h.numbers⟩, fun ⟨a, b, c⟩ => ⟨a, b, c⟩⟩

/-! ## Passes and matches -/

/-- A pass makes no match of another matcher, neither at a character that it keeps nor at a mark or
behind it. -/
structure Keeps (m r : Matcher) : Prop where
  kept {before : Option Char} {c : Char} {rest out : List Char} (more : Masks m (some c) rest out)
    (silent : r before (c :: rest) = none) : r before (c :: out) = none
  mark (before : Option Char) (out : List Char) : r before ('#' :: out) = none
  behind {before : Option Char} {c : Char} {rest after out : List Char}
    (found : m before (c :: rest) = some after) (more : Masks m (some '0') after out)
    (clear : Clear r (some '0') out) : Clear r (some '#') out
  skipped {before : Option Char} {c : Char} {rest after : List Char}
    (found : m before (c :: rest) = some after) (clear : Clear r before (c :: rest)) :
    Clear r (some '0') after

section Keeps

variable {m r : Matcher} {before : Option Char} {cs out : List Char}

theorem Masks.clear_self (keeps : Keeps m m) (h : Masks m before cs out) : Clear m before out := by
  induction h with
  | done => trivial
  | hit found more ih => exact ⟨keeps.mark _ _, keeps.behind found more ih⟩
  | keep silent more ih => exact ⟨keeps.kept more silent, ih⟩

theorem Masks.clear (keeps : Keeps m r) (h : Masks m before cs out) (clear : Clear r before cs) :
    Clear r before out := by
  induction h with
  | done => trivial
  | hit found more ih =>
    exact ⟨keeps.mark _ _, keeps.behind found more (ih (keeps.skipped found clear))⟩
  | keep _ more ih => exact ⟨keeps.kept more clear.1, ih clear.2⟩

end Keeps

/-! ### Strings -/

/-- Strings are found whatever comes before them. -/
theorem Clear.quoted_moved {before : Option Char} {cs : List Char}
    (clear : Clear afterQuoted before cs) (before' : Option Char) :
    Clear afterQuoted before' cs := by
  cases cs with
  | nil => trivial
  | cons c rest => exact clear

/-- A pass that spares open strings makes no new ones. -/
theorem Spares.keeps_quoted {m : Matcher} (spares : Spares m)
    (split : ∀ {before cs after}, m before cs = some after → ∃ t, cs = t ++ after) :
    Keeps m afterQuoted where
  kept {before c rest out} more silent := by
    by_cases mark : IsQuote c
    · exact (if_pos mark).trans ((more.open_string spares mark).1 ((if_pos mark).symm.trans silent))
    · exact if_neg mark
  mark _ _ := rfl
  behind _ _ clear := clear.quoted_moved _
  skipped found clear := by
    obtain ⟨t, parts⟩ := split found
    rw [parts] at clear
    obtain ⟨last, clear⟩ := clear.drop
    exact clear.quoted_moved _

theorem keeps_quoted_self : Keeps afterQuoted afterQuoted :=
  spares_afterQuoted.keeps_quoted fun h => by
    obtain ⟨t, -, parts⟩ := finds_quoted.sound h
    exact ⟨t, parts⟩

theorem Words.keeps_quoted {m : Matcher} (words : Words m) : Keeps m afterQuoted :=
  words.spares.keeps_quoted fun h => by
    obtain ⟨-, -, t, parts, -⟩ := words.found h
    exact ⟨t, parts⟩

/-! ### Words -/

section Words

variable {m r : Matcher}

/-- Whether a word starts at a place does not depend on what a pass does behind it. -/
theorem Words.keeps_words (words : Words m) (others : Words r)
    (kept : ∀ {before c rest out}, Masks m (some c) rest out → r before (c :: rest) = none →
      r before (c :: out) = none) : Keeps m r where
  kept := kept
  mark _ out := by
    have noWord : wordAfter ('#' :: out) = false := (by decide : isWord '#' = false)
    exact others.outside noWord _
  behind found more clear :=
    clear.moved (others.outside (more.wordAfter_false (words.found found).1.stop) _)
  skipped found clear := by
    obtain ⟨place, -, t, parts, -⟩ := words.found found
    rw [parts] at clear
    obtain ⟨last, clear⟩ := clear.drop
    exact clear.moved (others.outside place.stop _)

theorem afterHex_eq_none_iff {before : Option Char} {rest : List Char} :
    afterHex before ('0' :: 'x' :: rest) = none ↔ wordBefore before = true ∨
      rest.takeWhile isHexDigit = [] ∨ wordAfter (rest.dropWhile isHexDigit) = true := by
  cases start : wordBefore before with
  | true => simp [afterHex, start]
  | false =>
    simp only [afterHex, start, Bool.false_eq_true, if_false, false_or]
    rw [← List.isEmpty_iff, ← Bool.or_eq_true]
    split <;> simp_all

theorem Words.keeps_hexadecimal (words : Words m) : Keeps m afterHex := by
  refine words.keeps_words words_afterHex fun {before c rest out} more silent => ?_
  cases found : afterHex before (c :: out) with
  | none => rfl
  | some after =>
    obtain ⟨t, ⟨digits, -, -, rfl⟩, parts, -⟩ := afterHex_eq_some_iff.1 found
    obtain ⟨rfl, rfl⟩ := List.cons.inj parts
    -- the digits are in one word with the two characters before them, so the pass has kept them
    cases more with
    | keep _ more =>
      obtain ⟨digits, stop⟩ := more.kept_run words (by decide : isWord 'x' = true)
        (fun _ => isWord_of_isHexDigit)
      rw [← found]
      exact afterHex_eq_none_iff.2 (digits ▸ stop ▸ afterHex_eq_none_iff.1 silent)

theorem Words.keeps_number (words : Words m) : Keeps m afterNumber := by
  refine words.keeps_words words_afterNumber fun {before c rest out} more silent => ?_
  cases digit : isDigit c with
  | false => exact afterNumber_eq_none_iff.2 (.inr (.inl digit))
  | true =>
    obtain ⟨-, stop⟩ := more.kept_run words (isWord_of_isDigit digit) (fun _ => isWord_of_isDigit)
    exact afterNumber_eq_none_iff.2 (stop ▸ afterNumber_eq_none_iff.1 silent)

end Words

/-! ## The result -/

theorem toList_messageFormat (body : String) : (messageFormat body).toList
    = maskNumbers none (maskHex none (maskQuoted body.toList)) := String.toList_ofList

/-- Each pass clears the text of its own matches, and leaves it clear of those of the passes before.
-/
theorem normal_messageFormat (body : String) : Normal (messageFormat body).toList := by
  rw [toList_messageFormat, normal_iff]
  have first := masks_maskQuoted none body.toList
  have second := masks_maskHex none (maskQuoted body.toList)
  have third := masks_maskNumbers none (maskHex none (maskQuoted body.toList))
  refine ⟨?_, ?_, ?_⟩
  · exact third.clear words_afterNumber.keeps_quoted
      (second.clear words_afterHex.keeps_quoted (first.clear_self keeps_quoted_self))
  · exact third.clear words_afterNumber.keeps_hexadecimal
      (second.clear_self words_afterHex.keeps_hexadecimal)
  · exact third.clear_self words_afterNumber.keeps_number

theorem messageFormat_of_normal {body : String} (normal : Normal body.toList) :
    messageFormat body = body := by
  obtain ⟨strings, hexadecimals, numbers⟩ := normal_iff.1 normal
  have first := (masks_maskQuoted none body.toList).eq_of_clear strings
  have second := (masks_maskHex none body.toList).eq_of_clear hexadecimals
  have third := (masks_maskNumbers none body.toList).eq_of_clear numbers
  rw [← String.toList_inj, toList_messageFormat, first, second, third]

/-- **A format has nothing left to mask.** Whatever quotes, backslashes and line feeds a message
holds: in its format no string closes, and no hexadecimal number and no number stands as a word. So
a format is its own format. The messages that are their own format are those in which nothing is to
be masked. -/
theorem formats_are_normal (body : String) :
    messageFormat (messageFormat body) = messageFormat body ∧
    Normal (messageFormat body).toList ∧
    (messageFormat body = body ↔ Normal body.toList) := by
  have normal := normal_messageFormat body
  refine ⟨messageFormat_of_normal normal, normal, fun same => ?_, messageFormat_of_normal⟩
  rwa [same] at normal

end LogConsole.MessageFormat
