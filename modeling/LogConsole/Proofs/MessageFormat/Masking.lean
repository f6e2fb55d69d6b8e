import LogConsole.Proofs.MessageFormat.Patterns

/-!
# LogConsole.Proofs.MessageFormat.Masking

Masking as a walk over a text.

* `Matcher`            — what follows a match at the head of a text, if there is one;
* `Masks m before cs out` — the walk: a match gives way to a mark, and every other character is
  kept;
* `masks_maskQuoted`, `masks_maskHex`, `masks_maskNumbers` — the three passes are such walks;
* `Clear m before cs`  — there is no match anywhere in a text;
* `Words m`            — what a matcher finds stands as a word, and is made of characters that mean
  nothing to strings;
* `Masks.kept_run`     — such a pass leaves alone what is left of a word in which it stands;
* `Masks.open_string`  — a string that is not closed is not closed after a pass either.
-/

namespace LogConsole.MessageFormat

open Text (isWord isDigit)

/-- What follows a match at the head of a text; the character before the text is given. -/
abbrev Matcher := Option Char → List Char → Option (List Char)

/-- Strings are found wherever they start. -/
def afterQuoted (_ : Option Char) : List Char → Option (List Char)
  | [] => none
  | c :: rest => if c = '"' ∨ c = '\'' then afterQuote c rest else none

/-- Masks the matches in a text, from its head on. -/
inductive Masks (m : Matcher) : Option Char → List Char → List Char → Prop
  | done {before : Option Char} : Masks m before [] []
  | hit {before : Option Char} {c : Char} {rest after out : List Char}
      (found : m before (c :: rest) = some after) (more : Masks m (some '0') after out) :
      Masks m before (c :: rest) ('#' :: out)
  | keep {before : Option Char} {c : Char} {rest out : List Char}
      (silent : m before (c :: rest) = none) (more : Masks m (some c) rest out) :
      Masks m before (c :: rest) (c :: out)

/-- There is no match in a text. -/
def Clear (m : Matcher) : Option Char → List Char → Prop
  | _, [] => True
  | before, c :: rest => m before (c :: rest) = none ∧ Clear m (some c) rest

/-! ## The passes -/

theorem masks_maskQuoted (before : Option Char) (cs : List Char) :
    Masks afterQuoted before cs (maskQuoted cs) := by
  fun_induction maskQuoted cs generalizing before with
  | case1 => exact .done
  | case2 c rest quote after found _ ih =>
    exact .hit ((if_pos quote).trans found) (ih _)
  | case3 c rest quote silent ih => exact .keep ((if_pos quote).trans silent) (ih _)
  | case4 c rest other ih => exact .keep (if_neg other) (ih _)

theorem masks_maskHex (before : Option Char) (cs : List Char) :
    Masks afterHex before cs (maskHex before cs) := by
  fun_induction maskHex before cs with
  | case1 => exact .done
  | case2 before c rest after found _ ih => exact .hit found ih
  | case3 before c rest silent ih => exact .keep silent ih

theorem masks_maskNumbers (before : Option Char) (cs : List Char) :
    Masks afterNumber before cs (maskNumbers before cs) := by
  fun_induction maskNumbers before cs with
  | case1 => exact .done
  | case2 before c rest after found _ ih => exact .hit found ih
  | case3 before c rest silent ih => exact .keep silent ih

section Walks

variable {m : Matcher} {before : Option Char} {cs out : List Char}

/-- A matcher has one walk over a text. -/
theorem Masks.unique {out' : List Char} (h : Masks m before cs out) (h' : Masks m before cs out') :
    out = out' := by
  induction h generalizing out' with
  | done => cases h'; rfl
  | hit found _ ih =>
    cases h' with
    | hit found' more =>
      cases found.symm.trans found'
      rw [ih more]
    | keep silent _ => cases found.symm.trans silent
  | keep silent _ ih =>
    cases h' with
    | hit found _ => cases silent.symm.trans found
    | keep _ more => rw [ih more]

theorem Masks.eq_of_clear (h : Masks m before cs out) (clear : Clear m before cs) : out = cs := by
  induction h with
  | done => rfl
  | hit found => cases found.symm.trans clear.1
  | keep _ _ ih => rw [ih clear.2]

/-- No match anywhere, said at once for all places. -/
theorem clear_iff : Clear m before cs ↔ ∀ front c rest, cs = front ++ c :: rest →
    m (front.getLast?.or before) (c :: rest) = none := by
  induction cs generalizing before with
  | nil => simp [Clear]
  | cons d more ih =>
    rw [Clear, ih]
    constructor
    · rintro ⟨first, later⟩ front c rest parts
      cases front with
      | nil =>
        cases parts
        exact first
      | cons e front =>
        rw [List.cons_append, List.cons.injEq] at parts
        obtain ⟨rfl, parts⟩ := parts
        have place := later front c rest parts
        rwa [List.getLast?_cons, Option.some_or, ← Option.or_some]
    · intro h
      refine ⟨h [] d more rfl, fun front c rest parts => ?_⟩
      have place := h (d :: front) c rest (by rw [parts, List.cons_append])
      rwa [List.getLast?_cons, Option.some_or, ← Option.or_some] at place

/-- What comes after something in a clear text is clear. -/
theorem Clear.drop {t after : List Char} (clear : Clear m before (t ++ after)) :
    ∃ last, Clear m last after := by
  induction t generalizing before with
  | nil => exact ⟨before, clear⟩
  | cons c t ih => exact ih clear.2

/-- The character before a text matters to its first place only. -/
theorem Clear.moved (clear : Clear m before cs) {before' : Option Char}
    (first : m before' cs = none) :
    Clear m before' cs := by
  cases cs with
  | nil => trivial
  | cons c rest => exact ⟨first, clear.2⟩

end Walks

/-! ## Words -/

/-- A character that means nothing to strings. -/
structure Plain (c : Char) : Prop where
  quote : ¬ IsQuote c
  escape : c ≠ '\\'
  sameLine : c ≠ '\n'

theorem plain_of_isWord {c : Char} (h : isWord c = true) : Plain c := by
  refine ⟨?_, ?_, ?_⟩
  · rintro (rfl | rfl) <;> exact absurd h (by decide)
  · rintro rfl
    exact absurd h (by decide)
  · rintro rfl
    exact absurd h (by decide)

theorem plain_of_isJoint {c : Char} (h : isJoint c = true) : Plain c := by
  have either : c = '.' ∨ c = ':' := by simpa [isJoint] using h
  rcases either with rfl | rfl <;> exact ⟨by decide, by decide, by decide⟩

theorem Hexadecimal.plain {t : List Char} (h : Hexadecimal t) : ∀ c ∈ t, Plain c := by
  obtain ⟨digits, -, all, rfl⟩ := h
  refine List.forall_mem_cons.2 ⟨plain_of_isWord (by decide),
    List.forall_mem_cons.2 ⟨plain_of_isWord (by decide), fun d hd => ?_⟩⟩
  exact plain_of_isWord (isWord_of_isHexDigit (all d hd))

theorem Number.plain {t : List Char} (h : Number t) : ∀ c ∈ t, Plain c := by
  have digits {ds : List Char} (run : Digits ds) : ∀ d ∈ ds, Plain d :=
    fun d hd => plain_of_isWord (isWord_of_isDigit (run.all d hd))
  induction h with
  | digits run => exact digits run
  | joined _ joint run ih =>
    intro c hc
    rcases List.mem_append.1 hc with hc | hc
    · exact ih c hc
    · exact List.forall_mem_cons.2 ⟨plain_of_isJoint joint, digits run⟩ c hc

/-- What a matcher finds stands as a word and means nothing to strings. -/
structure Words (m : Matcher) : Prop where
  found {before : Option Char} {cs after : List Char} (h : m before cs = some after) :
    Standing before after ∧ wordAfter cs = true ∧ ∃ t, cs = t ++ after ∧ ∀ c ∈ t, Plain c

theorem words_afterHex : Words afterHex where
  found h := by
    obtain ⟨t, hex, rfl, place⟩ := afterHex_eq_some_iff.1 h
    obtain ⟨digits, -, -, rfl⟩ := id hex
    exact ⟨place, (by decide : isWord '0' = true), _, rfl, hex.plain⟩

theorem words_afterNumber : Words afterNumber where
  found h := by
    obtain ⟨t, number, rfl, place⟩ := afterNumber_sound h
    obtain ⟨ds, rest, run, rfl, -⟩ := number.exists_digits
    obtain ⟨d, more, rfl, digit, -⟩ := run.exists_cons
    exact ⟨place, isWord_of_isDigit digit, _, rfl, number.plain⟩

section Words

variable {m : Matcher} (words : Words m) {before : Option Char} {cs out : List Char}

include words

/-- In a word no other starts. -/
theorem Words.inside (inWord : wordBefore before = true) (cs : List Char) : m before cs = none := by
  cases h : m before cs with
  | none => rfl
  | some after => exact Bool.noConfusion (inWord.symm.trans (words.found h).1.start)

theorem Words.outside (noWord : wordAfter cs = false) (before : Option Char) :
    m before cs = none := by
  cases h : m before cs with
  | none => rfl
  | some after => exact Bool.noConfusion (noWord.symm.trans (words.found h).2.1)

omit words in
/-- Where no word starts, none starts after the pass. -/
theorem Masks.wordAfter_false (h : Masks m before cs out) (stop : wordAfter cs = false) :
    wordAfter out = false := by
  cases h with
  | done => rfl
  | hit => exact (by decide : isWord '#' = false)
  | keep => exact stop

/-- What is left of a word is kept. -/
theorem Masks.kept_run (h : Masks m before cs out) (inWord : wordBefore before = true)
    {p : Char → Bool} (chars : ∀ c, p c = true → isWord c = true) :
    out.takeWhile p = cs.takeWhile p ∧
      wordAfter (out.dropWhile p) = wordAfter (cs.dropWhile p) := by
  induction h with
  | done => exact ⟨rfl, rfl⟩
  | hit found => cases found.symm.trans (words.inside inWord _)
  | @keep before c rest out _ more ih =>
    cases run : p c with
    | false => simp [run, wordAfter]
    | true =>
      obtain ⟨kept, stop⟩ := ih (chars c run)
      simp [run, kept, stop]

end Words

/-! ## Strings that are not closed -/

/-- A match in a string that is not closed ends in it. -/
structure Spares (m : Matcher) : Prop where
  quote {before : Option Char} {c q : Char} {rest after : List Char} (mark : IsQuote q)
    (found : m before (c :: rest) = some after) (opened : afterQuote q (c :: rest) = none) :
    afterQuote q after = none
  escape {before : Option Char} {c q : Char} {rest after : List Char} (mark : IsQuote q)
    (found : m before (c :: rest) = some after) (opened : afterEscape q (c :: rest) = none) :
    afterQuote q after = none

theorem Masks.open_string {m : Matcher} (spares : Spares m) {before : Option Char}
    {cs out : List Char} (h : Masks m before cs out) {q : Char} (mark : IsQuote q) :
    (afterQuote q cs = none → afterQuote q out = none) ∧
      (afterEscape q cs = none → afterEscape q out = none) := by
  -- a character after a backslash is skipped, so both are needed at each place
  have plainMark : '#' ≠ q := by
    rintro rfl
    exact absurd mark (by decide)
  induction h with
  | done => exact ⟨id, id⟩
  | hit found _ ih =>
    refine ⟨fun opened => ?_, fun opened => ?_⟩
    · rw [afterQuote_plain plainMark (by decide)]
      exact ih.1 (spares.quote mark found opened)
    · rw [afterEscape_kept (by decide)]
      exact ih.1 (spares.escape mark found opened)
  | @keep _ c rest out _ _ ih =>
    refine ⟨fun opened => ?_, fun opened => ?_⟩
    · by_cases same : c = q
      · rw [same, afterQuote_mark] at opened
        cases opened
      · by_cases escape : c = '\\'
        · rw [escape, afterQuote_backslash mark] at opened ⊢
          exact ih.2 opened
        · rw [afterQuote_plain same escape] at opened ⊢
          exact ih.1 opened
    · by_cases line : c = '\n'
      · exact if_pos line
      · rw [afterEscape_kept line] at opened ⊢
        exact ih.1 opened

theorem afterQuote_append_plain {q : Char} (mark : IsQuote q) {t : List Char}
    (plain : ∀ c ∈ t, Plain c) (after : List Char) :
    afterQuote q (t ++ after) = afterQuote q after := by
  induction t with
  | nil => rfl
  | cons c t ih =>
    obtain ⟨first, others⟩ := List.forall_mem_cons.1 plain
    have other : c ≠ q := fun same => first.quote (same ▸ mark)
    rw [List.cons_append, afterQuote_plain other first.escape, ih others]

theorem Words.spares {m : Matcher} (words : Words m) : Spares m where
  quote mark found opened := by
    obtain ⟨-, -, t, parts, plain⟩ := words.found found
    rwa [parts, afterQuote_append_plain mark plain] at opened
  escape mark found opened := by
    obtain ⟨place, start, t, parts, plain⟩ := words.found found
    cases t with
    | nil =>
      rw [parts] at start
      exact Bool.noConfusion (start.symm.trans place.stop)
    | cons c t =>
      obtain ⟨first, others⟩ := List.forall_mem_cons.1 plain
      rwa [parts, List.cons_append, afterEscape_kept first.sameLine,
        afterQuote_append_plain mark others] at opened

/-- Two strings that start at one place are read along the same characters: if the one ends, the
other is still open there unless it has ended. -/
theorem afterQuote_none_of_some {q d : Char} (mark : IsQuote q) (other : IsQuote d)
    {rest after : List Char} (closed : afterQuote d rest = some after)
    (opened : afterQuote q rest = none) : afterQuote q after = none := by
  obtain ⟨inner, inside, rfl⟩ := (afterQuote_eq_some_iff other).1 closed
  clear closed
  induction inside with
  | nil =>
    have apart : d ≠ q := by
      rintro rfl
      rw [List.nil_append, afterQuote_mark] at opened
      cases opened
    rwa [List.nil_append, afterQuote_plain apart other.ne_backslash] at opened
  | @plain c rest _ noEscape _ ih =>
    have apart : c ≠ q := by
      rintro rfl
      rw [List.cons_append, afterQuote_mark] at opened
      cases opened
    exact ih (by rwa [List.cons_append, afterQuote_plain apart noEscape] at opened)
  | kept sameLine _ ih =>
    refine ih ?_
    rwa [List.cons_append, List.cons_append, afterQuote_backslash mark,
      afterEscape_kept sameLine] at opened

theorem afterQuoted_eq_some {before : Option Char} {c : Char} {rest after : List Char}
    (h : afterQuoted before (c :: rest) = some after) :
    IsQuote c ∧ afterQuote c rest = some after := by
  rw [afterQuoted] at h
  split at h
  case isTrue mark => exact ⟨mark, h⟩
  case isFalse => cases h

theorem spares_afterQuoted : Spares afterQuoted where
  quote mark found opened := by
    obtain ⟨other, closed⟩ := afterQuoted_eq_some found
    refine afterQuote_none_of_some mark other closed ?_
    rwa [afterQuote_plain (fun same => ?_) other.ne_backslash] at opened
    rw [same, afterQuote_mark] at opened
    cases opened
  escape mark found opened := by
    obtain ⟨other, closed⟩ := afterQuoted_eq_some found
    rw [afterEscape_kept other.ne_lineFeed] at opened
    exact afterQuote_none_of_some mark other closed opened

end LogConsole.MessageFormat
