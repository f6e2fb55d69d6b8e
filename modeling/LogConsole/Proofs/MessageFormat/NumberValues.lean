import LogConsole.Proofs.MessageFormat.NormalForm

/-!
# LogConsole.Proofs.MessageFormat.NumberValues

A format does not tell the values of the numbers in a message.

* `Alike before x y`   — two texts that differ in one run of digits, which stands as a word;
* `Similar a a'`       — what is left of such texts: the run is in it, or it is past;
* `Blind m`            — a matcher takes the same course in both;
* `Blind.masks`        — then so does its pass;
* `blind_afterQuoted`, `blind_afterHex`, `blind_afterNumber` — the three matchers do;
* `formats_ignore_values` — the result.

After the last pass the run cannot be left in the text, since a format has no number in it that
stands as a word.
-/

namespace LogConsole.MessageFormat

open Text (isWord isDigit)

/-- Two texts that differ in one run of digits, which stands as a word. -/
inductive Alike : Option Char → List Char → List Char → Prop
  | here {before : Option Char} {n m t : List Char} (run : Digits n) (other : Digits m)
      (place : Standing before t) : Alike before (n ++ t) (m ++ t)
  | later {before : Option Char} {c : Char} {x y : List Char} (more : Alike (some c) x y) :
      Alike before (c :: x) (c :: y)

/-- What is left of two texts behind a place in them: they still differ in the run, or no more. -/
def Similar (a a' : List Char) : Prop := a = a' ∨ Alike (some '#') a a'

section Alike

variable {before : Option Char} {x y : List Char}

theorem Alike.symm (h : Alike before x y) : Alike before y x := by
  induction h with
  | here run other place => exact .here other run place
  | later _ ih => exact .later ih

theorem Alike.append {p n m t : List Char} (run : Digits n) (other : Digits m)
    (place : Standing (p.getLast?.or before) t) : Alike before (p ++ (n ++ t)) (p ++ (m ++ t)) := by
  induction p generalizing before with
  | nil => exact .here run other place
  | cons c p ih =>
    refine .later (ih ?_)
    rwa [List.getLast?_cons, Option.some_or, ← Option.or_some] at place

theorem Alike.exists_run (h : Alike before x y) : ∃ p n t, x = p ++ n ++ t ∧ Digits n ∧
    Standing (p.getLast?.or before) t := by
  induction h with
  | here run _ place => exact ⟨[], _, _, rfl, run, place⟩
  | @later before c x y _ ih =>
    obtain ⟨p, n, t, rfl, run, place⟩ := ih
    refine ⟨c :: p, n, t, rfl, run, ?_⟩
    rwa [List.getLast?_cons, Option.some_or, ← Option.or_some]

theorem Digits.append_cases {n : List Char} (h : Digits n) (t : List Char) :
    ∃ d more, n ++ t = d :: (more ++ t) ∧ isDigit d = true ∧ ∀ e ∈ more, isDigit e = true := by
  obtain ⟨d, more, rfl, first, others⟩ := h.exists_cons
  exact ⟨d, more, rfl, first, others⟩

theorem Alike.wordAfter_eq (h : Alike before x y) : wordAfter x = wordAfter y := by
  cases h with
  | @here _ n m t run other place =>
    obtain ⟨d, _, shape, first, -⟩ := run.append_cases t
    obtain ⟨e, _, shape', first', -⟩ := other.append_cases t
    rw [shape, shape']
    exact (isWord_of_isDigit first).trans (isWord_of_isDigit first').symm
  | later => rfl

/-- Behind a character that belongs to no word the run can start as well. -/
theorem Alike.behind (h : Alike before x y) {before' : Option Char}
    (start : wordBefore before' = false) : Alike before' x y := by
  cases h with
  | here run other place => exact .here run other ⟨start, place.stop⟩
  | later more => exact .later more

/-- In a word the run does not start. -/
theorem Alike.cases_inside (h : Alike before x y) (inWord : wordBefore before = true) :
    ∃ c x' y', x = c :: x' ∧ y = c :: y' ∧ Alike (some c) x' y' := by
  cases h with
  | here _ _ place => exact Bool.noConfusion (inWord.symm.trans place.start)
  | later more => exact ⟨_, _, _, rfl, rfl, more⟩

/-- What is left of a word is the same in both texts. -/
theorem Alike.drop_word {w a : List Char} (h : Alike before (w ++ a) y)
    (inWord : wordBefore before = true) (chars : ∀ c ∈ w, isWord c = true) :
    ∃ a' last, y = w ++ a' ∧ wordBefore last = true ∧ Alike last a a' := by
  induction w generalizing before y with
  | nil => exact ⟨y, before, rfl, inWord, h⟩
  | cons c w ih =>
    obtain ⟨first, others⟩ := List.forall_mem_cons.1 chars
    obtain ⟨d, x', y', shape, rfl, more⟩ := h.cases_inside inWord
    obtain ⟨rfl, rfl⟩ := List.cons.inj shape
    obtain ⟨a', last, rfl, inside, rest⟩ := ih more first others
    exact ⟨a', last, rfl, inside, rest⟩

end Alike

/-! ## Passes -/

/-- A matcher takes the same course in texts that differ in one run of digits. -/
structure Blind (m : Matcher) : Prop where
  here {before : Option Char} {n k t out out' : List Char} (run : Digits n) (other : Digits k)
    (place : Standing before t) (walk : Masks m before (n ++ t) out)
    (walk' : Masks m before (k ++ t) out') : Similar out out'
  later {before : Option Char} {c : Char} {x y a : List Char} (alike : Alike (some c) x y)
    (found : m before (c :: x) = some a) : ∃ a', m before (c :: y) = some a' ∧ Similar a a'
  behind {before : Option Char} {cs after : List Char} (found : m before cs = some after) :
    after.length < cs.length ∧ m (some '0') after = m (some '#') after

theorem Masks.moved {m : Matcher} {before before' : Option Char} {cs out : List Char}
    (h : Masks m before cs out) (same : m before cs = m before' cs) : Masks m before' cs out := by
  cases h with
  | done => exact .done
  | hit found more => exact .hit (same ▸ found) more
  | keep silent more => exact .keep (same ▸ silent) more

theorem Blind.masks {m : Matcher} (blind : Blind m) {before : Option Char}
    {x y out out' : List Char} (alike : Alike before x y) (walk : Masks m before x out)
    (walk' : Masks m before y out') :
    out = out' ∨ Alike before out out' := by
  -- a match takes the walk further than one character
  induction size : x.length using Nat.strong_induction_on generalizing before x y out out' with
  | _ k ih =>
    subst size
    cases alike with
    | here run other place =>
      exact (blind.here run other place walk walk').imp_right (·.behind place.start)
    | @later _ c x y more =>
      cases walk with
      | hit found walk =>
        obtain ⟨after', found', left⟩ := blind.later more found
        cases walk' with
        | keep silent' _ => cases found'.symm.trans silent'
        | hit found'' walk' =>
          cases found'.symm.trans found''
          rcases left with rfl | alike
          · exact .inl (congrArg _ (walk.unique walk'))
          · obtain ⟨shorter, same⟩ := blind.behind found
            have same' := (blind.behind found').2
            rcases ih _ shorter alike (walk.moved same) (walk'.moved same') rfl with
              rfl | alike
            · exact .inl rfl
            · exact .inr (.later alike)
      | keep silent walk =>
        cases walk' with
        | hit found' _ =>
          obtain ⟨a, found, -⟩ := blind.later more.symm found'
          cases found.symm.trans silent
        | keep silent' walk' =>
          rcases ih _ (Nat.lt_succ_self _) more walk walk' rfl with rfl | alike
          · exact .inl rfl
          · exact .inr (.later alike)

theorem Masks.of_found {m : Matcher} {before : Option Char} {c : Char} {cs after out : List Char}
    (h : Masks m before (c :: cs) out) (found : m before (c :: cs) = some after) :
    ∃ rest, Masks m (some '0') after rest ∧ out = '#' :: rest := by
  cases h with
  | hit found' more =>
    cases found.symm.trans found'
    exact ⟨_, more, rfl⟩
  | keep silent => cases found.symm.trans silent

/-! ### Matchers that are silent along a run -/

/-- A matcher finds nothing at a digit of a run that stands as a word, and outside of words it does
not look at the character before it. -/
structure Silent (m : Matcher) : Prop where
  head {before : Option Char} {n t : List Char} (run : Digits n) (place : Standing before t) :
    m before (n ++ t) = none
  inside {before : Option Char} {d : Char} (digit : isDigit d = true)
    (inWord : wordBefore before = true) (rest : List Char) : m before (d :: rest) = none
  outside {t : List Char} (stop : wordAfter t = false) (before before' : Option Char) :
    m before t = m before' t

section Silent

variable {m : Matcher} (silent : Silent m) {before : Option Char} {n t out : List Char}

include silent

theorem Silent.masks_inside (inWord : wordBefore before = true) (run : ∀ d ∈ n, isDigit d = true)
    (walk : Masks m before (n ++ t) out) : ∃ last rest, Masks m last t rest ∧ out = n ++ rest := by
  induction n generalizing before out with
  | nil => exact ⟨before, out, walk, rfl⟩
  | cons d n ih =>
    obtain ⟨digit, others⟩ := List.forall_mem_cons.1 run
    cases walk with
    | hit found => cases found.symm.trans (silent.inside digit inWord _)
    | keep _ walk =>
      have inWord : wordBefore (some d) = true := isWord_of_isDigit digit
      obtain ⟨last, rest, tail, rfl⟩ := ih inWord others walk
      exact ⟨last, rest, tail, rfl⟩

theorem Silent.masks_run (run : Digits n) (place : Standing before t)
    (walk : Masks m before (n ++ t) out) : ∃ rest, Masks m (some '#') t rest ∧ out = n ++ rest := by
  have head := silent.head run place
  obtain ⟨d, n, rfl, digit, others⟩ := run.exists_cons
  cases walk with
  | hit found => cases found.symm.trans head
  | keep _ walk =>
    have inWord : wordBefore (some d) = true := isWord_of_isDigit digit
    obtain ⟨last, rest, tail, rfl⟩ := silent.masks_inside inWord others walk
    exact ⟨rest, tail.moved (silent.outside place.stop _ _), rfl⟩

theorem Silent.here {k out' : List Char} (run : Digits n) (other : Digits k)
    (place : Standing before t) (walk : Masks m before (n ++ t) out)
    (walk' : Masks m before (k ++ t) out') : Similar out out' := by
  obtain ⟨rest, tail, rfl⟩ := silent.masks_run run place walk
  obtain ⟨rest', tail', rfl⟩ := silent.masks_run other place walk'
  obtain rfl := tail.unique tail'
  exact .inr (.here run other ⟨by decide, tail.wordAfter_false place.stop⟩)

end Silent

/-! ### Strings -/

theorem silent_afterQuoted : Silent afterQuoted where
  head run _ := by
    obtain ⟨d, n, rfl, digit, -⟩ := run.exists_cons
    exact if_neg (plain_of_isWord (isWord_of_isDigit digit)).quote
  inside digit _ _ := if_neg (plain_of_isWord (isWord_of_isDigit digit)).quote
  outside {t} _ _ _ := by cases t <;> rfl

theorem afterQuote_alike {q : Char} (mark : IsQuote q) {before : Option Char} {x y : List Char}
    (alike : Alike before x y) :
    (∀ a, afterQuote q x = some a → ∃ a', afterQuote q y = some a' ∧ Similar a a') ∧
    (∀ a, afterEscape q x = some a → ∃ a', afterEscape q y = some a' ∧ Similar a a') := by
  induction alike with
  | @here before n k t run other place =>
    have plain {n : List Char} (run : Digits n) :
        afterQuote q (n ++ t) = afterQuote q t ∧ afterEscape q (n ++ t) = afterQuote q t := by
      have all : ∀ d ∈ n, Plain d := fun d hd => plain_of_isWord (isWord_of_isDigit (run.all d hd))
      refine ⟨afterQuote_append_plain mark all t, ?_⟩
      obtain ⟨d, n, rfl, -, -⟩ := run.exists_cons
      obtain ⟨first, others⟩ := List.forall_mem_cons.1 all
      rw [List.cons_append, afterEscape_kept first.sameLine, afterQuote_append_plain mark others]
    rw [(plain run).1, (plain run).2, (plain other).1, (plain other).2]
    exact ⟨fun a h => ⟨a, h, .inl rfl⟩, fun a h => ⟨a, h, .inl rfl⟩⟩
  | @later before c x y more ih =>
    constructor
    · by_cases same : c = q
      · subst same
        rw [afterQuote_mark, afterQuote_mark]
        rintro _ ⟨rfl⟩
        exact ⟨y, rfl, .inr (more.behind (by decide))⟩
      · by_cases escape : c = '\\'
        · subst escape
          rw [afterQuote_backslash mark, afterQuote_backslash mark]
          exact ih.2
        · rw [afterQuote_plain same escape, afterQuote_plain same escape]
          exact ih.1
    · by_cases line : c = '\n'
      · intro a h
        cases (if_pos line).symm.trans h
      · rw [afterEscape_kept line, afterEscape_kept line]
        exact ih.1

theorem blind_afterQuoted : Blind afterQuoted where
  here := silent_afterQuoted.here
  later alike found := by
    obtain ⟨mark, closed⟩ := afterQuoted_eq_some found
    obtain ⟨a', closed', left⟩ := (afterQuote_alike mark alike).1 _ closed
    exact ⟨a', (if_pos mark).trans closed', left⟩
  behind {before cs after} found := by
    cases cs with
    | nil => cases found
    | cons c rest =>
      refine ⟨?_, by cases after <;> rfl⟩
      exact Nat.lt_succ_of_lt (length_afterQuote (afterQuoted_eq_some found).2)

/-! ### Words -/

theorem Words.behind {m : Matcher} (words : Words m) {before : Option Char} {cs after : List Char}
    (found : m before cs = some after) : m (some '0') after = m (some '#') after := by
  have stop := (words.found found).1.stop
  rw [words.outside stop, words.outside stop]

theorem Words.silent {m : Matcher} (words : Words m) (head : ∀ {before : Option Char}
    {n t : List Char}, Digits n → Standing before t → m before (n ++ t) = none) : Silent m where
  head := head
  inside _ inWord _ := words.inside inWord _
  outside stop before before' := (words.outside stop before).trans (words.outside stop before').symm

/-- Behind a match, the run does not start at once. -/
theorem Alike.similar {last before : Option Char} {a a' : List Char} (alike : Alike last a a')
    (place : Standing before a) : Standing before a' ∧ Similar a a' :=
  ⟨⟨place.start, alike.wordAfter_eq ▸ place.stop⟩, .inr (alike.behind (by decide))⟩

theorem silent_afterHex : Silent afterHex :=
  words_afterHex.silent fun {before n t} run place => by
    cases found : afterHex before (n ++ t) with
    | none => rfl
    | some after =>
      obtain ⟨w, ⟨digits, -, -, rfl⟩, parts, -⟩ := afterHex_eq_some_iff.1 found
      -- only a single zero could come before the letter, which then goes on with the word
      have tail := dropWhile_run run.all (stop_of_wordAfter (fun _ => isWord_of_isDigit) place.stop)
      rw [parts] at tail
      have letter : t = 'x' :: (digits ++ after) := tail.symm
      have stop := place.stop
      rw [letter] at stop
      exact absurd stop (by decide : isWord 'x' ≠ false)

theorem blind_afterHex : Blind afterHex where
  here := silent_afterHex.here
  later {before c x y a} alike found := by
    obtain ⟨w, hex, parts, place⟩ := afterHex_eq_some_iff.1 found
    obtain ⟨digits, -, all, rfl⟩ := id hex
    obtain ⟨rfl, rfl⟩ := List.cons.inj parts
    have chars : ∀ c ∈ 'x' :: digits, isWord c = true :=
      List.forall_mem_cons.2 ⟨by decide, fun d hd => isWord_of_isHexDigit (all d hd)⟩
    obtain ⟨a', last, rfl, -, rest⟩ := alike.drop_word (by decide : isWord '0' = true) chars
    obtain ⟨place', left⟩ := rest.similar place
    exact ⟨a', afterHex_eq_some_iff.2 ⟨_, hex, rfl, place'⟩, left⟩
  behind found := ⟨length_afterHex found, words_afterHex.behind found⟩

/-! ### Numbers -/

/-- What is left of two texts in a word: the same, or the run comes later. -/
def Level (u v : List Char) : Prop := u = v ∨ ∃ before, wordBefore before = true ∧ Alike before u v

theorem Level.similar {u v : List Char} (h : Level u v) : Similar u v := by
  rcases h with rfl | ⟨before, inWord, alike⟩
  · exact .inl rfl
  · exact .inr (alike.behind (by decide))

theorem Alike.level_digits {before : Option Char} {x y : List Char} (alike : Alike before x y)
    (inWord : wordBefore before = true) : Level (x.dropWhile isDigit) (y.dropWhile isDigit) := by
  induction alike with
  | here _ _ place => exact Bool.noConfusion (inWord.symm.trans place.start)
  | @later before c x y more ih =>
    cases digit : isDigit c with
    | true =>
      rw [List.dropWhile_cons_of_pos digit, List.dropWhile_cons_of_pos digit]
      exact ih (isWord_of_isDigit digit)
    | false =>
      have other : ¬ isDigit c = true := by rw [digit]; decide
      rw [List.dropWhile_cons_of_neg other, List.dropWhile_cons_of_neg other]
      exact .inr ⟨before, inWord, .later more⟩

/-- A point or colon and a digit. -/
def Group (u : List Char) : Prop :=
  ∃ c d rest, u = c :: d :: rest ∧ isJoint c = true ∧ isDigit d = true

theorem skipGroups_group {c d : Char} (joint : isJoint c = true) (digit : isDigit d = true)
    (last : Option (List Char)) (rest : List Char) : skipGroups last (c :: d :: rest)
      = skipGroups (some (c :: d :: rest)) (rest.dropWhile isDigit) := by
  rw [skipGroups, joint, digit, Bool.and_self, if_pos rfl]

theorem skipGroups_end {u : List Char} (stop : ¬ Group u) (last : Option (List Char)) :
    skipGroups last u = (last, u) := by
  unfold skipGroups
  split
  case h_1 c d rest =>
    refine if_neg fun group => stop ?_
    obtain ⟨joint, digit⟩ := Bool.and_eq_true _ _ ▸ group
    exact ⟨c, d, rest, rfl, joint, digit⟩
  case h_2 => rfl

theorem not_group_of_joint {c : Char} (h : isJoint c = false) (rest : List Char) :
    ¬ Group (c :: rest) := by
  rintro ⟨_, _, _, shape, joint, -⟩
  rw [← (List.cons.inj shape).1, h] at joint
  cases joint

theorem not_group_of_digit {c d : Char} (h : isDigit d = false) (rest : List Char) :
    ¬ Group (c :: d :: rest) := by
  rintro ⟨_, _, _, shape, -, digit⟩
  rw [← (List.cons.inj (List.cons.inj shape).2).1, h] at digit
  cases digit

/-- In both texts a group comes next, or in none of them. -/
theorem Level.groups {u v : List Char} (level : Level u v) :
    (¬ Group u ∧ ¬ Group v) ∨
    ∃ c d e rest rest', u = c :: d :: rest ∧ v = c :: e :: rest' ∧ isJoint c = true ∧
      isDigit d = true ∧ isDigit e = true ∧
      Level (rest.dropWhile isDigit) (rest'.dropWhile isDigit) := by
  rcases level with rfl | ⟨before, inWord, alike⟩
  · by_cases group : Group u
    · obtain ⟨c, d, rest, rfl, joint, digit⟩ := group
      exact .inr ⟨c, d, d, rest, rest, rfl, rfl, joint, digit, digit, .inl rfl⟩
    · exact .inl ⟨group, group⟩
  · obtain ⟨c, u, v, rfl, rfl, more⟩ := alike.cases_inside inWord
    cases joint : isJoint c with
    | false => exact .inl ⟨not_group_of_joint joint u, not_group_of_joint joint v⟩
    | true =>
      cases more with
      | here run other place =>
        -- the run is the group's, and both texts are level behind it
        have stop := stop_of_wordAfter (fun _ => isWord_of_isDigit) place.stop
        obtain ⟨d, n, rfl, digit, all⟩ := run.exists_cons
        obtain ⟨e, k, rfl, digit', all'⟩ := other.exists_cons
        refine .inr ⟨c, d, e, _, _, rfl, rfl, joint, digit, digit', .inl ?_⟩
        exact (dropWhile_run all stop).trans (dropWhile_run all' stop).symm
      | @later _ d x y more =>
        cases digit : isDigit d with
        | true =>
          exact .inr ⟨c, d, d, x, y, rfl, rfl, joint, digit, digit,
            more.level_digits (isWord_of_isDigit digit)⟩
        | false => exact .inl ⟨not_group_of_digit digit x, not_group_of_digit digit y⟩

theorem skipGroups_level {last last' : Option (List Char)} (marks : Option.Rel Similar last last')
    {u v : List Char} (level : Level u v) :
    Option.Rel Similar (skipGroups last u).1 (skipGroups last' v).1 ∧
      Level (skipGroups last u).2 (skipGroups last' v).2 := by
  induction size : u.length using Nat.strong_induction_on generalizing last last' u v with
  | _ k ih =>
    subst size
    rcases level.groups with
      ⟨stop, stop'⟩ | ⟨c, d, e, rest, rest', rfl, rfl, joint, digit, digit', next⟩
    · rw [skipGroups_end stop, skipGroups_end stop']
      exact ⟨marks, level⟩
    · rw [skipGroups_group joint digit, skipGroups_group joint digit']
      refine ih _ ?_ (.some level.similar) next rfl
      exact Nat.lt_succ_of_le (Nat.le_succ_of_le (List.dropWhile_sublist _).length_le)

/-- Behind the first run of digits of a number its groups come. -/
def afterDigits (u : List Char) : Option (List Char) :=
  if wordAfter (skipGroups none u).2 then (skipGroups none u).1 else some (skipGroups none u).2

theorem afterNumber_digit {before : Option Char} (start : wordBefore before = false) {c : Char}
    (digit : isDigit c = true) (rest : List Char) :
    afterNumber before (c :: rest) = afterDigits (rest.dropWhile isDigit) := by
  simp [afterNumber, start, digit, afterDigits]

theorem afterNumber_run {before : Option Char} {n t : List Char} (run : Digits n)
    (place : Standing before t) : afterNumber before (n ++ t) = afterDigits t := by
  have stop := stop_of_wordAfter (fun _ => isWord_of_isDigit) place.stop
  obtain ⟨d, n, rfl, digit, others⟩ := run.exists_cons
  rw [List.cons_append, afterNumber_digit place.start digit, dropWhile_run others stop]

theorem Level.afterDigits {u v a : List Char} (level : Level u v)
    (found : MessageFormat.afterDigits u = some a) :
    ∃ a', MessageFormat.afterDigits v = some a' ∧ Similar a a' := by
  obtain ⟨marks, tails⟩ := skipGroups_level .none level
  have same : wordAfter (skipGroups none u).2 = wordAfter (skipGroups none v).2 := by
    rcases tails with same | ⟨_, _, alike⟩
    · rw [same]
    · exact alike.wordAfter_eq
  unfold MessageFormat.afterDigits at found ⊢
  rw [← same]
  split at found
  case isTrue =>
    rw [if_pos ‹_›]
    rw [found] at marks
    cases h : (skipGroups none v).1 with
    | none =>
      rw [h] at marks
      cases marks
    | some a' =>
      rw [h] at marks
      cases marks with
      | some similar => exact ⟨a', rfl, similar⟩
  case isFalse =>
    rw [if_neg ‹_›]
    cases found
    exact ⟨_, rfl, tails.similar⟩

theorem blind_afterNumber : Blind afterNumber where
  here {before n k t out out'} run other place walk walk' := by
    cases found : afterDigits t with
    | none =>
      have silent := (afterNumber_run run place).trans found
      exact absurd silent (afterNumber_complete (.digits run) place)
    | some after =>
      have hit := (afterNumber_run run place).trans found
      have hit' := (afterNumber_run other place).trans found
      obtain ⟨d, n, rfl, -⟩ := run.exists_cons
      obtain ⟨e, k, rfl, -⟩ := other.exists_cons
      obtain ⟨rest, tail, rfl⟩ := walk.of_found hit
      obtain ⟨rest', tail', rfl⟩ := walk'.of_found hit'
      exact .inl (congrArg _ (tail.unique tail'))
  later {before c x y a} alike found := by
    obtain ⟨place, -, -⟩ := words_afterNumber.found found
    cases digit : isDigit c with
    | false => cases found.symm.trans (afterNumber_eq_none_iff.2 (.inr (.inl digit)))
    | true =>
      rw [afterNumber_digit place.start digit] at found ⊢
      exact (alike.level_digits (isWord_of_isDigit digit)).afterDigits found
  behind found := ⟨length_afterNumber found, words_afterNumber.behind found⟩

/-! ## The result -/

/-- A run of digits that stands as a word is not left in a format. -/
theorem Normal.not_alike {x y : List Char} (normal : Normal x) : ¬ Alike none x y := by
  intro alike
  obtain ⟨p, n, t, rfl, run, place⟩ := alike.exists_run
  rw [Option.or_none] at place
  exact normal.numbers p n t rfl ⟨place, .digits run⟩

theorem messageFormat_of_alike {body body' : String} (alike : Alike none body.toList body'.toList) :
    messageFormat body = messageFormat body' := by
  have quoted := masks_maskQuoted none
  have hex := masks_maskHex none
  have numbers := masks_maskNumbers none
  have normal := normal_messageFormat body
  rw [toList_messageFormat] at normal
  rw [← String.toList_inj, toList_messageFormat, toList_messageFormat]
  rcases blind_afterQuoted.masks alike (quoted _) (quoted _) with same | alike
  · rw [same]
  rcases blind_afterHex.masks alike (hex _) (hex _) with same | alike
  · rw [same]
  rcases blind_afterNumber.masks alike (numbers _) (numbers _) with same | alike
  · exact same
  · exact absurd alike normal.not_alike

/-- **A format does not tell the values of numbers.** Wherever a run of digits stands as a word, in
a string or behind a backslash, alone or as a part of a longer number, the format of the message is
the same with any other run of digits in its place. -/
theorem formats_ignore_values {p n m t : String} (run : Digits n.toList) (other : Digits m.toList)
    (place : Standing p.toList.getLast? t.toList) :
    messageFormat (p ++ n ++ t) = messageFormat (p ++ m ++ t) := by
  refine messageFormat_of_alike ?_
  simp only [String.toList_append, List.append_assoc]
  exact .append run other (by rwa [Option.or_none])

/-- Behind a backslash in a string that is not closed, and the first part of a longer number. -/
theorem formats_ignore_values_in_string :
    messageFormat ("it's \\" ++ "7" ++ ".5:x") = messageFormat ("it's \\" ++ "0042" ++ ".5:x") :=
  formats_ignore_values ⟨by decide, List.all_eq_true.1 (by decide)⟩
    ⟨by decide, List.all_eq_true.1 (by decide)⟩ ⟨by decide, by decide⟩

end LogConsole.MessageFormat
