import LogConsole.MessageFormat
import Mathlib.Data.List.TakeWhile

/-!
# LogConsole.Proofs.MessageFormat.Patterns

The texts that are masked in a message.

* `Quoted`, `Hexadecimal`, `Number` — the texts of the three kinds;
* `Standing`             — a place between two texts at which a word can stand;
* `afterQuote_eq_some_iff`, `afterHex_eq_some_iff` — where a string or a hexadecimal number is
  found;
* `afterNumber_sound`    — what is found as a number is one that stands as a word;
* `afterNumber_eq_none_iff` — where no number is found: the first run of digits decides;
* `afterNumber_complete` — where a number stands as a word one is found. It may be a longer one.
-/

namespace LogConsole.MessageFormat

open Text (isWord isDigit)

/-! ## Characters -/

theorem isWord_of_isDigit {c : Char} (h : isDigit c = true) : isWord c = true := by
  unfold isDigit at h
  unfold isWord
  split at h
  case isTrue ascii =>
    rw [if_pos ascii]
    simp [Text.isAsciiWord, h]
  case isFalse other =>
    rw [if_neg other]
    simp [h]

theorem isWord_of_isHexDigit {c : Char} (h : isHexDigit c = true) : isWord c = true := by
  have ranges : ('0' ≤ c ∧ c ≤ '9') ∨ ('a' ≤ c ∧ c ≤ 'f') ∨ ('A' ≤ c ∧ c ≤ 'F') := by
    simpa [isHexDigit, or_assoc] using h
  have low : c ≤ 'f' := by
    rcases ranges with ⟨-, h⟩ | ⟨-, h⟩ | ⟨-, h⟩
    · exact Char.le_trans h (by decide)
    · exact h
    · exact Char.le_trans h (by decide)
  have ascii : c.toNat < 128 := Nat.lt_of_le_of_lt (UInt32.le_iff_toNat_le.1 low) (by decide)
  rw [isWord, if_pos ascii]
  rcases ranges with ⟨above, below⟩ | ⟨above, below⟩ | ⟨above, below⟩
  · simp [Text.isAsciiWord, Text.isAsciiDigit, above, below]
  · simp [Text.isAsciiWord, Text.isAsciiLetter, above, Char.le_trans below (by decide : 'f' ≤ 'z')]
  · simp [Text.isAsciiWord, Text.isAsciiLetter, above, Char.le_trans below (by decide : 'F' ≤ 'Z')]

theorem isWord_of_isJoint {c : Char} (h : isJoint c = true) : isWord c = false := by
  have either : c = '.' ∨ c = ':' := by simpa [isJoint] using h
  rcases either with rfl | rfl <;> decide

/-! ## Runs of characters -/

section Runs

variable {p : Char → Bool} {before after : List Char}

theorem takeWhile_run (all : ∀ c ∈ before, p c = true) (stop : ∀ c ∈ after.head?, p c = false) :
    (before ++ after).takeWhile p = before := by
  rw [List.takeWhile_append_of_pos all]
  cases after with
  | nil => simp
  | cons c rest =>
    have first : p c = false := stop c (by simp)
    simp [first]

theorem dropWhile_run (all : ∀ c ∈ before, p c = true) (stop : ∀ c ∈ after.head?, p c = false) :
    (before ++ after).dropWhile p = after := by
  rw [List.dropWhile_append_of_pos all]
  cases after with
  | nil => rfl
  | cons c rest =>
    have first : p c = false := stop c (by simp)
    simp [first]

/-- Where no word goes on, no run of characters of words goes on. -/
theorem stop_of_wordAfter (inWord : ∀ c, p c = true → isWord c = true)
    (h : wordAfter after = false) : ∀ c ∈ after.head?, p c = false := by
  intro c hc
  cases after with
  | nil => cases hc
  | cons d rest =>
    obtain rfl : d = c := by simpa using hc
    cases hp : p d with
    | false => rfl
    | true => exact Bool.noConfusion (h.symm.trans (inWord d hp))

end Runs

/-- A place at which a word stands: the characters around it belong to no word. -/
structure Standing (before : Option Char) (after : List Char) : Prop where
  start : wordBefore before = false
  stop : wordAfter after = false

/-! ## Strings -/

def IsQuote (c : Char) : Prop := c = '"' ∨ c = '\''

instance (c : Char) : Decidable (IsQuote c) := inferInstanceAs (Decidable (_ ∨ _))

/-- What may stand in a string: a backslash keeps the character after it. -/
inductive Inside (quote : Char) : List Char → Prop
  | nil : Inside quote []
  | plain {c : Char} {rest : List Char} (other : c ≠ quote) (noEscape : c ≠ '\\')
      (more : Inside quote rest) : Inside quote (c :: rest)
  | kept {c : Char} {rest : List Char} (sameLine : c ≠ '\n') (more : Inside quote rest) :
      Inside quote ('\\' :: c :: rest)

/-- A quoted string. -/
inductive Quoted : List Char → Prop
  | intro {quote : Char} {inner : List Char} (mark : IsQuote quote) (inside : Inside quote inner) :
      Quoted (quote :: inner ++ [quote])

theorem IsQuote.ne_backslash {quote : Char} (h : IsQuote quote) : quote ≠ '\\' := by
  rcases h with rfl | rfl <;> decide

theorem IsQuote.ne_lineFeed {quote : Char} (h : IsQuote quote) : quote ≠ '\n' := by
  rcases h with rfl | rfl <;> decide

/-- What follows the end of a string if a backslash of it has been read last. -/
def afterEscape (quote : Char) : List Char → Option (List Char)
  | [] => none
  | c :: rest => if c = '\n' then none else afterQuote quote rest

section Reading

variable {quote c : Char} {rest : List Char}

theorem afterQuote_mark : afterQuote quote (quote :: rest) = some rest := by
  cases rest <;> simp [afterQuote]

theorem afterQuote_plain (other : c ≠ quote) (noEscape : c ≠ '\\') :
    afterQuote quote (c :: rest) = afterQuote quote rest := by
  cases rest <;> simp [afterQuote, other, noEscape]

theorem afterQuote_backslash (mark : IsQuote quote) :
    afterQuote quote ('\\' :: rest) = afterEscape quote rest := by
  cases rest <;> simp [afterQuote, afterEscape, mark.ne_backslash.symm]

theorem afterEscape_kept (sameLine : c ≠ '\n') :
    afterEscape quote (c :: rest) = afterQuote quote rest := if_neg sameLine

end Reading

/-- A string ends at the first quote that is not kept. -/
theorem afterQuote_eq_some_iff {quote : Char} (mark : IsQuote quote) {cs after : List Char} :
    afterQuote quote cs = some after ↔
      ∃ inner, Inside quote inner ∧ cs = inner ++ quote :: after := by
  constructor
  · intro h
    fun_induction afterQuote quote cs with
    | case1 => cases h
    | case2 rest =>
      cases h
      exact ⟨[], .nil, rfl⟩
    | case3 => cases h
    | case4 => cases h
    | case5 d rest sameLine other ih =>
      obtain ⟨inner, inside, rfl⟩ := ih h
      exact ⟨'\\' :: d :: inner, .kept sameLine inside, rfl⟩
    | case6 c rest other noEscape ih =>
      obtain ⟨inner, inside, rfl⟩ := ih h
      exact ⟨c :: inner, .plain other noEscape inside, rfl⟩
  · rintro ⟨inner, inside, rfl⟩
    induction inside with
    | nil => exact afterQuote_mark
    | plain other noEscape _ ih => exact (afterQuote_plain other noEscape).trans ih
    | kept sameLine _ ih =>
      exact (afterQuote_backslash mark).trans ((afterEscape_kept sameLine).trans ih)

/-! ## Hexadecimal numbers -/

def Hexadecimal (t : List Char) : Prop :=
  ∃ digits, digits ≠ [] ∧ (∀ d ∈ digits, isHexDigit d = true) ∧ t = '0' :: 'x' :: digits

theorem afterHex_eq_some_iff {before : Option Char} {cs after : List Char} :
    afterHex before cs = some after ↔
      ∃ t, Hexadecimal t ∧ cs = t ++ after ∧ Standing before after := by
  constructor
  · intro h
    unfold afterHex at h
    split at h
    case isTrue => cases h
    case isFalse start =>
      split at h
      case h_2 => cases h
      case h_1 rest =>
        dsimp only at h
        split at h
        case isTrue => cases h
        case isFalse good =>
          cases h
          simp only [Bool.or_eq_true, List.isEmpty_iff, not_or, Bool.not_eq_true] at good start
          refine ⟨'0' :: 'x' :: rest.takeWhile isHexDigit, ⟨_, good.1, ?_, rfl⟩, ?_, start, good.2⟩
          · exact fun d hd => List.mem_takeWhile_imp hd
          · rw [List.cons_append, List.cons_append, List.takeWhile_append_dropWhile]
  · rintro ⟨t, ⟨digits, nonempty, all, rfl⟩, rfl, place⟩
    have stop := stop_of_wordAfter (fun _ => isWord_of_isHexDigit) place.stop
    simp [afterHex, place.start, place.stop, takeWhile_run all stop, dropWhile_run all stop,
      nonempty]

/-! ## Numbers -/

/-- A run of decimal digits, of any script. -/
structure Digits (ds : List Char) : Prop where
  nonempty : ds ≠ []
  all : ∀ d ∈ ds, isDigit d = true

/-- Runs of digits with points and colons between them. -/
inductive Number : List Char → Prop
  | digits {ds : List Char} (run : Digits ds) : Number ds
  | joined {front ds : List Char} {c : Char} (number : Number front) (joint : isJoint c = true)
      (run : Digits ds) : Number (front ++ c :: ds)

theorem digits_takeWhile {c : Char} (digit : isDigit c = true) (rest : List Char) :
    Digits (c :: rest.takeWhile isDigit) where
  nonempty := List.cons_ne_nil _ _
  all := List.forall_mem_cons.2 ⟨digit, fun _ hd => List.mem_takeWhile_imp hd⟩

theorem wordAfter_joint {c : Char} (joint : isJoint c = true) (rest : List Char) :
    wordAfter (c :: rest) = false := isWord_of_isJoint joint

/-- The groups that are skipped are part of the number that they follow, and so are those before the
last of them. -/
theorem skipGroups_sound {front : List Char} (number : Number front)
    (last : Option (List Char)) (cs : List Char) :
    (∃ t, cs = t ++ (skipGroups last cs).2 ∧ Number (front ++ t)) ∧
    ∀ l, (skipGroups last cs).1 = some l → last = some l ∨
      ∃ t, cs = t ++ l ∧ Number (front ++ t) ∧ wordAfter l = false := by
  fun_induction skipGroups last cs generalizing front with
  | case1 last c d rest group _ ih =>
    obtain ⟨joint, digit⟩ := Bool.and_eq_true _ _ ▸ group
    have parts : c :: d :: rest
        = (c :: d :: rest.takeWhile isDigit) ++ rest.dropWhile isDigit := by simp
    have longer : Number (front ++ c :: d :: rest.takeWhile isDigit) :=
      .joined number joint (digits_takeWhile digit rest)
    obtain ⟨⟨t, split, whole⟩, before⟩ := ih longer
    refine ⟨⟨c :: d :: rest.takeWhile isDigit ++ t, ?_, ?_⟩, fun l hl => .inr ?_⟩
    · rw [List.append_assoc, ← split, ← parts]
    · rwa [← List.append_assoc]
    · rcases before l hl with own | ⟨t, split, whole, stop⟩
      · cases own
        exact ⟨[], rfl, by rwa [List.append_nil], wordAfter_joint joint _⟩
      · refine ⟨c :: d :: rest.takeWhile isDigit ++ t, ?_, ?_, stop⟩
        · rw [List.append_assoc, ← split, ← parts]
        · rwa [← List.append_assoc]
  | case2 => exact ⟨⟨[], rfl, by rwa [List.append_nil]⟩, fun l hl => .inl hl⟩
  | case3 => exact ⟨⟨[], rfl, by rwa [List.append_nil]⟩, fun l hl => .inl hl⟩

theorem afterNumber_sound {before : Option Char} {cs after : List Char}
    (h : afterNumber before cs = some after) :
    ∃ t, Number t ∧ cs = t ++ after ∧ Standing before after := by
  unfold afterNumber at h
  split at h
  case isTrue => cases h
  case isFalse start =>
    have start : wordBefore before = false := by simpa using start
    split at h
    case h_2 => cases h
    case h_1 c rest =>
      split at h
      case isFalse => cases h
      case isTrue digit =>
        have parts : c :: rest = (c :: rest.takeWhile isDigit) ++ rest.dropWhile isDigit := by simp
        obtain ⟨⟨t, split, whole⟩, groups⟩ :=
          skipGroups_sound (.digits (digits_takeWhile digit rest)) none (rest.dropWhile isDigit)
        dsimp only at h
        split at h
        case isTrue =>
          rcases groups after h with absent | ⟨t, split, whole, stop⟩
          · cases absent
          · exact ⟨_, whole, by rw [parts, split, List.append_assoc], start, stop⟩
        case isFalse stop =>
          cases h
          refine ⟨_, whole, ?_, start, by simpa using stop⟩
          rw [List.append_assoc, ← split, ← parts]

theorem skipGroups_isSome {last : Option (List Char)} (h : last.isSome = true) (cs : List Char) :
    (skipGroups last cs).1.isSome = true := by
  fun_induction skipGroups last cs with
  | case1 last c d rest group _ ih => exact ih rfl
  | case2 => exact h
  | case3 => exact h

/-- There is no group at the head of a text, or there is one to come back to. -/
theorem skipGroups_cases (cs : List Char) : skipGroups none cs = (none, cs) ∨
    wordAfter cs = false ∧ (skipGroups none cs).1.isSome = true := by
  unfold skipGroups
  split
  case h_1 c d rest =>
    split
    case isTrue group =>
      obtain ⟨joint, -⟩ := Bool.and_eq_true _ _ ▸ group
      exact .inr ⟨wordAfter_joint joint _, skipGroups_isSome rfl _⟩
    case isFalse => exact .inl rfl
  case h_2 => exact .inl rfl

/-- Where the first run of digits runs into a word there is no number; else there is one. -/
theorem afterNumber_eq_none_iff {before : Option Char} {c : Char} {rest : List Char} :
    afterNumber before (c :: rest) = none ↔
      wordBefore before = true ∨ isDigit c = false ∨ wordAfter (rest.dropWhile isDigit) = true := by
  cases start : wordBefore before with
  | true => simp [afterNumber, start]
  | false =>
    cases digit : isDigit c with
    | false => simp [afterNumber, start, digit]
    | true =>
      simp only [afterNumber, start, digit, Bool.false_eq_true, if_false, if_true, false_or,
        Bool.true_eq_false]
      rcases skipGroups_cases (rest.dropWhile isDigit) with nothing | ⟨stop, last⟩
      · rw [nothing]
        split <;> simp_all
      · obtain ⟨l, hl⟩ := Option.isSome_iff_exists.1 last
        rw [hl, stop]
        split <;> simp

theorem Digits.exists_cons {ds : List Char} (h : Digits ds) :
    ∃ d rest, ds = d :: rest ∧ isDigit d = true ∧ ∀ e ∈ rest, isDigit e = true := by
  obtain ⟨d, rest, rfl⟩ := List.exists_cons_of_ne_nil h.nonempty
  obtain ⟨first, others⟩ := List.forall_mem_cons.1 h.all
  exact ⟨d, rest, rfl, first, others⟩

/-- A number starts with a run of digits, which ends with the number or at a point or colon. -/
theorem Number.exists_digits {t : List Char} (h : Number t) :
    ∃ ds rest, Digits ds ∧ t = ds ++ rest ∧ wordAfter rest = false := by
  induction h with
  | digits run => exact ⟨_, [], run, (List.append_nil _).symm, rfl⟩
  | @joined front ds c _ joint _ ih =>
    obtain ⟨es, rest, run, rfl, stop⟩ := ih
    refine ⟨es, rest ++ c :: ds, run, List.append_assoc _ _ _, ?_⟩
    cases rest with
    | nil => exact wordAfter_joint joint ds
    | cons e more => exact stop

/-- Where a number stands as a word, one is found. -/
theorem afterNumber_complete {before : Option Char} {t after : List Char} (number : Number t)
    (place : Standing before after) : afterNumber before (t ++ after) ≠ none := by
  obtain ⟨ds, rest, run, rfl, stop⟩ := number.exists_digits
  obtain ⟨d, more, rfl, digit, others⟩ := run.exists_cons
  have ends : wordAfter (rest ++ after) = false := by
    cases rest with
    | nil => exact place.stop
    | cons e _ => exact stop
  rw [List.append_assoc, List.cons_append, Ne, afterNumber_eq_none_iff,
    dropWhile_run others (stop_of_wordAfter (fun _ => isWord_of_isDigit) ends), place.start, digit,
    ends]
  simp

end LogConsole.MessageFormat
