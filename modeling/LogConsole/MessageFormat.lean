import LogConsole.Text.Category

/-!
# LogConsole.MessageFormat

The shape of a log message: the message with its variable parts masked by `#`.

* `maskQuoted`  — quoted strings, in which a backslash keeps the next character from closing
  them; a line feed cannot be kept so;
* `maskHex`     — `0x` and hexadecimal digits that stand as a word;
* `maskNumbers` — runs of decimal digits, also several with points or colons between them, that
  stand as a word;
* `messageFormat` — the three in this order, each over the whole text.
-/

namespace LogConsole.MessageFormat

/-! ## Quoted strings -/

/-- What follows the end of a string that `quote` has opened; none if it is not closed. -/
def afterQuote (quote : Char) : List Char → Option (List Char)
  | [] => none
  | c :: rest =>
    if c = quote then some rest
    else if c = '\\' then
      match rest with
      | [] => none
      | d :: rest => if d = '\n' then none else afterQuote quote rest
    else afterQuote quote rest

theorem length_afterQuote {quote : Char} {cs after : List Char}
    (h : afterQuote quote cs = some after) : after.length < cs.length := by
  fun_induction afterQuote quote cs with
  | case1 => simp at h
  | case2 => simp at h; simp [h]
  | case3 => simp at h
  | case4 => simp at h
  | case5 _ _ _ _ ih => have := ih h; simp; omega
  | case6 _ _ _ _ ih => have := ih h; simp; omega

def maskQuoted : List Char → List Char
  | [] => []
  | c :: rest =>
    if c = '"' ∨ c = '\'' then
      match h : afterQuote c rest with
      | some after =>
        have := length_afterQuote h
        '#' :: maskQuoted after
      | none => c :: maskQuoted rest
    else c :: maskQuoted rest
termination_by cs => cs.length
decreasing_by all_goals (simp only [List.length_cons] at *; omega)

/-! ## Words -/

/-- Whether the character before a place, if there is one, belongs to a word. -/
def wordBefore : Option Char → Bool
  | none => false
  | some c => Text.isWord c

/-- Whether the text from a place on starts with a character of a word. -/
def wordAfter : List Char → Bool
  | [] => false
  | c :: _ => Text.isWord c

/-! ## Hexadecimal numbers -/

def isHexDigit (c : Char) : Bool :=
  ('0' ≤ c && c ≤ '9') || ('a' ≤ c && c ≤ 'f') || ('A' ≤ c && c ≤ 'F')

/-- What follows a hexadecimal number that stands as a word at the head of the text. -/
def afterHex (before : Option Char) (cs : List Char) : Option (List Char) :=
  if wordBefore before then none
  else
    match cs with
    | '0' :: 'x' :: rest =>
      let after := rest.dropWhile isHexDigit
      if (rest.takeWhile isHexDigit).isEmpty || wordAfter after then none else some after
    | _ => none

theorem length_afterHex {before : Option Char} {cs after : List Char}
    (h : afterHex before cs = some after) : after.length < cs.length := by
  unfold afterHex at h
  split at h
  · simp at h
  · split at h
    · rename_i rest
      have := (List.dropWhile_sublist isHexDigit (l := rest)).length_le
      simp only at h
      split at h
      · simp at h
      · simp at h
        subst h
        simp
        omega
    · simp at h

/-- `before` is the character before the text. -/
def maskHex (before : Option Char) : List Char → List Char
  | [] => []
  | c :: rest =>
    match h : afterHex before (c :: rest) with
    | some after =>
      have := length_afterHex h
      '#' :: maskHex (some '0') after
    | none => c :: maskHex (some c) rest
termination_by cs => cs.length
decreasing_by all_goals (simp only [List.length_cons] at *; omega)

/-! ## Decimal numbers -/

def isJoint (c : Char) : Bool := c == '.' || c == ':'

/-- The text after the groups, a point or colon and digits each, at its head, and the text
before the last of them if there is one. -/
def skipGroups (last : Option (List Char)) (cs : List Char) : Option (List Char) × List Char :=
  match cs with
  | c :: d :: rest =>
    if isJoint c && Text.isDigit d then
      have : (rest.dropWhile Text.isDigit).length < (c :: d :: rest).length := by
        have := (List.dropWhile_sublist Text.isDigit (l := rest)).length_le
        simp
        omega
      skipGroups (some (c :: d :: rest)) (rest.dropWhile Text.isDigit)
    else (last, cs)
  | cs => (last, cs)
termination_by cs.length
decreasing_by all_goals (simp only [List.length_cons] at *; omega)

/-- What follows a number that stands as a word at the head of the text. A last group that runs
into a word does not belong to the number. -/
def afterNumber (before : Option Char) (cs : List Char) : Option (List Char) :=
  if wordBefore before then none
  else
    match cs with
    | c :: rest =>
      if Text.isDigit c then
        let (last, after) := skipGroups none (rest.dropWhile Text.isDigit)
        if wordAfter after then last else some after
      else none
    | [] => none

theorem length_skipGroups (last : Option (List Char)) (cs : List Char) (n : Nat)
    (hl : ∀ l, last = some l → l.length ≤ n) (hc : cs.length ≤ n) :
    (∀ l, (skipGroups last cs).1 = some l → l.length ≤ n) ∧ (skipGroups last cs).2.length ≤ n := by
  fun_induction skipGroups last cs with
  | case1 last c d rest h this ih =>
    apply ih
    · intro l hl'
      simp at hl'
      subst hl'
      exact hc
    · omega
  | case2 => exact ⟨hl, hc⟩
  | case3 => exact ⟨hl, hc⟩

theorem length_afterNumber {before : Option Char} {cs after : List Char}
    (h : afterNumber before cs = some after) : after.length < cs.length := by
  unfold afterNumber at h
  split at h
  · simp at h
  · split at h
    · next c rest =>
      split at h
      · have hd := (List.dropWhile_sublist Text.isDigit (l := rest)).length_le
        have := length_skipGroups none (rest.dropWhile Text.isDigit) rest.length (by simp) hd
        simp only at h
        split at h
        · have := this.1 _ h
          simp
          omega
        · simp at h
          have := this.2
          rw [h] at this
          simp
          omega
      · simp at h
    · simp at h

/-- `before` is the character before the text. -/
def maskNumbers (before : Option Char) : List Char → List Char
  | [] => []
  | c :: rest =>
    match h : afterNumber before (c :: rest) with
    | some after =>
      have := length_afterNumber h
      '#' :: maskNumbers (some '0') after
    | none => c :: maskNumbers (some c) rest
termination_by cs => cs.length
decreasing_by all_goals (simp only [List.length_cons] at *; omega)

end LogConsole.MessageFormat

namespace LogConsole

/-- The message with quoted strings, hexadecimal numbers and numbers masked. -/
def messageFormat (body : String) : String :=
  String.ofList
    (MessageFormat.maskNumbers none
      (MessageFormat.maskHex none (MessageFormat.maskQuoted body.toList)))

end LogConsole
