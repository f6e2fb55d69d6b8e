import LogConsole.Proofs.Expansion.Literal

/-!
# LogConsole.Proofs.Expansion.DoubleQuotes

A variable reference in double quotes.

* `Expansion.IsName`      — a name that can stand after a dollar sign without braces;
* `expand_reference`      — the value stands in the expanded text as it is, between the quotes;
* `Words.Inert`           — that a text is not changed by double quotes: it has no double quote, and
  no backslash that the quotes take away or that would take the closing quote;
* `splitFrom_double_inert` — such a text is read back from its quotes, and no other text is.

The value is read a second time when the words are split, so the reference is one word with the
value in it if and only if the value is inert: `quoted_reference_iff_inert`. The converse goes by
lengths, as for `Words.Literal`.
-/

namespace LogConsole

namespace Words

variable {c : Char} {cs word : List Char} {ws : List String}

/-- The characters before which double quotes take a backslash away. -/
def IsEscapable (c : Char) : Prop := c = '$' ∨ c = '\x60' ∨ c = '"' ∨ c = '\\' ∨ c = '\n'

instance (c : Char) : Decidable (IsEscapable c) := by
  unfold IsEscapable
  infer_instance

/-- That a text stands for itself between double quotes. -/
structure Inert (cs : List Char) : Prop where
  noQuote : '"' ∉ cs
  backslashes : ∀ rest, '\\' :: rest <:+ cs → ∃ c ∈ rest.head?, ¬ IsEscapable c

theorem inert_nil : Inert [] := by
  refine ⟨List.not_mem_nil, fun rest hs => ?_⟩
  cases List.suffix_nil.1 hs

theorem inert_cons :
    Inert (c :: cs) ↔
      c ≠ '"' ∧ (c = '\\' → ∃ d ∈ cs.head?, ¬ IsEscapable d) ∧ Inert cs := by
  constructor
  · rintro ⟨noQuote, backslashes⟩
    obtain ⟨hc, hcs⟩ := Expansion.not_mem_cons_iff.1 noQuote
    refine ⟨hc, ?_, hcs, fun rest hs => backslashes rest (hs.trans (List.suffix_cons c cs))⟩
    rintro rfl
    exact backslashes cs (List.suffix_refl _)
  · rintro ⟨hc, hback, noQuote, backslashes⟩
    refine ⟨Expansion.not_mem_cons_iff.2 ⟨hc, noQuote⟩, fun rest hs => ?_⟩
    rcases List.suffix_cons_iff.1 hs with he | hs
    · obtain ⟨rfl, rfl⟩ := List.cons_eq_cons.1 he
      exact hback rfl
    · exact backslashes rest hs

-- Named, as the one of `IsName` below is, because the characters can also be tried out one by one.
instance decidableHead : (cs : List Char) → Decidable (∃ d ∈ cs.head?, ¬ IsEscapable d)
  | [] => isFalse (by simp)
  | d :: _ => decidable_of_iff (¬ IsEscapable d) (by simp)

instance decidableInert : (cs : List Char) → Decidable (Inert cs)
  | [] => isTrue inert_nil
  | c :: cs =>
    have := decidableHead cs
    have := decidableInert cs
    decidable_of_iff (c ≠ '"' ∧ (c = '\\' → ∃ d ∈ cs.head?, ¬ IsEscapable d) ∧ Inert cs)
      inert_cons.symm

theorem doubleEscapeStep_kept (h : ¬ IsEscapable c) (word : List Char) :
    doubleEscapeStep word c = c :: '\\' :: word := by
  simp only [IsEscapable, not_or] at h
  obtain ⟨hdollar, htick, hquote, hback, hline⟩ := h
  simp [doubleEscapeStep, hdollar, htick, hquote, hback, hline]

/-- A backslash before one of those characters is lost. -/
theorem length_doubleEscapeStep_escapable (h : IsEscapable c) (word : List Char) :
    (doubleEscapeStep word c).length ≤ word.length + 1 := by
  unfold doubleEscapeStep
  by_cases hline : c = '\n'
  · simp [hline]
  · have hkept : c = '$' ∨ c = '\x60' ∨ c = '"' ∨ c = '\\' := by
      simpa only [IsEscapable, hline, or_false] using h
    rw [if_neg hline, if_pos hkept, List.length_cons]

/-- What double quotes make of an inert text: nothing. -/
theorem splitFrom_double_of_inert (h : Inert cs) :
    ∀ word, splitFrom (.double word) (cs ++ ['"']) = some [String.ofList (word.reverse ++ cs)] := by
  -- two characters are read at once after a backslash
  induction hn : cs.length using Nat.strong_induction_on generalizing cs with
  | _ n ih =>
    intro word
    cases cs with
    | nil => simp [splitFrom]
    | cons c cs =>
      obtain ⟨hc, hback, hcs⟩ := inert_cons.1 h
      by_cases hb : c = '\\'
      · subst hb
        obtain ⟨d, hd, kept⟩ := hback rfl
        obtain ⟨cs, rfl⟩ := List.head?_eq_some_iff.1 hd
        have hrest := ih cs.length (by simp only [List.length_cons] at hn; omega)
          (inert_cons.1 hcs).2.2 rfl (d :: '\\' :: word)
        rw [List.cons_append, List.cons_append, splitFrom, if_neg hc, if_pos rfl, splitFrom,
          doubleEscapeStep_kept kept, hrest]
        simp
      · have hrest := ih cs.length (by simp only [List.length_cons] at hn; omega) hcs rfl (c :: word)
        rw [List.cons_append, splitFrom, if_neg hc, if_neg hb, hrest]
        simp

/-- A text that does not lose a character in double quotes is inert. -/
theorem inert_of_total (h : splitFrom (.double word) (cs ++ ['"']) = some ws)
    (hlen : word.length + cs.length ≤ total ws) : Inert cs := by
  induction hn : cs.length using Nat.strong_induction_on generalizing cs word with
  | _ n ih =>
    cases cs with
    | nil => exact inert_nil
    | cons c cs =>
      rw [List.length_cons] at hlen hn
      simp only [List.cons_append, splitFrom] at h
      by_cases hc : c = '"'
      · -- the quotation ends here, and the closing quote opens another one
        rw [if_pos hc] at h
        have hquote : IsLiteral '"' := literal_of_total_plain h (by simpa using hlen) '"' (by simp)
        exact absurd rfl hquote.2.2.1
      rw [if_neg hc] at h
      by_cases hb : c = '\\'
      · rw [if_pos hb] at h
        cases cs with
        | nil =>
          -- the closing quote is escaped
          simp [splitFrom] at h
        | cons d cs =>
          simp only [List.cons_append, splitFrom] at h
          simp only [List.length_cons] at hlen hn
          by_cases hd : IsEscapable d
          · have hshort := total_add_owed_le h
            have hlost := length_doubleEscapeStep_escapable hd word
            simp only [State.owed, State.held, List.length_append, List.length_singleton] at hshort
            omega
          · rw [doubleEscapeStep_kept hd] at h
            have hcs := ih cs.length (by omega) h (by simp only [List.length_cons]; omega) rfl
            have hquote : d ≠ '"' := fun he => hd (by simp [IsEscapable, he])
            have hslash : d ≠ '\\' := fun he => hd (by simp [IsEscapable, he])
            exact inert_cons.2 ⟨hc, fun _ => ⟨d, rfl, hd⟩,
              inert_cons.2 ⟨hquote, fun he => absurd he hslash, hcs⟩⟩
      · rw [if_neg hb] at h
        have hcs := ih cs.length (by omega) h (by rw [List.length_cons]; omega) rfl
        exact inert_cons.2 ⟨hc, fun he => absurd he hb, hcs⟩

/-- A text is read back from its double quotes if and only if it is inert. -/
theorem splitFrom_double_inert :
    splitFrom (.double []) (cs ++ ['"']) = some [String.ofList cs] ↔ Inert cs := by
  constructor
  · intro h
    exact inert_of_total h (by simp [total])
  · intro h
    simpa using splitFrom_double_of_inert h []

end Words

namespace Expansion

/-- A name that can stand after a dollar sign without braces. -/
def IsName (name : String) : Prop :=
  name = "#" ∨ name ≠ "" ∧ ∀ c ∈ name.toList, isNameChar c = true

instance (name : String) : Decidable (IsName name) :=
  have := List.decidableBAll (fun c => isNameChar c = true) name.toList
  inferInstanceAs (Decidable (name = "#" ∨ name ≠ "" ∧ ∀ c ∈ name.toList, isNameChar c = true))

/-- The reference to a name, before a character that is no part of a name. -/
theorem exists_reference {name : String} (named : IsName name) :
    ∃ p : Piece, p.spelling = '$' :: name.toList ∧ p.name? = some name.toList ∧
      ∀ inDouble c rest, isNameChar c = false → p.Fits inDouble (c :: rest) := by
  obtain rfl | ⟨given, chars⟩ := named
  · exact ⟨.count, rfl, rfl, fun _ _ _ _ => trivial⟩
  · refine ⟨.named name.toList, rfl, rfl, fun _ c rest hc => ?_⟩
    refine ⟨fun he => given (String.toList_eq_nil_iff.1 he), chars, ?_⟩
    rintro d hd
    cases hd
    exact hc

/-- The line that has a reference in double quotes as its second word. -/
def referenceLine (name : String) : String := "s \"$" ++ name ++ "\""

/-- A value stands in the expanded text as it is. -/
theorem expand_reference (lookup : String → Option String) {name : String} (named : IsName name) :
    expand lookup (referenceLine name) = .ok ("s \"" ++ (lookup name).getD "" ++ "\"") := by
  obtain ⟨p, spelled, referred, fits⟩ := exists_reference named
  let pieces : List Piece := [.plain 's', .plain ' ', .plain '"', p, .plain '"']
  have plain : ∀ c ∈ ['s', ' ', '"'], c ≠ '\'' ∧ c ≠ '\\' ∧ c ≠ '$' := by simp
  have fit : ∀ c ∈ ['s', ' ', '"'], ∀ inDouble rest, (Piece.plain c).Fits inDouble rest := by
    intro c hc inDouble rest
    obtain ⟨hquote, hback, hdollar⟩ := plain c hc
    exact ⟨fun he => absurd he hquote, fun he => absurd he hback, fun he => absurd he hdollar⟩
  have spells : spell pieces ++ unread none = (referenceLine name).toList := by
    have cut : spell pieces ++ unread none = 's' :: ' ' :: '"' :: (p.spelling ++ ['"']) := by
      simp only [pieces, spell, List.flatMap_cons, List.flatMap_nil, unread, List.append_nil]
      rfl
    rw [cut, spelled]
    simp [referenceLine]
  let r : Reading false (referenceLine name).toList :=
    { pieces, unclosed := none, spells, never := by rintro _ ⟨⟩
      allFit := ⟨fit _ (by simp) _ _, fit _ (by simp) _ _, fit _ (by simp) _ _,
        fits _ _ _ (by decide), fit _ (by simp) _ _, trivial⟩ }
  have value : p.value lookup = ((lookup name).getD "").toList := by
    rw [Piece.value, referred]
    simp
  have values : pieces.flatMap (Piece.value lookup)
      = 's' :: ' ' :: '"' :: (((lookup name).getD "").toList ++ ['"']) := by
    simp only [pieces, List.flatMap_cons, List.flatMap_nil, value, List.append_nil]
    rfl
  have closed : r.expansion lookup = .ok (String.ofList (pieces.flatMap (Piece.value lookup))) := rfl
  rw [r.expand_eq_expansion lookup, closed, values]
  congr 1
  rw [← String.toList_inj]
  simp

end Expansion

namespace Words

open Expansion (IsName referenceLine expand_reference)

theorem split_quoted (value : String) :
    split ("s \"" ++ value ++ "\"")
      = (splitFrom (.double []) (value.toList ++ ['"'])).map ("s" :: ·) := by
  have chars : ("s \"" ++ value ++ "\"").toList = 's' :: ' ' :: '"' :: (value.toList ++ ['"']) := by
    simp
  rw [split, chars]
  simp [splitFrom, plainStep, isSeparator]

/-- The words of the line are those of the quotation that its expansion has. -/
theorem splitExpanded_reference (lookup : String → Option String) {name : String}
    (named : IsName name) :
    splitExpanded lookup (referenceLine name) =
      match splitFrom (.double []) (((lookup name).getD "").toList ++ ['"']) with
      | some words => .ok ("s" :: words)
      | none => .error .unbalancedQuotes := by
  simp only [splitExpanded, expand_reference lookup named, split_quoted]
  cases splitFrom (.double []) (((lookup name).getD "").toList ++ ['"']) <;> rfl

/-- **A reference in double quotes.** Whatever the variables are and whichever of them is referred
to: its value stands between the quotes as it is when the line is split into words. The words are
`s` and the value if and only if the value is inert, that is, it has no double quote, and after each
backslash a character that is none of `$`, backquote, `"`, backslash and line feed. -/
theorem quoted_reference_iff_inert (lookup : String → Option String) (name : String)
    (named : IsName name) :
    let value := (lookup name).getD ""
    expand lookup (referenceLine name) = .ok ("s \"" ++ value ++ "\"") ∧
    (splitExpanded lookup (referenceLine name) = .ok ["s", value] ↔ Inert value.toList) := by
  intro value
  refine ⟨expand_reference lookup named, ?_⟩
  rw [splitExpanded_reference lookup named, ← splitFrom_double_inert, String.ofList_toList]
  cases splitFrom (.double []) (((lookup name).getD "").toList ++ ['"']) with
  | none => simp
  | some words => simp [value]

/-- A value with blanks, a comment sign, single quotes, a line feed, and backslashes that stay. -/
def awkwardValue : String := "it's # '\n C:\\dir \\#"

theorem awkward_value_is_one_word :
    IsName "path" ∧ Inert awkwardValue.toList ∧
    splitExpanded (fun _ => some awkwardValue) "s \"$path\"" = .ok ["s", awkwardValue] := by
  have named : IsName "path" := by decide
  have inert : Inert awkwardValue.toList := by decide
  exact ⟨named, inert,
    (quoted_reference_iff_inert (fun _ => some awkwardValue) "path" named).2.2 inert⟩

/-- A double quote in a value breaks the splitting, or makes more words; and of two backslashes one
is lost. -/
theorem quote_in_value_is_read_again :
    splitExpanded (fun _ => some "a\"b") "s \"$x\"" = .error .unbalancedQuotes ∧
    splitExpanded (fun _ => some "a\" b \"c") "s \"$x\"" = .ok ["s", "a", "b", "c"] ∧
    splitExpanded (fun _ => some "a\\\\b") "s \"$x\"" = .ok ["s", "a\\b"] := by
  have line : "s \"$x\"" = referenceLine "x" := by decide
  have named : IsName "x" := by decide
  simp only [line, splitExpanded_reference _ named, Option.getD_some]
  refine ⟨?_, ?_, ?_⟩ <;> rfl

end Words

end LogConsole
