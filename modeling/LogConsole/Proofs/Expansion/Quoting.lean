import LogConsole.Proofs.Dict
import LogConsole.Proofs.Expansion.Grammar
import LogConsole.Session.Script
import Mathlib.Data.List.Induction

/-!
# LogConsole.Proofs.Expansion.Quoting

Words in single quotes pass through an invocation unchanged.

* `Words.invocation` — words in single quotes, with a space between two of them;
* `Copies.invocation`       — the expansion leaves it as it is;
* `Words.split_invocation`  — and the words are read back from it;
* `Script.get?_scriptVariables_word`, `…_count`, `…_all` — the variables of a script.

Both readers keep their own account of the quotes. They agree since each of them is after the
same characters back outside of quotes: after every word, and around every single quote in a
word.
-/

namespace LogConsole

/-! ## A word in quotes -/

namespace Words

/-- What stands for the characters of a word between its quotes. -/
def quotedChars (word : List Char) : List Char :=
  word.flatMap fun c => if c = '\'' then ['\'', '\\', '\'', '\''] else [c]

theorem quotedChars_quote (word : List Char) :
    quotedChars ('\'' :: word) = '\'' :: '\\' :: '\'' :: '\'' :: quotedChars word := rfl

theorem quotedChars_cons {c : Char} (h : c ≠ '\'') (word : List Char) :
    quotedChars (c :: word) = c :: quotedChars word := by
  rw [quotedChars, List.flatMap_cons, if_neg h]
  rfl

theorem toList_quote (word : String) :
    (quote word).toList = '\'' :: (quotedChars word.toList ++ ['\'']) := by
  simp [quote, quotedChars]

/-- Words in single quotes, with a space between two of them. -/
def invocation (words : List String) : String := " ".intercalate (words.map quote)

theorem toList_invocation_singleton (word : String) :
    (invocation [word]).toList = '\'' :: (quotedChars word.toList ++ ['\'']) := by
  simp [invocation, toList_quote]

theorem toList_invocation_cons (word next : String) (rest : List String) :
    (invocation (word :: next :: rest)).toList
      = '\'' :: (quotedChars word.toList ++ '\'' :: ' ' :: (invocation (next :: rest)).toList) := by
  simp [invocation, toList_quote]

end Words

/-! ## Its expansion -/

namespace Expansion

open Words (quotedChars invocation)

/-- That `cs` is copied where the quotation `before` is open, and leaves `after` open, whatever
follows. -/
def Copies (lookup : String → Option String) (before : Quotes) (cs : List Char)
    (after : Quotes) : Prop :=
  ∀ pos rest, ∃ pos', expandFrom lookup before pos (cs ++ rest)
    = (expandFrom lookup after pos' rest).map (cs ++ ·)

namespace Copies

variable {lookup : String → Option String} {q q' q'' : Quotes}

theorem nil : Copies lookup q [] q := by
  intro pos rest
  refine ⟨pos, ?_⟩
  rw [List.nil_append]
  cases expandFrom lookup q pos rest <;> rfl

theorem append {as bs : List Char} (ha : Copies lookup q as q') (hb : Copies lookup q' bs q'') :
    Copies lookup q (as ++ bs) q'' := by
  intro pos rest
  obtain ⟨mid, hfirst⟩ := ha pos (bs ++ rest)
  obtain ⟨pos', hsecond⟩ := hb mid rest
  refine ⟨pos', ?_⟩
  rw [List.append_assoc, hfirst, hsecond]
  cases expandFrom lookup q'' pos' rest with
  | ok out => simp [Except.map]
  | error e => rfl

theorem expand_eq {text : String} (h : Copies lookup .none text.toList q) :
    expand lookup text = .ok text := by
  obtain ⟨pos', hrun⟩ := h 0 []
  rw [List.append_nil, expandFrom_nil] at hrun
  simp [expand, hrun, Except.map]

theorem of_fits (p : Piece) (inDouble : Bool) (h : ∀ rest, p.Fits inDouble rest)
    (literal : p.name? = none) :
    Copies lookup (quotesOf inDouble) p.spelling (quotesOf (p.after inDouble)) := by
  intro pos rest
  have hvalue : p.value lookup = p.spelling := by
    rw [Piece.value, literal]
  refine ⟨pos + Text.Utf8.size p.spelling, ?_⟩
  rw [expandFrom_piece lookup (h rest), hvalue]

theorem openSingle : Copies lookup .none ['\''] .single := by
  intro pos rest
  refine ⟨pos + 1, ?_⟩
  rw [List.cons_append, List.nil_append, expandFrom.eq_def]
  simp
  cases expandFrom lookup .single (pos + 1) rest <;> rfl

theorem closeSingle : Copies lookup .single ['\''] .none := by
  intro pos rest
  exact ⟨pos + 1, expandFrom_single_end lookup pos rest⟩

theorem inSingle {cs : List Char} (h : '\'' ∉ cs) : Copies lookup .single cs .single := by
  intro pos rest
  exact ⟨_, expandFrom_in_single lookup h rest pos⟩

theorem escapedQuote : Copies lookup .none ['\\', '\''] .none :=
  of_fits (.escaped '\'') false (fun _ => trivial) rfl

theorem space : Copies lookup .none [' '] .none :=
  of_fits (.plain ' ') false (fun _ => ⟨nofun, nofun, nofun⟩) rfl

/-- A quote in a word closes the quotation, is escaped, and opens the next one. -/
theorem quotedChars (word : List Char) :
    Copies lookup .single (quotedChars word) .single := by
  induction word with
  | nil => exact nil
  | cons c word ih =>
    by_cases hc : c = '\''
    · subst hc
      exact closeSingle.append (escapedQuote.append (openSingle.append ih))
    · rw [Words.quotedChars_cons hc]
      have hcopied : Copies lookup .single [c] .single := inSingle (by simpa using Ne.symm hc)
      exact hcopied.append ih

theorem invocation : (words : List String) →
    Copies lookup .none (invocation words).toList .none
  | [] => nil
  | [word] => by
    rw [Words.toList_invocation_singleton]
    exact openSingle.append ((quotedChars word.toList).append closeSingle)
  | word :: next :: rest => by
    rw [Words.toList_invocation_cons]
    have hrest : Copies lookup .none (Words.invocation (next :: rest)).toList .none :=
      invocation (next :: rest)
    exact openSingle.append
      ((quotedChars word.toList).append (closeSingle.append (space.append hrest)))

end Copies

end Expansion

/-! ## Its words -/

namespace Words

/-- The characters of a word are read back from its quotes. -/
theorem splitFrom_quotedChars (chars rest : List Char) :
    ∀ word, splitFrom (.single word) (quotedChars chars ++ '\'' :: rest)
      = splitFrom (.plain (chars.reverse ++ word)) rest := by
  induction chars with
  | nil => intro word; simp [quotedChars, splitFrom]
  | cons c chars ih =>
    intro word
    by_cases hc : c = '\''
    · subst hc
      rw [quotedChars_quote]
      simp [splitFrom, plainStep, isSeparator, ih]
    · rw [quotedChars_cons hc]
      simp [splitFrom, hc, ih]

theorem splitFrom_quoted (chars rest : List Char) :
    splitFrom .between ('\'' :: (quotedChars chars ++ '\'' :: rest))
      = splitFrom (.plain chars.reverse) rest := by
  have h := splitFrom_quotedChars chars rest []
  rw [List.append_nil] at h
  simp [splitFrom, plainStep, isSeparator, h]

theorem split_invocation (words : List String) : split (invocation words) = some words := by
  induction words with
  | nil => simp [invocation, split, splitFrom]
  | cons word rest ih =>
    unfold split at ih ⊢
    cases rest with
    | nil =>
      rw [toList_invocation_singleton, splitFrom_quoted]
      simp [splitFrom]
    | cons next rest =>
      rw [toList_invocation_cons, splitFrom_quoted]
      simp [splitFrom, plainStep, isSeparator, ih]

theorem splitExpanded_invocation (lookup : String → Option String) (words : List String) :
    splitExpanded lookup (invocation words) = .ok words := by
  have hexpand : expand lookup (invocation words) = .ok (invocation words) :=
    Expansion.Copies.expand_eq (Expansion.Copies.invocation words)
  simp only [splitExpanded, hexpand, split_invocation]

end Words

/-! ## The variables of a script -/

namespace Script

theorem toString_ne {name : String} (h : ∃ c ∈ name.toList, c.isDigit = false) (n : Nat) :
    toString n ≠ name := by
  rintro rfl
  obtain ⟨c, hc, hd⟩ := h
  rw [Nat.toString_eq_ofList_toDigits, String.toList_ofList] at hc
  rw [Nat.isDigit_of_mem_toDigits (by decide) (by decide) hc] at hd
  cases hd

theorem toString_inj {i j : Nat} : toString i = toString j ↔ i = j := by
  refine ⟨fun h => ?_, fun h => by rw [h]⟩
  rw [Nat.toString_eq_ofList_toDigits, Nat.toString_eq_ofList_toDigits, String.ofList_inj] at h
  have hread := congrArg (fun ds => Nat.ofDigitChars 10 ds 0) h
  simpa only [Nat.ofDigitChars_ten_toDigits] using hread

/-- Words under their numbers are found by their numbers. -/
theorem get?_ofList_numbered (words : List String) (i : Nat) :
    (Dict.ofList (words.zipIdx.map fun (w, i) => (toString i, w))).get? (toString i)
      = words[i]? := by
  induction words using List.reverseRecOn with
  | nil => rfl
  | append_singleton words w ih =>
    rw [List.zipIdx_append, List.map_append, Dict.get?_ofList_append, ih]
    simp only [List.zipIdx_singleton, List.map_cons, List.map_nil, Dict.get?_ofList_singleton,
      toString_inj, Nat.zero_add]
    rcases Nat.lt_trichotomy i words.length with hi | hi | hi
    · rw [if_neg (Nat.ne_of_gt hi), List.getElem?_append_left hi]
      rfl
    · simp [hi]
    · have hout : (words ++ [w]).length ≤ i := by
        rw [List.length_append]
        exact hi
      rw [if_neg (Nat.ne_of_lt hi), List.getElem?_eq_none hout,
        List.getElem?_eq_none (Nat.le_of_lt hi)]
      rfl

theorem styleVariables_named : ∀ e ∈ styleVariables, ∃ c ∈ e.1.toList, c.isDigit = false := by
  have all : (styleVariables.all fun e => e.1.toList.any fun c => c.isDigit == false) = true := by
    decide
  simpa only [List.all_eq_true, List.any_eq_true, beq_iff_eq] using all

variable (words : List String)

theorem get?_scriptVariables_word (i : Nat) :
    (scriptVariables words).get? (toString i) = words[i]? := by
  have hstyle : (Dict.ofList styleVariables).get? (toString i) = none :=
    Dict.get?_ofList_eq_none fun e he => (toString_ne (styleVariables_named e he) i).symm
  have hcount : toString i ≠ "#" := toString_ne ⟨'#', by simp, rfl⟩ i
  have hall : toString i ≠ "__all__" := toString_ne ⟨'_', by simp, rfl⟩ i
  rw [scriptVariables, argumentVariables, List.cons_append, ← List.singleton_append,
    Dict.get?_ofList_append, Dict.get?_ofList_append, Dict.get?_ofList_append, hstyle,
    get?_ofList_numbered, Dict.get?_ofList_singleton, Dict.get?_ofList_singleton,
    if_neg hcount.symm, if_neg hall.symm]
  simp

theorem get?_scriptVariables_count :
    (scriptVariables words).get? "#" = some (toString (words.length - 1)) := by
  have hwords : (Dict.ofList (words.zipIdx.map fun (w, i) => (toString i, w))).get? "#" = none := by
    refine Dict.get?_ofList_eq_none fun e he => ?_
    obtain ⟨⟨w, i⟩, -, rfl⟩ := List.mem_map.1 he
    exact toString_ne ⟨'#', by simp, rfl⟩ i
  rw [scriptVariables, argumentVariables, List.cons_append, ← List.singleton_append,
    Dict.get?_ofList_append, Dict.get?_ofList_append, Dict.get?_ofList_append, hwords,
    Dict.get?_ofList_singleton, Dict.get?_ofList_singleton, if_pos rfl, if_neg (by decide)]
  rfl

theorem get?_scriptVariables_all :
    (scriptVariables words).get? "__all__" = some (" ".intercalate words.tail) := by
  rw [scriptVariables, argumentVariables, ← List.append_assoc, Dict.get?_ofList_append,
    Dict.get?_ofList_singleton, if_pos rfl]
  rfl

end Script

theorem Console.lookup_in_scope {vars : Dict String} {name value : String}
    (h : vars.get? name = some value) (k : Console) :
    ((Frame.scope vars).enter k).lookup name = some value := by
  have hlocals : ((Frame.scope vars).enter k).context.locals = vars := rfl
  rw [Console.lookup, Context.lookup, hlocals, h]

namespace Run

/-- Words in single quotes, parted by spaces, are the words of the script that is run: the first
one names it, and it finds each of them under its number, their count and all but the first under
theirs. -/
theorem executeFile_invocation (first : String) (rest : List String) :
    (∀ lookup, splitExpanded lookup (Words.invocation (first :: rest)) = .ok (first :: rest)) ∧
    ∀ (again : Mode → String → Run Output) (multiline : Bool) (s : Session),
      ∃ vars : Dict String,
        executeFile again (Words.invocation (first :: rest)) multiline s
          = withScope vars (do
              executeAll again multiline "" (← resolveScript first)) s ∧
        (∀ i : Nat, vars.get? (toString i) = (first :: rest)[i]?) ∧
        vars.get? "#" = some (toString rest.length) ∧
        vars.get? "__all__" = some (" ".intercalate rest) ∧
        ∀ name value, vars.get? name = some value →
          ((Frame.scope vars).enter s.console).lookup name = some value := by
  refine ⟨fun lookup => Words.splitExpanded_invocation lookup (first :: rest), ?_⟩
  intro again multiline s
  refine ⟨Script.scriptVariables (first :: rest), ?_, Script.get?_scriptVariables_word _,
    Script.get?_scriptVariables_count _, Script.get?_scriptVariables_all _, ?_⟩
  · simp only [executeFile, Words.splitExpanded_invocation]
  · intro name value h
    exact Console.lookup_in_scope h s.console

end Run

end LogConsole
