import LogConsole.Mode
import Mathlib.Data.List.DropRight

/-!
# LogConsole.Proofs.Text.Blanks

Blanks at the ends of a text.

* `dropBlanksEnd_cons`, `dropBlanksEnd_append` — what is cut off an end is blank, and all of it;
* `trim_append`        — blanks that are added at the end are trimmed with the rest;
* `Indented`           — a text that has blanks before the first character that counts;
* `trim_eq_trimEnd_iff` — it makes a difference to cut blanks off at the start for such texts only;
* `Mode.split_marked`  — the payload of a line that starts with a mark is the rest of it, but for
  the blanks at its end.
-/

namespace LogConsole

namespace Text

variable {c : Char} {cs : List Char}

theorem dropBlanksEnd_prefix (cs : List Char) : dropBlanksEnd cs <+: cs :=
  List.rdropWhile_prefix isBlank cs

theorem dropBlanksEnd_eq_self_iff :
    dropBlanksEnd cs = cs ↔ ∀ c ∈ cs.getLast?, isBlank c = false := by
  have h : dropBlanksEnd cs = cs ↔ ∀ hne : cs ≠ [], ¬isBlank (cs.getLast hne) = true :=
    List.rdropWhile_eq_self_iff
  rw [h]
  constructor
  · intro hlast c hc
    obtain ⟨hne, rfl⟩ := List.mem_getLast?_eq_getLast hc
    exact Bool.eq_false_iff.2 (hlast hne)
  · intro hlast hne
    exact Bool.eq_false_iff.1 (hlast _ (List.getLast?_eq_some_getLast hne))

theorem dropBlanksEnd_cons (h : isBlank c = false) (cs : List Char) :
    dropBlanksEnd (c :: cs) = c :: dropBlanksEnd cs := by
  rw [dropBlanksEnd, List.reverse_cons, List.dropWhile_append]
  split
  · next hnil =>
    rw [dropBlanksEnd, List.isEmpty_iff.1 hnil]
    simp [List.dropWhile, h]
  · rw [List.reverse_append, dropBlanksEnd]
    rfl

theorem dropBlanksEnd_eq_nil_iff : dropBlanksEnd cs = [] ↔ ∀ c ∈ cs, isBlank c = true :=
  List.rdropWhile_eq_nil_iff

theorem dropBlanks_eq_nil_iff : dropBlanks cs = [] ↔ ∀ c ∈ cs, isBlank c = true :=
  List.dropWhile_eq_nil_iff

theorem dropBlanksEnd_append (cs : List Char) {more : List Char}
    (blank : ∀ c ∈ more, isBlank c = true) : dropBlanksEnd (cs ++ more) = dropBlanksEnd cs := by
  have gone : more.reverse.dropWhile isBlank = [] :=
    dropBlanks_eq_nil_iff.2 fun c hc => blank c (List.mem_reverse.1 hc)
  rw [dropBlanksEnd, List.reverse_append, List.dropWhile_append, gone]
  rfl

/-- Blanks at the end are trimmed with those that were there before. -/
theorem trim_append (s : String) {more : String} (blank : ∀ c ∈ more.toList, isBlank c = true) :
    trim (s ++ more) = trim s := by
  rw [trim, trim, String.toList_append]
  congr 1
  rw [dropBlanks, List.dropWhile_append]
  split
  · next nothing =>
    have gone : dropBlanks more.toList = [] := dropBlanks_eq_nil_iff.2 blank
    rw [dropBlanks, List.isEmpty_iff.1 nothing]
    exact congrArg dropBlanksEnd gone
  · exact dropBlanksEnd_append _ blank

/-- There are blanks at the start, and something after them. -/
def Indented (s : String) : Prop :=
  (∃ c ∈ s.toList.head?, isBlank c = true) ∧ ∃ c ∈ s.toList, isBlank c = false

/-- What is left of a text that is cut at its start does not start with a blank. -/
theorem dropBlanks_head {rest : List Char} (h : dropBlanks cs = c :: rest) : isBlank c = false := by
  have head := List.head?_dropWhile_not isBlank cs
  rw [← dropBlanks, h] at head
  simpa using head

theorem trim_eq_trimEnd_iff (s : String) : trim s = trimEnd s ↔ ¬ Indented s := by
  rw [trim, trimEnd, String.ofList_inj, Indented]
  generalize s.toList = cs
  cases cs with
  | nil => simp [dropBlanks]
  | cons c rest =>
    cases hc : isBlank c with
    | false => simp [dropBlanks_cons_of_not_blank hc, hc]
    | true =>
      have head : ∃ b ∈ (c :: rest).head?, isBlank b = true := ⟨c, rfl, hc⟩
      rw [and_iff_right head]
      constructor
      · rintro same ⟨d, there, solid⟩
        -- what is left of the one starts with the blank, and of the other with no blank
        cases left : dropBlanksEnd (c :: rest) with
        | nil => rw [dropBlanksEnd_eq_nil_iff.1 left d there] at solid; cases solid
        | cons e more =>
          have first := dropBlanksEnd_prefix (c :: rest)
          have second := dropBlanksEnd_prefix (dropBlanks (c :: rest))
          rw [left, List.cons_prefix_cons] at first
          rw [same, left] at second
          obtain ⟨tail, cut⟩ := second
          rw [List.cons_append] at cut
          rw [← first.1, dropBlanks_head cut.symm] at hc
          cases hc
      · intro all
        have blank : ∀ d ∈ c :: rest, isBlank d = true := fun d there =>
          (Bool.not_eq_false _).mp fun solid => all ⟨d, there, solid⟩
        rw [dropBlanks_eq_nil_iff.2 blank, dropBlanksEnd_eq_nil_iff.2 blank]
        rfl

end Text

namespace Mode

variable (mode : Mode) (rest : String)

theorem toList_marked : (String.singleton mode.mark ++ rest).toList = mode.mark :: rest.toList := by
  rw [String.toList_append, String.toList_singleton, List.singleton_append]

/-- A line that starts with a mark is trimmed at its end only. -/
theorem trim_marked : (Text.trim (String.singleton mode.mark ++ rest)).toList
    = mode.mark :: Text.dropBlanksEnd rest.toList := by
  have solid : Text.isBlank mode.mark = false := by cases mode <;> decide
  rw [Text.trim, String.toList_ofList, toList_marked, Text.dropBlanks_cons_of_not_blank solid,
    Text.dropBlanksEnd_cons solid]

theorem split_marked :
    Mode.split (String.singleton mode.mark ++ rest) = (mode, Text.trimEnd rest) := by
  rw [Mode.split, trim_marked]
  simp only [splitTrimmed, ofMark?_mark]
  rfl

end Mode

end LogConsole
