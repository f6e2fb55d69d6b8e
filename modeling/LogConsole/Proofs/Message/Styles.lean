import LogConsole.Message.Render
import LogConsole.Proofs.Text.Span
import Mathlib.Tactic.Common
import Mathlib.Tactic.Push

/-!
# LogConsole.Proofs.Message.Styles

A report says the same with styles and without them.

* `IsStyle`    — a style sequence: an escape, a bracket, digits and semicolons, and an `m`;
* `unstyled`   — a text without its style sequences. `LeavesOutStyles` says what that is, and
  `leavesOutStyles_iff` that there is one way to do it;
* `Apart`      — a text in front of which no sequence can be begun that goes on in it
  (`unstyledChars_append`);
* `Recoloured` — two texts of this kind that differ in their styles only, as the parts of a report
  do that are on lines of their own;
* `coloured_reads_as_plain` — the result for all messages.
-/

namespace LogConsole

namespace Text

/-! ## Style sequences -/

/-- The characters between the bracket and the `m` of a style sequence. -/
def isParameter (c : Char) : Bool := c.isDigit || c == ';'

def IsStyle (s : List Char) : Prop :=
  ∃ parameters : List Char, (∀ c ∈ parameters, isParameter c = true) ∧
    s = '\x1b' :: '[' :: (parameters ++ ['m'])

/-- What follows the style sequence that a text starts with, if it starts with one. -/
def afterStyle? : List Char → Option (List Char)
  | '\x1b' :: '[' :: rest =>
    match rest.dropWhile isParameter with
    | 'm' :: after => some after
    | _ => none
  | _ => none

theorem afterStyle?_eq_some_iff {cs after : List Char} :
    afterStyle? cs = some after ↔ ∃ s, IsStyle s ∧ cs = s ++ after := by
  constructor
  · intro h
    unfold afterStyle? at h
    split at h
    case h_2 => cases h
    case h_1 rest =>
      split at h
      case h_2 => cases h
      case h_1 found ended =>
        obtain rfl := Option.some.inj h
        refine ⟨_, ⟨rest.takeWhile isParameter, (of_span isParameter rest).1, rfl⟩, ?_⟩
        have whole := List.takeWhile_append_dropWhile (p := isParameter) (l := rest)
        rw [ended] at whole
        simp [whole]
  · rintro ⟨_, ⟨parameters, all, rfl⟩, rfl⟩
    have ends : ∀ c ∈ ('m' :: after).head?, isParameter c = false := by
      rintro c ⟨⟩
      decide
    have rest := (span_append ('m' :: after) all ends).2
    simp only [List.cons_append, List.append_assoc, List.nil_append, afterStyle?, rest]

theorem length_afterStyle {cs after : List Char} (h : afterStyle? cs = some after) :
    after.length < cs.length := by
  obtain ⟨_, ⟨parameters, -, rfl⟩, rfl⟩ := afterStyle?_eq_some_iff.1 h
  simp only [List.cons_append, List.length_cons, List.length_append]
  omega

theorem afterStyle?_of_ne {c : Char} (h : c ≠ '\x1b') (rest : List Char) :
    afterStyle? (c :: rest) = none := by
  refine Option.eq_none_iff_forall_ne_some.2 fun after found => ?_
  obtain ⟨_, ⟨parameters, -, rfl⟩, cut⟩ := afterStyle?_eq_some_iff.1 found
  exact h (List.cons.inj cut).1

/-! ## Leaving them out -/

def unstyledChars : List Char → List Char
  | [] => []
  | c :: rest =>
    match _starts : afterStyle? (c :: rest) with
    | some after => unstyledChars after
    | none => c :: unstyledChars rest
termination_by cs => cs.length
decreasing_by
  · exact length_afterStyle _starts
  · exact Nat.lt_succ_self rest.length

/-- A text without its style sequences. -/
def unstyled (s : String) : String := String.ofList (unstyledChars s.toList)

@[simp] theorem unstyledChars_nil : unstyledChars [] = [] := by rw [unstyledChars]

theorem unstyledChars_dropped {cs after : List Char} (h : afterStyle? cs = some after) :
    unstyledChars cs = unstyledChars after := by
  cases cs with
  | nil => cases h
  | cons c rest =>
    rw [unstyledChars]
    split
    case h_1 found => rw [h] at found; rw [Option.some.inj found]
    case h_2 found => rw [h] at found; cases found

theorem unstyledChars_kept {c : Char} {rest : List Char} (h : afterStyle? (c :: rest) = none) :
    unstyledChars (c :: rest) = c :: unstyledChars rest := by
  rw [unstyledChars]
  split
  case h_1 found => rw [h] at found; cases found
  case h_2 => rfl

theorem unstyledChars_style {s : List Char} (h : IsStyle s) (rest : List Char) :
    unstyledChars (s ++ rest) = unstyledChars rest :=
  unstyledChars_dropped (afterStyle?_eq_some_iff.2 ⟨s, h, rfl⟩)

theorem unstyledChars_plain {cs : List Char} (h : '\x1b' ∉ cs) (rest : List Char) :
    unstyledChars (cs ++ rest) = cs ++ unstyledChars rest := by
  induction cs with
  | nil => rfl
  | cons c cs ih =>
    have first : c ≠ '\x1b' := Ne.symm (List.ne_of_not_mem_cons h)
    rw [List.cons_append, unstyledChars_kept (afterStyle?_of_ne first _),
      ih (List.not_mem_of_not_mem_cons h), List.cons_append]

/-! ## Texts side by side -/

/-- A text that does not start with a character that may stand in a style sequence after its
escape. -/
def Apart (cs : List Char) : Prop :=
  ∀ c ∈ cs.head?, c ≠ '[' ∧ c ≠ 'm' ∧ isParameter c = false

theorem Apart.append {a b : List Char} (ha : Apart a) (hb : Apart b) : Apart (a ++ b) := by
  cases a with
  | nil => exact hb
  | cons c a => exact ha

theorem apart_style {s : List Char} (h : IsStyle s) (rest : List Char) : Apart (s ++ rest) := by
  obtain ⟨parameters, -, rfl⟩ := h
  rintro c ⟨⟩
  decide

/-- What is left of a style sequence that has been begun is not apart. -/
theorem IsStyle.not_apart {begun left : List Char} {c : Char} (h : IsStyle (begun ++ c :: left))
    (some_begun : begun ≠ []) (rest : List Char) : ¬ Apart (c :: rest) := by
  obtain ⟨parameters, all, whole⟩ := h
  intro apart
  obtain ⟨no_bracket, no_end, no_parameter⟩ := apart c rfl
  cases begun with
  | nil => exact some_begun rfl
  | cons first begun =>
    have member : c ∈ '[' :: (parameters ++ ['m']) := by
      rw [← (List.cons.inj whole).2]
      simp
    rcases List.mem_cons.1 member with rfl | member
    · exact no_bracket rfl
    · rcases List.mem_append.1 member with parameter | last
      · rw [all c parameter] at no_parameter
        cases no_parameter
      · exact no_end (List.mem_singleton.1 last)

theorem afterStyle?_append {a b : List Char} (ha : a ≠ []) (hb : Apart b) :
    afterStyle? (a ++ b) = (afterStyle? a).map (· ++ b) := by
  cases found : afterStyle? a with
  | some after =>
    obtain ⟨s, style, rfl⟩ := afterStyle?_eq_some_iff.1 found
    exact afterStyle?_eq_some_iff.2 ⟨s, style, List.append_assoc s after b⟩
  | none =>
    refine Option.eq_none_iff_forall_ne_some.2 fun after starts => ?_
    obtain ⟨s, style, cut⟩ := afterStyle?_eq_some_iff.1 starts
    rcases List.append_eq_append_iff.1 cut with ⟨left, rfl, rfl⟩ | ⟨more, rfl, -⟩
    · cases left with
      | nil =>
        rw [List.append_nil] at style
        rw [afterStyle?_eq_some_iff.2 ⟨a, style, (List.append_nil a).symm⟩] at found
        cases found
      | cons c left => exact style.not_apart ha _ hb
    · rw [afterStyle?_eq_some_iff.2 ⟨s, style, rfl⟩] at found
      cases found

/-- No style sequence is begun in one text and goes on in another that is apart. -/
theorem unstyledChars_append {a b : List Char} (hb : Apart b) :
    unstyledChars (a ++ b) = unstyledChars a ++ unstyledChars b := by
  induction a using unstyledChars.induct with
  | case1 => simp
  | case2 c rest after found ih =>
    have both := afterStyle?_append (List.cons_ne_nil c rest) hb
    rw [found] at both
    rw [unstyledChars_dropped both, unstyledChars_dropped found, ih]
  | case3 c rest found ih =>
    have both := afterStyle?_append (List.cons_ne_nil c rest) hb
    rw [found, List.cons_append] at both
    rw [List.cons_append, unstyledChars_kept both, unstyledChars_kept found, ih, List.cons_append]

/-- A style sequence is left out wherever it stands. -/
theorem unstyledChars_insert {s : List Char} (h : IsStyle s) (before after : List Char) :
    unstyledChars (before ++ (s ++ after)) = unstyledChars before ++ unstyledChars after := by
  rw [unstyledChars_append (apart_style h after), unstyledChars_style h]

/-- Nothing is left out where there is no style sequence. -/
theorem unstyledChars_eq_self {cs : List Char} (h : ∀ s, IsStyle s → ¬ s <:+: cs) :
    unstyledChars cs = cs := by
  induction cs with
  | nil => simp
  | cons c cs ih =>
    have first : afterStyle? (c :: cs) = none := by
      refine Option.eq_none_iff_forall_ne_some.2 fun after found => ?_
      obtain ⟨s, style, cut⟩ := afterStyle?_eq_some_iff.1 found
      exact h s style ⟨[], after, by simpa using cut.symm⟩
    rw [unstyledChars_kept first, ih fun s style inside => h s style (inside.trans ?_)]
    exact (List.suffix_cons c cs).isInfix

/-- What it is to leave style sequences out of a text: each goes wherever it stands, and a text that
has none stays as it is. -/
structure LeavesOutStyles (f : List Char → List Char) : Prop where
  drops : ∀ s, IsStyle s → ∀ before after, f (before ++ (s ++ after)) = f before ++ f after
  keeps : ∀ cs, (∀ s, IsStyle s → ¬ s <:+: cs) → f cs = cs

/-- There is one way to do so. -/
theorem leavesOutStyles_iff {f : List Char → List Char} :
    LeavesOutStyles f ↔ f = unstyledChars := by
  constructor
  · intro h
    funext cs
    -- a sequence may stand anywhere, and what is left on both of its sides is shorter
    induction n : cs.length using Nat.strongRecOn generalizing cs with
    | _ n ih =>
      by_cases plain : ∀ s, IsStyle s → ¬ s <:+: cs
      · rw [h.keeps cs plain, unstyledChars_eq_self plain]
      · push Not at plain
        obtain ⟨s, style, before, after, rfl⟩ := plain
        have positive : 0 < s.length := by
          obtain ⟨parameters, -, rfl⟩ := style
          exact Nat.succ_pos _
        simp only [List.length_append] at n
        rw [List.append_assoc, h.drops s style, unstyledChars_insert style,
          ih before.length (by omega) before rfl, ih after.length (by omega) after rfl]
  · rintro rfl
    exact ⟨fun s style before after => unstyledChars_insert style before after,
      fun cs plain => unstyledChars_eq_self plain⟩

end Text

open Text

/-! ## Painting -/

namespace Style

theorem isParameter_of_mem_toString {c : Char} {n : Nat} (h : c ∈ (toString n).toList) :
    isParameter c = true := by
  rw [Nat.toString_eq_ofList_toDigits, String.toList_ofList] at h
  rw [isParameter, Nat.isDigit_of_mem_toDigits (by decide) (by decide) h, Bool.true_or]

theorem isParameter_of_mem_intercalate {ns : List Nat} {c : Char}
    (h : c ∈ (";".intercalate (ns.map toString)).toList) : isParameter c = true := by
  induction ns with
  | nil => simp at h
  | cons n rest ih =>
    cases rest with
    | nil =>
      rw [List.map_singleton, String.intercalate_singleton] at h
      exact isParameter_of_mem_toString h
    | cons next rest =>
      rw [List.map_cons, List.map_cons, String.intercalate_cons_cons, String.toList_append,
        String.toList_append, List.mem_append, List.mem_append] at h
      rcases h with (number | semicolon) | others
      · exact isParameter_of_mem_toString number
      · obtain rfl : c = ';' := List.mem_singleton.1 semicolon
        decide
      · exact ih others

theorem isStyle_start (s : Style) : IsStyle s.start.toList := by
  refine ⟨(";".intercalate (s.parameters.map toString)).toList,
    fun c => isParameter_of_mem_intercalate, ?_⟩
  rw [start, String.toList_append, String.toList_append]
  rfl

theorem isStyle_reset : IsStyle reset.toList :=
  ⟨['0'], List.forall_mem_singleton.2 (by decide), rfl⟩

end Style

theorem unstyledChars_paint (color : Bool) (style : Style) {label : String}
    (h : '\x1b' ∉ label.toList) (rest : List Char) :
    unstyledChars ((paint color style label).toList ++ rest)
      = label.toList ++ unstyledChars rest := by
  cases color with
  | false => exact unstyledChars_plain h rest
  | true =>
    simp only [paint, if_true, String.toList_append, List.append_assoc]
    rw [unstyledChars_style style.isStyle_start, unstyledChars_plain h,
      unstyledChars_style Style.isStyle_reset]

/-! ## Parts of a report -/

/-- Two texts, each apart from what is in front of it, that are the same without their styles. -/
structure Recoloured (x y : String) : Prop where
  left : Apart x.toList
  right : Apart y.toList
  same : unstyledChars x.toList = unstyledChars y.toList

namespace Recoloured

variable {x y x' y' : String}

theorem empty : Recoloured "" "" := by
  have apart : Apart "".toList := by rintro c ⟨⟩
  exact ⟨apart, apart, rfl⟩

theorem append (h : Recoloured x y) (k : Recoloured x' y') :
    Recoloured (x ++ x') (y ++ y') := by
  refine ⟨?_, ?_, ?_⟩
  · rw [String.toList_append]
    exact h.left.append k.left
  · rw [String.toList_append]
    exact h.right.append k.right
  · rw [String.toList_append, String.toList_append, unstyledChars_append k.left,
      unstyledChars_append k.right, h.same, k.same]

theorem join {α : Type} {f g : α → String} (h : ∀ a, Recoloured (f a) (g a)) (items : List α) :
    Recoloured (String.join (items.map f)) (String.join (items.map g)) := by
  induction items with
  | nil => exact empty
  | cons a rest ih =>
    rw [List.map_cons, List.map_cons, String.join_cons, String.join_cons]
    exact (h a).append ih

/-- A label at the start of a line, and a text after it. -/
theorem labelled (style : Style) (label : String) (h : '\x1b' ∉ label.toList) (text : String) :
    Recoloured ("\n" ++ paint true style label ++ text)
      ("\n" ++ paint false style label ++ text) := by
  have line (color : Bool) : ("\n" ++ paint color style label ++ text).toList
      = '\n' :: ((paint color style label).toList ++ text.toList) := by
    rw [String.toList_append, String.toList_append]
    rfl
  have apart (color : Bool) : Apart ("\n" ++ paint color style label ++ text).toList := by
    rw [line]
    rintro c ⟨⟩
    decide
  have shown (color : Bool) : unstyledChars ("\n" ++ paint color style label ++ text).toList
      = '\n' :: (label.toList ++ unstyledChars text.toList) := by
    rw [line, unstyledChars_kept (afterStyle?_of_ne (by decide) _),
      unstyledChars_paint color style h]
  exact ⟨apart true, apart false, (shown true).trans (shown false).symm⟩

end Recoloured

theorem Snippet.recoloured (s : Snippet) : Recoloured (s.render true) (s.render false) := by
  have lines := Recoloured.join (Recoloured.labelled .blueBold "  | " (by decide))
    (lines s.content)
  exact (Recoloured.labelled .blueBold " --> " (by decide) s.location).append lines

namespace Message

theorem recoloured_section (style : Style) (heading : String) (h : '\x1b' ∉ heading.toList)
    (indent text : String) :
    Recoloured (renderSection true style heading indent text)
      (renderSection false style heading indent text) := by
  unfold renderSection
  split
  · exact .empty
  · exact .labelled style heading h _

theorem recoloured_note (note : String) :
    Recoloured (renderNote true note) (renderNote false note) :=
  .labelled .blueBold " • " (by decide) _

theorem escape_not_mem_label (l : Level) : '\x1b' ∉ l.label.toList := by
  cases l <;> decide

/-- What stands in front of a message. -/
def head (labelled color : Bool) (m : Message) : String :=
  if labelled then paint color m.level.style m.level.label else ""

/-- What stands below a message, on lines of its own. -/
def below (color : Bool) (m : Message) : String :=
  String.join (m.snippets.map (·.render color))
    ++ renderSection color .bold " reason: " "         " m.reason
    ++ String.join (m.notes.map (renderNote color))
    ++ renderSection color .cyanBold " = help: " "   " m.help

theorem render_eq (m : Message) (labelled color : Bool) :
    m.render labelled color = m.head labelled color ++ (m.text ++ m.below color) := by
  simp only [render, head, below, String.append_assoc]

theorem unstyledChars_head (m : Message) (labelled color : Bool) (rest : List Char) :
    unstyledChars ((m.head labelled color).toList ++ rest)
      = (if labelled then m.level.label else "").toList ++ unstyledChars rest := by
  cases labelled with
  | true => exact unstyledChars_paint color _ (escape_not_mem_label m.level) rest
  | false => rfl

theorem recoloured_below (m : Message) : Recoloured (m.below true) (m.below false) := by
  have snippets := Recoloured.join Snippet.recoloured m.snippets
  have reason := recoloured_section .bold " reason: " (by decide) "         " m.reason
  have notes := Recoloured.join recoloured_note m.notes
  have help := recoloured_section .cyanBold " = help: " (by decide) "   " m.help
  exact ((snippets.append reason).append notes).append help

/-- **Styles leave the text as it is.** For every message, with its level in front or without it,
the coloured report and the plain one are the same text once all style sequences are left out of
both. The message, its snippets, its reason, its notes and its help may be any texts: escapes,
style sequences and parts of them are among these. -/
theorem coloured_reads_as_plain (m : Message) (labelled : Bool) :
    unstyled (m.render labelled true) = unstyled (m.render labelled false) := by
  obtain ⟨apart, apart', same⟩ := m.recoloured_below
  have coloured : unstyledChars (m.text.toList ++ (m.below true).toList)
      = unstyledChars m.text.toList ++ unstyledChars (m.below true).toList :=
    unstyledChars_append apart
  have plain : unstyledChars (m.text.toList ++ (m.below false).toList)
      = unstyledChars m.text.toList ++ unstyledChars (m.below false).toList :=
    unstyledChars_append apart'
  simp only [unstyled, render_eq, String.toList_append, unstyledChars_head, coloured, plain, same]

end Message

end LogConsole
