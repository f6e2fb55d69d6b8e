import LogConsole.Proofs.Session.Descent
import LogConsole.Proofs.Session.SingleLine

/-!
# LogConsole.Proofs.Session.RunOrder

The order in which a script runs its lines where each of them is a statement.

* `Script.counted`     — the lines that count, in the order of the file;
* `Script.orderFrom`   — the lines in the order in which they are run. A line with a mark waits for
  the next one with a mark, and lines without one are run in the meantime;
* `Script.Overtaken`   — a line with a mark waits while a later line is run;
* `Script.InFileOrder` — whenever a line is run, all lines before it have been run;
* `not_run_iff_overtaken` — when a line is run, the lines before it that have not been run are those
  that it overtakes, of which there is at most one;
* `inFileOrder_iff`    — so a script is run in the order of its file if and only if no line without
  a mark comes after one with a mark.

The induction is on the lines that are left, with the line that waits before them.
-/

namespace LogConsole

namespace Script

/-- A line that counts, with its number. -/
abbrev NumberedLine := String × Nat

def counted (bytes : List UInt8) : List NumberedLine := numbered 1 (texts (Text.byteLines bytes)).1

def isMarked (line : NumberedLine) : Bool := (opening? line.1).isSome

/-- A line as a statement by itself. -/
def statementOf (line : NumberedLine) : Statement :=
  match opening? line.1 with
  | some (mode, head) => ⟨mode, line.2, Text.trim head⟩
  | none => ⟨.command, line.2, Text.trim line.1⟩

/-- The lines in the order in which they are run; at the end of a script that has been read whole
the line that waits is run as well. -/
def orderFrom (whole : Bool) (waiting : Option NumberedLine) : List NumberedLine → List NumberedLine
  | [] => if whole then waiting.toList else []
  | line :: rest =>
    if isMarked line then waiting.toList ++ orderFrom whole (some line) rest
    else line :: orderFrom whole waiting rest

def runOrder (bytes : List UInt8) : List NumberedLine :=
  orderFrom (isWhole bytes) none (counted bytes)

/-- The line that is never run, if there is one: it still waits where a script stops being UTF-8. -/
def unclosed (whole : Bool) (lines : List NumberedLine) : List NumberedLine :=
  if whole then [] else (lines.filter isMarked).getLast?.toList

/-- The first line has a mark and the other one has not, and no line between them has one. -/
structure Overtaken (lines : List NumberedLine) (first later : NumberedLine) : Prop where
  marked : isMarked first = true
  plain : isMarked later = false
  waits : ∀ line ∈ lines, isMarked line = true → ¬ (first.2 < line.2 ∧ line.2 < later.2)

/-- Whenever a line is run, all lines before it have been run. -/
def InFileOrder (lines order : List NumberedLine) : Prop :=
  ∀ before line after, order = before ++ line :: after →
    ∀ first ∈ lines, first.2 < line.2 → first ∈ before

/-! ## The statements that are run -/

/-- What waits for the line after it. -/
def pendingOf (line : NumberedLine) : Option Pending :=
  (opening? line.1).map fun opened => ⟨opened.1, line.2, opened.2⟩

theorem flushed_pendingOf {line : NumberedLine} (h : isMarked line = true) :
    flushed (pendingOf line) = [statementOf line] := by
  obtain ⟨opened, ho⟩ := Option.isSome_iff_exists.1 h
  simp [pendingOf, flushed, statementOf, ho]

theorem singlesFrom_eq (whole : Bool) (lines : List NumberedLine) :
    ∀ waiting : Option NumberedLine, (∀ line ∈ waiting, isMarked line = true) →
      singlesFrom whole (waiting.bind pendingOf) lines
        = (orderFrom whole waiting lines).map statementOf := by
  have ends : ∀ waiting : Option NumberedLine, (∀ line ∈ waiting, isMarked line = true) →
      flushed (waiting.bind pendingOf) = waiting.toList.map statementOf := by
    intro waiting marked
    cases waiting with
    | none => rfl
    | some line => exact flushed_pendingOf (marked line rfl)
  induction lines with
  | nil =>
    intro waiting marked
    simp only [singlesFrom, orderFrom, ends waiting marked]
    cases whole <;> rfl
  | cons line rest ih =>
    intro waiting marked
    obtain ⟨text, n⟩ := line
    cases ho : opening? text with
    | none =>
      have plain : isMarked (text, n) = false := by simp [isMarked, ho]
      have own : statementOf (text, n) = ⟨.command, n, Text.trim text⟩ := by simp [statementOf, ho]
      simp [singlesFrom, orderFrom, ho, plain, own, ih waiting marked]
    | some opened =>
      obtain ⟨mode, head⟩ := opened
      have mark : isMarked (text, n) = true := by simp [isMarked, ho]
      have next := ih (some (text, n)) (by rintro _ ⟨⟩; exact mark)
      have waits : (some (text, n)).bind pendingOf = some ⟨mode, n, head⟩ := by simp [pendingOf, ho]
      rw [waits] at next
      simp [singlesFrom, orderFrom, ho, mark, next, ends waiting marked]

theorem singles_eq (bytes : List UInt8) :
    singles bytes = (runOrder bytes).map statementOf :=
  singlesFrom_eq (isWhole bytes) (counted bytes) none nofun

/-! ## The numbers of the lines -/

theorem numbered_sorted (lines : List String) :
    ∀ n, (numbered n lines).Pairwise (fun a b => a.2 < b.2) ∧ ∀ l ∈ numbered n lines, n ≤ l.2 := by
  induction lines with
  | nil => intro n; simp [numbered]
  | cons text rest ih =>
    intro n
    obtain ⟨sorted, above⟩ := ih (n + 1)
    rw [numbered_cons]
    split
    · exact ⟨sorted, fun l hl => Nat.le_of_succ_le (above l hl)⟩
    · refine ⟨List.pairwise_cons.2 ⟨fun l hl => above l hl, sorted⟩, fun l hl => ?_⟩
      rcases List.mem_cons.1 hl with rfl | hl
      · exact Nat.le_refl _
      · exact Nat.le_of_succ_le (above l hl)

/-! ## The order -/

/-- Only lines with a mark after the first one matter. -/
theorem overtaken_congr {lines others : List NumberedLine} {first later : NumberedLine}
    (h : ∀ line, isMarked line = true → first.2 < line.2 → (line ∈ lines ↔ line ∈ others)) :
    Overtaken lines first later ↔ Overtaken others first later := by
  constructor <;> rintro ⟨marked, plain, waits⟩ <;> refine ⟨marked, plain, fun line hl mark => ?_⟩
  · exact fun between => waits line ((h line mark between.1).2 hl) mark between
  · exact fun between => waits line ((h line mark between.1).1 hl) mark between

section Order

variable {whole : Bool}

theorem unclosed_marked {line : NumberedLine} (mark : isMarked line = true)
    (before rest : List NumberedLine) :
    unclosed whole (before ++ line :: rest) = unclosed whole (line :: rest) := by
  unfold unclosed
  rw [List.filter_append, List.filter_cons_of_pos mark,
    List.getLast?_append_of_ne_nil _ (List.cons_ne_nil _ _)]

theorem unclosed_plain {line : NumberedLine} (plain : ¬ isMarked line = true)
    (before rest : List NumberedLine) :
    unclosed whole (before ++ line :: rest) = unclosed whole (before ++ rest) := by
  unfold unclosed
  rw [List.filter_append, List.filter_append, List.filter_cons_of_neg plain]

/-- Every line is run once, but for the one that is never run. -/
theorem orderFrom_perm (lines : List NumberedLine) :
    ∀ waiting : Option NumberedLine, (∀ line ∈ waiting, isMarked line = true) →
      (orderFrom whole waiting lines ++ unclosed whole (waiting.toList ++ lines)).Perm
        (waiting.toList ++ lines) := by
  induction lines with
  | nil =>
    intro waiting marked
    cases whole <;> cases waiting <;> simp_all [orderFrom, unclosed]
  | cons line rest ih =>
    intro waiting marked
    by_cases mark : isMarked line = true
    · have next := ih (some line) (by rintro _ ⟨⟩; exact mark)
      rw [orderFrom, if_pos mark, unclosed_marked mark, List.append_assoc]
      exact next.append_left waiting.toList
    · have next := ih waiting marked
      rw [orderFrom, if_neg mark, unclosed_plain mark, List.cons_append]
      exact (next.cons line).trans List.perm_middle.symm

theorem mem_of_mem_orderFrom {line : NumberedLine} (lines : List NumberedLine) :
    ∀ waiting : Option NumberedLine, line ∈ orderFrom whole waiting lines →
      line ∈ waiting.toList ++ lines := by
  induction lines with
  | nil => intro waiting h; cases whole <;> simp_all [orderFrom]
  | cons l rest ih =>
    intro waiting h
    rw [orderFrom] at h
    split at h
    · rcases List.mem_append.1 h with h | h
      · exact List.mem_append_left _ h
      · exact List.mem_append_right _ (ih (some l) h)
    · rcases List.mem_cons.1 h with rfl | h
      · exact List.mem_append_right _ List.mem_cons_self
      · exact List.mem_append.2 ((List.mem_append.1 (ih waiting h)).imp_right (List.mem_cons_of_mem l))

/-- A line before all the others has no part in what those overtake. -/
theorem overtaken_cons {w first later : NumberedLine} {lines : List NumberedLine}
    (least : ∀ l ∈ lines, w.2 < l.2) (hf : first ∈ lines) :
    Overtaken lines first later ↔ Overtaken (w :: lines) first later := by
  refine overtaken_congr fun o _ above => ?_
  have ho : o ≠ w := fun h => Nat.lt_asymm above (h ▸ least first hf)
  exact (List.mem_cons.trans (or_iff_right ho)).symm

/-- A line with a mark is not overtaken from behind the next line with a mark. -/
theorem not_overtaken_past {w l line : NumberedLine} {rest : List NumberedLine}
    (sorted : (w :: l :: rest).Pairwise (fun a b => a.2 < b.2)) (mark : isMarked l = true)
    (hl : line ∈ l :: rest) : ¬ Overtaken (w :: l :: rest) w line := by
  intro overtaken
  obtain ⟨least, sorted⟩ := List.pairwise_cons.1 sorted
  rcases List.mem_cons.1 hl with rfl | hl
  · rw [overtaken.plain] at mark
    cases mark
  · exact overtaken.waits l (by simp) mark
      ⟨least l List.mem_cons_self, (List.pairwise_cons.1 sorted).1 line hl⟩

/-- Of the lines before the next line without a mark only the one that waits is left, which that line
overtakes. -/
theorem overtakes_waiting {waiting : Option NumberedLine} {l first : NumberedLine}
    {rest : List NumberedLine} (marked : ∀ line ∈ waiting, isMarked line = true)
    (sorted : (waiting.toList ++ l :: rest).Pairwise (fun a b => a.2 < b.2))
    (mark : ¬ isMarked l = true) (hf : first ∈ waiting.toList ++ l :: rest) (lt : first.2 < l.2) :
    Overtaken (waiting.toList ++ l :: rest) first l := by
  obtain ⟨-, sorted, -⟩ := List.pairwise_append.1 sorted
  have least := (List.pairwise_cons.1 sorted).1
  have waited : first ∈ waiting := by
    rcases List.mem_append.1 hf with hf | hf
    · exact Option.mem_toList.1 hf
    · rcases List.mem_cons.1 hf with rfl | hf
      · exact absurd lt (Nat.lt_irrefl _)
      · exact absurd lt (Nat.lt_asymm (least first hf))
  refine ⟨marked first waited, eq_false_of_ne_true mark, ?_⟩
  intro o ho mark' between
  rcases List.mem_append.1 ho with ho | ho
  · rw [Option.mem_unique (Option.mem_toList.1 ho) waited] at between
    exact Nat.lt_irrefl _ between.1
  · rcases List.mem_cons.1 ho with rfl | ho
    · exact mark mark'
    · exact Nat.lt_asymm between.2 (least o ho)

/-- When a line is run, the lines before it that have not been run are those that it overtakes. -/
theorem not_run_iff_overtaken (lines : List NumberedLine) :
    ∀ waiting : Option NumberedLine, (∀ line ∈ waiting, isMarked line = true) →
      (waiting.toList ++ lines).Pairwise (fun a b => a.2 < b.2) →
      ∀ before line after, orderFrom whole waiting lines = before ++ line :: after →
        ∀ first ∈ waiting.toList ++ lines, first.2 < line.2 →
          (first ∉ before ↔ Overtaken (waiting.toList ++ lines) first line) := by
  induction lines with
  | nil =>
    intro waiting marked _ before line after cut first hf lt
    have only : line ∈ waiting.toList ++ [] :=
      mem_of_mem_orderFrom [] waiting (by rw [cut]; simp)
    cases waiting with
    | none => simp at hf
    | some w =>
      simp only [Option.toList_some, List.append_nil, List.mem_singleton] at hf only
      rw [hf, only] at lt
      exact absurd lt (Nat.lt_irrefl _)
  | cons l rest ih =>
    intro waiting marked sorted before line after cut first hf lt
    rw [orderFrom] at cut
    by_cases mark : isMarked l = true
    · rw [if_pos mark] at cut
      have next := ih (some l) (by rintro _ ⟨⟩; exact mark)
      cases waiting with
      | none => exact next sorted before line after cut first hf lt
      | some w =>
        obtain ⟨least, sorted'⟩ := List.pairwise_cons.1 sorted
        cases before with
        | nil =>
          -- nothing is before the line that waited
          obtain ⟨rfl, -⟩ : w = line ∧ orderFrom whole (some l) rest = after := List.cons.inj cut
          rcases List.mem_cons.1 hf with rfl | hf
          · exact absurd lt (Nat.lt_irrefl _)
          · exact absurd lt (Nat.lt_asymm (least first hf))
        | cons b before =>
          obtain ⟨rfl, cut'⟩ : w = b ∧ orderFrom whole (some l) rest = before ++ line :: after :=
            List.cons.inj cut
          rcases List.mem_cons.1 hf with rfl | hf
          · have hl : line ∈ l :: rest := mem_of_mem_orderFrom rest (some l) (by rw [cut']; simp)
            exact iff_of_false (fun h => h List.mem_cons_self) (not_overtaken_past sorted mark hl)
          · have other : first ≠ w := fun h => Nat.lt_irrefl _ (h ▸ least first hf)
            rw [List.mem_cons, not_or, and_iff_right other,
              next sorted' before line after cut' first hf lt]
            exact overtaken_cons least hf
    · rw [if_neg mark] at cut
      cases before with
      | nil =>
        obtain ⟨rfl, -⟩ := List.cons.inj cut
        exact iff_of_true List.not_mem_nil (overtakes_waiting marked sorted mark hf lt)
      | cons b before =>
        obtain ⟨rfl, cut'⟩ := List.cons.inj cut
        have perm : (waiting.toList ++ l :: rest).Perm (l :: (waiting.toList ++ rest)) :=
          List.perm_middle
        have sorted' : (waiting.toList ++ rest).Pairwise (fun a b => a.2 < b.2) :=
          sorted.sublist (List.Sublist.append_left (List.sublist_cons_self l rest) _)
        by_cases same : first = l
        · rw [same]
          exact iff_of_false (fun h => h List.mem_cons_self) fun overtaken => mark overtaken.marked
        · have hf' : first ∈ waiting.toList ++ rest :=
            (List.mem_cons.1 (perm.mem_iff.1 hf)).resolve_left same
          rw [List.mem_cons, not_or, and_iff_right same,
            ih waiting marked sorted' before line after cut' first hf' lt]
          refine overtaken_congr fun o mark' _ => ?_
          have ho : o ≠ l := fun h => mark (h ▸ mark')
          rw [perm.mem_iff, List.mem_cons, or_iff_right ho]

/-- A line overtakes at most one line. -/
theorem Overtaken.unique {lines : List NumberedLine} {first first' later : NumberedLine}
    (sorted : lines.Pairwise (fun a b => a.2 < b.2)) (h : Overtaken lines first later)
    (h' : Overtaken lines first' later) (hf : first ∈ lines) (hf' : first' ∈ lines)
    (lt : first.2 < later.2) (lt' : first'.2 < later.2) : first = first' := by
  rcases Nat.lt_trichotomy first.2 first'.2 with less | same | less
  · exact absurd ⟨less, lt'⟩ (h.waits first' hf' h'.marked)
  · have numbers : (lines.map (·.2)).Nodup := List.pairwise_map.2 (sorted.imp Nat.ne_of_lt)
    exact List.inj_on_of_nodup_map numbers hf hf' same
  · exact absurd ⟨less, lt⟩ (h'.waits first hf h.marked)

/-- Where a line without a mark comes after one with a mark, it overtakes the last one of them. -/
theorem exists_overtaken {lines : List NumberedLine} {later : NumberedLine}
    (plain : isMarked later = false) :
    ∀ gap first, later.2 - first.2 ≤ gap → first ∈ lines → isMarked first = true →
      first.2 < later.2 → ∃ last ∈ lines, last.2 < later.2 ∧ Overtaken lines last later := by
  intro gap
  induction gap with
  | zero => intro first close _ _ lt; omega
  | succ gap ih =>
    intro first close hf marked lt
    by_cases waits : ∀ line ∈ lines, isMarked line = true → ¬ (first.2 < line.2 ∧ line.2 < later.2)
    · exact ⟨first, hf, lt, marked, plain, waits⟩
    · push Not at waits
      obtain ⟨line, hl, mark, above, below⟩ := waits
      exact ih line (by omega) hl mark below

theorem inFileOrder_iff {lines : List NumberedLine}
    (sorted : lines.Pairwise (fun a b => a.2 < b.2)) :
    InFileOrder lines (orderFrom whole none lines) ↔
      ∀ a ∈ lines, ∀ b ∈ lines, a.2 < b.2 → isMarked a = true → isMarked b = true := by
  have missed := @not_run_iff_overtaken whole lines none nofun sorted
  constructor
  · intro inOrder a ha b hb lt marked
    by_contra mark
    have plain : isMarked b = false := eq_false_of_ne_true mark
    obtain ⟨last, hl, below, overtaken⟩ := exists_overtaken plain _ a (Nat.le_refl _) ha marked lt
    -- only lines with a mark are never run
    have ran : b ∈ orderFrom whole none lines := by
      have once : b ∈ orderFrom whole none lines ++ unclosed whole lines :=
        (orderFrom_perm lines none nofun).mem_iff.2 hb
      refine (List.mem_append.1 once).resolve_right fun never => ?_
      unfold unclosed at never
      split at never
      · cases never
      · have kept := List.mem_of_getLast? (Option.mem_toList.1 never)
        exact mark (List.mem_filter.1 kept).2
    obtain ⟨before, after, cut⟩ := List.append_of_mem ran
    exact (missed before b after cut last hl below).2 overtaken (inOrder before b after cut last hl below)
  · intro marks before line after cut first hf lt
    by_contra left
    have overtaken := (missed before line after cut first hf lt).1 left
    have there : line ∈ lines := mem_of_mem_orderFrom lines none (by rw [cut]; simp)
    have plain := overtaken.plain
    rw [marks first hf line there lt overtaken.marked] at plain
    cases plain

end Order

theorem counted_sorted (bytes : List UInt8) :
    (counted bytes).Pairwise (fun a b => a.2 < b.2) :=
  (numbered_sorted _ 1).1

end Script

namespace Run

open Script

variable {again : Mode → String → Run Output}

theorem runParts_single (source : String) (bytes : List UInt8) :
    runParts again source bytes false
      = runStatements again source "" ((runOrder bytes).map statementOf)
        >>= finish source (isWhole bytes) := by
  rw [← singles_eq]
  rfl

/-- Lines fail with what one of them fails with, after the lines that are run before it. -/
theorem failsWith_lines {source : String} {s : Session} {m : Message} (order : List NumberedLine) :
    FailsWith (runStatements again source "" (order.map statementOf)) s m ↔
      ∃ before line after last v, order = before ++ line :: after ∧
        runStatements again source "" (before.map statementOf) s = some (.ok last, v) ∧
        FailsWith (runOne again source (statementOf line)) v m := by
  rw [failsWith_runStatements]
  constructor
  · rintro ⟨_, _, _, last, v, cut, ran, failed⟩
    obtain ⟨before, rest, rfl, rfl, same⟩ := List.map_eq_append_iff.1 cut
    obtain ⟨line, after, rfl, rfl, rfl⟩ := List.map_eq_cons_iff.1 same
    exact ⟨before, line, after, last, v, rfl, ran, failed⟩
  · rintro ⟨before, line, after, last, v, rfl, ran, failed⟩
    exact ⟨_, _, after.map statementOf, last, v, by simp, ran, failed⟩

end Run

namespace Session

open Run Script

/-- **The order of a script whose statements take one line each.** It runs its lines one after the
other: lines without a mark at once, and one with a mark when the next one with a mark is read, or
at the end. Each of them is run once, unless one fails or the script cannot be read to its end. The
lines before a line that have not been run when it is run are those that it overtakes, of which
there is at most one; so they are all that a line that fails leaves out of what comes before it.
Scripts are run in the order of their file if and only if no line without a mark comes after one
with a mark. -/
theorem lines_run_in_order (again : Mode → String → Run Output) (source dir : String)
    (bytes : List UInt8) :
    let lines := counted bytes
    let order := runOrder bytes
    let runs := fun ls : List NumberedLine => runStatements again source "" (ls.map statementOf)
    (executeScript again source dir bytes false
      = withDirectory dir (withOutput "default" (runs order >>= finish source (isWhole bytes)))) ∧
    ((readScript again source false {} (rawLines bytes) >>= fun read => answerOf read.1)
      = runs order >>= finish source (isWhole bytes)) ∧
    (order ++ unclosed (isWhole bytes) lines).Perm lines ∧
    lines.Pairwise (fun a b => a.2 < b.2) ∧
    (∀ s m, FailsWith (runs order) s m ↔
      ∃ before line after last v, order = before ++ line :: after ∧
        runs before s = some (.ok last, v) ∧
        FailsWith (runOne again source (statementOf line)) v m) ∧
    (∀ before line after, order = before ++ line :: after → ∀ first ∈ lines, first.2 < line.2 →
      (first ∉ before ↔ Overtaken lines first line) ∧
      ∀ other ∈ lines, other.2 < line.2 → other ∉ before → first ∉ before → other = first) ∧
    (InFileOrder lines order ↔
      ∀ a ∈ lines, ∀ b ∈ lines, a.2 < b.2 → isMarked a = true → isMarked b = true) := by
  intro lines order runs
  have sorted : lines.Pairwise (fun a b => a.2 < b.2) := counted_sorted bytes
  have missed := @not_run_iff_overtaken (isWhole bytes) lines none nofun sorted
  have loop := @runParts_single again source bytes
  refine ⟨?_, ?_, orderFrom_perm lines none nofun, sorted, ?_, ?_, inFileOrder_iff sorted⟩
  · rw [executeScript_eq_runParts, loop]
  · rw [readScript_eq_runParts, loop]
  · intro s m
    exact failsWith_lines order
  · intro before line after cut first hf lt
    refine ⟨missed before line after cut first hf lt, ?_⟩
    intro other ho lt' left' left
    exact Overtaken.unique sorted ((missed before line after cut other ho lt').1 left')
      ((missed before line after cut first hf lt).1 left) ho hf lt' lt

set_option maxRecDepth 8000 in
/-- The first line waits, and the second one fails before it is run. -/
theorem waiting_line_skipped :
    let order := runOrder (Text.Utf8.encode "/first\nbogus\n")
    order = [("bogus", 2), ("/first", 1)] ∧
    ¬ InFileOrder (counted (Text.Utf8.encode "/first\nbogus\n")) order ∧
    (executeReader 1 "f" "." (Text.Utf8.encode "/first\nbogus\n") false {}).map
        (fun ended => (ended.1.mapError Message.text, ended.2.host.calls))
      = some (.error "unknown command - bogus", []) := by
  intro order
  have run : order = [("bogus", 2), ("/first", 1)] := by decide +kernel
  have counts : ("/first", 1) ∈ counted (Text.Utf8.encode "/first\nbogus\n") := by
    decide +kernel
  refine ⟨run, fun inOrder => ?_, by decide +kernel⟩
  have ran := inOrder [] ("bogus", 2) [("/first", 1)] run ("/first", 1) counts Nat.one_lt_two
  exact List.not_mem_nil ran

end Session

end LogConsole
