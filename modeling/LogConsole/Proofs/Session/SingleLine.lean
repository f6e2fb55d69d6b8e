import LogConsole.Proofs.Session.Parts
import LogConsole.Proofs.Text.Blanks
import LogConsole.Proofs.Text.Utf8

/-!
# LogConsole.Proofs.Session.SingleLine

A line with a mark by itself, as an entry of a batch, and as all of a script.

* `Text.lines_marked`     — it is one line, whatever ends it; carriage returns may be lost;
* `Script.texts_encode`   — lines are read back from their bytes;
* `Script.parts_marked`   — it is one statement, also where statements may go over many lines;
* `executeScript_marked`  — that statement is all that such a script runs;
* `single_line_payloads`  — the payload in all three places.

A script trims a payload at both ends. The other two cut blanks off at its end only, so that a
payload which is `Indented` comes out differently: `indented_search` searches two patterns.
-/

namespace LogConsole

namespace Text

/-- What may stand between a line and the end of a text. -/
def lineEnds : List String := ["", "\n", "\r\n"]

theorem closeLine_reverse {α : Type} [DecidableEq α] (cr : α) (line : List α) :
    ∃ more, line = closeLine cr line.reverse ++ more ∧ ∀ c ∈ more, c = cr := by
  induction line using List.reverseRecOn with
  | nil => exact ⟨[], rfl, by simp⟩
  | append_singleton line c _ =>
    by_cases hc : c = cr
    · exact ⟨[c], by simp [closeLine, hc], by simp [hc]⟩
    · exact ⟨[], by simp [closeLine, hc], by simp⟩

/-- What a line loses with its end. -/
theorem cutLines_single {line : List Char} {ending : String} (nonempty : line ≠ [])
    (single : '\n' ∉ line) (ends : ending ∈ lineEnds) :
    ∃ kept more, cutLines '\n' '\r' (line ++ ending.toList) = [kept] ∧ line = kept ++ more ∧
      ∀ c ∈ more, c = '\r' := by
  simp only [lineEnds, List.mem_cons, List.not_mem_nil, or_false] at ends
  rcases ends with rfl | rfl | rfl
  · refine ⟨line, [], ?_, by simp, by simp⟩
    rw [cutLines, cutLinesFrom_append single]
    simp [cutLinesFrom, nonempty]
  · obtain ⟨more, whole, all⟩ := closeLine_reverse '\r' line
    refine ⟨closeLine '\r' line.reverse, more, ?_, whole, all⟩
    have cut := cutLinesFrom_append_lf '\n' '\r' [] line [] single
    rwa [List.append_nil] at cut
  · refine ⟨line, [], ?_, by simp, by simp⟩
    have cut := cutLinesFrom_append_lf '\n' '\r' [] (line ++ ['\r']) [] (by simp [single])
    rw [List.append_assoc] at cut
    exact cut.trans (by simp [closeLine])

theorem lines_marked (mode : Mode) {rest ending : String} (single : '\n' ∉ rest.toList)
    (ends : ending ∈ lineEnds) :
    ∃ head, lines (String.singleton mode.mark ++ rest ++ ending)
        = [String.singleton mode.mark ++ head] ∧ trim head = trim rest := by
  have marked : '\n' ∉ mode.mark :: rest.toList := by
    rw [List.mem_cons, not_or]
    exact ⟨by cases mode <;> decide, single⟩
  obtain ⟨kept, more, cut, whole, all⟩ := cutLines_single (List.cons_ne_nil _ _) marked ends
  -- the mark is not lost
  obtain ⟨head, rfl, rest_eq⟩ : ∃ head, kept = mode.mark :: head ∧ rest.toList = head ++ more := by
    cases kept with
    | nil =>
      have lost := all mode.mark (by rw [← List.nil_append more, ← whole]; exact List.mem_cons_self)
      cases mode <;> exact absurd lost (by decide)
    | cons c head =>
      obtain ⟨rfl, rest_eq⟩ := List.cons.inj whole
      exact ⟨head, rfl, rest_eq⟩
  have joined : rest = String.ofList head ++ String.ofList more := by
    rw [← String.toList_inj, String.toList_append, String.toList_ofList, String.toList_ofList,
      rest_eq]
  refine ⟨String.ofList head, ?_, ?_⟩
  · rw [lines, String.toList_append, Mode.toList_marked, cut, List.map_singleton,
      List.cons.injEq, ← String.toList_inj, Mode.toList_marked, String.toList_ofList,
      String.toList_ofList]
    exact ⟨rfl, rfl⟩
  · rw [joined, trim_append]
    intro c hc
    rw [all c (by rwa [String.toList_ofList] at hc)]
    decide

end Text

namespace Script

theorem texts_encode (ss : List String) : texts (ss.map Text.Utf8.encode) = (ss, true) := by
  induction ss with
  | nil => rfl
  | cons s rest ih => simp only [List.map_cons, texts, Text.Utf8.decode?_encode, ih]

theorem opening?_marked (mode : Mode) (head : String) :
    opening? (String.singleton mode.mark ++ head) = some (mode, head) := by
  simp only [opening?, Mode.toList_marked, Mode.ofMark?_mark, Option.map_some,
    String.ofList_toList]

theorem isIgnored_marked (mode : Mode) (head : String) :
    isIgnored (String.singleton mode.mark ++ head) = false := by
  have solid : (Text.trim (String.singleton mode.mark ++ head)).isEmpty = false := by
    rw [← Bool.not_eq_true, String.isEmpty_iff, ← String.toList_eq_nil_iff, Mode.trim_marked]
    exact List.cons_ne_nil _ _
  have mark : mode.mark ≠ '#' := by cases mode <;> decide
  simp [isIgnored, solid, mark]

theorem parts_marked (mode : Mode) {rest ending : String} (single : '\n' ∉ rest.toList)
    (ends : ending ∈ Text.lineEnds) (multiline : Bool) :
    let bytes := Text.Utf8.encode (String.singleton mode.mark ++ rest ++ ending)
    parts multiline bytes = [⟨mode, 1, Text.trim rest⟩] ∧ isWhole bytes = true := by
  intro bytes
  obtain ⟨head, cut, trimmed⟩ := Text.lines_marked mode single ends
  have read : texts (Text.byteLines bytes) = ([String.singleton mode.mark ++ head], true) := by
    rw [Text.Utf8.byteLines_encode, cut, texts_encode]
  have whole : isWhole bytes = true := by rw [isWhole, read]
  have counted : numbered 1 (texts (Text.byteLines bytes)).1
      = [(String.singleton mode.mark ++ head, 1)] := by
    rw [read, numbered_cons, isIgnored_marked]
    rfl
  refine ⟨?_, whole⟩
  cases multiline with
  | true =>
    simp only [parts, if_true, statements, whole, counted, assemble, opening?_marked, completed]
    rw [← trimmed]
    rfl
  | false =>
    simp only [parts, Bool.false_eq_true, if_false, singles, whole, counted, singlesFrom,
      opening?_marked, flushed]
    rw [← trimmed]
    rfl

end Script

namespace Run

open Script

variable (again : Mode → String → Run Output) (mode : Mode) {rest : String}

theorem executeWith_marked (rest : String) :
    executeWith again (String.singleton mode.mark ++ rest) = do
      let output ← ensuring (again mode (Text.trimEnd rest)) refreshAfter
      return output.summary := by
  rw [executeWith, Mode.split_marked]

/-- The line is the only statement of the script, and has the number one. -/
theorem executeScript_marked {ending : String} (single : '\n' ∉ rest.toList)
    (ends : ending ∈ Text.lineEnds) (source dir : String) (multiline : Bool) :
    executeScript again source dir
        (Text.Utf8.encode (String.singleton mode.mark ++ rest ++ ending)) multiline
      = withDirectory dir (withOutput "default"
          (runOne again source ⟨mode, 1, Text.trim rest⟩)) := by
  obtain ⟨read, whole⟩ := parts_marked mode single ends multiline
  rw [executeScript_eq_runParts]
  congr 2
  simp only [runParts, read, whole, runStatements, finish, if_true, bind_pure]

end Run

namespace Session

open Run

/-- **What a line with a mark dispatches.** By itself and as an entry of a batch, a line dispatches
what follows its mark without the blanks at its end. As all of a script, in any file, whatever ends
it and whether or not statements go over many lines, it dispatches what follows its mark without
the blanks at both ends, if there has been no interrupt. The mode is the same, and the two payloads
are the same text unless there are blanks after the mark and something after these. -/
theorem single_line_payloads (mode : Mode) (rest : String) (single : '\n' ∉ rest.toList) :
    let line := String.singleton mode.mark ++ rest
    let typed := Text.trimEnd rest
    let read := Text.trim rest
    (∀ again, executeWith again line = do
      let output ← ensuring (again mode typed) refreshAfter
      return output.summary) ∧
    (∀ fuel index (s : Session), executeEntry fuel index line s =
      (dispatchMode fuel mode typed (s.entryStart index line)).map fun ended =>
        ⟨line, (resultOf ended.1).1, (resultOf ended.1).2, s.entryEnd index line ended.2⟩) ∧
    (∀ again source dir multiline, ∀ ending ∈ Text.lineEnds,
      executeScript again source dir (Text.Utf8.encode (line ++ ending)) multiline
        = withDirectory dir (withOutput "default" (do
            checkInterrupt
            let output ← withSource (statementSource source 1 mode read) (again mode read)
            return output.summary))) ∧
    (read = typed ↔ ¬ Text.Indented rest) := by
  intro line typed read
  refine ⟨?_, ?_, ?_, Text.trim_eq_trimEnd_iff rest⟩
  · intro again
    exact executeWith_marked again mode rest
  · intro fuel index s
    rw [executeEntry_eq, Mode.split_marked]
  · intro again source dir multiline ending ends
    exact executeScript_marked again mode single ends source dir multiline

/-- A search with blanks at its end only. -/
theorem plain_search_everywhere :
    let rest := "error "
    '\n' ∉ rest.toList ∧ ¬ Text.Indented rest ∧ Text.trimEnd rest = "error" ∧
    ∀ again source, executeScript again source "." (Text.Utf8.encode ("/error " ++ "\r\n")) true
      = withDirectory "." (withOutput "default" (do
          checkInterrupt
          let output ← withSource (statementSource source 1 .search "error")
            (again .search "error")
          return output.summary)) := by
  intro rest
  have single : '\n' ∉ rest.toList := by decide
  obtain ⟨-, -, script, same⟩ := single_line_payloads .search rest single
  have typed : Text.trimEnd rest = "error" := by decide +kernel
  have read : Text.trim rest = "error" := by decide +kernel
  refine ⟨single, same.1 (read.trans typed.symm), typed, ?_⟩
  intro again source
  have ran := script again source "." true "\r\n" (by decide)
  rw [read] at ran
  exact ran

/-- What the host has been asked to do in a run that ends. -/
def callsOf {α : Type} (ran : Option (α × Session)) : Option (List HostCall) :=
  ran.map fun ended => ended.2.host.calls

set_option maxRecDepth 8000 in
/-- The pattern ` foo` has a blank in front of it, and a script searches another pattern. -/
theorem indented_search :
    callsOf (executeAny 1 "/ foo" {}) = some [.search " foo"] ∧
    (executeEntry 1 0 "/ foo" {}).map (fun entry => entry.session.host.calls)
      = some [.search " foo", .rescan, .rebuild] ∧
    callsOf (executeReader 1 "f" "." (Text.Utf8.encode "/ foo\n") true {})
      = some [.search "foo"] := by
  refine ⟨?_, ?_, ?_⟩ <;> decide +kernel

end Session

end LogConsole
