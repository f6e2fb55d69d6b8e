import LogConsole.CommandLine
import LogConsole.Proofs.Expansion.Literal
import LogConsole.Proofs.Expansion.Quoting
import LogConsole.Proofs.Script.Resolution
import LogConsole.Proofs.Session.Acts
import LogConsole.Proofs.Text.Blanks
import LogConsole.Session.Dispatch

/-!
# LogConsole.Proofs.Program.ScriptOption

The scripts of the command line. A path is written into a line of the batch as it is, and taken
out of the line again as an invocation is: trimmed, expanded and split into words.

* `Mode.split_script_line`     — the payload of such a line is the path without the blanks at its
  end;
* `only_word_iff`              — the path is the only word of it, whatever the variables are, if
  and only if it is `Literal` and ends in no blank;
* `only_word_of_quoted`        — in single quotes every path would be;
* `dispatchMode_file`          — a path that is the only word is run, without arguments;
* `script_option_runs_literal` — the two together, for every command line.

A path with a blank in it is cut there (`blank_cuts_path`).
-/

namespace LogConsole

theorem Mode.split_script_line (path : String) :
    Mode.split ("|" ++ path) = (.script, Text.trimEnd path) := Mode.split_marked .script path

/-! ## The words of the line -/

/-- The blanks at the end of a path are lost, and so is what is not literal. -/
theorem only_word_iff (path : String) :
    (∀ lookup, splitExpanded lookup (Text.trimEnd path) = .ok [path]) ↔
      Literal path ∧ ∀ c ∈ path.toList.getLast?, Text.isBlank c = false := by
  rw [← Text.dropBlanksEnd_eq_self_iff]
  constructor
  · intro h
    obtain ⟨-, hword⟩ := literal_of_splitExpanded (h Expansion.nothing)
    have hle : (Text.trimEnd path).length ≤ path.length := by
      rw [Text.trimEnd, String.length_ofList, ← String.length_toList]
      exact (Text.dropBlanksEnd_prefix path.toList).length_le
    obtain ⟨hpath, hliteral⟩ := hword hle
    rw [← hpath] at hliteral
    refine ⟨hliteral, ?_⟩
    have hchars := congrArg String.toList hpath
    rw [Text.trimEnd, String.toList_ofList] at hchars
    exact hchars.symm
  · rintro ⟨hliteral, hend⟩ lookup
    rw [Text.trimEnd, hend, String.ofList_toList]
    exact splitExpanded_of_literal hliteral lookup

/-- In single quotes every path would be the only word. -/
theorem only_word_of_quoted (path : String) (lookup : String → Option String) :
    splitExpanded lookup (Text.trimEnd (Words.quote path)) = .ok [path] := by
  have hend : Text.trimEnd (Words.quote path) = Words.invocation [path] := by
    have hlast : Text.dropBlanksEnd (Words.quote path).toList = (Words.quote path).toList := by
      rw [Text.dropBlanksEnd_eq_self_iff, Words.toList_quote, ← List.cons_append,
        List.getLast?_concat]
      rintro c ⟨⟩
      decide
    rw [Text.trimEnd, hlast, String.ofList_toList, Words.invocation, List.map_singleton,
      String.intercalate_singleton]
  rw [hend]
  exact Words.splitExpanded_invocation lookup [path]

/-! ## The script that is run -/

namespace Resolver

/-- A name that is no name of a script stands for the file of that name. -/
theorem resolve_file {r : Resolver} {ctx : Context} {disk : Disk} {path : String}
    (notStdin : isStdin path = false) (unnamed : r.filesNamed disk path = [])
    (isFile : disk.isFile path = true) :
    r.resolve ctx disk path = (.ok [Candidate.ofFile disk path], r) := by
  rw [resolve_literal notStdin unnamed, literalFile_here isFile]

end Resolver

namespace Run

theorem resolveScript_file {s : Session} {path : String}
    (notStdin : Resolver.isStdin path = false)
    (unnamed : s.resolver.filesNamed s.disk path = []) (isFile : s.disk.isFile path = true) :
    resolveScript path s = some (.ok [Candidate.ofFile s.disk path], s) := by
  rw [resolveScript, Resolver.resolve_file notStdin unnamed isFile]

theorem executeAll_singleton (again : Mode → String → Run Output) (multiline : Bool)
    (c : Candidate) : executeAll again multiline "" [c] = executeCandidate again multiline c :=
  bind_pure (executeCandidate again multiline c)

theorem executeFile_file {s : Session} {invocation path : String}
    (word : splitExpanded s.console.lookup invocation = .ok [path])
    (notStdin : Resolver.isStdin path = false)
    (unnamed : s.resolver.filesNamed s.disk path = []) (isFile : s.disk.isFile path = true)
    (again : Mode → String → Run Output) (multiline : Bool) :
    executeFile again invocation multiline s
      = withScope (Script.scriptVariables [path])
          (executeCandidate again multiline (Candidate.ofFile s.disk path)) s := by
  let t := s.changeConsole (Frame.scope (Script.scriptVariables [path])).enter
  have hresolve : resolveScript path t = some (.ok [Candidate.ofFile s.disk path], t) :=
    resolveScript_file (s := t) notStdin unnamed isFile
  have hinside : (do executeAll again multiline "" (← resolveScript path)) t
      = executeCandidate again multiline (Candidate.ofFile s.disk path) t := by
    rw [bind_def, hresolve]
    exact congrFun (executeAll_singleton again multiline _) t
  simp only [executeFile, word]
  rw [withScope, within, ensuring, hinside]
  rfl

end Run

namespace Session

open Run

theorem dispatchMode_file {s : Session} {invocation path : String}
    (word : splitExpanded s.console.lookup invocation = .ok [path])
    (notStdin : Resolver.isStdin path = false)
    (unnamed : s.resolver.filesNamed s.disk path = []) (isFile : s.disk.isFile path = true)
    (fuel : Nat) :
    dispatchMode (fuel + 1) .script invocation s
      = (do
          let answer ← withScope (Script.scriptVariables [path])
            (executeCandidate (dispatchMode fuel) true (Candidate.ofFile s.disk path))
          return ({ summary := answer } : Output)) s := by
  rw [dispatchMode, step, bind_def, executeFile_file word notStdin unnamed isFile, bind_def]

end Session

namespace Program

theorem initialCommands_script {c : CommandLine} {i : Nat} {path : String}
    (named : c.scripts[i]? = some path) :
    c.initialCommands[c.commands.length + i]? = some ("|" ++ path) := by
  rw [CommandLine.initialCommands, List.getElem?_append_right (Nat.le_add_right _ _),
    Nat.add_sub_cancel_left, List.getElem?_map, named]
  rfl

/-- The entry that a script option adds to the batch runs the file that the option names, without
arguments and whatever the variables are, if and only if the path is literal and does not end in a
blank. -/
theorem script_option_runs_literal (c : CommandLine) (i : Nat) (path : String)
    (named : c.scripts[i]? = some path) :
    ∃ line payload, c.initialCommands[c.commands.length + i]? = some line ∧
      Mode.split line = (.script, payload) ∧
      ((∀ lookup, splitExpanded lookup payload = .ok [path]) ↔
        Literal path ∧ ∀ c ∈ path.toList.getLast?, Text.isBlank c = false) ∧
      ∀ s : Session, splitExpanded s.console.lookup payload = .ok [path] →
        Resolver.isStdin path = false → s.resolver.filesNamed s.disk path = [] →
        s.disk.isFile path = true → ∀ fuel,
          Session.dispatchMode (fuel + 1) .script payload s
            = (do
                let answer ← Run.withScope (Script.scriptVariables [path])
                  (Run.executeCandidate (Session.dispatchMode fuel) true
                    (Candidate.ofFile s.disk path))
                return ({ summary := answer } : Output)) s := by
  refine ⟨"|" ++ path, Text.trimEnd path, initialCommands_script named,
    Mode.split_script_line path, only_word_iff path, ?_⟩
  intro s word notStdin unnamed isFile fuel
  exact Session.dispatchMode_file word notStdin unnamed isFile fuel

/-- A session whose disk holds one script. -/
def sessionWith (name : String) : Session where
  console :=
    { world := { disk := { nodes := [([], .dir), ([name], .file 0)]
                           contents := [Text.Utf8.encode ":echo hi\n"] } } }

theorem literal_report : Literal "report.lsh" where
  nonempty := by decide
  characters := by
    have all : ("report.lsh".toList.all fun c => decide (Words.IsLiteral c)) = true := by decide
    simpa only [List.all_eq_true, decide_eq_true_eq] using all
  noComment := by decide
  noReference := by
    intro c rest hs
    have hdollar : '$' ∈ "report.lsh".toList := hs.subset List.mem_cons_self
    exact absurd hdollar (by decide)

theorem report_is_run :
    let s := sessionWith "report.lsh"
    ∃ payload,
      Mode.split "|report.lsh" = (.script, payload) ∧
      Session.dispatchMode 3 .script payload s
        = (do
            let answer ← Run.withScope (Script.scriptVariables ["report.lsh"])
              (Run.executeCandidate (Session.dispatchMode 2) true
                (Candidate.ofFile s.disk "report.lsh"))
            return ({ summary := answer } : Output)) s := by
  intro s
  obtain ⟨line, payload, hline, hsplit, hword, hrun⟩ :=
    script_option_runs_literal { commands := [":echo hi"], scripts := ["report.lsh"] } 0
      "report.lsh" rfl
  cases hline
  have last : ∀ c ∈ "report.lsh".toList.getLast?, Text.isBlank c = false := by
    intro c hc
    rw [show "report.lsh".toList.getLast? = some 'h' by decide] at hc
    cases hc
    decide
  have words := hword.2 ⟨literal_report, last⟩ s.console.lookup
  exact ⟨payload, hsplit, hrun s words (by decide) (by decide +kernel) (by decide +kernel) 2⟩

/-- The script is there, and the path names it; but what is run is its first part. -/
theorem blank_cuts_path :
    let s := sessionWith "my script.lsh"
    s.disk.isFile "my script.lsh" = true ∧ Resolver.isStdin "my script.lsh" = false ∧
    s.resolver.filesNamed s.disk "my script.lsh" = [] ∧
    ({ scripts := ["my script.lsh"] } : CommandLine).initialCommands = ["|my script.lsh"] ∧
    (splitExpanded s.console.lookup (Mode.split "|my script.lsh").2).toOption
      = some ["my", "script.lsh"] ∧
    ∃ e t, Session.dispatch 3 "|my script.lsh" s = some (.error e, t) ∧
      e.text = "unknown script -- my -- file not found" := by
  intro s
  refine ⟨by decide +kernel, by decide, by decide +kernel, by decide, by decide +kernel, ?_⟩
  have failed : (Session.dispatch 3 "|my script.lsh" s).map
      (fun e => e.1.map (fun _ => ()) |>.mapError Message.text)
        = some (.error "unknown script -- my -- file not found") := by
    decide +kernel
  obtain ⟨⟨r, t⟩, ran, he⟩ := Option.map_eq_some_iff.1 failed
  cases r with
  | ok answer => cases he
  | error e => exact ⟨e, t, ran, Except.error.inj he⟩

end Program

end LogConsole
