import LogConsole.Proofs.Session.Faults
import LogConsole.Proofs.Session.Parts
import LogConsole.Proofs.Session.Results

/-!
# LogConsole.Proofs.Session.Descent

What a line, an invocation and a script come to, and what they fail with.

* `command?`       — the command that a line names;
* `Evaluates`      — `eval` comes to dispatch a text;
* `ComesToFile`    — an invocation comes to one of the files that it stands for;
* `Opens`          — the text of a file is at hand;
* `ComesTo`, `Stops` — a script comes to one of its statements, or is stopped between them;
* `failsWith_runCommand_builtin`, `failsWith_runBuiltin`, `failsWith_executeFile`,
  `failsWith_executeCandidate`, `failsWith_executeScript` — each fails exactly with what it fails
  with by itself, and with what that fails with which it has come to.

What lines do is left open: `again` is any function from modes and payloads.
-/

namespace LogConsole

namespace Session

open Run Script

/-! ## Frames -/

def enterHelp (c : Command) (s : Session) : Session := s.changeConsole (Frame.help c.help).enter

/-- The scripts that a name stands for are run in a scope of their own. -/
def enterArguments (words : List String) (s : Session) : Session :=
  s.changeConsole (Frame.scope (scriptVariables words)).enter

/-- A script is run in its directory, with an output of its own. -/
def enterScript (dir : String) (s : Session) : Session :=
  (s.changeConsole (Frame.directory dir).enter).changeConsole (Frame.output "default" none).enter

/-- The line that `eval` dispatches, as the source of what runs in it. -/
def evalSource (text : String) : Snippet := ⟨"eval", 1, 0, text⟩

def enterEval (text : String) (s : Session) : Session :=
  s.changeConsole (Frame.source (evalSource text)).enter

def enterStatement (source : String) (st : Statement) (s : Session) : Session :=
  s.changeConsole (Frame.source (statementSource source st.line st.mode st.payload)).enter

/-! ## Points of a run -/

/-- The command that a line names. -/
def command? (s : Session) (line : String) : Option Command :=
  (Text.words line).head?.bind s.commands.get?

/-- `eval` comes to dispatch a text. -/
structure Evaluates (s : Session) (line text : String) : Prop where
  given : (argumentText line).isEmpty = false
  expanded : expand s.console.lookup (argumentText line) = .ok text
  wet : s.context.dryRun = false

/-- An invocation names no script. -/
inductive Unnamed (s : Session) (invocation : String) : Message → Prop where
  | unparsed {e : ExpansionError} (h : splitExpanded s.console.lookup invocation = .error e) :
      Unnamed s invocation
        ((s.context.error .parseFailure "unable to parse path").withReason e.message)
  | empty (h : splitExpanded s.console.lookup invocation = .ok []) :
      Unnamed s invocation (s.context.error .noCommandGiven "no script specified")

/-- The text of a candidate is at hand: its name, its directory, its bytes, and the session, from
which standard input has been taken if it is that. -/
inductive Opens (s : Session) (c : Candidate) :
    String → String → List UInt8 → Session → Prop where
  | stdin (h : c.source = .stdin) :
      Opens s c "-" "." s.world.stdin (s.changeWorld fun w => { w with stdin := [] })
  | file {path : String} {bytes : List UInt8} (h : c.source = .file path)
      (read : s.disk.read path = .ok bytes) : Opens s c path (directoryOf path) bytes s

/-- The text of a candidate is not at hand. -/
inductive Unopened (s : Session) (c : Candidate) : Message → Prop where
  | missing {path : String} {e : IoError} (h : c.source = .file path)
      (find : s.disk.find path = .error e) :
      Unopened s c ((s.context.error .scriptNotFound "unable to open file").withReason e.message)
  | unreadable {path : String} {e : IoError} {found : Location × Node}
      (h : c.source = .file path) (find : s.disk.find path = .ok found)
      (read : s.disk.read path = .error e) :
      Unopened s c
        ((s.context.error .commandFailed ("unable to read " ++ path)).withReason e.message)

/-- The run of an invocation comes to one of its files, with those before it run well. -/
inductive ComesToFile (again : Mode → String → Run Output) (invocation : String)
    (multiline : Bool) (s : Session) (c : Candidate) (v : Session) : Prop where
  | intro {name answer : String} {args : List String} {before after : List Candidate} {t : Session}
      (named : splitExpanded s.console.lookup invocation = .ok (name :: args))
      (resolved : resolveScript name (s.enterArguments (name :: args))
        = some (.ok (before ++ c :: after), t))
      (ran : executeAll again multiline "" before t = some (.ok answer, v))

/-- An invocation whose name stands for no file. -/
inductive Unresolved (s : Session) (invocation : String) : Session → Message → Prop where
  | intro {name : String} {args : List String} {m : Message}
      (named : splitExpanded s.console.lookup invocation = .ok (name :: args))
      (h : FailsWith (resolveScript name) (s.enterArguments (name :: args)) m) :
      Unresolved s invocation (s.enterArguments (name :: args)) m

/-- The run of a script comes to one of its statements, with those before it run well. -/
inductive ComesTo (again : Mode → String → Run Output) (source dir : String) (bytes : List UInt8)
    (multiline : Bool) (s : Session) (st : Statement) (v : Session) : Prop where
  | intro {before after : List Statement} {answer : String}
      (there : parts multiline bytes = before ++ st :: after)
      (ran : runStatements again source "" before (s.enterScript dir) = some (.ok answer, v))

/-- A script is stopped before one of its statements, or where it cannot be read any further. -/
inductive Stops (again : Mode → String → Run Output) (source dir : String) (bytes : List UInt8)
    (multiline : Bool) (s v : Session) : Message → Prop where
  | interrupted {st : Statement} (comes : ComesTo again source dir bytes multiline s st v)
      (h : v.interrupted = true) :
      Stops again source dir bytes multiline s v (v.context.error .interrupted "interrupted")
  | cut {answer : String}
      (ran : runStatements again source "" (parts multiline bytes) (s.enterScript dir)
        = some (.ok answer, v))
      (h : isWhole bytes = false) :
      Stops again source dir bytes multiline s v
        ((v.context.error .commandFailed ("unable to read " ++ source)).withReason
          IoError.invalidUtf8.message)

end Session

namespace Run

open Session Script

variable {again : Mode → String → Run Output} {s : Session} {m : Message}

/-! ## Commands -/

theorem runCommand_found {line : String} {c : Command} (called : s.command? line = some c) :
    runCommand again line s
      = withHelp c.help (runHandler again c.handler line (Text.words line)) s := by
  unfold command? at called
  unfold runCommand
  cases hw : Text.words line with
  | nil => rw [hw] at called; cases called
  | cons name rest =>
    rw [hw] at called
    have called : s.commands.get? name = some c := called
    dsimp only
    rw [bind_def, Run.get]
    dsimp only
    rw [called]

/-- A line that names no command fails by itself. -/
theorem runCommand_missing_fails {line : String} (missing : s.command? line = none) :
    ∃ kind text, ∀ again, runCommand again line s = fail kind text s := by
  unfold command? at missing
  cases hw : Text.words line with
  | nil =>
    refine ⟨.noCommandGiven, "no command to execute", fun again => ?_⟩
    simp only [runCommand, hw]
  | cons name rest =>
    rw [hw] at missing
    have missing : s.commands.get? name = none := missing
    refine ⟨.unknownCommand, "unknown command - " ++ name, fun again => ?_⟩
    simp only [runCommand, hw]
    rw [bind_def, Run.get]
    dsimp only
    rw [missing]
    rfl

theorem runCommand_missing {line : String} (missing : s.command? line = none) :
    runCommand again line s = runCommand endless line s := by
  obtain ⟨kind, text, fails⟩ := runCommand_missing_fails missing
  rw [fails, fails]

theorem runCommand_missing_still {line : String} {r : Except Message String} {t : Session}
    (missing : s.command? line = none) (h : runCommand again line s = some (r, t)) : t = s := by
  obtain ⟨kind, text, fails⟩ := runCommand_missing_fails missing
  rw [fails] at h
  cases h
  rfl

theorem tells_runCommand_missing {line : String} (missing : s.command? line = none) :
    Tells (runCommand endless line) s := by
  obtain ⟨kind, text, fails⟩ := runCommand_missing_fails missing
  rintro m ⟨t, h⟩
  rw [fails] at h
  exact tells_fail kind text m ⟨t, h⟩

theorem failsWith_runCommand_builtin {line : String} {c : Command} {b : Builtin}
    (called : s.command? line = some c) (builtin : c.handler = .builtin b) :
    FailsWith (runCommand again line) s m ↔
      FailsWith (runBuiltin again b line (Text.words line)) (s.enterHelp c) m := by
  rw [FailsWith, runCommand_found called, builtin]
  exact failsWith_within

theorem failsWith_runCommand_procedure {line : String} {c : Command}
    {start : String → List String → Procedure} (called : s.command? line = some c)
    (outside : c.handler = .procedure start) :
    FailsWith (runCommand again line) s m ↔
      FailsWith (runProcedure again (start line (Text.words line))) (s.enterHelp c) m := by
  rw [FailsWith, runCommand_found called, outside]
  exact failsWith_within

theorem eval_evaluates {line text : String} (h : Evaluates s line text) :
    eval again line s = withSource (evalSource text) (executeWith again text) s := by
  simp only [eval, h.given, Bool.false_eq_true, if_false, bind_def, expandText, h.expanded,
    Run.get, h.wet]
  rfl

theorem eval_alone {line : String} (h : ∀ text, ¬ Evaluates s line text) :
    eval again line s = eval endless line s := by
  cases given : (argumentText line).isEmpty with
  | true => simp only [eval, given, if_true]
  | false =>
    cases expanded : expand s.console.lookup (argumentText line) with
    | error e => simp only [eval, given, Bool.false_eq_true, if_false, bind_def, expandText,
        expanded, failFor]
    | ok text =>
      cases dry : s.context.dryRun with
      | true => simp only [eval, given, Bool.false_eq_true, if_false, bind_def, expandText,
          expanded, Run.get, dry, if_true]
      | false => exact absurd ⟨given, expanded, dry⟩ (h text)

/-- Where the text that it dispatches does not end, `eval` may still end by itself. -/
theorem eval_endless_still {line : String} {r : Except Message String} {t : Session}
    (h : eval endless line s = some (r, t)) : t = s := by
  simp only [eval] at h
  split at h
  · cases h; rfl
  · rw [bind_def] at h
    split at h
    · cases h
    · rename_i ht; cases h; exact expandText_state ht
    · rename_i text u ht
      rw [bind_def, Run.get] at h
      dsimp only at h
      split at h
      · cases h; exact expandText_state ht
      · cases h

/-- `eval` fails by itself, or the text that it dispatches does. -/
theorem failsWith_eval {line : String} :
    FailsWith (eval again line) s m ↔
      FailsWith (eval endless line) s m ∨ ∃ text, Evaluates s line text ∧
        FailsWith (again (Mode.split text).1 (Mode.split text).2) (s.enterEval text) m := by
  by_cases h : ∃ text, Evaluates s line text
  · obtain ⟨text, h⟩ := h
    have one (other : String) (ho : Evaluates s line other) : other = text :=
      Except.ok.inj (ho.expanded.symm.trans h.expanded)
    have step (again : Mode → String → Run Output) : FailsWith (eval again line) s m ↔
        FailsWith (again (Mode.split text).1 (Mode.split text).2) (s.enterEval text) m := by
      rw [FailsWith, eval_evaluates h]
      exact failsWith_within.trans failsWith_executeWith
    rw [step, step]
    constructor
    · intro hf; exact .inr ⟨text, h, hf⟩
    · rintro (⟨t, hf⟩ | ⟨other, ho, hf⟩)
      · cases hf
      · rwa [one other ho] at hf
  · have h := not_exists.1 h
    rw [FailsWith, eval_alone h]
    constructor
    · exact .inl
    · rintro (hf | ⟨text, ht, -⟩)
      · exact hf
      · exact absurd ht (h text)

/-- Commands that are built in dispatch nothing, but for `eval`. -/
theorem failsWith_runBuiltin {b : Builtin} {line : String} {words : List String} :
    FailsWith (runBuiltin again b line words) s m ↔
      FailsWith (runBuiltin endless b line words) s m ∨ b = .eval ∧ ∃ text,
        Evaluates s line text ∧
          FailsWith (again (Mode.split text).1 (Mode.split text).2) (s.enterEval text) m := by
  cases b with
  | eval =>
    simp only [true_and]
    exact failsWith_eval
  | _ => exact ⟨.inl, fun h => h.resolve_right fun h => nomatch h.1⟩

/-! ## Files -/

theorem executeFile_named {invocation name : String} {args : List String} {multiline : Bool}
    (named : splitExpanded s.console.lookup invocation = .ok (name :: args)) :
    executeFile again invocation multiline s
      = withScope (scriptVariables (name :: args))
          (resolveScript name >>= executeAll again multiline "") s := by
  simp only [executeFile, named]

theorem failsWith_executeFile_unnamed {invocation : String} {multiline : Bool}
    (unnamed : ∀ name args, splitExpanded s.console.lookup invocation ≠ .ok (name :: args)) :
    FailsWith (executeFile again invocation multiline) s m ↔ Unnamed s invocation m := by
  rcases hw : splitExpanded s.console.lookup invocation with e | (_ | ⟨name, args⟩)
  · have fails : executeFile again invocation multiline s
        = failFor .parseFailure "unable to parse path" e.message s := by simp only [executeFile, hw]
    rw [FailsWith, fails]
    refine failsWith_failFor.trans ⟨fun h => h ▸ .unparsed hw, fun h => ?_⟩
    cases h with
    | unparsed h => rw [hw] at h; cases h; rfl
    | empty h => rw [hw] at h; cases h
  · have fails : executeFile again invocation multiline s
        = fail .noCommandGiven "no script specified" s := by simp only [executeFile, hw]
    rw [FailsWith, fails]
    refine failsWith_fail.trans ⟨fun h => h ▸ .empty hw, fun h => ?_⟩
    cases h with
    | unparsed h => rw [hw] at h; cases h
    | empty h => rfl
  · exact absurd hw (unnamed name args)

/-- A loop fails with what one of its rounds fails with, after the rounds before it. -/
theorem failsWith_loop {β : Type} {one : β → Run String} {loop : String → List β → Run String}
    (nil : ∀ answer, loop answer [] = pure answer)
    (cons : ∀ answer x rest, loop answer (x :: rest) = one x >>= fun answer => loop answer rest)
    (xs : List β) (answer : String) :
    FailsWith (loop answer xs) s m ↔
      ∃ before x after last v, xs = before ++ x :: after ∧
        loop answer before s = some (.ok last, v) ∧ FailsWith (one x) v m := by
  induction xs generalizing answer s with
  | nil => simp [nil]
  | cons x rest ih =>
    rw [cons, failsWith_bind]
    constructor
    · rintro (h | ⟨a, t, ht, h⟩)
      · exact ⟨[], x, rest, answer, s, rfl, by rw [nil]; rfl, h⟩
      · obtain ⟨before, y, after, last, v, rfl, ran, h⟩ := (ih a).1 h
        exact ⟨x :: before, y, after, last, v, rfl, by rw [cons, bind_def, ht]; exact ran, h⟩
    · rintro ⟨before, y, after, last, v, there, ran, h⟩
      cases before with
      | nil =>
        cases there
        rw [nil] at ran
        cases ran
        exact .inl h
      | cons first before =>
        cases there
        rw [cons] at ran
        obtain ⟨a, t, ht, ran⟩ := bind_ok ran
        exact .inr ⟨a, t, ht, (ih a).2 ⟨before, y, after, last, v, rfl, ran, h⟩⟩

theorem failsWith_executeAll {multiline : Bool} (found : List Candidate) (answer : String) :
    FailsWith (executeAll again multiline answer found) s m ↔
      ∃ before c after last v, found = before ++ c :: after ∧
        executeAll again multiline answer before s = some (.ok last, v) ∧
        FailsWith (executeCandidate again multiline c) v m :=
  failsWith_loop (fun _ => rfl) (fun _ _ _ => rfl) found answer

theorem failsWith_executeFile {invocation : String} {multiline : Bool} :
    FailsWith (executeFile again invocation multiline) s m ↔
      Unnamed s invocation m ∨ (∃ u, Unresolved s invocation u m) ∨
        ∃ c v, ComesToFile again invocation multiline s c v ∧
          FailsWith (executeCandidate again multiline c) v m := by
  by_cases named : ∃ name args, splitExpanded s.console.lookup invocation = .ok (name :: args)
  · obtain ⟨name, args, named⟩ := named
    rw [FailsWith, executeFile_named named]
    refine (failsWith_within.trans failsWith_bind).trans ⟨?_, ?_⟩
    · rintro (h | ⟨found, t, resolved, h⟩)
      · exact .inr (.inl ⟨_, .intro named h⟩)
      · obtain ⟨before, c, after, last, v, rfl, ran, h⟩ := (failsWith_executeAll _ _).1 h
        exact .inr (.inr ⟨c, v, .intro named resolved ran, h⟩)
    · rintro (h | ⟨u, ⟨other, h⟩⟩ | ⟨c, v, ⟨other, resolved, ran⟩, h⟩)
      · cases h with
        | unparsed h => rw [named] at h; cases h
        | empty h => rw [named] at h; cases h
      · rw [named] at other
        cases other
        exact .inl h
      · rw [named] at other
        cases other
        exact .inr ⟨_, _, resolved, (failsWith_executeAll _ _).2 ⟨_, c, _, _, v, rfl, ran, h⟩⟩
  · simp only [not_exists] at named
    rw [failsWith_executeFile_unnamed named]
    refine ⟨.inl, fun h => h.elim id ?_⟩
    rintro (⟨u, ⟨other, -⟩⟩ | ⟨c, v, ⟨other, -, -⟩, -⟩) <;> exact absurd other (named _ _)

theorem find_of_read {d : Disk} {path : String} {bytes : List UInt8}
    (read : d.read path = .ok bytes) : ∃ found, d.find path = .ok found := by
  unfold Disk.read at read
  split at read
  · cases read
  · exact ⟨_, ‹_›⟩

theorem failsWith_answerOf {r : Except Message String} :
    FailsWith (answerOf r) s m ↔ r = .error m := by
  cases r <;> simp [FailsWith, answerOf, Run.pure, throw]

/-- Standard input is a script whose text is taken first. That what is left of it is put back in
the end makes no difference to its failure. -/
theorem failsWith_executeStdin {multiline : Bool} :
    FailsWith (executeStdin again multiline) s m ↔
      FailsWith (executeScript again "-" "." s.world.stdin multiline)
        (s.changeWorld fun w => { w with stdin := [] }) m := by
  refine (failsWith_within.trans failsWith_within).trans ?_
  refine Iff.trans ?_ (failsWith_within.trans failsWith_within).symm
  have read : FailsWith (readScript again "-" multiline {} (rawLines s.world.stdin) >>= fun r =>
        change (Session.changeWorld fun w => { w with stdin := r.2.flatten ++ w.stdin }) >>=
          fun _ => answerOf r.1)
        ((s.changeWorld fun w => { w with stdin := [] }).enterScript ".") m ↔
      FailsWith (readScript again "-" multiline {} (rawLines s.world.stdin) >>= fun r =>
        answerOf r.1) ((s.changeWorld fun w => { w with stdin := [] }).enterScript ".") m := by
    rw [failsWith_bind, failsWith_bind]
    simp only [failsWith_change_bind, failsWith_answerOf]
  exact read

section Candidates

variable {c : Candidate} {path : String} {multiline : Bool}

theorem executeCandidate_missing {e : IoError} (hc : c.source = .file path)
    (find : s.disk.find path = .error e) :
    executeCandidate again multiline c s
      = failFor .scriptNotFound "unable to open file" e.message s := by
  simp only [executeCandidate, hc, bind_def, Run.get, find]

theorem executeCandidate_unreadable {e : IoError} {found : Location × Node}
    (hc : c.source = .file path) (find : s.disk.find path = .ok found)
    (read : s.disk.read path = .error e) :
    executeCandidate again multiline c s
      = withDirectory (directoryOf path) (withOutput "default"
          (failFor .commandFailed ("unable to read " ++ path) e.message)) s := by
  simp only [executeCandidate, hc, bind_def, Run.get, find, read]

theorem executeCandidate_read {bytes : List UInt8} (hc : c.source = .file path)
    (read : s.disk.read path = .ok bytes) :
    executeCandidate again multiline c s
      = executeScript again path (directoryOf path) bytes multiline s := by
  obtain ⟨found, find⟩ := find_of_read read
  simp only [executeCandidate, hc, bind_def, Run.get, find, read]

/-- A script of an invocation is not at hand, or its text fails. -/
theorem failsWith_executeCandidate :
    FailsWith (executeCandidate again multiline c) s m ↔
      Unopened s c m ∨ ∃ source dir bytes t, Opens s c source dir bytes t ∧
        FailsWith (executeScript again source dir bytes multiline) t m := by
  constructor
  · intro h
    cases hc : c.source with
    | stdin =>
      simp only [executeCandidate, hc, failsWith_executeStdin] at h
      exact .inr ⟨_, _, _, _, .stdin hc, h⟩
    | file path =>
      rcases find : s.disk.find path with e | found
      · rw [FailsWith, executeCandidate_missing hc find] at h
        exact .inl (failsWith_failFor.1 h ▸ .missing hc find)
      · rcases read : s.disk.read path with e | bytes
        · rw [FailsWith, executeCandidate_unreadable hc find read] at h
          have h := failsWith_failFor.1 (failsWith_within.1 (failsWith_within.1 h))
          exact .inl (h ▸ .unreadable hc find read)
        · rw [FailsWith, executeCandidate_read hc read] at h
          exact .inr ⟨_, _, _, _, .file hc read, h⟩
  · rintro (h | ⟨_, _, _, _, h, fails⟩)
    · cases h with
      | missing hc find =>
        rw [FailsWith, executeCandidate_missing hc find]
        exact failsWith_failFor.2 rfl
      | unreadable hc find read =>
        rw [FailsWith, executeCandidate_unreadable hc find read]
        exact failsWith_within.2 (failsWith_within.2 (failsWith_failFor.2 rfl))
    · cases h with
      | stdin hc =>
        simp only [executeCandidate, hc]
        exact failsWith_executeStdin.2 fails
      | file hc read =>
        rw [FailsWith, executeCandidate_read hc read]
        exact fails

end Candidates

/-! ## Scripts -/

theorem failsWith_runStatements {source : String} (sts : List Statement) (answer : String) :
    FailsWith (runStatements again source answer sts) s m ↔
      ∃ before st after last v, sts = before ++ st :: after ∧
        runStatements again source answer before s = some (.ok last, v) ∧
        FailsWith (runOne again source st) v m :=
  failsWith_loop (fun _ => rfl) (fun _ _ _ => rfl) sts answer

theorem failsWith_runOne {source : String} {st : Statement} :
    FailsWith (runOne again source st) s m ↔
      s.interrupted = true ∧ s.context.error .interrupted "interrupted" = m ∨
      s.interrupted = false ∧
        FailsWith (again st.mode st.payload) (s.enterStatement source st) m := by
  have frame : FailsWith (withSource (statementSource source st.line st.mode st.payload)
        (again st.mode st.payload) >>= fun output => pure output.summary) s m ↔
      FailsWith (again st.mode st.payload) (s.enterStatement source st) m :=
    failsWith_map.trans failsWith_within
  rw [← frame]
  unfold runOne
  rw [failsWith_bind]
  cases quiet : s.interrupted with
  | true => simp [checkInterrupt, FailsWith, quiet, fail]
  | false =>
    have looked : checkInterrupt s = some (.ok (), s) := by simp [checkInterrupt, quiet]
    constructor
    · rintro (⟨t, h⟩ | ⟨_, t, ht, h⟩)
      · rw [looked] at h; cases h
      · rw [looked] at ht; cases ht; exact .inr ⟨rfl, h⟩
    · rintro (⟨h, -⟩ | ⟨-, h⟩)
      · cases h
      · exact .inr ⟨(), s, looked, h⟩

theorem failsWith_executeScript {source dir : String} {bytes : List UInt8} {multiline : Bool} :
    FailsWith (executeScript again source dir bytes multiline) s m ↔
      (∃ v, Stops again source dir bytes multiline s v m) ∨
      ∃ st v, ComesTo again source dir bytes multiline s st v ∧ v.interrupted = false ∧
        FailsWith (again st.mode st.payload) (v.enterStatement source st) m := by
  rw [executeScript_eq_runParts]
  refine (failsWith_within.trans (failsWith_within.trans failsWith_bind)).trans ⟨?_, ?_⟩
  · rintro (h | ⟨answer, v, ran, h⟩)
    · obtain ⟨before, st, after, last, v, there, ran, h⟩ := (failsWith_runStatements _ _).1 h
      obtain ⟨stopped, rfl⟩ | ⟨quiet, h⟩ := failsWith_runOne.1 h
      · exact .inl ⟨v, .interrupted (.intro there ran) stopped⟩
      · exact .inr ⟨st, v, .intro there ran, quiet, h⟩
    · unfold finish at h
      split at h
      · exact absurd h (not_failsWith_pure _)
      · rename_i cut
        rw [← failsWith_failFor.1 h]
        exact .inl ⟨v, .cut ran (by simpa using cut)⟩
  · rintro (⟨v, h⟩ | ⟨st, v, ⟨there, ran⟩, quiet, h⟩)
    · cases h with
      | interrupted comes stopped =>
        obtain ⟨there, ran⟩ := comes
        exact .inl ((failsWith_runStatements _ _).2
          ⟨_, _, _, _, v, there, ran, failsWith_runOne.2 (.inl ⟨stopped, rfl⟩)⟩)
      | cut ran cut =>
        refine .inr ⟨_, v, ran, ?_⟩
        simp only [finish, cut, Bool.false_eq_true, if_false]
        exact failsWith_failFor.2 rfl
    · exact .inl ((failsWith_runStatements _ _).2
        ⟨_, st, _, _, v, there, ran, failsWith_runOne.2 (.inr ⟨quiet, h⟩)⟩)

end Run

end LogConsole
