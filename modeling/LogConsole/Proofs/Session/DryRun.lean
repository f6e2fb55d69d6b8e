import LogConsole.Proofs.Session.Provenance
import LogConsole.Proofs.Session.Refreshes

/-!
# LogConsole.Proofs.Session.DryRun

What a session does in a dry run.

* `dryAnswer`        — what a command that is built in answers: its texts are expanded and checked;
* `runBuiltin_dry`   — and nothing else happens, whatever dispatching a line would do;
* `searchAll`        — the patterns of searches are handed to the host;
* `Rehearsed patterns s t` — that is all that is seen of a run from `s` to `t`. The rows of queries,
  the database, the scripts that are known and standard input may have changed besides;
* `carries_rehearses`, `rehearses_dispatchMode` — scripts and all payloads are rehearsed, however
  deep scripts are nested;
* `Untouched s t`    — what is asked of a dry run, also if the host is refreshed after it;
* `dry_lines_touch_the_engine_only` — the result for lines.

Commands from outside are left out: they need not look whether the run is dry.
-/

namespace LogConsole

namespace Session

open Run

/-! ## Commands -/

/-- A text with its variables replaced, or the failure to do so. -/
def expanded (s : Session) (text : String) : Except Message String :=
  match expand s.console.lookup text with
  | .ok text => .ok text
  | .error e =>
    .error ((s.context.error .parseFailure "unable to expand variables").withReason e.message)

/-- A path and the results are checked, and nothing is written. -/
def dryExport (s : Session) (line : String) : Except Message String :=
  (s.expanded (argumentText line)).bind fun path =>
    if (Text.trim path).isEmpty then
      .error (s.context.error .commandFailed "expecting a path to write to")
    else if s.results.headers.isEmpty then
      .error (s.context.error .commandFailed "no query results to write")
    else .ok ""

def dryHelp (s : Session) (line : String) : Except Message String :=
  let topic := Text.trim (argumentText line)
  if topic.isEmpty then .ok ("\n".intercalate ((helpTexts s).map helpLine))
  else
    match helpOf? s (topicName topic) with
    | some h => .ok h.display
    | none => .error (s.context.error .unknownCommand ("unknown command - " ++ topicName topic))

def dryAnswer (s : Session) (b : Builtin) (line : String) (words : List String) :
    Except Message String :=
  match b with
  | .echo => s.expanded (echoArguments line words).1
  | .eval =>
    if (argumentText line).isEmpty then
      .error (s.context.error .noCommandGiven "expecting a command or query to evaluate")
    else s.expanded (argumentText line)
  | .redirectTo =>
    (s.expanded (argumentText line)).map fun path =>
      if (Text.trim path).isEmpty then "info: redirecting output to screen" else ""
  | .writeCsv => s.dryExport line
  | .writeJson => s.dryExport line
  | .shell =>
    if (argumentText line).isEmpty then
      .error (s.context.error .noCommandGiven "expecting a command-line to execute")
    else .ok ""
  | .help => s.dryHelp line

end Session

namespace Run

open Session

variable {α : Type} {s : Session}

theorem expandText_bind (text : String) (f : String → Run α) :
    (expandText text >>= f) s =
      match s.expanded text with
      | .ok text => f text s
      | .error e => some (.error e, s) := by
  rw [bind_def, expandText, expanded]
  cases expand s.console.lookup text <;> rfl

theorem showHelp_eq (line : String) : showHelp line s = some (s.dryHelp line, s) := by
  simp only [showHelp, dryHelp]
  split
  · rfl
  · rw [bind_def, Run.get]
    dsimp only
    split <;> rename_i found <;> rw [found] <;> rfl

section Dry

variable (dry : s.context.dryRun = true)

include dry

theorem echo_dry (line : String) (words : List String) :
    echo line words s = some (s.expanded (echoArguments line words).1, s) := by
  unfold echo
  obtain ⟨text, newline⟩ := echoArguments line words
  dsimp only
  rw [expandText_bind]
  cases s.expanded text with
  | error e => rfl
  | ok text => simp only [bind_def, Run.get, dry, if_true]; rfl

theorem eval_dry (again : Mode → String → Run Output) (line : String) :
    eval again line s = some (s.dryAnswer .eval line [], s) := by
  simp only [eval, dryAnswer]
  split
  · rfl
  · rw [expandText_bind]
    cases s.expanded (argumentText line) with
    | error e => rfl
    | ok text => simp only [bind_def, Run.get, dry, if_true]; rfl

theorem redirectTo_dry (line : String) :
    redirectTo line s = some (s.dryAnswer .redirectTo line [], s) := by
  rw [redirectTo, expandText_bind, dryAnswer]
  cases s.expanded (argumentText line) with
  | error e => rfl
  | ok path =>
    simp only [bind_def, Run.get, dry, Except.map]
    cases (Text.trim path).isEmpty <;> rfl

theorem writeResults_dry (form : ResultSet → String) (line : String) :
    writeResults form line s = some (s.dryExport line, s) := by
  rw [writeResults, expandText_bind, dryExport]
  cases s.expanded (argumentText line) with
  | error e => rfl
  | ok path =>
    simp only [bind_def, Run.get, Except.bind]
    cases (Text.trim path).isEmpty with
    | true => rfl
    | false =>
      cases s.results.headers.isEmpty with
      | true => rfl
      | false =>
        simp only [Bool.false_eq_true, if_false, bind_def, Run.get, dry, if_true]
        rfl

theorem runShell_dry (line : String) :
    runShell line s = some (s.dryAnswer .shell line [], s) := by
  simp only [runShell, dryAnswer]
  split
  · rfl
  · simp only [bind_def, Run.get, dry]; rfl

/-- A command that is built in answers from the session, and changes nothing in it. -/
theorem runBuiltin_dry (again : Mode → String → Run Output) (b : Builtin) (line : String)
    (words : List String) :
    runBuiltin again b line words s = some (s.dryAnswer b line words, s) := by
  cases b with
  | echo => exact echo_dry dry line words
  | eval => exact eval_dry dry again line
  | redirectTo => exact redirectTo_dry dry line
  | writeCsv => exact writeResults_dry dry csvText line
  | writeJson => exact writeResults_dry dry jsonText line
  | shell => exact runShell_dry dry line
  | help =>
    rw [runBuiltin, dryAnswer]
    exact showHelp_eq line

end Dry

end Run

/-! ## Searches -/

namespace Host

/-- The patterns are handed to the host one after the other. -/
def searchAll (patterns : List String) (h : Host) (w : World) : Host × World :=
  patterns.foldl (fun ended pattern => ended.1.search ended.2 pattern) (h, w)

variable {h : Host} {w : World}

theorem searchAll_append (ps qs : List String) :
    searchAll (ps ++ qs) h w = searchAll qs (searchAll ps h w).1 (searchAll ps h w).2 := by
  rw [searchAll, List.foldl_append]
  rfl

/-- What is left to read on standard input makes no difference to a search. -/
theorem search_stdin (pattern : String) (left : List UInt8) :
    h.search { w with stdin := left } pattern
      = ((h.search w pattern).1, { (h.search w pattern).2 with stdin := left }) := by
  unfold search
  dsimp only
  split
  · unfold printHits
    split <;> rfl
  · rfl

theorem searchAll_stdin (patterns : List String) (left : List UInt8) :
    ∀ {h : Host} {w : World}, searchAll patterns h { w with stdin := left }
      = ((searchAll patterns h w).1, { (searchAll patterns h w).2 with stdin := left }) := by
  induction patterns with
  | nil => intro h w; rfl
  | cons pattern rest ih =>
    intro h w
    rw [searchAll, List.foldl_cons, search_stdin]
    exact ih

/-- A search reads files, and prints. -/
theorem search_world (pattern : String) :
    (h.search w pattern).2.disk = w.disk ∧ (h.search w pattern).2.sinks = w.sinks := by
  unfold search
  dsimp only
  split
  · unfold printHits
    split <;> exact ⟨rfl, rfl⟩
  · exact ⟨rfl, rfl⟩

theorem searchAll_world (patterns : List String) :
    ∀ {h : Host} {w : World}, (searchAll patterns h w).2.disk = w.disk ∧
      (searchAll patterns h w).2.sinks = w.sinks := by
  induction patterns with
  | nil => intro h w; exact ⟨rfl, rfl⟩
  | cons pattern rest ih =>
    intro h w
    obtain ⟨disk, sinks⟩ := search_world (h := h) (w := w) pattern
    obtain ⟨diskAfter, sinksAfter⟩ := ih (h := (h.search w pattern).1) (w := (h.search w pattern).2)
    exact ⟨diskAfter.trans disk, sinksAfter.trans sinks⟩

theorem searchAll_calls (patterns : List String) :
    ∀ {h : Host} {w : World},
      (searchAll patterns h w).1.calls = h.calls ++ patterns.map .search := by
  induction patterns with
  | nil => intro h w; exact (List.append_nil _).symm
  | cons pattern rest ih =>
    intro h w
    have later := ih (h := (h.search w pattern).1) (w := (h.search w pattern).2)
    rw [Session.search_calls, List.append_assoc] at later
    exact later

end Host

/-! ## Runs -/

/-- A console with the context of a frame that brings no sink leaves it as it was entered. -/
theorem Frame.leave_of_entered {f : Frame} (sinkless : f.Sinkless) {k l : Console}
    (same : l.context = (f.enter k).context) :
    f.leave k.context l = { l with context := k.context } := by
  obtain ⟨context, world⟩ := l
  subst same
  cases f with
  | output name sink =>
    cases sink with
    | none => rfl
    | some id => cases sinkless
  | _ => rfl

namespace Session

open Run

/-- All that is seen of a run is that these patterns have been searched. -/
structure Rehearsed (patterns : List String) (s t : Session) : Prop where
  context : t.context = s.context
  world : t.world = { (Host.searchAll patterns s.host s.world).2 with stdin := t.world.stdin }
  host : t.host = (Host.searchAll patterns s.host s.world).1
  captures : t.captures = s.captures
  captureCount : t.captureCount = s.captureCount
  headless : t.headless = s.headless
  interrupted : t.interrupted = s.interrupted
  commands : t.commands = s.commands

namespace Rehearsed

variable {s t u : Session} {ps qs : List String}

theorem refl (s : Session) : Rehearsed [] s s := ⟨rfl, rfl, rfl, rfl, rfl, rfl, rfl, rfl⟩

theorem trans (h : Rehearsed ps s t) (k : Rehearsed qs t u) : Rehearsed (ps ++ qs) s u where
  context := k.context.trans h.context
  world := by
    rw [Host.searchAll_append, k.world, h.host, h.world, Host.searchAll_stdin]
  host := by
    rw [Host.searchAll_append, k.host, h.host, h.world, Host.searchAll_stdin]
  captures := k.captures.trans h.captures
  captureCount := k.captureCount.trans h.captureCount
  headless := k.headless.trans h.headless
  interrupted := k.interrupted.trans h.interrupted
  commands := k.commands.trans h.commands

/-- A frame is put away again. -/
theorem within {f : Frame} (sinkless : f.Sinkless)
    (h : Rehearsed ps (s.changeConsole f.enter) t) :
    Rehearsed ps s (t.changeConsole (f.leave s.context)) := by
  have outside : (s.changeConsole f.enter).world = s.world := by cases f <;> rfl
  have console : f.leave s.context t.console = { t.console with context := s.context } :=
    Frame.leave_of_entered sinkless h.context
  have left : t.changeConsole (f.leave s.context)
      = { t with console := { t.console with context := s.context } } := by
    rw [changeConsole, console]
  have world := h.world
  have host := h.host
  rw [outside] at world host
  rw [left]
  exact ⟨rfl, world, host, h.captures, h.captureCount, h.headless, h.interrupted, h.commands⟩

end Rehearsed

/-- The searches of a dry run are its events, and it changes nothing besides. -/
def Rehearses (s : Session) (es : List Event) (t : Session) : Prop :=
  s.context.dryRun = true → OnlyBuiltins s.commands →
    ∃ patterns, es = patterns.map (.asked ∘ .search) ∧ Rehearsed patterns s t

theorem Rehearses.of_same {s t : Session} (h : Rehearsed [] s t) : Rehearses s [] t :=
  fun _ _ => ⟨[], rfl, h⟩

theorem carries_rehearses : Carries Rehearses where
  refl s := .of_same (.refl s)
  trans h k dry only := by
    obtain ⟨ps, rfl, first⟩ := h dry only
    obtain ⟨qs, rfl, second⟩ := k (first.context ▸ dry) (first.commands ▸ only)
    exact ⟨ps ++ qs, List.map_append.symm, first.trans second⟩
  within {s t es f} sinkless h dry only := by
    have inside : (s.changeConsole f.enter).context.dryRun = true := by cases f <;> exact dry
    obtain ⟨ps, rfl, inner⟩ := h inside only
    exact ⟨ps, rfl, inner.within sinkless⟩
  resolver _ _ := .of_same ⟨rfl, rfl, rfl, rfl, rfl, rfl, rfl, rfl⟩
  stdin _ _ := .of_same ⟨rfl, rfl, rfl, rfl, rfl, rfl, rfl, rfl⟩

/-- Queries go to the engine, but the first row is not stored. -/
theorem queries_rehearses :
    Queries fun s t => s.context.dryRun = true → Rehearsed [] s t where
  refl s _ := .refl s
  trans h k dry := (h dry).trans (k ((h dry).context ▸ dry))
  clear _ _ := ⟨rfl, rfl, rfl, rfl, rfl, rfl, rfl, rfl⟩
  collect _ _ _ _ _ := ⟨rfl, rfl, rfl, rfl, rfl, rfl, rfl, rfl⟩
  store wet dry := by rw [dry] at wet; cases wet

end Session

namespace Run

open Session

variable {s t : Session}

section Again

variable {again : Mode → String → Run Output} {log : Mode → String → Session → List Event}
  (ih : ∀ mode payload s, Does Rehearses (again mode payload) (log mode payload s) s)

theorem builtinEvents_dry (dry : s.context.dryRun = true) (b : Builtin) (line : String) :
    builtinEvents again log b line s = [] := by
  cases b with
  | eval => simp [builtinEvents, evaluated?, dry]
  | shell => simp [builtinEvents, askedBy, afterwards, runShell_dry dry]
  | _ => rfl

theorem rehearses_runCommand (line : String) :
    Does Rehearses (runCommand again line) (commandEvents again log line s) s := by
  unfold commandEvents
  cases called : s.command? line with
  | none =>
    intro r t h
    rw [runCommand_missing_still called h]
    exact carries_rehearses.refl s
  | some c =>
    intro r t h dry only
    obtain ⟨name, -, there⟩ := Option.bind_eq_some_iff.1 called
    obtain ⟨b, builtin⟩ := only name c there
    rw [runCommand_found called, builtin] at h
    obtain ⟨u, hu, rfl⟩ := within_ended h
    have hu : runBuiltin again b line (Text.words line) (s.enterHelp c) = some (r, u) := hu
    rw [runBuiltin_dry (s := s.enterHelp c) dry] at hu
    cases hu
    dsimp only
    rw [builtin]
    refine ⟨[], builtinEvents_dry (s := s.enterHelp c) dry b line, ?_⟩
    exact (Rehearsed.refl _).within (f := .help _) trivial

include ih

theorem rehearses_step (mode : Mode) (payload : String) :
    Does Rehearses (step again mode payload) (stepEvents again log mode payload s) s := by
  cases mode with
  | command => exact (rehearses_runCommand payload).map
  | search =>
    intro r t h _ _
    cases h
    exact ⟨[payload], rfl, rfl, rfl, rfl, rfl, rfl, rfl, rfl, rfl⟩
  | query =>
    intro r t h
    exact fun dry _ => ⟨[], rfl, ends_runQuery queries_rehearses payload r t h dry⟩
  | script => exact (does_executeFile carries_rehearses ih payload true s).map

end Again

/-- The induction is on how deep scripts are nested. -/
theorem rehearses_dispatchMode (fuel : Nat) : ∀ mode payload s,
    Does Rehearses (dispatchMode fuel mode payload) (events fuel mode payload s) s := by
  induction fuel with
  | zero => intro mode payload s r t h; cases h
  | succ fuel ih => intro mode payload s; exact rehearses_step ih mode payload

end Run

namespace Session

open Run

variable {s t : Session}

/-! ## Lines -/

structure Untouched (s t : Session) : Prop where
  /-- The scopes and the outputs, and the frames of all other kinds. -/
  context : t.context = s.context
  sinks : t.world.sinks = s.world.sinks
  disk : t.disk = s.disk
  captures : t.captures = s.captures
  captureCount : t.captureCount = s.captureCount
  calls : ∃ made, t.host.calls = s.host.calls ++ made ∧
    ∀ name bytes, .addInput name bytes ∉ made

theorem Rehearsed.untouched {patterns : List String} (h : Rehearsed patterns s t) :
    Untouched s t where
  context := h.context
  sinks := by rw [h.world]; exact (Host.searchAll_world patterns).2
  disk := by
    have disk := (Host.searchAll_world (h := s.host) (w := s.world) patterns).1
    rw [Session.disk, ← Session.world, h.world]
    exact disk
  captures := h.captures
  captureCount := h.captureCount
  calls := ⟨patterns.map .search, by rw [h.host, Host.searchAll_calls], by simp⟩

theorem Untouched.refreshHost (h : Untouched s t) : Untouched s t.refreshHost where
  context := h.context
  sinks := h.sinks
  disk := h.disk
  captures := h.captures
  captureCount := h.captureCount
  calls := by
    obtain ⟨made, calls, none⟩ := h.calls
    refine ⟨made ++ [.rescan, .rebuild], ?_, ?_⟩
    · rw [refreshHost_calls, calls, List.append_assoc]
    · intro name bytes
      simp [none name bytes]

theorem Untouched.refreshAfter (h : Untouched s t) : Untouched s (refreshAfter t) := by
  unfold Run.refreshAfter
  split
  · exact h.refreshHost
  · exact h

theorem executeEntry_untouched {fuel index : Nat} {command : String} {entry : BatchEntry}
    (dry : s.context.dryRun = true) (only : OnlyBuiltins s.commands)
    (h : executeEntry fuel index command s = some entry) :
    Untouched s.waitForCaptures entry.session := by
  obtain ⟨r, t, ran, -, -, ended⟩ := executeEntry_ended h
  have dry : (s.entryStart index command).context.dryRun = true := by
    rw [← waitForCaptures_context s] at dry
    exact dry
  have only : OnlyBuiltins (s.entryStart index command).commands := by
    obtain ⟨w, same⟩ := waitForCaptures_eq s
    rw [entryStart, same]
    exact only
  obtain ⟨patterns, -, inside⟩ := rehearses_dispatchMode fuel _ _ _ r t ran dry only
  have left : entry.session
      = (t.changeConsole (Frame.leave (.source (batchSource index command))
          s.waitForCaptures.context)).refreshHost := ended
  rw [left]
  exact (inside.within (f := .source _) trivial).untouched.refreshHost

theorem ends_untouched {α : Type} {x : Run α} {es : List Event} (dry : s.context.dryRun = true)
    (only : OnlyBuiltins s.commands) (h : Does Rehearses x es s) : Ends Untouched x s := by
  intro r t ran
  obtain ⟨patterns, -, rehearsed⟩ := h r t ran dry only
  exact rehearsed.untouched

/-- **A dry run touches the engine only.** In a session that is dry and has no commands from
outside, a command that is built in answers, whatever a line that it might dispatch would do, and
changes nothing. A payload in any mode, however deep scripts are nested in it, with success or
not, does no more than to have patterns searched. A line by whatever way it is run leaves the
scopes, the outputs and the files as they are, writes to no sink, and adds no capture and no
input; the host may be refreshed after it. -/
theorem dry_lines_touch_the_engine_only {s : Session} (dry : s.context.dryRun = true)
    (only : OnlyBuiltins s.commands) (fuel : Nat) :
    (∀ again b line words,
      runBuiltin again b line words s = some (s.dryAnswer b line words, s)) ∧
    (∀ mode payload r t, dispatchMode fuel mode payload s = some (r, t) →
      ∃ patterns, events fuel mode payload s = patterns.map (.asked ∘ .search) ∧
        Rehearsed patterns s t) ∧
    (∀ line r t, executeAny fuel line s = some (r, t) →
      Untouched s t ∧ ∃ patterns u, Rehearsed patterns s u ∧ t = refreshAfter u) ∧
    (∀ line, Ends Untouched (dispatch fuel line) s) ∧
    (∀ line, Ends Untouched (executeCommand fuel line) s) ∧
    (∀ text, Ends Untouched (executeQuery text) s) ∧
    (∀ invocation multiline, Ends Untouched (executeScriptFile fuel invocation multiline) s) ∧
    (∀ source dir bytes multiline,
      Ends Untouched (executeReader fuel source dir bytes multiline) s) ∧
    (∀ index command entry, executeEntry fuel index command s = some entry →
      Untouched s.waitForCaptures entry.session) := by
  have ih := rehearses_dispatchMode fuel
  refine ⟨?_, ?_, ?_, ?_, ?_, ?_, ?_, ?_, ?_⟩
  · intro again b line words
    exact runBuiltin_dry dry again b line words
  · intro mode payload r t h
    exact ih mode payload s r t h dry only
  · intro line r t h
    obtain ⟨ended, u, ran, rfl, -⟩ := executeAny_ended h
    obtain ⟨patterns, -, rehearsed⟩ := ih _ _ _ _ u ran dry only
    exact ⟨rehearsed.untouched.refreshAfter, patterns, u, rehearsed, rfl⟩
  · intro line
    rw [dispatch, dispatchWith_eq]
    exact ends_untouched dry only (ih _ _ s).map
  · intro line
    have command : Does Rehearses (executeCommand fuel line)
        (commandEvents (dispatchMode fuel) (events fuel) line s) s := rehearses_runCommand line
    exact ends_untouched dry only command
  · intro text
    exact ends_untouched dry only (rehearses_step ih .query text (s := s)).map
  · intro invocation multiline
    exact ends_untouched dry only (does_executeFile carries_rehearses ih invocation multiline s)
  · intro source dir bytes multiline
    exact ends_untouched dry only
      (does_executeScript carries_rehearses ih source dir bytes multiline s)
  · intro index command entry h
    exact executeEntry_untouched dry only h

/-- A dry session and a script with a statement of each kind. -/
def drySession : Session where
  console :=
    { context := { dryRun := true }
      world :=
      { disk :=
        { nodes := [([], .dir), (["outer"], .file 0), (["inner"], .file 1)]
          contents := [Text.Utf8.encode ";SELECT 1 AS n\n:redirect-to out\n/a\n|inner\n",
            Text.Utf8.encode ":sh touch b\n:write-csv-to out\n:eval ;SELECT 2\n:bogus\n"] } } }

set_option maxRecDepth 8000 in
/-- Only the search is done, and the line ends with the failure of the last command. -/
theorem dry_script_searches :
    let m : Message :=
      { level := .error, text := "unknown command - bogus", snippets := [⟨"inner", 4, 0, ":bogus"⟩],
        kind := some .unknownCommand }
    drySession.context.dryRun = true ∧ OnlyBuiltins drySession.commands ∧
    ∃ t, executeAny 6 "|outer" drySession = some (.error m, t) ∧
      t.host.calls = [.search "a"] ∧ Untouched drySession t := by
  intro m
  have dry : drySession.context.dryRun = true := rfl
  have only : OnlyBuiltins drySession.commands := onlyBuiltins_builtins
  have ran : (executeAny 6 "|outer" drySession).map (fun e => (failureOf? e.1, e.2.host.calls))
      = some (some m, [.search "a"]) := by decide +kernel
  obtain ⟨⟨r, t⟩, ran, seen⟩ := Option.map_eq_some_iff.1 ran
  obtain ⟨failed, calls⟩ := Prod.mk.inj seen
  obtain rfl := failureOf?_eq_some failed
  obtain ⟨-, -, lines, -⟩ := dry_lines_touch_the_engine_only dry only 6
  exact ⟨dry, only, t, ran, calls, (lines "|outer" _ t ran).1⟩

end Session

end LogConsole
