import LogConsole.Session.Query
import LogConsole.Session.Script
import LogConsole.Shell.Run

/-!
# LogConsole.Session.Command

What the commands of a session do.

* `echo`         — prints a text to the current output, or returns it if that is the screen;
* `redirectTo`   — puts a file, standard output or the screen in place of the current output;
* `writeResults` — writes the rows of the last query to a file or to standard output;
* `runShell`     — runs a command line of the shell, whose output is captured;
* `showHelp`     — the help text of one command, or a line for each;
* `eval`         — dispatches a line in which variables have been replaced;
* `runProcedure` — what a command from outside does;
* `runCommand`   — the command that a line names.

Lines are dispatched by `again`, which may be any function from modes and payloads. In a dry run
texts are expanded and checked, and nothing is done.
-/

namespace LogConsole.Run

/-- Replaces the variables in a text. -/
def expandText (text : String) : Run String := fun s =>
  match expand s.console.lookup text with
  | .ok text => some (.ok text, s)
  | .error e => failFor .parseFailure "unable to expand variables" e.message s

/-! ## Output -/

/-- Prints to the current output; the answer says whether it has a sink. -/
def writeOutput (text : String) (newline : Bool) : Run Bool := fun s =>
  match s.console.writeOutput text newline with
  | (.ok written, console) => some (.ok written, { s with console })
  | (.error e, console) =>
    failFor .commandFailed "unable to write to output" e { s with console }

/-- The text to print, and whether a line feed comes after it. -/
def echoArguments (line : String) (words : List String) : String × Bool :=
  let text := argumentText line
  match words with
  | _ :: "-n" :: _ => (argumentText text, false)
  | _ => (text, true)

def echo (line : String) (words : List String) : Run String := do
  let (text, newline) := echoArguments line words
  let text ← expandText text
  if ← get fun s => s.context.dryRun then return text
  else if ← writeOutput text newline then return ""
  else return text

/-- Opens a file for writing, or standard output under the name of a hyphen. -/
def openTarget (path : String) : Run Nat := fun s =>
  if path = "-" then
    let (sink, world) := s.world.addSink .stdout
    some (.ok sink, s.changeWorld fun _ => world)
  else
    match s.disk.create (expandTilde s.world.environment path) with
    | .error e => failFor .commandFailed ("unable to open file for writing: " ++ path) e.message s
    | .ok (disk, node) =>
      let (sink, world) := { s.world with disk }.openSink node
      some (.ok sink, s.changeWorld fun _ => world)

/-- What a target is called. -/
def targetName (path : String) : String := if path = "-" then "stdout" else path

def redirectTo (line : String) : Run String := do
  let path := Text.trim (← expandText (argumentText line))
  let dryRun ← get fun s => s.context.dryRun
  if path.isEmpty then
    if !dryRun then change (Session.changeConsole Console.clearOutput)
    return "info: redirecting output to screen"
  else if dryRun then return ""
  else
    let sink ← openTarget path
    change (Session.changeConsole fun k => k.setOutput (targetName path) sink)
    return "info: redirecting output to -- " ++ targetName path

/-! ## Export -/

/-- Writes bytes to a sink that has been opened for them, and closes it. -/
def writeAll (path : String) (sink : Nat) (bytes : List UInt8) : Run Unit := fun s =>
  let (written, world) := Console.writeFlushed s.world sink [bytes]
  let s := s.changeWorld fun _ => world.closeSink sink
  match written with
  | .ok () => some (.ok (), s)
  | .error e => failFor .commandFailed ("unable to write to " ++ path) e s

def csvText (r : ResultSet) : String := r.toCsv

def jsonText (r : ResultSet) : String := r.toJson.pretty ++ "\n"

def writeResults (form : ResultSet → String) (line : String) : Run String := do
  let path := Text.trim (← expandText (argumentText line))
  let results ← get Session.results
  if path.isEmpty then fail .commandFailed "expecting a path to write to"
  else if results.headers.isEmpty then fail .commandFailed "no query results to write"
  else if ← get fun s => s.context.dryRun then return ""
  else
    let sink ← openTarget path
    writeAll path sink (Text.Utf8.encode (form results))
    return ""

/-! ## Child processes -/

/-- Runs a command line of the shell. What it prints is left to be captured. -/
def startShell (text : String) : Run (List UInt8) := fun s =>
  if text.toList.contains '\x00' then
    failFor .commandFailed ("unable to execute -- " ++ text) IoError.nulInArgument.message s
  else
    let ended := Shell.run s.world.environment s.disk text
    some (.ok ended.output, s.changeWorld fun w =>
      { w with disk := ended.disk, stderr := w.stderr ++ ended.errors })

/-- Captures bytes that a child process prints. -/
def captureOutput (text : String) (bytes : List UInt8) : Run Unit :=
  change fun s =>
    let (_, capture, s) := s.pipe text (PipeRead.ofBytes bytes)
    { s with captures := s.captures ++ capture.toList }

def runShell (line : String) : Run String := do
  let text := argumentText line
  if text.isEmpty then fail .noCommandGiven "expecting a command-line to execute"
  else if ← get fun s => s.context.dryRun then return ""
  else
    captureOutput text (← startShell text)
    return ""

/-! ## Help -/

def helpLine (h : Help) : String := h.synopsis ++ "  " ++ h.summary

/-- The help texts of all commands, then of all statements about the database. -/
def helpTexts (s : Session) : List Help :=
  s.commands.values.map (·.help) ++ MetaStatement.all.map (·.helpText)

def helpOf? (s : Session) (name : String) : Option Help :=
  match s.commands.get? name with
  | some c => some c.help
  | none => (MetaStatement.ofName? name).map (·.helpText)

/-- A name without the marks in front of it. -/
def topicName (topic : String) : String :=
  String.ofList (topic.toList.dropWhile fun c => c == ':' || c == ';')

def unknownCommand {α : Type} (name : String) : Run α :=
  fail .unknownCommand ("unknown command - " ++ name)

def showHelp (line : String) : Run String := do
  let topic := Text.trim (argumentText line)
  if topic.isEmpty then get fun s => "\n".intercalate ((helpTexts s).map helpLine)
  else
    match ← get fun s => helpOf? s (topicName topic) with
    | some h => return h.display
    | none => unknownCommand (topicName topic)

/-! ## Commands -/

/-- Whether the host is refreshed after a line. -/
def refreshes (s : Session) : Bool :=
  !s.context.readOnly && (s.headless || 1 < s.context.directories.depth)

def refreshAfter (s : Session) : Session := if refreshes s then s.refreshHost else s

/-- Dispatches a line, and then refreshes the host if need be. -/
def executeWith (again : Mode → String → Run Output) (line : String) : Run String := do
  let (mode, payload) := Mode.split line
  let output ← ensuring (again mode payload) refreshAfter
  return output.summary

def eval (again : Mode → String → Run Output) (line : String) : Run String := do
  let text := argumentText line
  if text.isEmpty then fail .noCommandGiven "expecting a command or query to evaluate"
  else
    let text ← expandText text
    if ← get fun s => s.context.dryRun then return text
    else withSource ⟨"eval", 1, 0, text⟩ (executeWith again text)

def runBuiltin (again : Mode → String → Run Output) (b : Builtin) (line : String)
    (words : List String) : Run String :=
  match b with
  | .echo => echo line words
  | .eval => eval again line
  | .redirectTo => redirectTo line
  | .writeCsv => writeResults csvText line
  | .writeJson => writeResults jsonText line
  | .shell => runShell line
  | .help => showHelp line

/-- Dispatches a line without a refresh. -/
def dispatchWith (again : Mode → String → Run Output) (line : String) : Run String := do
  let (mode, payload) := Mode.split line
  let output ← again mode payload
  return output.summary

def runRequest (again : Mode → String → Run Output) : Request → Run String
  | .line text => executeWith again text
  | .dispatch text => dispatchWith again text
  | .command line => do return (← again .command line).summary
  | .query text => do return (← again .query text).summary
  | .file invocation multiline => executeFile again invocation multiline
  | .reader source dir bytes multiline => executeScript again source dir bytes multiline

/-- Runs a procedure. A request or a part of it that fails does not end it. -/
def runProcedure (again : Mode → String → Run Output) : Procedure → Run String
  | .answer result => fun s => some (result, s)
  | .look next => fun s => runProcedure again (next s.context) s
  | .within f inner next => fun s =>
    match within f (runProcedure again inner) s with
    | none => none
    | some (r, s) => runProcedure again (next r) s
  | .request q next => fun s =>
    match runRequest again q s with
    | none => none
    | some (r, s) => runProcedure again (next r) s

def runHandler (again : Mode → String → Run Output) (h : Handler) (line : String)
    (words : List String) : Run String :=
  match h with
  | .builtin b => runBuiltin again b line words
  | .procedure start => runProcedure again (start line words)

def runCommand (again : Mode → String → Run Output) (line : String) : Run String := do
  match Text.words line with
  | [] => fail .noCommandGiven "no command to execute"
  | name :: rest =>
    match ← get fun s => s.commands.get? name with
    | none => unknownCommand name
    | some c => withHelp c.help (runHandler again c.handler line (name :: rest))

end LogConsole.Run
