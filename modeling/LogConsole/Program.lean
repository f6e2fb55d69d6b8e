import LogConsole.CommandLine
import LogConsole.Report
import LogConsole.Session.Dispatch

/-!
# LogConsole.Program

The console as a program.

* `ProgramError` — why the program does not start, or stops before its end;
* `start`      — the session that a command line asks for: configured, with its logs read;
* `printEntry` — what is printed of an entry of a batch;
* `interact`   — lines typed at a prompt, one after the other;
* `Program.run` — the whole program: a batch, or the prompt, or nothing. The answer says whether
  all lines succeeded.
-/

namespace LogConsole

inductive ProgramError where
  | config (dataDir : String) (e : SetupError)
  | input (path : String) (e : StoreError)
  | database (text : String)
  /-- What has been typed is no text. -/
  | unreadable
  /-- Lines dispatch lines of their own deeper than the limit. -/
  | tooDeep
  deriving DecidableEq, Repr

namespace ProgramError

/-- A failure and what caused it. -/
def withCause (text : String) (cause : Option String) : String :=
  match cause with
  | some cause => text ++ ": " ++ cause
  | none => text

def display : ProgramError → String
  | .config dataDir e =>
    "loading config from " ++ dataDir ++ ": " ++ withCause e.display e.cause?
  | .input path e => "unable to open " ++ path ++ ": " ++ withCause e.display e.cause?
  | .database text => "Database error: " ++ text ++ ": " ++ text
  | .unreadable => IoError.invalidUtf8.message
  | .tooDeep => "lines are nested too deep"

end ProgramError

namespace Program

/-- How deep commands and scripts may dispatch lines of their own. -/
def depthLimit : Nat := 5000

/-- The store with the files that are given, up to the first that cannot be opened. -/
def openInputs (disk : Disk) (store : LogStore) : List String → Except ProgramError LogStore
  | [] => .ok store
  | path :: rest =>
    match store.addPath disk path with
    | (.error e, _) => .error (.input path e)
    | (.ok _, store) => openInputs disk store rest

/-- The tables that have been made, if they could be. -/
def madeTables : Except StoreError Unit × Sql.Database → Except ProgramError Sql.Database
  | (.ok (), db) => .ok db
  | (.error e, _) => .error (.database (e.cause?.getD ""))

def emptyTables : Except ProgramError Sql.Database := madeTables (LogStore.initSchema {})

def start (c : CommandLine) (w : World) : Except ProgramError Session :=
  let dataDir := dataDirectory w.environment c.dataDirectory
  match Config.load w.disk (Path.join dataDir Config.fileName) with
  | .error e => .error (.config dataDir e)
  | .ok config =>
    match openInputs w.disk {} c.files with
    | .error e => .error e
    | .ok store =>
      match emptyTables with
      | .error e => .error e
      | .ok database =>
        let s : Session :=
          { console := { world := w }
            database
            host := { kind := .logs store }
            headless := c.headless || w.terminal.isNone }
        let s := s.configure config dataDir
        let s := if c.readOnly then s.changeContext fun ctx => { ctx with readOnly := true } else s
        .ok s.refreshHost

/-! ## Batches -/

/-- Whether an entry is shown as a table. -/
def showsTable (entry : BatchEntry) : Bool :=
  (Mode.split entry.command).1 == .query && 1 < entry.session.results.rows.length

def printEntry (format : OutputFormat) (entry : BatchEntry) (w : World) : World :=
  match entry.result with
  | .error e => Report.printError format entry.command e w
  | .ok answer =>
    if showsTable entry then Report.printTable format entry.session.results w
    else Report.printMessage format entry.command answer w

def succeeded : BatchEntry → Bool
  | ⟨_, .ok _, _, _⟩ => true
  | ⟨_, .error _, _, _⟩ => false

/-- Runs a batch; the answer says whether all entries succeeded. -/
def runBatch (format : OutputFormat) (commands : List String) (s : Session) :
    Option (Bool × Session) :=
  match s.executeBatch depthLimit (printEntry format) commands with
  | none => none
  | some (entries, s) => some (entries.all succeeded, s)

/-! ## The prompt -/

def prompt : String := "logshell> "

/-- What has been typed up to the end of the next line, if anything; it need not be UTF-8. -/
def nextLine? (typed : List UInt8) : Option (List UInt8 × List UInt8) :=
  match Script.rawLines typed with
  | [] => none
  | line :: rest => some (line, rest.flatten)

/-- A line without the carriage returns and line feeds at its end. -/
def withoutEnd (line : String) : String :=
  String.ofList (line.toList.reverse.dropWhile fun c => c == '\n' || c == '\r').reverse

/-- Runs a line, and prints its outcome; the answer says whether it succeeded. -/
def runTyped (format : OutputFormat) (line : String) (s : Session) : Option (Bool × Session) :=
  let s := { s with interrupted := false }.refreshHost
  match Session.executeAny depthLimit line s with
  | none => none
  | some (.ok answer, s) =>
    some (true, (s.changeWorld (Report.printMessage format line answer)).waitForCaptures)
  | some (.error e, s) =>
    some (false, (s.changeWorld (Report.printError format line e)).waitForCaptures)

/-- Takes a line that has been typed, with its end. A blank line is passed over. -/
def enter (format : OutputFormat) (bytes : List UInt8) (s : Session) :
    Except ProgramError Bool × Session :=
  match Text.Utf8.decode? bytes with
  | none => (.error .unreadable, s)
  | some text =>
    let line := withoutEnd text
    if (Text.trim line).isEmpty then (.ok true, s)
    else
      match runTyped format line s with
      | none => (.error .tooDeep, s)
      | some (ok, s) => (.ok ok, s)

/-- Prompts for lines and takes them until there are none. `fuel` bounds their number. -/
def interact (format : OutputFormat) : Nat → Bool → Session → Except ProgramError Bool × Session
  | 0, succeeded, s => (.ok succeeded, s)
  | fuel + 1, succeeded, s =>
    let s := s.changeWorld fun w => w.printError prompt
    match nextLine? s.world.stdin with
    | none => (.ok succeeded, s.changeWorld fun w => w.printError "\n")
    | some (bytes, rest) =>
      match enter format bytes (s.changeWorld fun w => { w with stdin := rest }) with
      | (.error e, s) => (.error e, s)
      | (.ok ok, s) => interact format fuel (succeeded && ok) s

/-! ## The program -/

/-- Standard input is a script where there is no batch and no terminal. -/
def batchOf (c : CommandLine) (w : World) : List String :=
  match c.initialCommands with
  | [] => if w.terminal.isNone then ["|-"] else []
  | commands => commands

/-- Runs a session that has been started. -/
def runSession (c : CommandLine) (s : Session) : Except ProgramError Bool × Session :=
  match batchOf c s.world with
  | [] =>
    if c.headless then (.ok true, s)
    else interact c.format (s.world.stdin.length + 1) true s
  | commands =>
    match runBatch c.format commands s with
    | none => (.error .tooDeep, s)
    | some (ok, s) => (.ok ok, s)

/-- Runs the program in a world; the second result is the world after it. -/
def run (c : CommandLine) (w : World) : Except ProgramError Bool × World :=
  match start c w with
  | .error e => (.error e, w)
  | .ok s =>
    let (ending, s) := runSession c s
    (ending, s.waitForCaptures.world)

end Program

end LogConsole
