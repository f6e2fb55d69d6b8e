import LogConsole.Session.Command

/-!
# LogConsole.Session.Dispatch

The lines of a session.

* `dispatchMode`   — runs a payload in its mode; `fuel` bounds how deep commands and scripts
  dispatch lines of their own;
* `dispatch`, `executeAny` — runs a line; the second refreshes the host after it if need be;
* `executeCommand`, `executeQuery`, `executeScriptFile`, `executeReader` — one mode each;
* `BatchEntry`, `executeBatch` — lines one after the other, whether or not they fail. Each has a
  frame of its own, is followed by a refresh, and is then delivered.
-/

namespace LogConsole

/-- A line of a batch, its outcome, and the session when it has ended. -/
structure BatchEntry where
  command : String
  result : Except Message String
  hint : String := ""
  session : Session

namespace Session

/-- Hands a pattern to the host's view. -/
def search (pattern : String) : Run Output :=
  Run.act fun s =>
    let (host, world) := s.host.search s.world pattern
    ({}, { s with host }.changeWorld fun _ => world)

/-- Runs a payload in its mode. Lines that it dispatches are run by `again`. -/
def step (again : Mode → String → Run Output) (mode : Mode) (payload : String) : Run Output :=
  match mode with
  | .command => do return { summary := ← Run.runCommand again payload }
  | .search => search payload
  | .query => Run.runQuery payload
  | .script => do return { summary := ← Run.executeFile again payload true }

def dispatchMode : Nat → Mode → String → Run Output
  | 0, _, _ => fun _ => none
  | fuel + 1, mode, payload => step (dispatchMode fuel) mode payload

/-- Runs a line. -/
def dispatch (fuel : Nat) (line : String) : Run String :=
  Run.dispatchWith (dispatchMode fuel) line

/-- Runs a line, and then refreshes the host if need be. -/
def executeAny (fuel : Nat) (line : String) : Run String :=
  Run.executeWith (dispatchMode fuel) line

def executeCommand (fuel : Nat) (line : String) : Run String :=
  Run.runCommand (dispatchMode fuel) line

def executeQuery (text : String) : Run String := do
  let output ← Run.runQuery text
  return output.summary

def executeScriptFile (fuel : Nat) (invocation : String) (multiline : Bool) : Run String :=
  Run.executeFile (dispatchMode fuel) invocation multiline

def executeReader (fuel : Nat) (source dir : String) (bytes : List UInt8) (multiline : Bool) :
    Run String :=
  Run.executeScript (dispatchMode fuel) source dir bytes multiline

/-! ## Batches -/

def batchSource (index : Nat) (command : String) : Snippet :=
  ⟨"command-option", Int32.ofNat (index + 1), 0, command⟩

def resultOf : Except Message Output → Except Message String × String
  | .ok output => (.ok output.summary, output.hint)
  | .error e => (.error e, "")

/-- Runs one entry of a batch, and refreshes the host. -/
def executeEntry (fuel index : Nat) (command : String) (s : Session) : Option BatchEntry :=
  let (mode, payload) := Mode.split command
  let entry := Run.withSource (batchSource index command)
    (Run.ensuring (dispatchMode fuel mode payload) refreshHost)
  match entry s.waitForCaptures with
  | none => none
  | some (r, s) =>
    let (result, hint) := resultOf r
    some ⟨command, result, hint, s⟩

/-- Runs the entries of a batch from one index on. Each is delivered as soon as it has ended. -/
def executeBatchFrom (fuel : Nat) (deliver : BatchEntry → World → World) (index : Nat) :
    List String → Session → Option (List BatchEntry × Session)
  | [], s => some ([], s)
  | command :: rest, s =>
    match executeEntry fuel index command s with
    | none => none
    | some entry =>
      match executeBatchFrom fuel deliver (index + 1) rest
          (entry.session.changeWorld (deliver entry)) with
      | none => none
      | some (entries, s) => some (entry :: entries, s)

def executeBatch (fuel : Nat) (deliver : BatchEntry → World → World) (commands : List String)
    (s : Session) : Option (List BatchEntry × Session) :=
  executeBatchFrom fuel deliver 0 commands s

end Session

end LogConsole
