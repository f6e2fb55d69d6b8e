import LogConsole.Capture
import LogConsole.Command
import LogConsole.Config
import LogConsole.Host
import LogConsole.Query.Collector
import LogConsole.Script.Resolver
import LogConsole.Sql.Prepared

/-!
# LogConsole.Session.Basic

The state of a session, and computations on it.

* `Session`   — the console with its database, host, scripts, query results and captures;
* `Run`       — a computation that ends with a value or a failure message, or does not end
  within its fuel. A failure keeps what has been done before it;
* `within`    — a computation between entering and leaving a frame. It is left however the
  computation ends;
* `refreshHost`, `waitForCaptures`, `pipe` — what a session does by itself.
-/

namespace LogConsole

structure Session where
  console : Console := {}
  database : Sql.Database := {}
  host : Host := {}
  resolver : Resolver := {}
  collector : Collector := {}
  captures : List Capture := []
  /-- How many outputs of child processes have been handed to the host. -/
  captureCount : Nat := 0
  headless : Bool := false
  interrupted : Bool := false
  commands : Commands := Commands.builtins

namespace Session

def context (s : Session) : Context := s.console.context

def world (s : Session) : World := s.console.world

def disk (s : Session) : Disk := s.console.world.disk

def results (s : Session) : ResultSet := s.collector.results

def changeContext (f : Context → Context) (s : Session) : Session :=
  { s with console := { s.console with context := f s.console.context } }

def changeWorld (f : World → World) (s : Session) : Session :=
  { s with console := { s.console with world := f s.console.world } }

def changeConsole (f : Console → Console) (s : Session) : Session :=
  { s with console := f s.console }

/-- Reads what has been added to the inputs, and brings the tables up to date. -/
def refreshHost (s : Session) : Session :=
  let (host, database) := (s.host.rescan s.world).rebuild s.database
  { s with host, database }

/-- Takes over what is configured. -/
def configure (c : Config) (dataDir : String) (s : Session) : Session :=
  let environment := s.world.environment
  let s := s.changeContext (c.installGlobals environment)
  let s := if c.readOnly then s.changeContext fun ctx => { ctx with readOnly := true } else s
  { s with
    collector := Collector.ofKeyColumns c.keyColumns
    resolver := { s.resolver with directories := c.searchDirectories environment dataDir } }

/-! ## Captures -/

/-- Where the output of a child process goes: to the sink of the current output, else to the host
as a new input. The answer is the name it has there, and the capture that copies it. -/
def pipe (commandLine : String) (reads : List PipeRead) (s : Session) :
    String × Option Capture × Session :=
  match s.console.sink? with
  | some sink => (commandLine, some ⟨commandLine, sink, .copying reads⟩, s)
  | none =>
    let name := "[" ++ toString s.captureCount ++ "] Output of " ++ commandLine
    (name, none,
      { s with
        host := s.host.addInput name (PipeRead.received reads)
        captureCount := s.captureCount + 1 })

def finishCapture (s : Session) (c : Capture) : Session := s.changeWorld c.finish

def waitForCaptures (s : Session) : Session :=
  { s.captures.foldl finishCapture s with captures := [] }

/-- Drops the captures, which finish by themselves. -/
def abandonCaptures (s : Session) : Session := s.waitForCaptures

end Session

/-! ## Computations -/

def Run (α : Type) : Type := Session → Option (Except Message α × Session)

namespace Run

variable {α β : Type}

def pure (a : α) : Run α := fun s => some (.ok a, s)

/-- Goes on with the value of a computation; a failure ends both. -/
def bind (x : Run α) (f : α → Run β) : Run β := fun s =>
  match x s with
  | none => none
  | some (.error e, s) => some (.error e, s)
  | some (.ok a, s) => f a s

instance : Monad Run where
  pure := pure
  bind := bind

def throw (m : Message) : Run α := fun s => some (.error m, s)

/-- Fails with a message about the current source. -/
def fail (kind : ErrorKind) (text : String) : Run α := fun s =>
  some (.error (s.context.error kind text), s)

def failFor (kind : ErrorKind) (text reason : String) : Run α := fun s =>
  some (.error ((s.context.error kind text).withReason reason), s)

def get (f : Session → α) : Run α := fun s => some (.ok (f s), s)

def change (f : Session → Session) : Run Unit := fun s => some (.ok (), f s)

/-- A value and a change of the session. -/
def act (f : Session → α × Session) : Run α := fun s =>
  let (a, s) := f s
  some (.ok a, s)

/-- Goes on after a computation, however it ended. -/
def ensuring (x : Run α) (after : Session → Session) : Run α := fun s =>
  match x s with
  | none => none
  | some (r, s) => some (r, after s)

def within (f : Frame) (x : Run α) : Run α := fun s =>
  ensuring x (Session.changeConsole (f.leave s.context)) (s.changeConsole f.enter)

/-- A frame for the source of a statement. -/
def withSource (source : Snippet) (x : Run α) : Run α := within (.source source) x

def withScope (vars : Dict String) (x : Run α) : Run α := within (.scope vars) x

def withDirectory (dir : String) (x : Run α) : Run α := within (.directory dir) x

/-- A fresh output, which is the screen. -/
def withOutput (name : String) (x : Run α) : Run α := within (.output name none) x

/-- Puts the help text of a command in place of the current one. -/
def withHelp (help : Help) (x : Run α) : Run α := within (.help help) x

end Run

/-- What a statement says of its success: a summary, and a hint for the status line. -/
structure Output where
  summary : String := ""
  hint : String := ""
  deriving DecidableEq, Repr

end LogConsole
