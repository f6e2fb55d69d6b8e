import LogConsole.Text.Blank

/-!
# LogConsole.Message.Basic

What the console tells its user.

* `Level`, `ErrorKind` — how grave a message is, and what sort of failure it reports;
* `Snippet`            — the statement a message is about and where it stands;
* `Message`            — the message with its reason, notes and help, built up by the `with…`
  functions. A reason and a help text lose the blanks at their end.
-/

namespace LogConsole

inductive Level where
  | ok | info | warning | error
  deriving DecidableEq, Repr

inductive ErrorKind where
  | unknownCommand
  | noCommandGiven
  | parseFailure
  | readOnlyViolation
  | engineError
  | structuredEngineError
  | scriptNotFound
  | stdinAlreadyConsumed
  | commandFailed
  | interrupted
  deriving DecidableEq, Repr

structure Snippet where
  source : String
  line : Int32 := 0
  column : Int32 := 0
  content : String := ""
  deriving DecidableEq, Repr

structure Message where
  level : Level
  text : String
  snippets : List Snippet := []
  reason : String := ""
  notes : List String := []
  help : String := ""
  kind : Option ErrorKind := none
  deriving DecidableEq, Repr

namespace Level

def all : List Level := [.ok, .info, .warning, .error]

def name : Level → String
  | .ok => "ok"
  | .info => "info"
  | .warning => "warning"
  | .error => "error"

end Level

namespace ErrorKind

def all : List ErrorKind :=
  [.unknownCommand, .noCommandGiven, .parseFailure, .readOnlyViolation, .engineError,
   .structuredEngineError, .scriptNotFound, .stdinAlreadyConsumed, .commandFailed, .interrupted]

/-- The words of a kind. -/
def words : ErrorKind → List String
  | .unknownCommand => ["unknown", "command"]
  | .noCommandGiven => ["no", "command", "given"]
  | .parseFailure => ["parse", "failure"]
  | .readOnlyViolation => ["read", "only", "violation"]
  | .engineError => ["engine", "error"]
  | .structuredEngineError => ["structured", "engine", "error"]
  | .scriptNotFound => ["script", "not", "found"]
  | .stdinAlreadyConsumed => ["stdin", "already", "consumed"]
  | .commandFailed => ["command", "failed"]
  | .interrupted => ["interrupted"]

/-- The kind as a name in encoded messages. -/
def tag (k : ErrorKind) : String := "_".intercalate k.words

/-- The kind as read by people. -/
def title : ErrorKind → String
  | .readOnlyViolation => "read-only violation"
  | k => " ".intercalate k.words

end ErrorKind

namespace Snippet

/-- `source:line`, and the column if it is known. -/
def location (s : Snippet) : String :=
  if 0 < s.column then
    s.source ++ ":" ++ toString s.line.toInt ++ ":" ++ toString s.column.toInt
  else s.source ++ ":" ++ toString s.line.toInt

end Snippet

namespace Message

def ofLevel (level : Level) (text : String) : Message := ⟨level, text, [], "", [], "", none⟩

def error (text : String) : Message := ofLevel .error text

def withReason (m : Message) (reason : String) : Message :=
  { m with reason := Text.trimEnd reason }

def withHelp (m : Message) (help : String) : Message := { m with help := Text.trimEnd help }

def withSnippet (m : Message) (s : Snippet) : Message := { m with snippets := m.snippets ++ [s] }

def withSnippets (m : Message) (ss : List Snippet) : Message :=
  { m with snippets := m.snippets ++ ss }

def withNote (m : Message) (note : String) : Message := { m with notes := m.notes ++ [note] }

def withKind (m : Message) (kind : ErrorKind) : Message := { m with kind := some kind }

def isError (m : Message) : Bool := m.level == .error

end Message

end LogConsole
