import LogConsole.Context

/-!
# LogConsole.Command

The commands of a session.

* `Builtin`        — the commands that every session has, each with its help text;
* `Request`        — what can be run: a line, a statement in one mode, a script;
* `Procedure`      — what a command from outside does: it looks at the context, has requests run,
  also inside of frames, and answers. It changes the context by its frames only;
* `Handler`        — what a command does: it is built in, or a procedure that is given the line
  and the words of the line;
* `Command`        — a handler and its help text;
* `Commands`       — commands by name;
* `MetaStatement`  — the statements that start with a dot and are no matter of the query engine.
-/

namespace LogConsole

inductive Builtin where
  | echo
  | eval
  | redirectTo
  | writeCsv
  | writeJson
  | shell
  | help
  deriving DecidableEq, Repr

namespace Builtin

def all : List Builtin := [.echo, .eval, .redirectTo, .writeCsv, .writeJson, .shell, .help]

def helpText : Builtin → Help
  | .echo =>
    (((Help.command "echo" "Echo the given message to the screen or the output file")
      |>.withOptionalParameter "-n" "Do not print a line-feed at the end")
      |>.withParameter "msg" "The message to display")
      |>.withExample ":echo Hello, World!"
  | .eval =>
    ((Help.command "eval"
        "Evaluate the given command/query after doing environment variable substitution")
      |>.withParameter "command" "The command or query to perform substitution on")
      |>.withExample ":eval :echo $HOME"
  | .redirectTo =>
    ((Help.command "redirect-to" "Redirect the output of commands to the given file")
      |>.withOptionalParameter "path" "The path to the file to write; '-' for standard output")
      |>.withExample ":redirect-to /tmp/report.txt"
  | .writeCsv =>
    ((Help.command "write-csv-to" "Write the results of the last query as CSV")
      |>.withParameter "path" "The path to the file to write; '-' for standard output")
      |>.withExample ":write-csv-to /tmp/results.csv"
  | .writeJson =>
    ((Help.command "write-json-to" "Write the results of the last query as a JSON array")
      |>.withParameter "path" "The path to the file to write; '-' for standard output")
      |>.withExample ":write-json-to -"
  | .shell =>
    ((Help.command "sh" "Execute the given command-line and capture its output")
      |>.withParameter "cmdline" "The command-line to execute")
      |>.withExample ":sh uptime"
  | .help =>
    ((Help.command "help" "Show the help text for a command")
      |>.withOptionalParameter "command" "The command to describe")
      |>.withExample ":help echo"

end Builtin

inductive Request where
  /-- A line, after which the host is refreshed if need be. -/
  | line (text : String)
  | dispatch (text : String)
  | command (line : String)
  | query (text : String)
  | file (invocation : String) (multiline : Bool)
  | reader (source dir : String) (bytes : List UInt8) (multiline : Bool)

inductive Procedure where
  | answer (result : Except Message String)
  | look (next : Context → Procedure)
  /-- Goes on with the answer of a procedure that runs inside of a frame. -/
  | within (f : Frame) (inner : Procedure) (next : Except Message String → Procedure)
  | request (q : Request) (next : Except Message String → Procedure)

inductive Handler where
  | builtin (b : Builtin)
  | procedure (start : String → List String → Procedure)

/-- A handler that only computes its answer, from the context, the line and its words. -/
def Handler.custom (answer : Context → String → List String → Except Message String) : Handler :=
  .procedure fun line words => .look fun context => .answer (answer context line words)

structure Command where
  help : Help
  handler : Handler

abbrev Commands := Dict Command

namespace Commands

/-- Adds a command under the name in its help text. -/
def add (cs : Commands) (c : Command) : Commands := cs.insert c.help.name c

def builtins : Commands :=
  Builtin.all.foldl (fun cs b => cs.add ⟨b.helpText, .builtin b⟩) Dict.empty

end Commands

inductive MetaStatement where
  | schema
  | tables
  deriving DecidableEq, Repr

namespace MetaStatement

/-- In increasing order of their names. -/
def all : List MetaStatement := [.schema, .tables]

def helpText : MetaStatement → Help
  | .tables => Help.sql ".tables" "List the tables and views in the database"
  | .schema =>
    ((Help.sql ".schema" "Show the statements used to create tables and views")
      |>.withOptionalParameter "table" "Only show the schema of this table")
      |>.withExample ";.schema all_logs"

def name (m : MetaStatement) : String := m.helpText.name

def ofName? (name : String) : Option MetaStatement := all.find? fun m => m.name == name

end MetaStatement

end LogConsole
