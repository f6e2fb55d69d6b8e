/-!
# LogConsole.CommandLine

The arguments of the console.

* `CommandLine`      — what they ask for; `initialCommands` is the batch to run first;
* `UsageError`       — why arguments are refused, or that help or the version is asked for;
* `CommandLine.parse` — reads arguments from left to right.

An option may have its value attached, after an equals sign or not, or in the next argument.
What an option or a run of files has collected is held back, and checked when something else is
read; a name that is not known is refused before that.
-/

namespace LogConsole

inductive OutputFormat where
  | plain
  | json
  deriving DecidableEq, Repr

namespace OutputFormat

def all : List OutputFormat := [.plain, .json]

def name : OutputFormat → String
  | .plain => "plain"
  | .json => "json"

end OutputFormat

inductive LogLevel where
  | error | warn | info | debug | trace
  deriving DecidableEq, Repr

namespace LogLevel

def all : List LogLevel := [.error, .warn, .info, .debug, .trace]

def name : LogLevel → String
  | .error => "error"
  | .warn => "warn"
  | .info => "info"
  | .debug => "debug"
  | .trace => "trace"

end LogLevel

inductive UsageError where
  | invalidValue
  | unknownArgument
  | argumentConflict
  | tooManyValues
  | displayHelp
  | displayVersion
  deriving DecidableEq, Repr

structure CommandLine where
  dataDirectory : Option String := none
  format : OutputFormat := .plain
  logLevel : LogLevel := .warn
  commands : List String := []
  scripts : List String := []
  headless : Bool := false
  readOnly : Bool := false
  files : List String := []
  deriving DecidableEq, Repr

namespace CommandLine

/-- The commands, then the scripts as lines that run them. -/
def initialCommands (c : CommandLine) : List String :=
  c.commands ++ c.scripts.map ("|" ++ ·)

/-- An option that takes a value. -/
inductive Opt where
  | dataDirectory | format | logLevel | command | script
  deriving DecidableEq, Repr

inductive Flag where
  | headless | readOnly | help | version
  deriving DecidableEq, Repr

/-- What has been collected and not been checked. -/
inductive Pending where
  | nothing
  | option (o : Opt) (value : Option String)
  | files (names : List String)
  deriving DecidableEq, Repr

/-- The arguments read so far; a single option is `none` until it is given. -/
structure Progress where
  dataDirectory : Option String := none
  format : Option OutputFormat := none
  logLevel : Option LogLevel := none
  commands : List String := []
  scripts : List String := []
  headless : Bool := false
  readOnly : Bool := false
  files : List String := []
  pending : Pending := .nothing

abbrev Outcome (α : Type) := Except UsageError α

namespace Progress

def finish (p : Progress) : CommandLine :=
  ⟨p.dataDirectory, p.format.getD .plain, p.logLevel.getD .warn, p.commands, p.scripts,
    p.headless, p.readOnly, p.files⟩

/-- Takes the value of an option. An option that is given once at most is refused the second
time, whatever its value. -/
def take (p : Progress) (value : String) : Opt → Outcome Progress
  | .dataDirectory =>
    if p.dataDirectory.isSome then .error .argumentConflict
    else .ok { p with dataDirectory := some value }
  | .format =>
    if p.format.isSome then .error .argumentConflict
    else
      match OutputFormat.all.find? (fun f => f.name == value) with
      | some f => .ok { p with format := some f }
      | none => .error .invalidValue
  | .logLevel =>
    if p.logLevel.isSome then .error .argumentConflict
    else
      match LogLevel.all.find? (fun l => l.name == value) with
      | some l => .ok { p with logLevel := some l }
      | none => .error .invalidValue
  | .command => .ok { p with commands := p.commands ++ [value] }
  | .script => .ok { p with scripts := p.scripts ++ [value] }

/-- Checks what has been held back. A file needs a name. -/
def settle (p : Progress) : Outcome Progress :=
  match p.pending with
  | .nothing => .ok p
  | .option _ none => .error .invalidValue
  | .option o (some value) => { p with pending := .nothing }.take value o
  | .files names =>
    if names.contains "" then .error .invalidValue
    else .ok { p with files := p.files ++ names, pending := .nothing }

def setFlag (p : Progress) (flag : Flag) : Outcome Progress :=
  match p.settle with
  | .error e => .error e
  | .ok p =>
    match flag with
    | .headless => if p.headless then .error .argumentConflict else .ok { p with headless := true }
    | .readOnly => if p.readOnly then .error .argumentConflict else .ok { p with readOnly := true }
    | .help => .error .displayHelp
    | .version => .error .displayVersion

/-- An option and the value attached to it, if there is one. -/
def setOption (p : Progress) (o : Opt) (attached : Option String) : Outcome Progress :=
  match p.settle with
  | .error e => .error e
  | .ok p =>
    match attached with
    | some value => p.take value o
    | none => .ok { p with pending := .option o none }

/-- An argument that names no option: the value that an option waits for, or a file. -/
def addWord (p : Progress) (verbatim : Bool) (word : String) : Outcome Progress :=
  match p.pending, verbatim with
  | .option o none, false => .ok { p with pending := .option o (some word) }
  | .files names, _ => .ok { p with pending := .files (names ++ [word]) }
  | _, _ =>
    match p.settle with
    | .error e => .error e
    | .ok p => .ok { p with pending := .files [word] }

end Progress

def longName? : String → Option (Opt ⊕ Flag)
  | "data-dir" => some (.inl .dataDirectory)
  | "format" => some (.inl .format)
  | "log-level" => some (.inl .logLevel)
  | "headless" => some (.inr .headless)
  | "read-only" => some (.inr .readOnly)
  | "help" => some (.inr .help)
  | "version" => some (.inr .version)
  | _ => none

def shortName? (c : Char) : Option (Opt ⊕ Flag) :=
  if c = 'c' then some (.inl .command)
  else if c = 'f' then some (.inl .script)
  else if c = 'n' then some (.inr .headless)
  else if c = 'r' then some (.inr .readOnly)
  else if c = 'h' then some (.inr .help)
  else if c = 'V' then some (.inr .version)
  else none

/-- `name` or `name=value`, as it follows two hyphens. -/
def readLong (p : Progress) (cs : List Char) : Outcome Progress :=
  let name := String.ofList (cs.takeWhile (· != '='))
  let attached :=
    match cs.dropWhile (· != '=') with
    | _ :: value => some (String.ofList value)
    | [] => none
  match longName? name with
  | none => .error .unknownArgument
  | some (.inl o) => p.setOption o attached
  | some (.inr flag) => if attached.isSome then .error .tooManyValues else p.setFlag flag

/-- The letters after a single hyphen: flags, up to an option, whose value is the rest. -/
def readShort (p : Progress) : List Char → Outcome Progress
  | [] => .ok p
  | c :: rest =>
    match shortName? c with
    | none => .error .unknownArgument
    | some (.inr flag) =>
      match p.setFlag flag with
      | .error e => .error e
      | .ok p => readShort p rest
    | some (.inl o) =>
      match rest with
      | [] => p.setOption o none
      | '=' :: value => p.setOption o (some (String.ofList value))
      | value => p.setOption o (some (String.ofList value))

def readWord (p : Progress) (word : String) : Outcome Progress :=
  match word.toList with
  | '-' :: '-' :: c :: rest => readLong p (c :: rest)
  | '-' :: c :: rest => readShort p (c :: rest)
  | _ => p.addWord false word

/-- After the argument `--`, all arguments are `verbatim`: none names an option. -/
def readAll (p : Progress) (verbatim : Bool) : List String → Outcome Progress
  | [] => p.settle
  | word :: rest =>
    if verbatim then
      match p.addWord true word with
      | .error e => .error e
      | .ok p => readAll p true rest
    else if word = "--" then readAll p true rest
    else
      match readWord p word with
      | .error e => .error e
      | .ok p => readAll p false rest

def parse (arguments : List String) : Outcome CommandLine :=
  match readAll {} false arguments with
  | .ok p => .ok p.finish
  | .error e => .error e

end CommandLine

end LogConsole
