import LogConsole.Dict
import LogConsole.Shell.Syntax
import LogConsole.Shell.Utility

/-!
# LogConsole.Shell.Run

Running the command line of a shell.

* `fields`      — the words that a word with parameters comes to: an unquoted value is cut at
  blanks;
* `runSimple`   — a command with its redirections;
* `runPipeline` — commands that read what the one before them prints;
* `Shell.run`   — a whole command line: what it prints, and what it makes of the files.
-/

namespace LogConsole.Shell

structure State where
  values : Dict String
  disk : Disk
  output : List UInt8 := []
  errors : List UInt8 := []
  status : Nat := 0
  exited : Bool := false

/-! ## Words -/

def valueOf (s : State) (name : String) : String :=
  if name = "?" then toString s.status
  else if name = "#" then "0"
  else if name = "0" then "sh"
  else (s.values.get? name).getD ""

def isSplit (c : Char) : Bool := c == ' ' || c == '\t' || c == '\n'

/-- Adds an unquoted value to fields that are complete and the field being made. -/
def splitInto (done : List String) (field : Option (List Char)) :
    List Char → List String × Option (List Char)
  | [] => (done, field)
  | c :: rest =>
    if isSplit c then
      match field with
      | some cs => splitInto (done ++ [String.ofList cs]) none rest
      | none => splitInto done none rest
    else splitInto done (some (field.getD [] ++ [c])) rest

def fieldsFrom (s : State) (done : List String) (field : Option (List Char)) :
    Word → List String
  | [] =>
    match field with
    | some cs => done ++ [String.ofList cs]
    | none => done
  | .text cs _ :: rest => fieldsFrom s done (some (field.getD [] ++ cs)) rest
  | .parameter name true :: rest =>
    fieldsFrom s done (some (field.getD [] ++ (valueOf s name).toList)) rest
  | .parameter name false :: rest =>
    let (done, field) := splitInto done field (valueOf s name).toList
    fieldsFrom s done field rest

def fields (s : State) (w : Word) : List String := fieldsFrom s [] none w

/-- A word as one text. -/
def oneText (s : State) (w : Word) : String := " ".intercalate (fields s w)

/-- The name and the value of a word that assigns a variable. -/
def assignment? (s : State) (w : Word) : Option (String × String) :=
  let unquoted := w.takeWhile fun p =>
    match p with
    | .text [c] false => c != '='
    | _ => false
  let name := String.ofList (unquoted.flatMap fun p =>
    match p with
    | .text cs _ => cs
    | .parameter _ _ => [])
  match name.toList, w.drop unquoted.length with
  | c :: rest, .text ['='] false :: value =>
    if (Text.isAsciiLetter c || c == '_') && rest.all Text.isAsciiWord then
      some (name, oneText s value)
    else none
  | _, _ => none

/-! ## Commands -/

/-- Where a stream of a command goes. -/
inductive Target where
  | output
  | errors
  | file (name : String)
  deriving DecidableEq, Repr

/-- Where the streams of a command go, and what it reads. -/
structure Streams where
  input : List UInt8
  output : Target := .output
  errors : Target := .errors

/-- Makes the redirections of a command, up to the first that fails. -/
def redirect (s : State) (streams : Streams) : List Redirection →
    Except String Streams × State
  | [] => (.ok streams, s)
  | .read w :: rest =>
    let name := oneText s w
    match s.disk.read name with
    | .ok bytes => redirect s { streams with input := bytes } rest
    | .error _ => (.error ("cannot open " ++ name ++ ": No such file"), s)
  | .write stream append w :: rest =>
    let name := oneText s w
    let opened := if append then s.disk.openForWriting name else s.disk.create name
    match opened with
    | .error .notFound => (.error ("cannot create " ++ name ++ ": Directory nonexistent"), s)
    | .error e => (.error ("cannot create " ++ name ++ ": " ++ plainReason e), s)
    | .ok (disk, _) =>
      let s := { s with disk }
      match stream with
      | .errors => redirect s { streams with errors := .file name } rest
      | _ => redirect s { streams with output := .file name } rest
  | .copy stream other :: rest =>
    let target := match other with
      | .errors => streams.errors
      | _ => streams.output
    match stream with
    | .errors => redirect s { streams with errors := target } rest
    | _ => redirect s { streams with output := target } rest

/-- Sends bytes to a target; the first result is what reaches the next command. -/
def send (s : State) (target : Target) (bytes : List UInt8) : List UInt8 × State :=
  match target with
  | .output => (bytes, s)
  | .errors => ([], { s with errors := s.errors ++ bytes })
  | .file name =>
    match s.disk.append name bytes with
    | .ok disk => ([], { s with disk })
    | .error _ => ([], s)

/-- Stands in front of what the shell itself reports. -/
def complaint (text : String) : List UInt8 := Text.Utf8.encode ("sh: 1: " ++ text ++ "\n")

def exitStatus (s : State) : List String → Nat
  | [] => s.status
  | n :: _ => (n.toNat?.getD 2) % 256

/-- Runs a command with its words and streams; the first result is its output. -/
def runWords (s : State) (streams : Streams) (name : String) (args : List String) :
    List UInt8 × State :=
  if name = "exit" then ([], { s with status := exitStatus s args, exited := true })
  else
    match run? { disk := s.disk } streams.input name args with
    | some e =>
      let s := { s with disk := e.disk, status := e.status }
      let (a, s) := send s streams.output e.output
      let (b, s) := send s streams.errors e.errors
      (a ++ b, s)
    | none =>
      let s := { s with status := 127 }
      send s streams.errors (complaint (name ++ ": not found"))

/-- The assignments that a command starts with, and its other words. -/
def assignments (s : State) : List Word → List (String × String) × List Word
  | [] => ([], [])
  | w :: rest =>
    match assignment? s w with
    | some a =>
      let (more, words) := assignments s rest
      (a :: more, words)
    | none => ([], w :: rest)

def runSimple (s : State) (c : Simple) (input : List UInt8) : List UInt8 × State :=
  let (assigned, words) := assignments s c.words
  let words := words.flatMap (fields s)
  match redirect s { input } c.redirections with
  | (.error e, s) => ([], { s with errors := s.errors ++ complaint e, status := 2 })
  | (.ok streams, s) =>
    match words with
    | [] =>
      ([], { s with
        values := assigned.foldl (fun vs a => vs.insert a.1 a.2) s.values, status := 0 })
    | name :: args => runWords s streams name args

/-- Runs commands, each on the output of the one before it. Those that are joined to others end
without ending the shell, and leave its variables alone. -/
def runPipeline (s : State) (input : List UInt8) : Pipeline → State
  | [] => s
  | [c] =>
    let (bytes, s) := runSimple s c input
    { s with output := s.output ++ bytes }
  | c :: rest =>
    let (bytes, after) := runSimple s c input
    let after := { after with exited := false, values := s.values }
    let last := runPipeline after bytes rest
    { last with exited := s.exited, values := s.values }

def applies (s : State) : Condition → Bool
  | .always => true
  | .afterSuccess => s.status == 0
  | .afterFailure => s.status != 0

def runScript (s : State) : Script → State
  | [] => s
  | (condition, pipeline) :: rest =>
    if s.exited then s
    else if applies s condition then runScript (runPipeline s [] pipeline) rest
    else runScript s rest

/-- Runs a command line. -/
def run (environment : Dict String) (disk : Disk) (text : String) : State :=
  let s : State := { values := environment, disk }
  match Script.parse text with
  | .ok script => runScript s script
  | .error e => { s with errors := complaint ("Syntax error: " ++ e), status := 2 }

end LogConsole.Shell
