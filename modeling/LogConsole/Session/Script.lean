import LogConsole.Mode
import LogConsole.Session.Basic
import LogConsole.Text.Lines
import LogConsole.Words

/-!
# LogConsole.Session.Script

Running scripts.

* `rawLines`, `lineBytes` — the lines of a script with their ends, and a line without its end;
* `Progress`       — a script as far as it has been run: the statement that may go on in the next
  line, the number of lines, and the last answer;
* `runLine`        — one line more. Blank lines and comments are passed over, a marked line starts
  a statement, and any other line goes on with the statement before it, or is a command by itself
  where statements take one line;
* `readScript`     — the statements of a script in order, up to the first failure. What has not
  been read then is left;
* `executeScript`  — a script in its directory, with an output of its own;
* `scriptVariables` — the variables a script starts with;
* `executeFile`    — the scripts that a name stands for, with its arguments.
-/

namespace LogConsole

namespace Script

/-- Lines with their ends; `line` is the line being read, last byte first. -/
def rawLinesFrom (line : List UInt8) : List UInt8 → List (List UInt8)
  | [] => if line.isEmpty then [] else [line.reverse]
  | b :: rest =>
    if b = 10 then (b :: line).reverse :: rawLinesFrom [] rest else rawLinesFrom (b :: line) rest

def rawLines (bytes : List UInt8) : List (List UInt8) := rawLinesFrom [] bytes

/-- A line without its end. -/
def lineBytes (raw : List UInt8) : List UInt8 :=
  match raw.reverse with
  | b :: rest => if b = 10 then Text.closeLine 13 rest else raw
  | [] => []

/-- A statement that later lines may go on with. -/
structure Pending where
  mode : Mode
  line : Nat
  text : String
  deriving DecidableEq, Repr

/-- A script as far as it has been run. -/
structure Progress where
  pending : Option Pending := none
  /-- How many lines have been read. -/
  lines : Nat := 0
  /-- The answer to the last statement that was run. -/
  answer : String := ""
  deriving DecidableEq, Repr

/-- What a line of a script is. -/
inductive Line where
  | skipped
  | statement (mode : Mode) (text : String)
  | other (text : String)
  deriving DecidableEq, Repr

def Line.ofText (text : String) : Line :=
  match text.toList with
  | [] => .skipped
  | c :: rest =>
    if (Text.trim text).isEmpty || c = '#' then .skipped
    else
      match Mode.ofMark? c with
      | some mode => .statement mode (String.ofList rest)
      | none => .other text

def colors : List String :=
  ["black", "red", "green", "yellow", "blue", "magenta", "cyan", "white"]

/-- Escape sequences for the style of printed text. -/
def styleVariables : List (String × String) :=
  [("ansi_csi", "\x1b["), ("ansi_norm", "\x1b[0m"), ("ansi_bold", "\x1b[1m"),
    ("ansi_underline", "\x1b[4m"), ("ansi_reverse", "\x1b[7m")]
    ++ colors.zipIdx.map fun (name, i) => ("ansi_" ++ name, "\x1b[3" ++ toString i ++ "m")

/-- The words of an invocation as variables, and how many follow the first. -/
def argumentVariables (words : List String) : List (String × String) :=
  ("#", toString (words.length - 1)) :: words.zipIdx.map (fun (w, i) => (toString i, w))
    ++ [("__all__", " ".intercalate words.tail)]

def scriptVariables (words : List String) : Dict String :=
  Dict.ofList (styleVariables ++ argumentVariables words)

end Script

namespace Run

open Script

def checkInterrupt : Run Unit := fun s =>
  if s.interrupted then fail .interrupted "interrupted" s else some (.ok (), s)

/-- The frame of a statement in a script. -/
def statementSource (source : String) (line : Nat) (mode : Mode) (payload : String) : Snippet :=
  ⟨source, Int32.ofNat line, 0, String.singleton mode.mark ++ payload⟩

/-- Runs a statement of a script, unless there has been an interrupt. -/
def runStatementAt (again : Mode → String → Run Output) (source : String) (line : Nat)
    (mode : Mode) (text : String) : Run String := do
  checkInterrupt
  let payload := Text.trim text
  let output ← withSource (statementSource source line mode payload) (again mode payload)
  return output.summary

/-- Runs the statement that is waiting, if there is one. -/
def runPending (again : Mode → String → Run Output) (source : String) (p : Progress) :
    Run Progress :=
  match p.pending with
  | none => pure p
  | some stmt => do
    let answer ← runStatementAt again source stmt.line stmt.mode stmt.text
    return { p with pending := none, answer }

/-- Goes on with the statement that is waiting; where there is none the line is dropped. -/
def continuePending (p : Progress) (text : String) : Progress :=
  match p.pending with
  | some stmt => { p with pending := some { stmt with text := stmt.text ++ "\n" ++ text } }
  | none => p

def runLine (again : Mode → String → Run Output) (source : String) (multiline : Bool)
    (p : Progress) (bytes : List UInt8) : Run Progress :=
  let p := { p with lines := p.lines + 1 }
  match Text.Utf8.decode? bytes with
  | none => failFor .commandFailed ("unable to read " ++ source) IoError.invalidUtf8.message
  | some text =>
    match Line.ofText text with
    | .skipped => pure p
    | .statement mode rest => do
      let p ← runPending again source p
      return { p with pending := some ⟨mode, p.lines, rest⟩ }
    | .other text =>
      if multiline then pure (continuePending p text)
      else do
        let answer ← runStatementAt again source p.lines .command text
        return { p with answer }

/-- Runs lines one after the other, and then the statement that is waiting. The second result is
what has not been read. -/
def readScript (again : Mode → String → Run Output) (source : String) (multiline : Bool)
    (p : Progress) : List (List UInt8) → Run (Except Message String × List (List UInt8))
  | [] => fun s =>
    match runPending again source p s with
    | none => none
    | some (.error e, s) => some (.ok (.error e, []), s)
    | some (.ok p, s) => some (.ok (.ok p.answer, []), s)
  | raw :: rest => fun s =>
    match runLine again source multiline p (lineBytes raw) s with
    | none => none
    | some (.error e, s) => some (.ok (.error e, rest), s)
    | some (.ok p, s) => readScript again source multiline p rest s

/-- The answer of a script that has ended. -/
def answerOf : Except Message String → Run String
  | .ok answer => pure answer
  | .error e => throw e

def executeScript (again : Mode → String → Run Output) (source dir : String) (bytes : List UInt8)
    (multiline : Bool) : Run String :=
  withDirectory dir (withOutput "default" do
    let (answer, _) ← readScript again source multiline {} (rawLines bytes)
    answerOf answer)

/-- Runs standard input as a script; what it leaves unread can be read again. -/
def executeStdin (again : Mode → String → Run Output) (multiline : Bool) : Run String :=
  withDirectory "." (withOutput "default" do
    let bytes ← act fun s => (s.world.stdin, s.changeWorld fun w => { w with stdin := [] })
    let (answer, unread) ← readScript again "-" multiline {} (rawLines bytes)
    change (Session.changeWorld fun w => { w with stdin := unread.flatten ++ w.stdin })
    answerOf answer)

/-- The directory that a script stands in. -/
def directoryOf (path : String) : String :=
  match Path.parent? path with
  | some "" => "."
  | some dir => dir
  | none => "."

def executeCandidate (again : Mode → String → Run Output) (multiline : Bool) (c : Candidate) :
    Run String :=
  match c.source with
  | .stdin => executeStdin again multiline
  | .file path => do
    match ← get fun s => (s.disk.find path, s.disk.read path) with
    | (.error e, _) => failFor .scriptNotFound "unable to open file" e.message
    | (.ok _, .error e) =>
      withDirectory (directoryOf path) (withOutput "default"
        (failFor .commandFailed ("unable to read " ++ path) e.message))
    | (.ok _, .ok bytes) => executeScript again path (directoryOf path) bytes multiline

/-- Runs scripts in order up to the first failure; the answer is that of the last one. -/
def executeAll (again : Mode → String → Run Output) (multiline : Bool) (answer : String) :
    List Candidate → Run String
  | [] => pure answer
  | c :: rest => do
    let answer ← executeCandidate again multiline c
    executeAll again multiline answer rest

/-- The scripts that a name stands for. -/
def resolveScript (name : String) : Run (List Candidate) := fun s =>
  match s.resolver.resolve s.context s.disk name with
  | (.ok found, resolver) => some (.ok found, { s with resolver })
  | (.error e, resolver) => some (.error e, { s with resolver })

def executeFile (again : Mode → String → Run Output) (invocation : String) (multiline : Bool) :
    Run String := fun s =>
  match splitExpanded s.console.lookup invocation with
  | .error e => failFor .parseFailure "unable to parse path" e.message s
  | .ok [] => fail .noCommandGiven "no script specified" s
  | .ok (name :: args) =>
    withScope (scriptVariables (name :: args)) (do
      executeAll again multiline "" (← resolveScript name)) s

end Run

end LogConsole
