import LogConsole.Context
import LogConsole.Script.Candidate

/-!
# LogConsole.Script.Resolver

What the name of a script stands for.

* `Resolver`   — the directories to search, and whether standard input has been given out;
* `index`      — the script files below the directories, by name without extension, in the order
  of the directories and below each of them in the order of `Disk.walk`;
* `resolve`    — standard input for `-` and `/dev/stdin`, once; else the files of that name in
  the index; else the file of that name, taken from the directory of the process, or else from
  the directory of the running script.
-/

namespace LogConsole

structure Resolver where
  directories : List String := []
  stdinTaken : Bool := false
  deriving DecidableEq, Repr

namespace Resolver

def extension : String := "lsh"

/-- The name that a file has as a script. -/
def scriptName? (path : String) : Option String :=
  if Path.extension? path = some extension then Path.stem? path else none

/-- The script files, in order. -/
def scriptFiles (r : Resolver) (disk : Disk) : List String :=
  (r.directories.flatMap disk.walk).filter fun p => (scriptName? p).isSome

/-- The script files of a name, in order. -/
def filesNamed (r : Resolver) (disk : Disk) (name : String) : List String :=
  (r.scriptFiles disk).filter fun p => scriptName? p == some name

/-- The candidates of each name in increasing order of the names. -/
def index (r : Resolver) (disk : Disk) : List (String × List Candidate) :=
  let names := Dict.ofList ((r.scriptFiles disk).filterMap fun p =>
    (scriptName? p).map fun n => (n, ()))
  names.keys.map fun n => (n, (r.filesNamed disk n).map (Candidate.ofFile disk))

def isStdin (name : String) : Bool := name == "-" || name == "/dev/stdin"

def unknown (name reason : String) : String := "unknown script -- " ++ name ++ " -- " ++ reason

def notFound : String := "file not found"

/-- A name that is taken from the directory of the running script. -/
def besideScript (disk : Disk) (dir name : String) : Except String Candidate :=
  if Path.isAbsolute name then .error notFound
  else
    match disk.find (Path.join dir name) with
    | .ok (_, .file _) => .ok (Candidate.ofFile disk (Path.join dir name))
    | .ok _ => .error notFound
    | .error .notFound => .error notFound
    | .error e => .error e.message

/-- The one file that a name stands for. -/
def literalFile (disk : Disk) (dir name : String) : Except String Candidate :=
  match disk.find name with
  | .ok (_, .file _) => .ok (Candidate.ofFile disk name)
  | .ok _ => .error notFound
  | .error .notFound => besideScript disk dir name
  | .error e => .error e.message

def resolve (r : Resolver) (ctx : Context) (disk : Disk) (name : String) :
    Except Message (List Candidate) × Resolver :=
  if isStdin name then
    if r.stdinTaken then
      (.error (ctx.error .stdinAlreadyConsumed "stdin has already been consumed"), r)
    else (.ok [⟨.stdin, "", ""⟩], { r with stdinTaken := true })
  else
    match r.filesNamed disk name with
    | [] =>
      match literalFile disk ctx.directory name with
      | .ok c => (.ok [c], r)
      | .error reason => (.error (ctx.error .scriptNotFound (unknown name reason)), r)
    | files => (.ok (files.map (Candidate.ofFile disk)), r)

end Resolver

end LogConsole
