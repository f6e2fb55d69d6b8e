import LogConsole.Program

/-!
# LogConsole.Main

The console on the command line: takes in the world, runs the program in it, and puts what has
changed back.

* `namedFiles`   — the files that a command line and the configuration name; the program sees no
  others;
* `takeWorld`    — environment, files and standard input;
* `putBack`      — prints what was printed and writes the files that changed;
* `converse`     — the prompt, line by line.
-/

namespace LogConsole.Main

/-! ## Taking in the world -/

/-- The name and the value in an entry of the environment. -/
def environmentEntry? (entry : List UInt8) : Option (String × String) :=
  match (Text.Utf8.decodeLossy entry).toList with
  | [] => none
  | cs =>
    let name := cs.takeWhile (· != '=')
    some (String.ofList name, String.ofList (cs.drop (name.length + 1)))

/-- The entries of an environment, each ended by a NUL. -/
def environmentOf (bytes : List UInt8) : Dict String :=
  Dict.ofList ((Text.cutLines 0 0 bytes).filterMap environmentEntry?)

/-- The words that may name files. -/
def namedFiles (c : CommandLine) (environment : Dict String) : List String :=
  Path.join (dataDirectory environment c.dataDirectory) Config.fileName :: c.files
    ++ c.initialCommands.flatMap fun line => (Words.split (Mode.split line).2).getD []

def putFile (disk : Disk) (path : String) (bytes : List UInt8) : Disk :=
  match disk.makeDirs ((Path.parent? path).getD "") with
  | .error _ => disk
  | .ok disk =>
    match disk.write path bytes with
    | .ok disk => disk
    | .error _ => disk

def readThere (path : String) : IO (Option (List UInt8)) := do
  try return some (← IO.FS.readBinFile path).toList
  catch _ => return none

def takeFile (disk : Disk) (path : String) : IO Disk := do
  match ← readThere path with
  | some bytes => return putFile disk path bytes
  | none => return disk

partial def readAll (input : IO.FS.Stream) (bytes : List UInt8) : IO (List UInt8) := do
  let chunk ← input.read 65536
  if chunk.isEmpty then return bytes else readAll input (bytes ++ chunk.toList)

def takeWorld (c : CommandLine) : IO World := do
  let environment := environmentOf ((← readThere "/proc/self/environ").getD [])
  let disk ← (namedFiles c environment).foldlM takeFile Disk.empty
  let input ← IO.getStdin
  if ← input.isTty then return { disk, environment, terminal := some (24, 80) }
  else return { disk, environment, stdin := ← readAll input [] }

/-! ## Putting it back -/

/-- The name of a location. -/
def nameOf (disk : Disk) (l : Location) : String :=
  match Disk.below? disk.base l with
  | some names => "/".intercalate names
  | none => "/" ++ "/".intercalate l

/-- The files that are new or have new contents, by name. -/
def changedFiles (before after : Disk) : List (String × List UInt8) :=
  after.nodes.filterMap fun (l, node) =>
    match node with
    | .file id =>
      let bytes := after.contentsOf id
      if before.nodeAt l == some node && before.contentsOf id == bytes then none
      else some (nameOf after l, bytes)
    | _ => none

def putBack (before after : World) : IO Unit := do
  let output ← IO.getStdout
  output.write ⟨after.stdout.toArray⟩
  output.flush
  let errors ← IO.getStderr
  errors.write ⟨after.stderr.toArray⟩
  errors.flush
  for (name, bytes) in changedFiles before.disk after.disk do
    try IO.FS.writeBinFile name ⟨bytes.toArray⟩
    catch e => errors.putStrLn (name ++ ": " ++ toString e)

/-- Prints what a session has printed, and writes what it has written. -/
def settle (before : World) (s : Session) : IO Session := do
  putBack before s.world
  return s.changeWorld fun w => { w with stdout := [], stderr := [] }

/-! ## The program -/

/-- Says why the program stops. -/
def stop (e : ProgramError) : IO Bool := do
  (← IO.getStderr).putStrLn ("Error: " ++ e.display)
  return false

partial def converse (format : OutputFormat) (succeeded : Bool) (s : Session) : IO Bool := do
  let errors ← IO.getStderr
  errors.putStr Program.prompt
  errors.flush
  let line ← (← IO.getStdin).getLine
  if line.isEmpty then
    errors.putStrLn ""
    return succeeded
  else
    let (result, ended) := Program.enter format (Text.Utf8.encode line) s
    let ended ← settle s.world ended
    match result with
    | .ok ok => converse format (succeeded && ok) ended
    | .error e => stop e

/-- Whether the program talks with a user. -/
def isInteractive (c : CommandLine) (w : World) : Bool :=
  w.terminal.isSome && !c.headless && c.initialCommands.isEmpty

def runProgram (c : CommandLine) : IO Bool := do
  let world ← takeWorld c
  if isInteractive c world then
    match Program.start c world with
    | .ok s => converse c.format true s
    | .error e => stop e
  else
    let (result, after) := Program.run c world
    putBack world after
    match result with
    | .ok ok => return ok
    | .error e => stop e

/-- What is said of arguments that are refused. -/
def usageText : String :=
  "Usage: logshell [OPTIONS] [FILES]...\n\nOptions:\n"
    ++ "      --data-dir <DATA_DIR>    Data directory holding config.toml and scripts/\n"
    ++ "      --format <FORMAT>        plain or json [default: plain]\n"
    ++ "      --log-level <LOG_LEVEL>  error, warn, info, debug or trace [default: warn]\n"
    ++ "  -c <CMD>                     Execute a mode-prefixed line\n"
    ++ "  -f <SCRIPT>                  Execute a script file\n"
    ++ "  -n, --headless               Run without the interactive prompt\n"
    ++ "  -r, --read-only              Reject statements that modify the database\n"
    ++ "  -h, --help                   Print help\n"
    ++ "  -V, --version                Print version\n"

end LogConsole.Main

open LogConsole in
/-- Runs the console with the given arguments. -/
def main (arguments : List String) : IO UInt32 := do
  match CommandLine.parse arguments with
  | .ok c => return if ← Main.runProgram c then 0 else 1
  | .error .displayHelp =>
    IO.print Main.usageText
    return 0
  | .error .displayVersion =>
    IO.println "logshell"
    return 0
  | .error _ =>
    IO.eprint Main.usageText
    return 2
