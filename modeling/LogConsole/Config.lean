import LogConsole.Context
import LogConsole.Expansion
import LogConsole.Failure
import LogConsole.Toml.Reader
import LogConsole.Toml.Writer

/-!
# LogConsole.Config

What a user configures.

* `dataDirectory` — where the configuration is: a given path, else `LOGSHELL_PATH`, else the
  directory `logshell` among the user's configurations;
* `Config`        — global variables, script directories, key columns, and whether statements
  may modify the database;
* `Config.decode`, `Config.encode` — a configuration as TOML. What a document leaves out has its
  default, and what it has besides is ignored;
* `Config.load`, `Config.save` — the same in a file. A missing file is a configuration with all
  defaults;
* `searchDirectories` — the script directories and `scripts` in the data directory;
* `installGlobals` — sets the global variables, in the order of their names. A value sees those
  set before it, and one that cannot be expanded is left out.
-/

namespace LogConsole

/-- A leading `~/` stands for the home directory, if there is one. -/
def expandTilde (environment : Dict String) (p : String) : String :=
  match p.toList with
  | '~' :: '/' :: rest =>
    match environment.get? "HOME" with
    | some home => Path.join home (String.ofList rest)
    | none => p
  | _ => p

/-- The home directory of the user that a system without `HOME` falls back to. -/
def fallbackHome : String := "/root"

def homeDirectory (environment : Dict String) : String :=
  match environment.get? "HOME" with
  | some "" => fallbackHome
  | some home => home
  | none => fallbackHome

/-- The directory of the user's configurations. A relative `XDG_CONFIG_HOME` does not count. -/
def configHome (environment : Dict String) : String :=
  match environment.get? "XDG_CONFIG_HOME" with
  | some dir => if Path.isAbsolute dir then dir else Path.join (homeDirectory environment) ".config"
  | none => Path.join (homeDirectory environment) ".config"

def dataDirectory (environment : Dict String) (given : Option String) : String :=
  match given with
  | some p => expandTilde environment p
  | none =>
    match environment.get? "LOGSHELL_PATH" with
    | some p => expandTilde environment p
    | none => Path.join (configHome environment) "logshell"

structure Config where
  globals : Dict String := {}
  scriptDirectories : List String := []
  keyColumns : List String := ["log_line", "log_file_line", "log_part", "log_idx", "rowid"]
  readOnly : Bool := false
  deriving DecidableEq, Repr

namespace Config

def fileName : String := "config.toml"

/-! ## Reading -/

def texts? : List Toml.Value → Option (List String)
  | [] => some []
  | .text s :: rest => (texts? rest).map (s :: ·)
  | _ => none

def textArray? : Toml.Value → Option (List String)
  | .array items => texts? items
  | _ => none

def flag? : Toml.Value → Option Bool
  | .boolean b => some b
  | _ => none

def textEntries? : List (String × Toml.Value) → Option (List (String × String))
  | [] => some []
  | (k, .text s) :: rest => (textEntries? rest).map ((k, s) :: ·)
  | _ => none

def dict? : Toml.Value → Option (Dict String)
  | .table entries => (textEntries? entries).map Dict.ofList
  | _ => none

/-- The value of a field, which must be of the right kind if it is there. -/
def fieldOr {α : Type} (read : Toml.Value → Option α) (default : α)
    (entries : List (String × Toml.Value)) (name : String) : Option α :=
  match Toml.lookup name entries with
  | some v => read v
  | none => some default

def ofEntries (entries : List (String × Toml.Value)) : Option Config :=
  let blank : Config := {}
  match fieldOr dict? blank.globals entries "global_vars",
      fieldOr textArray? blank.scriptDirectories entries "script_dirs",
      fieldOr textArray? blank.keyColumns entries "key_columns",
      fieldOr flag? blank.readOnly entries "read_only" with
  | some globals, some dirs, some keys, some readOnly => some ⟨globals, dirs, keys, readOnly⟩
  | _, _, _, _ => none

def decode (text : String) : Option Config :=
  match Toml.parse text with
  | some entries => ofEntries entries
  | none => none

def readBytes (bytes : List UInt8) : Except SetupError Config :=
  match Text.Utf8.decode? bytes with
  | none => .error (.io .invalidUtf8)
  | some text =>
    match decode text with
    | some c => .ok c
    | none => .error (.config "")

def load (disk : Disk) (path : String) : Except SetupError Config :=
  if disk.exists? path then
    match disk.read path with
    | .ok bytes => readBytes bytes
    | .error e => .error (.io e)
  else .ok {}

def defaultPath (environment : Dict String) : String :=
  Path.join (dataDirectory environment none) fileName

/-! ## Writing -/

def encode (c : Config) : String :=
  "script_dirs = " ++ Toml.writeTextArray c.scriptDirectories
    ++ "\nkey_columns = " ++ Toml.writeTextArray c.keyColumns
    ++ "\nread_only = " ++ (if c.readOnly then "true" else "false")
    ++ "\n\n[global_vars]\n"
    ++ String.join (c.globals.toList.map fun e => Toml.writeKey e.1 ++ " = " ++ Toml.writeText e.2 ++ "\n")

/-- Writes a configuration to a file, in directories that are made if need be. -/
def save (c : Config) (disk : Disk) (path : String) : Except SetupError Unit × Disk :=
  match disk.makeDirs ((Path.parent? path).getD "") with
  | .error e => (.error (.io e), disk)
  | .ok disk =>
    match disk.write path (Text.Utf8.encode c.encode) with
    | .error e => (.error (.io e), disk)
    | .ok disk => (.ok (), disk)

/-! ## Use -/

def searchDirectories (c : Config) (environment : Dict String) (dataDir : String) :
    List String :=
  let dirs := c.scriptDirectories.map (expandTilde environment)
  let own := Path.join dataDir "scripts"
  if dirs.any (Path.same own) then dirs else dirs ++ [own]

/-- The value of a variable while the global variables are being set. -/
def lookupGlobal (environment globals : Dict String) (name : String) : Option String :=
  match globals.get? name with
  | some v => some v
  | none => environment.get? name

def installFrom (environment : Dict String) (globals : Dict String) :
    List (String × String) → Dict String
  | [] => globals
  | (name, raw) :: rest =>
    match expand (lookupGlobal environment globals) raw with
    | .ok value => installFrom environment (globals.insert name value) rest
    | .error _ => installFrom environment globals rest

def installGlobals (c : Config) (environment : Dict String) (ctx : Context) : Context :=
  { ctx with globals := installFrom environment ctx.globals c.globals.toList }

end Config

end LogConsole
