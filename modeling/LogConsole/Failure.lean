import LogConsole.Disk

/-!
# LogConsole.Failure

Why something outside a statement fails.

* `engineText`   — what the query engine says of a failure by its code, if it has no text;
* `StoreError`   — a failure of the log store;
* `SetupError`   — a failure while the console is set up;
* `display`, `cause?` — what is said of a failure, and of what caused it. A store whose tables
  are missing or have other columns is told from other failures by the engine's text.
-/

namespace LogConsole

/-- The meaning of a result code of the query engine. -/
def codeMeaning : Nat → String
  | 0 => "Successful result"
  | 1 => "SQL logic error"
  | 2 => "Internal logic error in SQLite"
  | 3 => "Access permission denied"
  | 4 => "Callback routine requested an abort"
  | 5 => "The database file is locked"
  | 6 => "A table in the database is locked"
  | 7 => "A malloc() failed"
  | 8 => "Attempt to write a readonly database"
  | 9 => "Operation terminated by sqlite3_interrupt()"
  | 10 => "Some kind of disk I/O error occurred"
  | 11 => "The database disk image is malformed"
  | 12 => "Unknown opcode in sqlite3_file_control()"
  | 13 => "Insertion failed because database is full"
  | 14 => "Unable to open the database file"
  | 15 => "Database lock protocol error"
  | 16 => "Database is empty"
  | 17 => "The database schema changed"
  | 18 => "String or BLOB exceeds size limit"
  | 19 => "Abort due to constraint violation"
  | 20 => "Data type mismatch"
  | 21 => "Library used incorrectly"
  | 22 => "Uses OS features not supported on host"
  | 23 => "Authorization denied"
  | 24 => "Auxiliary database format error"
  | 25 => "2nd parameter to sqlite3_bind out of range"
  | 26 => "File opened that is not a database file"
  | 27 => "Notifications from sqlite3_log()"
  | 28 => "Warnings from sqlite3_log()"
  | 100 => "sqlite3_step() has another row ready"
  | 101 => "sqlite3_step() has finished executing"
  | 275 => "A CHECK constraint failed"
  | 787 => "Foreign key constraint failed"
  | 1299 => "A NOT NULL constraint failed"
  | 1555 => "A PRIMARY KEY constraint failed"
  | 2067 => "A UNIQUE constraint failed"
  | _ => "Unknown error code"

def engineText (code : Nat) : Option String → String
  | some text => text
  | none => "Error code " ++ toString code ++ ": " ++ codeMeaning code

/-- Whether `part` stands somewhere in a text. -/
def containsPart (part : List Char) : List Char → Bool
  | [] => part.isEmpty
  | c :: rest => part.isPrefixOf (c :: rest) || containsPart part rest

inductive StoreError where
  | database (text : String)
  | io (e : IoError)
  /-- A search pattern that is not well formed. -/
  | pattern
  deriving DecidableEq, Repr

namespace StoreError

def isSchemaMismatch (text : String) : Bool :=
  containsPart "no such column".toList text.toList
    || containsPart "no such table".toList text.toList

def display : StoreError → String
  | .database text =>
    if isSchemaMismatch text then
      "Database schema mismatch: " ++ text ++ ". Re-open the inputs to rebuild all_logs."
    else "Database error: " ++ text
  | .io e => "IO error: " ++ e.message
  | .pattern => "Invalid pattern:"

def cause? : StoreError → Option String
  | .database text => some text
  | .io e => some e.message
  | .pattern => none

end StoreError

inductive SetupError where
  | database (text : String)
  | io (e : IoError)
  | config (text : String)
  deriving DecidableEq, Repr

namespace SetupError

def display : SetupError → String
  | .database text => "Database error: " ++ text
  | .io e => "IO error: " ++ e.message
  | .config text => "Configuration error: " ++ text

def cause? : SetupError → Option String
  | .database text => some text
  | .io e => some e.message
  | .config _ => none

end SetupError

end LogConsole
