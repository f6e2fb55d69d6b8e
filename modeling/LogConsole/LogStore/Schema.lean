import LogConsole.Failure
import LogConsole.Sql.Prepared

/-!
# LogConsole.LogStore.Schema

The tables that log lines are copied into.

* `version`    — the number of the layout that this library knows;
* `tableText`, `removalText` — the statements that make the tables, and those that remove them;
* `initSchema` — makes the tables and indexes that are missing. Tables of another version are
  removed first: their rows can be made again from the lines.
-/

namespace LogConsole.LogStore

open Sql (Database)

def version : Int32 := 1

/-! ## Texts -/

def filesText : String :=
  "
        CREATE TABLE IF NOT EXISTS log_files (
            path TEXT PRIMARY KEY,
            is_virtual BOOLEAN DEFAULT 0,
            line_count INTEGER DEFAULT 0
        );"

def logsText : String :=
  "

        CREATE TABLE IF NOT EXISTS all_logs (
            log_line INTEGER PRIMARY KEY,
            log_path TEXT NOT NULL,
            log_file_line INTEGER NOT NULL,
            log_body TEXT,
            log_msg_format TEXT,
            FOREIGN KEY (log_path) REFERENCES log_files(path)
        );"

def formatText : String :=
  "

        CREATE INDEX IF NOT EXISTS idx_all_logs_format ON all_logs(log_msg_format);"

def pathText : String :=
  "
        CREATE INDEX IF NOT EXISTS idx_all_logs_path ON all_logs(log_path);"

/-- What stands after the last statement of a text. -/
def margin : String :=
  "
        "

def tableText : String := filesText ++ logsText ++ formatText ++ pathText ++ margin

def removalText : String :=
  "
        DROP TABLE IF EXISTS all_logs;
        DROP TABLE IF EXISTS log_files;
        "

/-! ## Making the tables -/

def runText (db : Database) (text : String) : Except StoreError Unit × Database :=
  match Sql.runAll db text with
  | (.ok (), db) => (.ok (), db)
  | (.error e, db) => (.error (.database e), db)

def removeOld (db : Database) : Except StoreError Unit × Database :=
  if db.userVersion = version then (.ok (), db) else runText db removalText

def initSchema (db : Database) : Except StoreError Unit × Database :=
  match removeOld db with
  | (.error e, db) => (.error e, db)
  | (.ok (), db) =>
    match runText db tableText with
    | (.error e, db) => (.error e, db)
    | (.ok (), db) => (.ok (), { db with userVersion := version })

end LogConsole.LogStore
