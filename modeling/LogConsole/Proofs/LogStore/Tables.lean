import LogConsole.Proofs.LogStore.Texts
import LogConsole.Proofs.Sql.Tables

/-!
# LogConsole.Proofs.LogStore.Tables

The tables that log lines are copied into, and the two statements that copy them.

* `filesTable`, `logsTable` — the tables with some rows;
* `LogTables`  — a database that has the tables, with what keeps the paths apart; whatever else
  it holds is not restricted;
* `fileAction`, `lineAction` — what `fileText` and `lineText` do to such a database;
* `prepareText_fileText`, `prepareText_lineText` — the texts are prepared as these;
* `filesTable_changed`, `logsTable_changed` — other rows in one of the tables;
* `RowsChanged` — a database with other rows in these tables, and the same in everything else.
-/

namespace LogConsole.LogStore

open Sql

/-! ## Tables -/

def filesTable (rows : List Row) : Table where
  name := "log_files"
  columns :=
    [{ name := "path", affinity := .text, width := 5 },
     { name := "is_virtual", affinity := .numeric, default := .integer 0 },
     { name := "line_count", affinity := .integer, default := .integer 0 }]
  rows := rows
  text := filesDef.text

/-- The index that keeps the paths of `log_files` apart. -/
def filesKey : Index where
  name := "sqlite_autoindex_log_files_1"
  table := "log_files"
  columns := [0]
  unique := true
  text := none

def logsTable (rows : List Row) : Table where
  name := "all_logs"
  columns :=
    [{ name := "log_line", affinity := .integer },
     { name := "log_path", affinity := .text, width := 5, notNull := true },
     { name := "log_file_line", affinity := .integer, notNull := true },
     { name := "log_body", affinity := .text, width := 5 },
     { name := "log_msg_format", affinity := .text, width := 5 }]
  numberColumn := some 0
  parents := logsDef.parents
  rows := rows
  text := logsDef.text

def formatIndex : Index where
  name := "idx_all_logs_format"
  table := "all_logs"
  columns := [4]
  text := some formatIndexText

def pathIndex : Index where
  name := "idx_all_logs_path"
  table := "all_logs"
  columns := [1]
  text := some pathIndexText

theorem files_name (rows : List Row) : sameName (filesTable rows).name "log_files" = true :=
  sameName_self _

theorem logs_name (rows : List Row) : sameName (logsTable rows).name "all_logs" = true :=
  sameName_self _

theorem files_not_logs : sameName "log_files" "all_logs" = false := by decide

theorem logs_not_files : sameName "all_logs" "log_files" = false := by decide

structure LogTables (db : Database) (files logs : List Row) : Prop where
  files : db.table? "log_files" = some (filesTable files)
  logs : db.table? "all_logs" = some (logsTable logs)
  key : filesKey ∈ db.indexesOf "log_files"

/-! ## Statements -/

def fileAction : InsertAction where
  table := "log_files"
  places := [some 0, some 1, some 2]
  numberPlace := none
  rows := [[.parameter 1, .parameter 2, .parameter 3]]
  conflict := some ([0], [(some 2, .call .greatest [.column 2, .parameter 3])])

def lineAction : InsertAction where
  table := "all_logs"
  places := [none, some 0, some 1, some 2, some 3]
  numberPlace := none
  rows := [[.parameter 1, .parameter 2, .parameter 3, .parameter 4]]

variable {db : Database} {files logs : List Row}

theorem isKey_path (h : LogTables db files logs) :
    Prepared.isKey db (filesTable files) [0] = true := by
  have hany : ((db.indexesOf "log_files").any fun i =>
      i.unique && Prepared.sameColumns [0] i.columns) = true :=
    List.any_eq_true.2 ⟨filesKey, h.key, by rfl⟩
  simp only [Prepared.isKey, filesTable, hany, Bool.or_true]

theorem find?_lineCount (files : List Row) :
    ((Prepared.conflictScope (filesTable files)).withTotals false).find? none "line_count"
      = some { table := "log_files", name := "line_count", label := "line_count", index := 2,
               affinity := some .integer } := by
  cbv

/-- The larger of the count that is there and the one that is given. -/
theorem resolve_largerCount (files : List Row) :
    resolvePlain (Prepared.conflictScope (filesTable files))
      (.call "MAX" [.column none "line_count" false 154, .parameter 3] false 150)
      = .ok (.call .greatest [.column 2, .parameter 3]) := by
  have hc : Resolver.callee "MAX" 2 = .function .greatest := by rfl
  simp only [resolvePlain, resolve, Resolver.expression, Resolver.expressions, Resolver.column,
    List.length_cons, List.length_nil, hc, find?_lineCount]
  rfl

theorem conflictOf_path (h : LogTables db files logs) :
    Prepared.conflictOf db (filesTable files) ["path"]
      (.update [("line_count",
        .call "MAX" [.column none "line_count" false 154, .parameter 3] false 150)])
      = .ok ([0], [(some 2, .call .greatest [.column 2, .parameter 3])]) := by
  have hp : (["path"].mapM fun name => Prepared.place (filesTable files) name
      ("no such column: " ++ name)) = .ok [some 0] := by
    rfl
  have hk : Prepared.isKey db (filesTable files)
      ([some 0].map (·.getD (filesTable files).columns.length)) = true := isKey_path h
  simp only [Prepared.conflictOf, hp, hk, bind, Except.bind, if_true, Prepared.assignments,
    resolve_largerCount]
  rfl

theorem prepare_putFile (h : LogTables db files logs) :
    putFile.prepare db = .ok { action := .insert fileAction, parameters := putFile.parameters } := by
  have ht : Prepared.target db "log_files" = .ok (filesTable files) := by
    simp only [Prepared.target, h.files]
  have hi : Prepared.ofStatement db putFile.statement = .ok { action := .insert fileAction } := by
    simp only [putFile, Prepared.ofStatement, Prepared.insertion, ht, conflictOf_path h, bind,
      Except.bind]
    rfl
  simp only [Read.prepare, Read.checkHead, putFile] at hi ⊢
  simp only [hi]

theorem prepare_putLine (h : LogTables db files logs) :
    putLine.prepare db = .ok { action := .insert lineAction, parameters := putLine.parameters } := by
  have ht : Prepared.target db "all_logs" = .ok (logsTable logs) := by
    simp only [Prepared.target, h.logs]
  have hp : Prepared.checkParents db (logsTable logs).parents = .ok () := by
    simp only [Prepared.checkParents, logsTable, logsDef, List.find?_cons, h.files]
    rfl
  have hi : Prepared.ofStatement db putLine.statement = .ok { action := .insert lineAction } := by
    simp only [putLine, Prepared.ofStatement, Prepared.insertion, ht, hp, bind, Except.bind]
    rfl
  simp only [Read.prepare, Read.checkHead, putLine] at hi ⊢
  simp only [hi]

theorem prepareText_fileText (h : LogTables db files logs) :
    prepareText db fileText
      = .ok { action := .insert fileAction, parameters := putFile.parameters } := by
  rw [prepareText, prepare_of_readFirst readFirst_fileText (prepare_putFile h)]
  rfl

theorem prepareText_lineText (h : LogTables db files logs) :
    prepareText db lineText
      = .ok { action := .insert lineAction, parameters := putLine.parameters } := by
  rw [prepareText, prepare_of_readFirst readFirst_lineText (prepare_putLine h)]
  rfl

/-! ## Changes -/

theorem filesTable_changed (h : LogTables db files logs) (rows : List Row) :
    LogTables (db.changeTable "log_files" fun _ => filesTable rows) rows logs where
  files := Database.table?_changeTable h.files (files_name rows)
  logs := by rw [Database.table?_changeTable_other (files_name rows) files_not_logs, h.logs]
  key := by
    rw [Database.indexesOf_changeTable]
    exact h.key

theorem logsTable_changed (h : LogTables db files logs) (rows : List Row) :
    LogTables (db.changeTable "all_logs" fun _ => logsTable rows) files rows where
  files := by rw [Database.table?_changeTable_other (logs_name rows) logs_not_files, h.files]
  logs := Database.table?_changeTable h.logs (logs_name rows)
  key := by
    rw [Database.indexesOf_changeTable]
    exact h.key

inductive RowsChanged (db : Database) : Database → Prop
  | refl : RowsChanged db db
  | files {db' : Database} (h : RowsChanged db db') (rows : List Row) :
      RowsChanged db (db'.changeTable "log_files" fun _ => filesTable rows)
  | logs {db' : Database} (h : RowsChanged db db') (rows : List Row) :
      RowsChanged db (db'.changeTable "all_logs" fun _ => logsTable rows)

end LogConsole.LogStore
