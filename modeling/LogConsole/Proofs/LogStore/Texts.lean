import Mathlib
import LogConsole.LogStore.Basic
import LogConsole.Proofs.Sql.Reading

/-!
# LogConsole.Proofs.LogStore.Texts

What the texts of the log store say.

* `makeFiles`, `makeLogs`, `makeFormatIndex`, `makePathIndex` — the statements of `tableText`;
* `removeLogs`, `removeFiles` — the statements of `removalText`;
* `putFile`, `putLine` — the statements that one line is copied by;
* `readAll_tableText`, `readAll_removalText`, `readFirst_fileText`, `readFirst_lineText` — the
  texts are read as these.
-/

namespace LogConsole.LogStore

open Sql (Read TableDef readFirst readAll firstLexemes afterFirst readFirst_congr
  readAll_cons)

/-! ## Rows -/

def putFile : Read where
  head := none
  statement := .insert
    { table := "log_files"
      columns := ["path", "is_virtual", "line_count"]
      rows := [[.parameter 1, .parameter 2, .parameter 3]]
      conflict := some (["path"], .update [("line_count",
        .call "MAX" [.column none "line_count" false 154, .parameter 3] false 150)]) }
  parameters := [some "?1", some "?2", some "?3"]

def putLine : Read where
  head := none
  statement := .insert
    { table := "all_logs"
      columns := ["log_path", "log_file_line", "log_body", "log_msg_format"]
      rows := [[.parameter 1, .parameter 2, .parameter 3, .parameter 4]] }
  parameters := [some "?1", some "?2", some "?3", some "?4"]

set_option maxRecDepth 8000 in
theorem readFirst_fileText : readFirst fileText.toList = some (some putFile, []) := by
  rw [fileText, String.toList_ofList]
  cbv

set_option maxRecDepth 8000 in
theorem readFirst_lineText : readFirst lineText.toList = some (some putLine, []) := by
  rw [lineText, String.toList_ofList]
  cbv

/-! ## Removal -/

def removeLogs : Read := ⟨none, .dropTable true "all_logs", []⟩

def removeFiles : Read := ⟨none, .dropTable true "log_files", []⟩

theorem readAll_removalText : readAll 3 removalText.toList = some [removeLogs, removeFiles] := by
  rw [removalText, String.toList_ofList]
  cbv

/-! ## Tables -/

def filesDef : TableDef where
  name := "log_files"
  columns :=
    [{ name := "path", type := "TEXT", primaryKey := true },
     { name := "is_virtual", type := "BOOLEAN", default := .integer 0 },
     { name := "line_count", type := "INTEGER", default := .integer 0 }]
  text := "CREATE TABLE log_files (
            path TEXT PRIMARY KEY,
            is_virtual BOOLEAN DEFAULT 0,
            line_count INTEGER DEFAULT 0
        )"

def logsDef : TableDef where
  name := "all_logs"
  columns :=
    [{ name := "log_line", type := "INTEGER", primaryKey := true },
     { name := "log_path", type := "TEXT", notNull := true },
     { name := "log_file_line", type := "INTEGER", notNull := true },
     { name := "log_body", type := "TEXT" },
     { name := "log_msg_format", type := "TEXT" }]
  parents := [⟨["log_path"], "log_files", ["path"]⟩]
  text := "CREATE TABLE all_logs (
            log_line INTEGER PRIMARY KEY,
            log_path TEXT NOT NULL,
            log_file_line INTEGER NOT NULL,
            log_body TEXT,
            log_msg_format TEXT,
            FOREIGN KEY (log_path) REFERENCES log_files(path)
        )"

def makeFiles : Read := ⟨some (true, "log_files", 36), .createTable true 36 filesDef, []⟩

def makeLogs : Read := ⟨some (true, "all_logs", 37), .createTable true 37 logsDef, []⟩

def formatIndexText : String := "CREATE INDEX idx_all_logs_format ON all_logs(log_msg_format)"

def pathIndexText : String := "CREATE INDEX idx_all_logs_path ON all_logs(log_path)"

def makeFormatIndex : Read where
  head := none
  statement := .createIndex true false "idx_all_logs_format" "all_logs" [("log_msg_format", 69)]
    formatIndexText
  parameters := []

def makePathIndex : Read where
  head := none
  statement := .createIndex true false "idx_all_logs_path" "all_logs" [("log_path", 66)]
    pathIndexText
  parameters := []

set_option maxRecDepth 8000 in
theorem readFirst_filesText :
    readFirst (filesText ++ margin).toList = some (some makeFiles, margin.toList) := by
  rw [String.toList_append, filesText, margin, String.toList_ofList, String.toList_ofList]
  cbv

set_option maxRecDepth 8000 in
theorem readFirst_logsText :
    readFirst (logsText ++ margin).toList = some (some makeLogs, margin.toList) := by
  rw [String.toList_append, logsText, margin, String.toList_ofList, String.toList_ofList]
  cbv

set_option maxRecDepth 8000 in
theorem readAll_indexTexts :
    readAll 3 (formatText ++ (pathText ++ margin)).toList
      = some [makeFormatIndex, makePathIndex] := by
  rw [String.toList_append, String.toList_append, formatText, pathText, margin,
    String.toList_ofList, String.toList_ofList, String.toList_ofList]
  cbv

/-- The first statement of `text ++ rest` is that of `text`, and leaves `rest`. -/
structure Splits (text rest : String) : Prop where
  first : firstLexemes (text ++ rest).toList = firstLexemes (text ++ margin).toList
  after : afterFirst (text ++ rest).toList = rest.toList

theorem Splits.readFirst {text rest : String} (h : Splits text rest) {r : Read} {cs : List Char}
    (hr : Sql.readFirst (text ++ margin).toList = some (some r, cs)) :
    Sql.readFirst (text ++ rest).toList = some (some r, rest.toList) := by
  rw [readFirst_congr h.first hr, h.after]

theorem filesText_splits : Splits filesText (logsText ++ (formatText ++ (pathText ++ margin))) := by
  constructor <;>
    · simp only [String.toList_append]
      rw [filesText, logsText, formatText, pathText, margin]
      rw [String.toList_ofList, String.toList_ofList, String.toList_ofList, String.toList_ofList,
        String.toList_ofList]
      decide +kernel

theorem logsText_splits : Splits logsText (formatText ++ (pathText ++ margin)) := by
  constructor <;>
    · simp only [String.toList_append]
      rw [logsText, formatText, pathText, margin]
      rw [String.toList_ofList, String.toList_ofList, String.toList_ofList, String.toList_ofList]
      decide +kernel

theorem readAll_tableText :
    readAll 5 tableText.toList
      = some [makeFiles, makeLogs, makeFormatIndex, makePathIndex] := by
  have hf := filesText_splits.readFirst readFirst_filesText
  have hl := logsText_splits.readFirst readFirst_logsText
  rw [tableText, String.append_assoc, String.append_assoc, String.append_assoc]
  exact readAll_cons hf (readAll_cons hl readAll_indexTexts)

end LogConsole.LogStore
