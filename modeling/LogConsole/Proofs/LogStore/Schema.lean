import LogConsole.Proofs.LogStore.Tables

/-!
# LogConsole.Proofs.LogStore.Schema

What `initSchema` makes of a database that holds the log tables or nothing.

* `schema`      — the entries that `tableText` makes, with some rows in the tables;
* `run_createTable_there`, `run_createIndex_there` — what is there is not made again;
* `run_removeLogs`, `run_removeFiles` — the tables go one after the other, the lines first;
* `initSchema_of`    — the removal and the making, one after the other;
* `initSchema_empty` — the tables are made if they are missing;
* `initSchema_same`  — tables of the version that is known stay as they are;
* `initSchema_other` — tables of another version are made anew, without their rows.
-/

namespace LogConsole.LogStore

open Sql

/-! ## Statements that find what they make -/

section Runs

variable {db : Database} {name : String}

theorem checkNew_there {t : Table} {offset : Nat} (hr : Prepared.checkReserved name = .ok ())
    (ht : db.table? name = some t) : Prepared.checkNew db name offset true = .ok true := by
  simp only [Prepared.checkNew, hr, ht]
  rfl

theorem run_createTable_there {d : TableDef} {t : Table} {offset : Nat}
    (hr : Prepared.checkReserved d.name = .ok ()) (ht : db.table? d.name = some t) :
    Read.run db ⟨some (true, d.name, offset), .createTable true offset d, []⟩ = some db := by
  have hn : Prepared.checkNew db d.name offset true = .ok true := checkNew_there hr ht
  have hp : Read.prepare db ⟨some (true, d.name, offset), .createTable true offset d, []⟩
      = .ok {} := by
    simp only [Read.prepare, Read.checkHead, hn, Prepared.ofStatement, Prepared.creatingTable]
    rfl
  simp only [Read.run, hp]
  rfl

theorem run_createIndex_there {table text : String} {t : Table} {i : Index}
    {columns : List (String × Nat)} (hr : Prepared.checkReserved name = .ok ())
    (ht : db.table? table = some t) (hn : db.table? name = none) (hv : db.view? name = none)
    (hi : db.index? name = some i) :
    Read.run db ⟨none, .createIndex true false name table columns text, []⟩ = some db := by
  have hp : Read.prepare db ⟨none, .createIndex true false name table columns text, []⟩
      = .ok {} := by
    simp only [Read.prepare, Read.checkHead, Prepared.ofStatement, Prepared.creatingIndex, ht, hr,
      hn, hv, hi]
    rfl
  simp only [Read.run, hp]
  rfl

theorem run_dropTable {t : Table} (ht : db.table? name = some t)
    (hv : violations (db.changeTable t.name fun t => { t with rows := [] }) = 0) :
    Read.run db ⟨none, .dropTable true name, []⟩ = some (db.removeAll t.name) := by
  have hp : Read.prepare db ⟨none, .dropTable true name, []⟩
      = .ok { action := .removeTable t.name } := by
    simp only [Read.prepare, Read.checkHead, Prepared.ofStatement, Prepared.droppingTable, ht]
  simp only [Read.run, hp, Prepared.run, Action.run, Outcome.checked, hv, Nat.not_lt_zero, if_false]

end Runs

/-! ## The schema -/

def schema (files logs : List Row) : List Entry :=
  [.table (filesTable files), .index filesKey, .table (logsTable logs), .index formatIndex,
   .index pathIndex]

section Names

variable (files logs : List Row) (v : Int32) {rows : List Row}

theorem table?_files : (⟨schema files logs, v⟩ : Database).table? "log_files"
    = some (filesTable files) := by
  simp only [Database.table?, schema, List.findSome?_cons, Entry.asTable?, files_name, if_true]

theorem table?_logs : (⟨schema files logs, v⟩ : Database).table? "all_logs"
    = some (logsTable logs) := by
  have hf : sameName (filesTable files).name "all_logs" = false := files_not_logs
  simp only [Database.table?, schema, List.findSome?_cons, Entry.asTable?, hf, logs_name, if_true,
    Bool.false_eq_true, if_false]

theorem table?_none {name : String} (hf : sameName "log_files" name = false)
    (hl : sameName "all_logs" name = false) :
    (⟨schema files logs, v⟩ : Database).table? name = none := by
  have hf' : sameName (filesTable files).name name = false := hf
  have hl' : sameName (logsTable logs).name name = false := hl
  simp only [Database.table?, schema, List.findSome?_cons, Entry.asTable?, hf', hl',
    Bool.false_eq_true, if_false, List.findSome?_nil]

theorem schema_logTables : LogTables ⟨schema files logs, v⟩ files logs where
  files := table?_files files logs v
  logs := table?_logs files logs v
  key := by
    have hm : Entry.index filesKey ∈ schema files logs := by
      simp only [schema, List.mem_cons, true_or, or_true]
    exact Database.mem_indexesOf_iff.2 ⟨hm, sameName_self _⟩

theorem changeTable_files (f : Table → Table) (hf : f (filesTable files) = filesTable rows) :
    (⟨schema files logs, v⟩ : Database).changeTable "log_files" f = ⟨schema rows logs, v⟩ := by
  have hl : sameName (logsTable logs).name "log_files" = false := logs_not_files
  simp only [Database.changeTable, schema, List.map_cons, List.map_nil, files_name, hl, hf, if_true,
    Bool.false_eq_true, if_false]

theorem changeTable_logs (f : Table → Table) (hf : f (logsTable logs) = logsTable rows) :
    (⟨schema files logs, v⟩ : Database).changeTable "all_logs" f = ⟨schema files rows, v⟩ := by
  have hn : sameName (filesTable files).name "all_logs" = false := files_not_logs
  simp only [Database.changeTable, schema, List.map_cons, List.map_nil, hn, logs_name, hf, if_true,
    Bool.false_eq_true, if_false]

/-- Other rows in the tables leave the schema as it is. -/
theorem schema_of_rowsChanged {db : Database} (h : RowsChanged ⟨schema files logs, v⟩ db) :
    ∃ files' logs', db = ⟨schema files' logs', v⟩ := by
  induction h with
  | refl => exact ⟨files, logs, rfl⟩
  | files h rows ih =>
    obtain ⟨files', logs', rfl⟩ := ih
    exact ⟨rows, logs', changeTable_files files' logs' v _ rfl⟩
  | logs h rows ih =>
    obtain ⟨files', logs', rfl⟩ := ih
    exact ⟨files', rows, changeTable_logs files' logs' v _ rfl⟩

theorem violations_no_logs : violations ⟨schema files [], v⟩ = 0 := by
  rfl

end Names

/-! ## Making the tables -/

theorem runReads_same (files logs : List Row) (v : Int32) :
    runReads ⟨schema files logs, v⟩ [makeFiles, makeLogs, makeFormatIndex, makePathIndex]
      = some ⟨schema files logs, v⟩ := by
  have hf : makeFiles.run ⟨schema files logs, v⟩ = some ⟨schema files logs, v⟩ :=
    run_createTable_there (d := filesDef) (by rfl) (table?_files files logs v)
  have hl : makeLogs.run ⟨schema files logs, v⟩ = some ⟨schema files logs, v⟩ :=
    run_createTable_there (d := logsDef) (by rfl) (table?_logs files logs v)
  have hx : makeFormatIndex.run ⟨schema files logs, v⟩ = some ⟨schema files logs, v⟩ :=
    run_createIndex_there (by rfl) (table?_logs files logs v)
      (table?_none files logs v (by decide) (by decide)) (by rfl) (by rfl)
  have hp : makePathIndex.run ⟨schema files logs, v⟩ = some ⟨schema files logs, v⟩ :=
    run_createIndex_there (by rfl) (table?_logs files logs v)
      (table?_none files logs v (by decide) (by decide)) (by rfl) (by rfl)
  simp only [runReads, hf, hl, hx, hp, Option.bind_some]

theorem runReads_empty (v : Int32) :
    runReads ⟨[], v⟩ [makeFiles, makeLogs, makeFormatIndex, makePathIndex]
      = some ⟨schema [] [], v⟩ := by
  rfl

theorem runReads_remove_empty (v : Int32) :
    runReads ⟨[], v⟩ [removeLogs, removeFiles] = some ⟨[], v⟩ := by
  rfl

/-- What is left when the lines are gone refers to nothing that is missing. -/
theorem run_removeLogs (files logs : List Row) (v : Int32) :
    removeLogs.run ⟨schema files logs, v⟩
      = some ⟨[.table (filesTable files), .index filesKey], v⟩ := by
  have hv : violations ((⟨schema files logs, v⟩ : Database).changeTable "all_logs"
      fun t => { t with rows := [] }) = 0 := by
    rw [changeTable_logs files logs v _ rfl, violations_no_logs]
  have hgone : (⟨schema files logs, v⟩ : Database).removeAll "all_logs"
      = ⟨[.table (filesTable files), .index filesKey], v⟩ := by
    have hn : sameName (filesTable files).name "all_logs" = false := files_not_logs
    have hk : sameName filesKey.table "all_logs" = false := files_not_logs
    have hx : sameName formatIndex.table "all_logs" = true := sameName_self _
    have hp : sameName pathIndex.table "all_logs" = true := sameName_self _
    simp only [Database.removeAll, schema, List.filter_cons, List.filter_nil, Entry.tableName, hn,
      logs_name, hk, hx, hp, Bool.not_true, Bool.not_false, if_true, Bool.false_eq_true, if_false]
  exact (run_dropTable (table?_logs files logs v) hv).trans (congrArg some hgone)

theorem run_removeFiles (files : List Row) (v : Int32) :
    removeFiles.run ⟨[.table (filesTable files), .index filesKey], v⟩ = some ⟨[], v⟩ := by
  have ht : (⟨[.table (filesTable files), .index filesKey], v⟩ : Database).table? "log_files"
      = some (filesTable files) := by
    simp only [Database.table?, List.findSome?_cons, Entry.asTable?, files_name, if_true]
  have hv : violations ((⟨[.table (filesTable files), .index filesKey], v⟩ :
      Database).changeTable "log_files" fun t => { t with rows := [] }) = 0 := by
    simp only [Database.changeTable, List.map_cons, List.map_nil, files_name, if_true]
    rfl
  have hgone : (⟨[.table (filesTable files), .index filesKey], v⟩ :
      Database).removeAll "log_files" = ⟨[], v⟩ := by
    have hk : sameName filesKey.table "log_files" = true := sameName_self _
    simp only [Database.removeAll, List.filter_cons, List.filter_nil, Entry.tableName, files_name,
      hk, Bool.not_true, Bool.false_eq_true, if_false]
  exact (run_dropTable ht hv).trans (congrArg some hgone)

theorem runReads_remove (files logs : List Row) (v : Int32) :
    runReads ⟨schema files logs, v⟩ [removeLogs, removeFiles] = some ⟨[], v⟩ := by
  simp only [runReads, run_removeLogs, run_removeFiles, Option.bind_some]

/-! ## The whole -/

theorem runText_tableText {db db' : Database}
    (h : runReads db [makeFiles, makeLogs, makeFormatIndex, makePathIndex] = some db') :
    runText db tableText = (.ok (), db') := by
  have hn : 5 ≤ tableText.length := by
    have hm : 5 ≤ margin.length := by
      rw [← String.length_toList, margin, String.toList_ofList]
      exact Nat.le_add_left 5 _
    rw [tableText, String.length_append]
    omega
  rw [runText, runAll_of_readAll hn readAll_tableText h]

theorem runText_removalText {db db' : Database}
    (h : runReads db [removeLogs, removeFiles] = some db') :
    runText db removalText = (.ok (), db') := by
  have hn : 3 ≤ removalText.length := by
    rw [← String.length_toList, removalText, String.toList_ofList]
    exact Nat.le_add_left 3 _
  rw [runText, runAll_of_readAll hn readAll_removalText h]

/-- If the removal and the making succeed, `initSchema` is one after the other. -/
theorem initSchema_of {db between after : Database} (hr : removeOld db = (.ok (), between))
    (ht : runText between tableText = (.ok (), after)) :
    initSchema db = (.ok (), { after with userVersion := version }) := by
  -- The text gets a name of its own: reducing the match would run one that is known.
  obtain ⟨text, hm⟩ : ∃ text, tableText = text := ⟨_, rfl⟩
  rw [hm] at ht
  rw [initSchema, hm]
  simp only [hr, ht]

theorem initSchema_empty (v : Int32) :
    initSchema ⟨[], v⟩ = (.ok (), ⟨schema [] [], version⟩) := by
  have hr : removeOld ⟨[], v⟩ = (.ok (), ⟨[], v⟩) := by
    simp only [removeOld]
    split
    · rfl
    · exact runText_removalText (runReads_remove_empty v)
  exact initSchema_of hr (runText_tableText (runReads_empty v))

theorem initSchema_same (files logs : List Row) :
    initSchema ⟨schema files logs, version⟩ = (.ok (), ⟨schema files logs, version⟩) := by
  have hr : removeOld ⟨schema files logs, version⟩ = (.ok (), ⟨schema files logs, version⟩) := by
    rw [removeOld, if_pos rfl]
  exact initSchema_of hr (runText_tableText (runReads_same files logs version))

theorem initSchema_other (files logs : List Row) {v : Int32} (hv : v ≠ version) :
    initSchema ⟨schema files logs, v⟩ = (.ok (), ⟨schema [] [], version⟩) := by
  have hr : removeOld ⟨schema files logs, v⟩ = (.ok (), ⟨[], v⟩) := by
    rw [removeOld, if_neg hv]
    exact runText_removalText (runReads_remove files logs v)
  exact initSchema_of hr (runText_tableText (runReads_empty v))

end LogConsole.LogStore
