import LogConsole.Proofs.LogStore.Copying
import LogConsole.Proofs.LogStore.Ingestion
import LogConsole.Proofs.LogStore.Schema

/-!
# LogConsole.Proofs.LogStore.Indexing

Every line is copied into the tables once.

* `rebuild_error` — a rebuild that fails leaves the store as it is;
* `rebuild_ok`    — one that succeeds copies the lines that are not there;
* `KeepsTables`   — a change of the database that leaves the log tables alone, such as an index that
  is made or removed;
* `Step`, `Run`   — what may happen to a store and its database, in any order;
* `Indexed`       — the invariant: the tables hold the lines up to the watermark;
* `Step.indexed`, `Run.indexed` — one step keeps it, and so does every run;
* `lines_indexed_once` — what that says of a store that starts empty with new tables.
-/

namespace LogConsole.LogStore

open Sql (Database Entry)

/-! ## Rebuilding -/

theorem rebuild_error {s s' : LogStore} {db : Database} {e : StoreError}
    (h : s.rebuild db = (.error e, s')) : s' = s := by
  simp only [rebuild] at h
  split at h
  · cases h
  · split at h
    · cases h
      rfl
    · cases h

theorem rebuild_ok {s s' : LogStore} {db db' : Database} {n : Nat} {lines : List LogLine}
    {files : List Sql.Row} (hb : s.indexed ≤ s.lines.length) (hc : Copied db lines files)
    (h : s.rebuild db = (.ok (n, db'), s')) :
    n = s.pending.length ∧ s' = { s with indexed := s.lines.length }
      ∧ ∃ made, Copied db' (lines ++ s.pending) made ∧ RowsChanged db db' := by
  simp only [rebuild] at h
  split at h
  · rename_i hp
    cases h
    have hlen : s.lines.length - s.indexed = 0 := by
      rw [← List.length_drop]
      exact congrArg List.length hp
    have hi : s.indexed = s.lines.length := by omega
    refine ⟨by rw [hp]; rfl, ?_, files, ?_, .refl⟩
    · rw [← hi]
    · rw [hp, List.append_nil]
      exact hc
  · split at h
    · cases h
    · rename_i hcopy
      cases h
      exact ⟨rfl, rfl, copyPending_copied hc hcopy⟩

theorem rebuilt_cases (s : LogStore) (db : Database) :
    (∃ n db' s', s.rebuild db = (.ok (n, db'), s') ∧ s.rebuilt db = (s', db'))
      ∨ ∃ e, s.rebuild db = (.error e, s) ∧ s.rebuilt db = (s, db) := by
  simp only [rebuilt]
  split
  · rename_i n db' s' h
    exact .inl ⟨n, db', s', h, rfl⟩
  · rename_i e s' h
    obtain rfl := rebuild_error h
    exact .inr ⟨e, h, rfl⟩

theorem rebuilt_lines (s : LogStore) (db : Database) : (s.rebuilt db).1.lines = s.lines := by
  have hl : (s.rebuild db).2.lines = s.lines := by rw [rebuild_inputs]
  rcases rebuilt_cases s db with ⟨n, db', s', hr, hb⟩ | ⟨e, -, hb⟩
  · rw [hr] at hl
    rw [hb]
    exact hl
  · rw [hb]

/-! ## Steps -/

/-- An empty store, and a database with new tables. -/
def fresh : LogStore × Database := ({}, (initSchema {}).2)

/-- The log tables and their keys are not touched; other tables, indexes and settings may be. -/
structure KeepsTables (db db' : Database) : Prop where
  files : db'.table? "log_files" = db.table? "log_files"
  logs : db'.table? "all_logs" = db.table? "all_logs"
  keys : ∀ i ∈ db.indexesOf "log_files", i.text = none → i ∈ db'.indexesOf "log_files"

namespace KeepsTables

theorem addIndex (db : Database) (i : Sql.Index) : KeepsTables db (db.add (.index i)) where
  files := db.table?_add_index i _
  logs := db.table?_add_index i _
  keys := by
    intro j key _
    obtain ⟨there, table⟩ := Database.mem_indexesOf_iff.1 key
    exact Database.mem_indexesOf_iff.2 ⟨List.mem_append_left _ there, table⟩

/-- An index that a statement has made may be removed; the key of a table has been made by none. -/
theorem removeIndex {db : Database} {name : String} (made : ∀ i, .index i ∈ db.entries →
    Sql.sameName i.name name = true → i.text ≠ none) : KeepsTables db (db.removeIndex name) where
  files := db.table?_removeIndex name _
  logs := db.table?_removeIndex name _
  keys := by
    intro i key text
    obtain ⟨there, table⟩ := Database.mem_indexesOf_iff.1 key
    refine Database.mem_indexesOf_iff.2 ⟨List.mem_filter.2 ⟨there, ?_⟩, table⟩
    simpa [Entry.asIndex?] using mt (made i there) (not_not_intro text)

theorem logTables {db db' : Database} {files logs : List Sql.Row} (h : KeepsTables db db')
    (tables : LogTables db files logs) : LogTables db' files logs where
  files := by rw [h.files, tables.files]
  logs := by rw [h.logs, tables.logs]
  key := h.keys _ tables.key rfl

end KeepsTables

/-- Inputs are added and read from any disk, and lines are copied; between that the database
changes elsewhere. -/
inductive Step : LogStore × Database → LogStore × Database → Prop
  | addPath (s : LogStore) (db : Database) (disk : Disk) (input : String) :
      Step (s, db) ((s.addPath disk input).2, db)
  | addVirtual (s : LogStore) (db : Database) (v : VirtualInput) : Step (s, db) (s.addVirtual v, db)
  | rescan (s : LogStore) (db : Database) (disk : Disk) : Step (s, db) ((s.rescan disk).2, db)
  | rebuild (s : LogStore) (db : Database) : Step (s, db) (s.rebuilt db)
  | elsewhere (s : LogStore) {db db' : Database} (keeps : KeepsTables db db') :
      Step (s, db) (s, db')

inductive Run (start : LogStore × Database) : LogStore × Database → Prop
  | refl : Run start start
  | step {a b : LogStore × Database} (h : Run start a) (step : Step a b) : Run start b

/-! ## The invariant -/

structure Indexed (s : LogStore) (db : Database) : Prop where
  bound : s.indexed ≤ s.lines.length
  copied : ∃ files, Copied db (s.lines.take s.indexed) files

theorem addPath_lines (s : LogStore) (disk : Disk) (input : String) :
    (s.addPath disk input).2.lines = s.lines ∧ (s.addPath disk input).2.indexed = s.indexed := by
  refine addPath_induct (P := fun t => t.lines = s.lines ∧ t.indexed = s.indexed) ?_ ⟨rfl, rfl⟩
  intro t t' p ht h
  rcases addFile_cases ht with rfl | ⟨-, rfl⟩ <;> exact h

/-- Lines are only ever added after the others, and the watermark stays where it is meanwhile. -/
theorem Indexed.append {s s' : LogStore} {db : Database} (h : Indexed s db)
    {added : List LogLine} (hl : s'.lines = s.lines ++ added) (hi : s'.indexed = s.indexed) :
    Indexed s' db where
  bound := by
    rw [hl, hi, List.length_append]
    exact Nat.le_add_right_of_le h.bound
  copied := by
    rw [hl, hi, List.take_append_of_le_length h.bound]
    exact h.copied

theorem Indexed.rebuild_ok {s s' : LogStore} {db db' : Database} {n : Nat} (h : Indexed s db)
    (hr : s.rebuild db = (.ok (n, db'), s')) :
    n = s.lines.length - s.indexed ∧ s' = { s with indexed := s.lines.length }
      ∧ Indexed s' db' := by
  obtain ⟨files, hc⟩ := h.copied
  obtain ⟨rfl, rfl, made, hc', -⟩ := LogStore.rebuild_ok h.bound hc hr
  rw [pending, List.take_append_drop] at hc'
  refine ⟨List.length_drop, rfl, Nat.le_refl _, made, ?_⟩
  rw [List.take_length]
  exact hc'

theorem Indexed.elsewhere {s : LogStore} {db db' : Database} (h : Indexed s db)
    (hk : KeepsTables db db') : Indexed s db' := by
  obtain ⟨files, hc⟩ := h.copied
  exact ⟨h.bound, files, hk.logTables hc.tables, hc.rows⟩

theorem Step.lines {a b : LogStore × Database} (h : Step a b) : a.1.lines <+: b.1.lines := by
  cases h with
  | addPath s db disk input => simp only [(addPath_lines s disk input).1, List.prefix_refl]
  | addVirtual s db v => exact List.prefix_refl _
  | rescan s db disk => exact List.prefix_append _ _
  | rebuild s db => simp only [rebuilt_lines, List.prefix_refl]
  | elsewhere s keeps => exact List.prefix_refl _

theorem Step.indexed {a b : LogStore × Database} (h : Step a b) (hi : Indexed a.1 a.2) :
    Indexed b.1 b.2 := by
  cases h with
  | addPath s db disk input =>
    obtain ⟨hl, hw⟩ := addPath_lines s disk input
    exact hi.append (by rw [hl, List.append_nil]) hw
  | addVirtual s db v => exact hi.append (List.append_nil _).symm rfl
  | rescan s db disk => exact hi.append rfl rfl
  | rebuild s db =>
    rcases rebuilt_cases s db with ⟨n, db', s', hr, hb⟩ | ⟨e, -, hb⟩
    · rw [hb]
      exact (hi.rebuild_ok hr).2.2
    · rw [hb]
      exact hi
  | elsewhere s keeps => exact hi.elsewhere keeps

theorem Run.indexed {a b : LogStore × Database} (h : Run a b) (hi : Indexed a.1 a.2) :
    Indexed b.1 b.2 := by
  induction h with
  | refl => exact hi
  | step _ hs ih => exact hs.indexed ih

theorem fresh_eq : fresh = ({}, ⟨schema [] [], version⟩) := by
  rw [fresh, initSchema_empty]

theorem fresh_indexed : Indexed fresh.1 fresh.2 := by
  rw [fresh_eq]
  exact ⟨Nat.le_refl 0, [], schema_logTables [] [] version, FileRows.nil⟩

/-- Whatever happens, in whatever order, and whichever rebuilds fail: `all_logs` is the lines up to
the watermark, in order and numbered from one, and `log_files` their paths. -/
theorem lines_indexed_once {s : LogStore} {db : Database} (h : Run fresh (s, db)) :
    s.indexed ≤ s.lines.length
      ∧ db.table? "all_logs" = some (logsTable (logRows (s.lines.take s.indexed)))
      ∧ (∃ files, db.table? "log_files" = some (filesTable files)
        ∧ FileRows (s.lines.take s.indexed) files)
      ∧ (∀ b, Step (s, db) b → s.lines <+: b.1.lines)
      ∧ (∀ e s', s.rebuild db = (.error e, s') → s' = s ∧ s.rebuilt db = (s, db))
      ∧ ∀ n db' s', s.rebuild db = (.ok (n, db'), s') →
        (logRows (s.lines.take s.indexed)).length + n = (logRows s.lines).length
          ∧ s' = { s with indexed := s.lines.length }
          ∧ s.rebuilt db = (s', db')
          ∧ db'.table? "all_logs" = some (logsTable (logRows s.lines)) := by
  have hi : Indexed s db := h.indexed fresh_indexed
  obtain ⟨files, hc⟩ := hi.copied
  refine ⟨hi.bound, hc.tables.logs, ⟨files, hc.tables.files, hc.rows⟩, fun b hb => hb.lines,
    ?_, ?_⟩
  · intro e s' hr
    obtain rfl := rebuild_error hr
    exact ⟨rfl, by rw [rebuilt, hr]⟩
  · intro n db' s' hr
    obtain ⟨rfl, rfl, hi'⟩ := hi.rebuild_ok hr
    obtain ⟨files', hc'⟩ := hi'.copied
    have hlogs := hc'.tables.logs
    rw [List.take_length] at hlogs
    refine ⟨?_, rfl, by rw [rebuilt, hr], hlogs⟩
    have hb := hi.bound
    rw [length_logRows, length_logRows, List.length_take]
    omega

/-! ## Three lines -/

/-- What a rebuild with pending lines computes. -/
theorem rebuild_of_pending {s : LogStore} {db : Database} {files logs : List Sql.Row} {l : LogLine}
    {more : List LogLine} (ht : LogTables db files logs) (hp : s.pending = l :: more) :
    s.rebuild db
      = match copyLines (fun path => s.virtuals.any fun v => v.name == path)
          { action := .insert fileAction, parameters := putFile.parameters }
          { action := .insert lineAction, parameters := putLine.parameters } db (l :: more) with
        | .error e => (.error e, s)
        | .ok db => (.ok (more.length + 1, db), { s with indexed := s.lines.length }) := by
  rw [rebuild, hp, copyPending_eq ht, hp]
  rfl

/-- A file with one line, which has been read. -/
def oneLine : LogStore where
  files := [⟨"a", 2, 1⟩]
  lines := [⟨"a", 1, "x"⟩]

/-- New tables with that line in them. -/
def oneRow : Database := ⟨schema [fileRow 1 "a" 0 1] (logRows [⟨"a", 1, "x"⟩]), version⟩

theorem rebuilt_oneLine :
    oneLine.rebuilt ⟨schema [] [], version⟩ = ({ oneLine with indexed := 1 }, oneRow) := by
  have hp : oneLine.pending = [⟨"a", 1, "x"⟩] := rfl
  rw [rebuilt, rebuild_of_pending (schema_logTables [] [] version) hp]
  rfl

/-- The line has been copied, the file has got a second one, and a third one has come through a
pipe. -/
def oneOfThree : LogStore where
  files := [⟨"a", 4, 2⟩]
  virtuals := [⟨"b", [], 1⟩]
  lines := [⟨"a", 1, "x"⟩, ⟨"a", 2, "y"⟩, ⟨"b", 1, "z"⟩]
  indexed := 1

theorem run_oneOfThree : Run fresh (oneOfThree, oneRow) := by
  let disk (bytes : List UInt8) : Disk :=
    { nodes := [([], .dir), (["a"], .file 0)], contents := [bytes] }
  let short := disk [120, 10]
  let long := disk [120, 10, 121, 10]
  have hstart : Run fresh ({}, ⟨schema [] [], version⟩) := fresh_eq ▸ .refl
  have hshort : ((LogStore.addPath {} short "a").2.rescan short).2 = oneLine := by decide +kernel
  have hlong : (({ oneLine with indexed := 1 }.addVirtual ⟨"b", ["z"], 0⟩).rescan long).2
      = oneOfThree := by decide +kernel
  have hone := ((hstart.step (.addPath _ _ short "a")).step (.rescan _ _ short)).step
    (.rebuild _ _)
  rw [hshort, rebuilt_oneLine] at hone
  have hthree := (hone.step (.addVirtual _ _ ⟨"b", ["z"], 0⟩)).step (.rescan _ _ long)
  rwa [hlong] at hthree

theorem pending_oneOfThree : oneOfThree.pending = [⟨"a", 2, "y"⟩, ⟨"b", 1, "z"⟩] := rfl

theorem oneRow_logTables : LogTables oneRow [fileRow 1 "a" 0 1] (logRows [⟨"a", 1, "x"⟩]) :=
  schema_logTables _ _ version

theorem rebuild_oneOfThree :
    oneOfThree.rebuild oneRow
      = (.ok (2, ⟨schema [fileRow 1 "a" 0 2, fileRow 2 "b" 1 1] (logRows oneOfThree.lines),
          version⟩), { oneOfThree with indexed := 3 }) := by
  rw [rebuild_of_pending oneRow_logTables pending_oneOfThree]
  rfl

/-- No two lines may have the same number, whatever their inputs are. -/
def numberIndex : Sql.Index where
  name := "one_of_each"
  table := "all_logs"
  columns := [2]
  unique := true
  text := some "CREATE UNIQUE INDEX one_of_each ON all_logs (log_file_line)"

/-- The second line of the file goes in, and then the line from the pipe is refused. -/
theorem rebuild_oneOfThree_refused :
    ∃ e, oneOfThree.rebuild (oneRow.add (.index numberIndex)) = (.error e, oneOfThree) := by
  have ht := (KeepsTables.addIndex oneRow numberIndex).logTables oneRow_logTables
  rw [rebuild_of_pending ht pending_oneOfThree]
  exact ⟨_, rfl⟩

/-- After one line an index is made that the line from the pipe breaks. The rebuild fails and leaves
nothing behind; when the index has gone, it copies both lines that are left. -/
theorem three_lines_indexed_once :
    let refusing := oneRow.add (.index numberIndex)
    let relaxed := refusing.removeIndex numberIndex.name
    Run fresh (oneOfThree, refusing)
      ∧ (∃ e, oneOfThree.rebuild refusing = (.error e, oneOfThree))
      ∧ oneOfThree.rebuilt refusing = (oneOfThree, refusing)
      ∧ refusing.table? "all_logs" = some (logsTable (logRows [⟨"a", 1, "x"⟩]))
      ∧ ∃ db, oneOfThree.rebuilt relaxed = ({ oneOfThree with indexed := 3 }, db)
        ∧ Run fresh ({ oneOfThree with indexed := 3 }, db)
        ∧ db.table? "all_logs"
          = some (logsTable (logRows [⟨"a", 1, "x"⟩, ⟨"a", 2, "y"⟩, ⟨"b", 1, "z"⟩])) := by
  intro refusing relaxed
  have hbetween : Run fresh (oneOfThree, refusing) :=
    run_oneOfThree.step (.elsewhere _ (.addIndex oneRow numberIndex))
  obtain ⟨e, hrefused⟩ := rebuild_oneOfThree_refused
  obtain ⟨-, hlogs, -, -, hfails, -⟩ := lines_indexed_once hbetween
  refine ⟨hbetween, ⟨e, hrefused⟩, (hfails e _ hrefused).2, hlogs, ?_⟩
  have hgone : KeepsTables refusing relaxed := by
    refine .removeIndex fun i there named => ?_
    simp only [refusing, oneRow, Database.add, schema, List.cons_append, List.nil_append,
      List.mem_cons, List.not_mem_nil, or_false, reduceCtorEq, false_or, Entry.index.injEq] at there
    rcases there with rfl | rfl | rfl | rfl
    · exact absurd named (by decide)
    all_goals exact Option.some_ne_none _
  have hagain : Run fresh (oneOfThree, relaxed) := hbetween.step (.elsewhere _ hgone)
  have hsame : relaxed = oneRow := rfl
  rw [hsame] at hagain ⊢
  obtain ⟨-, -, -, -, -, hcopies⟩ := lines_indexed_once hagain
  obtain ⟨-, -, hrebuilt, hwhole⟩ := hcopies _ _ _ rebuild_oneOfThree
  have hlast := hagain.step (.rebuild _ _)
  rw [hrebuilt] at hlast
  exact ⟨_, hrebuilt, hlast, hwhole⟩

end LogConsole.LogStore
