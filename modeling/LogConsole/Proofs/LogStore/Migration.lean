import LogConsole.Proofs.LogStore.Indexing

/-!
# LogConsole.Proofs.LogStore.Migration

What rebuilding brings back after `initSchema` has removed the tables.

* `rebuilt_without_tables` — without tables nothing is copied;
* `Change`, `Tracked.apply` — what may happen to a store and its database, in any order, with a
  record of how many lines had been copied when the tables were last removed;
* `Populated`  — the invariant: the tables hold the lines from there up to the watermark;
* `Populated.apply`, `run_populated` — one change keeps it, and so does every run;
* `RemovesLines`, `removed_eq_zero_iff` — the record is zero unless `initSchema` has met tables of
  another version with lines in them;
* `rows_after_migration` — so `initSchema` and a rebuild bring all lines back only in that case;
* `lines_lost_in_migration` — a run after which they do not.

`initSchema` does not know the watermark of the store, and the store does not see that its rows are
gone: what had been copied is not copied again.
-/

namespace LogConsole.LogStore

open Sql (Database Prepared Read)

/-! ## Rebuilding -/

theorem prepare_putFile_without_tables (v : Int32) :
    ∃ e, putFile.prepare ⟨[], v⟩ = .error e := ⟨_, rfl⟩

theorem copyPending_without_tables (s : LogStore) (v : Int32) :
    ∃ e, s.copyPending ⟨[], v⟩ = .error e := by
  obtain ⟨e, he⟩ := prepare_putFile_without_tables v
  have hp : prepareText ⟨[], v⟩ fileText = .error (.database (e.display fileText)) := by
    rw [prepareText, Sql.prepare_error_of_readFirst readFirst_fileText he]
  refine ⟨.database (e.display fileText), ?_⟩
  rw [copyPending, hp]
  rfl

theorem rebuilt_without_tables (s : LogStore) (v : Int32) : s.rebuilt ⟨[], v⟩ = (s, ⟨[], v⟩) := by
  rcases rebuilt_cases s ⟨[], v⟩ with ⟨n, db', s', hr, hb⟩ | ⟨e, -, hb⟩
  · rw [hb]
    obtain ⟨e, he⟩ := copyPending_without_tables s v
    simp only [rebuild, he] at hr
    split at hr
    · cases hr
      rfl
    · cases hr
  · exact hb

/-- The schema stays, and the lines that have not been copied come after those that have. -/
theorem rebuild_schema {s s' : LogStore} {db' : Database} {n : Nat} {v : Int32}
    {lines : List LogLine} {files : List Sql.Row} (hb : s.indexed ≤ s.lines.length)
    (hf : FileRows lines files)
    (hr : s.rebuild ⟨schema files (logRows lines), v⟩ = (.ok (n, db'), s')) :
    s' = { s with indexed := s.lines.length }
      ∧ ∃ made, db' = ⟨schema made (logRows (lines ++ s.pending)), v⟩
        ∧ FileRows (lines ++ s.pending) made := by
  obtain ⟨-, hs, made, hc, hrows⟩ := rebuild_ok hb ⟨schema_logTables _ _ v, hf⟩ hr
  refine ⟨hs, made, ?_, hc.rows⟩
  obtain ⟨files', logs', rfl⟩ := schema_of_rowsChanged files (logRows lines) v hrows
  have hfiles : filesTable files' = filesTable made :=
    Option.some.inj ((table?_files files' logs' v).symm.trans hc.tables.files)
  have hlogs : logsTable logs' = logsTable (logRows (lines ++ s.pending)) :=
    Option.some.inj ((table?_logs files' logs' v).symm.trans hc.tables.logs)
  obtain rfl : files' = made := congrArg Sql.Table.rows hfiles
  obtain rfl : logs' = logRows (lines ++ s.pending) := congrArg Sql.Table.rows hlogs
  rfl

/-! ## Changes -/

/-- The lines that have been copied, without the first `k`. -/
def copiedAfter (s : LogStore) (k : Nat) : List LogLine := (s.lines.take s.indexed).drop k

theorem copiedAfter_append_pending {s : LogStore} {k : Nat} (hk : k ≤ s.indexed)
    (hb : s.indexed ≤ s.lines.length) : s.copiedAfter k ++ s.pending = s.lines.drop k := by
  have hlen : k ≤ (s.lines.take s.indexed).length := by
    rw [List.length_take, Nat.min_eq_left hb]
    exact hk
  rw [copiedAfter, pending, ← List.drop_append_of_le_length hlen, List.take_append_drop]

inductive Change
  | addPath (disk : Disk) (input : String)
  | addVirtual (v : VirtualInput)
  | rescan (disk : Disk)
  | rebuild
  | setVersion (n : Int32)
  | initSchema

/-- A store and its database, and how many lines had been copied when the tables were last
removed. -/
structure Tracked where
  store : LogStore := {}
  db : Database := {}
  removed : Nat := 0

namespace Tracked

def apply (t : Tracked) : Change → Tracked
  | .addPath disk input => { t with store := (t.store.addPath disk input).2 }
  | .addVirtual v => { t with store := t.store.addVirtual v }
  | .rescan disk => { t with store := (t.store.rescan disk).2 }
  | .rebuild => { t with store := (t.store.rebuilt t.db).1, db := (t.store.rebuilt t.db).2 }
  | .setVersion n => { t with db := (Prepared.run { action := .setVersion n } t.db []).database }
  | .initSchema =>
    { t with
      db := (initSchema t.db).2
      removed := if t.db.userVersion = version then t.removed else t.store.indexed }

end Tracked

/-- A run from an empty store and an empty database. -/
def run (changes : List Change) : Tracked := changes.foldl Tracked.apply {}

/-! ## The invariant -/

/-- Either there are no tables and nothing has been copied, or they hold what has been copied
without the first `k` lines. -/
inductive LogEntries (s : LogStore) (k : Nat) : List Sql.Entry → Prop
  | none (indexed : s.indexed = 0) : LogEntries s k []
  | made (files : List Sql.Row) (rows : FileRows (s.copiedAfter k) files) :
      LogEntries s k (schema files (logRows (s.copiedAfter k)))

structure Populated (s : LogStore) (entries : List Sql.Entry) (k : Nat) : Prop where
  removed : k ≤ s.indexed
  indexed : s.indexed ≤ s.lines.length
  entries : LogEntries s k entries

namespace Populated

variable {s : LogStore} {entries : List Sql.Entry} {k : Nat}

/-- More lines in the store, which are not copied yet. -/
theorem append (h : Populated s entries k) {s' : LogStore} {added : List LogLine}
    (hl : s'.lines = s.lines ++ added) (hi : s'.indexed = s.indexed) :
    Populated s' entries k := by
  have hk : s'.copiedAfter k = s.copiedAfter k := by
    rw [copiedAfter, copiedAfter, hl, hi, List.take_append_of_le_length h.indexed]
  refine ⟨?_, ?_, ?_⟩
  · rw [hi]
    exact h.removed
  · rw [hi, hl, List.length_append]
    exact Nat.le_add_right_of_le h.indexed
  · cases h.entries with
    | none hz => exact .none (hi.trans hz)
    | made files hf =>
      rw [← hk] at hf ⊢
      exact .made files hf

/-- Whatever the version is, the schema is there afterwards. Another version costs the rows. -/
theorem initSchema_schema (h : Populated s entries k) (v : Int32) :
    ∃ files, initSchema ⟨entries, v⟩ = (.ok (), ⟨schema files
        (logRows (s.copiedAfter (if v = version then k else s.indexed))), version⟩)
      ∧ FileRows (s.copiedAfter (if v = version then k else s.indexed)) files := by
  cases h.entries with
  | none hz =>
    have hnil : ∀ k, s.copiedAfter k = [] := by
      intro k
      rw [copiedAfter, hz, List.take_zero, List.drop_nil]
    rw [hnil]
    exact ⟨[], initSchema_empty v, FileRows.nil⟩
  | made files hf =>
    split
    · rename_i hv
      subst hv
      exact ⟨files, initSchema_same files _, hf⟩
    · rename_i hv
      have hnil : s.copiedAfter s.indexed = [] :=
        List.drop_eq_nil_of_le (by rw [List.length_take]; exact Nat.min_le_left _ _)
      rw [hnil]
      exact ⟨[], initSchema_other files _ hv, FileRows.nil⟩

theorem initSchema (h : Populated s entries k) (v : Int32) :
    Populated s (initSchema ⟨entries, v⟩).2.entries (if v = version then k else s.indexed) := by
  obtain ⟨files, hs, hf⟩ := h.initSchema_schema v
  refine ⟨?_, h.indexed, ?_⟩
  · split
    · exact h.removed
    · exact Nat.le_refl _
  · rw [hs]
    exact .made files hf

/-- A rebuild that succeeds brings everything but the first `k` lines. -/
theorem rebuild_ok {s' : LogStore} {db' : Database} {n : Nat} {v : Int32} {files : List Sql.Row}
    (hr : k ≤ s.indexed) (hi : s.indexed ≤ s.lines.length) (hf : FileRows (s.copiedAfter k) files)
    (h : s.rebuild ⟨schema files (logRows (s.copiedAfter k)), v⟩ = (.ok (n, db'), s')) :
    s' = { s with indexed := s.lines.length }
      ∧ ∃ made, db' = ⟨schema made (logRows (s.lines.drop k)), v⟩
        ∧ FileRows (s.lines.drop k) made := by
  have hs := rebuild_schema hi hf h
  rw [copiedAfter_append_pending hr hi] at hs
  exact hs

theorem rebuilt (h : Populated s entries k) (v : Int32) :
    Populated (s.rebuilt ⟨entries, v⟩).1 (s.rebuilt ⟨entries, v⟩).2.entries k := by
  cases h.entries with
  | none hz =>
    rw [rebuilt_without_tables]
    exact h
  | made files hf =>
    rcases rebuilt_cases s ⟨schema files (logRows (s.copiedAfter k)), v⟩ with
      ⟨n, db', s', hok, hb⟩ | ⟨e, -, hb⟩
    · obtain ⟨rfl, made, rfl, hm⟩ := rebuild_ok h.removed h.indexed hf hok
      have hall : copiedAfter { s with indexed := s.lines.length } k = s.lines.drop k := by
        rw [copiedAfter, List.take_length]
      rw [hb]
      refine ⟨Nat.le_trans h.removed h.indexed, Nat.le_refl _, ?_⟩
      rw [← hall] at hm ⊢
      exact .made made hm
    · rw [hb]
      exact h

theorem apply {t : Tracked} (h : Populated t.store t.db.entries t.removed) (c : Change) :
    Populated (t.apply c).store (t.apply c).db.entries (t.apply c).removed := by
  cases c with
  | addPath disk input =>
    obtain ⟨hl, hi⟩ := addPath_lines t.store disk input
    exact h.append (hl.trans (List.append_nil _).symm) hi
  | addVirtual v => exact h.append (List.append_nil _).symm rfl
  | rescan disk => exact h.append rfl rfl
  | rebuild => exact h.rebuilt t.db.userVersion
  | setVersion n => exact h
  | initSchema => exact h.initSchema t.db.userVersion

end Populated

theorem foldl_populated (changes : List Change) {t : Tracked}
    (h : Populated t.store t.db.entries t.removed) :
    let t' := changes.foldl Tracked.apply t
    Populated t'.store t'.db.entries t'.removed := by
  induction changes generalizing t with
  | nil => exact h
  | cons c changes ih => exact ih (h.apply c)

theorem run_populated (changes : List Change) :
    Populated (run changes).store (run changes).db.entries (run changes).removed :=
  foldl_populated changes ⟨Nat.le_refl 0, Nat.le_refl 0, .none rfl⟩

/-! ## What is lost -/

/-- `initSchema` would remove rows of lines that have been copied. -/
def Tracked.RemovesLines (t : Tracked) : Prop :=
  t.db.userVersion ≠ version ∧ t.store.indexed ≠ 0

theorem removed_eq_zero_apply {t : Tracked} (h : t.removed ≤ t.store.indexed) (c : Change) :
    (t.apply c).removed = 0 ↔ t.removed = 0 ∧ (c = .initSchema → ¬ t.RemovesLines) := by
  cases c with
  | initSchema =>
    simp only [Tracked.apply, Tracked.RemovesLines, forall_const, not_and_or, not_not]
    split
    · rename_i hv
      simp only [hv, true_or, and_true]
    · rename_i hv
      simp only [hv, false_or]
      omega
  | _ => simp [Tracked.apply]

/-- Nothing has been removed if no `initSchema` of the run met rows of another version. -/
theorem removed_eq_zero_iff (changes : List Change) {t : Tracked}
    (h : Populated t.store t.db.entries t.removed) :
    (changes.foldl Tracked.apply t).removed = 0 ↔ t.removed = 0
      ∧ ∀ before after, changes = before ++ .initSchema :: after →
        ¬ (before.foldl Tracked.apply t).RemovesLines := by
  induction changes generalizing t with
  | nil => simp
  | cons c changes ih =>
    rw [List.foldl_cons, ih (h.apply c), removed_eq_zero_apply h.removed, and_assoc]
    -- an `initSchema` of `c :: changes` is `c` itself or one of those after it
    refine and_congr_right fun _ => ?_
    constructor
    · rintro ⟨hc, hrest⟩ before after he
      cases before with
      | nil =>
        obtain ⟨rfl, -⟩ := List.cons.inj he
        exact hc rfl
      | cons b before =>
        obtain ⟨rfl, htail⟩ := List.cons.inj he
        exact hrest before after htail
    · intro hall
      refine ⟨?_, ?_⟩
      · rintro rfl
        exact hall [] changes rfl
      · intro before after he
        exact hall (c :: before) after (by rw [he]; rfl)

theorem logRows_drop_iff {lines : List LogLine} {k : Nat} (hk : k ≤ lines.length) :
    logRows (lines.drop k) = logRows lines ↔ k = 0 := by
  constructor
  · intro h
    have hlen := congrArg List.length h
    rw [length_logRows, length_logRows, List.length_drop] at hlen
    omega
  · rintro rfl
    rfl

/-- After any run, `initSchema` succeeds, and a rebuild that succeeds after it brings back every
line of the store unless an `initSchema`, the last one included, has met rows of another version.
Then the lines that had been copied when it last did stay away. -/
theorem rows_after_migration (changes : List Change) :
    let t := run changes
    let k := (t.apply .initSchema).removed
    (initSchema t.db).1 = .ok ()
      ∧ k ≤ t.store.lines.length
      ∧ ∀ n db' s', t.store.rebuild (initSchema t.db).2 = (.ok (n, db'), s') →
        s'.lines = t.store.lines
          ∧ db'.table? "all_logs" = some (logsTable (logRows (t.store.lines.drop k)))
          ∧ (db'.table? "all_logs" = some (logsTable (logRows t.store.lines)) ↔
            ∀ before after, changes ++ [.initSchema] = before ++ .initSchema :: after →
              ¬ (run before).RemovesLines) := by
  intro t k
  have hp : Populated t.store t.db.entries t.removed := run_populated changes
  obtain ⟨files, hs, hf⟩ := hp.initSchema_schema t.db.userVersion
  have hk : k ≤ t.store.indexed := (hp.apply .initSchema).removed
  have hkl : k ≤ t.store.lines.length := Nat.le_trans hk hp.indexed
  refine ⟨congrArg Prod.fst hs, hkl, ?_⟩
  intro n db' s' h
  rw [show initSchema t.db = _ from hs] at h
  obtain ⟨rfl, made, rfl, -⟩ := Populated.rebuild_ok hk hp.indexed hf h
  have hlogs := table?_logs made (logRows (t.store.lines.drop k)) version
  refine ⟨rfl, hlogs, ?_⟩
  have hzero : k = 0 ↔ ∀ before after, changes ++ [.initSchema] = before ++ .initSchema :: after →
      ¬ (run before).RemovesLines := by
    have hrun : k = (run (changes ++ [.initSchema])).removed := by
      rw [run, List.foldl_append]
      rfl
    have hempty : Populated (Tracked.store {}) (Tracked.db {}).entries (Tracked.removed {}) :=
      run_populated []
    have hiff := removed_eq_zero_iff (changes ++ [.initSchema]) hempty
    rw [hrun]
    exact hiff.trans ⟨fun h => h.2, fun h => ⟨rfl, h⟩⟩
  rw [← hzero, ← logRows_drop_iff hkl, hlogs]
  constructor
  · intro he
    exact congrArg Sql.Table.rows (Option.some.inj he)
  · intro he
    rw [he]

/-- A line is copied, the version changes, and the line never comes back. -/
theorem lines_lost_in_migration :
    let disk : Disk := { nodes := [([], .dir), (["a"], .file 0)], contents := [[120, 10]] }
    let t := run [.initSchema, .addPath disk "a", .rescan disk, .rebuild, .setVersion 7]
    ∃ n db' s', t.store.rebuild (initSchema t.db).2 = (.ok (n, db'), s')
      ∧ s'.lines = [⟨"a", 1, "x"⟩]
      ∧ db'.table? "all_logs" = some (logsTable []) := by
  intro disk t
  have hmade : (initSchema {}).2 = ⟨schema [] [], version⟩ := by rw [initSchema_empty]
  have hread : ((LogStore.addPath {} disk "a").2.rescan disk).2 = oneLine := by decide +kernel
  have hstore : t.store = { oneLine with indexed := 1 } := by
    simp only [t, run, List.foldl_cons, List.foldl_nil, Tracked.apply, hmade, hread,
      rebuilt_oneLine]
  have hdb : t.db = { oneRow with userVersion := 7 } := by
    simp only [t, run, List.foldl_cons, List.foldl_nil, Tracked.apply, hmade, hread,
      rebuilt_oneLine]
    rfl
  rw [hstore, hdb, oneRow, initSchema_other _ _ (by decide)]
  exact ⟨0, _, _, rfl, rfl, table?_logs [] [] version⟩

end LogConsole.LogStore
