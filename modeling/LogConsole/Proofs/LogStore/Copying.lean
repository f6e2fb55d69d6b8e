import Mathlib.Data.List.Nodup
import LogConsole.Proofs.LogStore.Tables

/-!
# LogConsole.Proofs.LogStore.Copying

What copying one line does to the tables, and what copying many does.

* `logRow`, `logRows` — the rows of `all_logs` for some lines, numbered from one;
* `fileRow`    — a row of `log_files`;
* `Upserted`   — a path is new in `log_files`, or the row that has it gets the larger count;
* `FileRows`   — `log_files` has one row for each path of some lines, with the largest number;
* `Copied`     — the tables hold exactly some lines;
* `copyLines_copied`, `copyPending_copied` — copying more lines adds exactly these.
-/

namespace LogConsole.LogStore

open Sql

/-! ## Rows -/

def logRow (i : Nat) (l : LogLine) : Row where
  number := i + 1
  values := [Value.ofInt (i + 1), .text l.path, .integer (Int64.ofNat l.number), .text l.body,
    .text (messageFormat l.body)]

def logRows (lines : List LogLine) : List Row := lines.zipIdx.map fun (l, i) => logRow i l

def fileRow (number : Int) (path : String) (isVirtual count : Int64) : Row where
  number := number
  values := [.text path, .integer isVirtual, .integer count]

def pathOf (r : Row) : Option Value := r.values.head?

@[simp] theorem pathOf_fileRow (k : Int) (path : String) (v c : Int64) :
    pathOf (fileRow k path v c) = some (.text path) := rfl

theorem logRows_append (lines : List LogLine) (l : LogLine) :
    logRows (lines ++ [l]) = logRows lines ++ [logRow lines.length l] := by
  simp [logRows, List.zipIdx_append]

@[simp] theorem length_logRows (lines : List LogLine) : (logRows lines).length = lines.length := by
  simp [logRows]

theorem number_le_of_mem_logRows {lines : List LogLine} {r : Row} (h : r ∈ logRows lines) :
    r.number ≤ lines.length := by
  simp only [logRows, List.mem_map] at h
  obtain ⟨⟨l, i⟩, hi, rfl⟩ := h
  have hlt := (List.mem_zipIdx hi).2.1
  simp only [logRow]
  omega

theorem nextNumber_logRows (lines : List LogLine) :
    (logsTable (logRows lines)).nextNumber = lines.length + 1 := by
  rcases List.eq_nil_or_concat lines with rfl | ⟨before, l, rfl⟩
  · rfl
  · rw [List.concat_eq_append, logRows_append]
    simp [Table.nextNumber, logsTable, logRow]

/-! ## One line -/

/-- Executing an insertion of one row changes its table to what the row makes of it. -/
theorem execute_insert {a : InsertAction} {names : List (Option String)} {db db' : Database}
    {values : List Value} {t : Table} {terms : List Term}
    (h : execute db { action := .insert a, parameters := names } values = .ok db')
    (ht : db.table? a.table = some t) (hr : a.rows = [terms]) :
    ∃ new out, a.insertRow values (db.indexesOf a.table) t terms = .ok (new, out)
      ∧ db' = db.changeTable a.table fun _ => new := by
  simp only [execute, Prepared.run] at h
  split at h
  · cases h
  · rename_i hf
    cases h
    obtain ⟨new, out, hi, hdb⟩ := run_insert ht hr hf
    exact ⟨new, out, hi, hdb⟩

theorem storedRow_logs (rows : List Row) (next : Int) (path body format : String) (n : Int64) :
    (logsTable rows).storedRow none next
      [.null, .text path, .integer n, .text body, .text format]
      = .ok ⟨next, [Value.ofInt next, .text path, .integer n, .text body, .text format]⟩ := by
  rfl

/-- A line goes after the lines that are there. -/
theorem execute_line {db db' : Database} {files : List Row} {lines : List LogLine} {l : LogLine}
    {names : List (Option String)} (ht : LogTables db files (logRows lines))
    (h : execute db { action := .insert lineAction, parameters := names }
      [.text l.path, .integer (Int64.ofNat l.number), .text l.body, .text (messageFormat l.body)]
      = .ok db') :
    db' = db.changeTable "all_logs" fun _ => logsTable (logRows (lines ++ [l])) := by
  obtain ⟨new, out, hi, rfl⟩ := execute_insert h ht.logs rfl
  have hs := storedRow_logs (logRows lines) (logsTable (logRows lines)).nextNumber l.path l.body
    (messageFormat l.body) (Int64.ofNat l.number)
  have hg : Term.evalAll ⟨[.text l.path, .integer (Int64.ofNat l.number), .text l.body,
      .text (messageFormat l.body)], [], []⟩ [.parameter 1, .parameter 2, .parameter 3, .parameter 4]
      = .ok [.text l.path, .integer (Int64.ofNat l.number), .text l.body,
        .text (messageFormat l.body)] := by
    rfl
  rcases InsertAction.insertRow_cases hg hs hi with ⟨-, rfl⟩ | ⟨key, old, changes, -, ha, -⟩
  · have hrows : Table.putRow (logRow lines.length l) (logRows lines) = logRows (lines ++ [l]) := by
      rw [logRows_append]
      refine Table.putRow_of_lt fun s hs => ?_
      have hle := number_le_of_mem_logRows hs
      simp only [logRow]
      omega
    rw [← hrows, logRow, nextNumber_logRows]
    rfl
  · cases ha

/-! ## One path -/

/-- The larger of two counts; the first if they are equal. -/
def larger (c n : Int64) : Int64 := if c < n then n else c

theorem compare_counts (c n : Int64) :
    (Sql.compare (.integer n) (.integer c) == .gt) = decide (c < n) := by
  have h : Sql.compare (.integer n) (.integer c) = Ord.compare (n.toInt * 1) (c.toInt * 1) := rfl
  rw [h, Int.mul_one, Int.mul_one, Bool.eq_iff_iff, beq_iff_eq, decide_eq_true_iff,
    Int.compare_eq_gt, Int64.lt_iff_toInt_lt]

theorem firstGreatest_counts (c n : Int64) :
    Function.firstGreatest [.integer c, .integer n] = .integer (larger c n) := by
  simp only [Function.firstGreatest, Function.best, Value.isNull, compare_counts, larger,
    Bool.or_self, Bool.false_eq_true, if_false, decide_eq_true_eq]
  split <;> rfl

/-- What copying a line of a path does to the rows of `log_files`. -/
inductive Upserted (rows : List Row) (path : String) (isVirtual n : Int64) (made : List Row) : Prop
  | new (k : Int) (number : ∀ s ∈ rows, s.number ≠ k)
      (unknown : ∀ s ∈ rows, pathOf s ≠ some (.text path))
      (perm : made.Perm (fileRow k path isVirtual n :: rows))
  | changed (old : Int) (v c : Int64) (known : fileRow old path v c ∈ rows) (k : Int)
      (number : ∀ s ∈ rows.filter (·.number != old), s.number ≠ k)
      (perm : made.Perm (fileRow k path v (larger c n) :: rows.filter (·.number != old)))

theorem storedRow_files (rows : List Row) (next : Int) (path : String) (v c : Int64) :
    (filesTable rows).storedRow none next [.text path, .integer v, .integer c]
      = .ok (fileRow next path v c) := by
  rfl

/-- Whatever number a row is given, its values stay. -/
theorem storedRow_files_values {rows : List Row} {given : Option Value} {next : Int}
    {path : String} {v c : Int64} {r : Row}
    (h : (filesTable rows).storedRow given next [.text path, .integer v, .integer c] = .ok r) :
    ∃ k, r = fileRow k path v c := by
  simp only [Table.storedRow] at h
  split at h
  · cases h
  · rename_i k _
    refine ⟨k, ?_⟩
    split at h
    · cases h
    · cases h
      rfl

theorem compare_texts (p q : String) :
    Sql.compare (.text p) (.text q) = .eq ↔ p = q := by
  simp only [Sql.compare, compareText]
  constructor
  · intro h
    split at h
    · cases h
    · split at h
      · rename_i he
        exact he
      · cases h
  · rintro rfl
    rw [if_neg (String.lt_irrefl p), if_pos rfl]

theorem sameKey_path (path : String) (v c v' c' : Int64) (k old : Int) :
    Table.sameKey [0] (fileRow k path v c).values (fileRow old path v' c').values = true := by
  have h : Sql.compare (.text path) (.text path) = .eq := (compare_texts path path).2 rfl
  simp only [Table.sameKey, Table.pick, fileRow, List.map_cons, List.map_nil, compareKeys,
    List.getD_cons_zero, List.headD_cons, h]
  rfl

theorem path_eq_of_sameKey {key : List Nat} {p q : String} {k old : Int} {v c v' c' : Int64}
    (h : Table.sameKey (0 :: key) (fileRow k p v c).values (fileRow old q v' c').values = true) :
    p = q := by
  simp only [Table.sameKey, Table.pick, fileRow, List.map_cons, compareKeys, List.getD_cons_zero,
    List.headD_cons, Bool.and_eq_true, beq_iff_eq] at h
  obtain ⟨-, h⟩ := h
  split at h
  · rename_i he
    exact (compare_texts p q).1 he
  · rename_i hne
    exact absurd h hne

theorem accepts_key {rows : List Row} {key : List Nat} {changes : List (Option Nat × Term)}
    (h : fileAction.accepts (filesTable rows) key = some changes) :
    (∃ rest, key = 0 :: rest)
      ∧ changes = [(some 2, .call .greatest [.column 2, .parameter 3])] := by
  simp only [InsertAction.accepts, fileAction] at h
  split at h
  · rename_i hk
    cases h
    refine ⟨?_, rfl⟩
    cases key with
    | nil => simp [filesTable] at hk
    | cons i rest =>
      have hkey : (0 = i ∨ 0 ∈ rest) ∧ i = 0 ∧ ∀ j ∈ rest, j = 0 := by
        simpa [filesTable] using hk
      exact ⟨rest, by rw [hkey.2.1]⟩
  · cases h

theorem evalChanges_count (path : String) (v n v' c : Int64) (k next : Int) :
    evalChanges ⟨[.text path, .integer v, .integer n],
        numbered (fileRow k path v' c) ++ numbered (fileRow next path v n), []⟩
      [(some 2, .call .greatest [.column 2, .parameter 3])]
      = .ok [(some 2, .integer (larger c n))] := by
  rw [← firstGreatest_counts]
  rfl

/-- Copying a line of a path adds a row for it, or raises the count of the row that has it. -/
theorem execute_file {db db' : Database} {files logs : List Row} {path : String} {v n : Int64}
    {names : List (Option String)} (ht : LogTables db files logs)
    (hrows : ∀ r ∈ files, ∃ k p v c, r = fileRow k p v c)
    (h : execute db { action := .insert fileAction, parameters := names }
      [.text path, .integer v, .integer n] = .ok db') :
    ∃ made, db' = db.changeTable "log_files" (fun _ => filesTable made)
      ∧ Upserted files path v n made := by
  obtain ⟨new, out, hi, rfl⟩ := execute_insert h ht.files rfl
  have hs := storedRow_files files (filesTable files).nextNumber path v n
  have hg : Term.evalAll ⟨[.text path, .integer v, .integer n], [], []⟩
      [.parameter 1, .parameter 2, .parameter 3] = .ok [.text path, .integer v, .integer n] := by
    rfl
  rcases InsertAction.insertRow_cases hg hs hi with ⟨hc, rfl⟩ | ⟨key, old, changes, hc, ha, hch⟩
  · -- no clash: the key of `log_files` has let the path through, so no row has it
    obtain ⟨hnumber, hkeys⟩ := Table.clash?_none hc
    refine ⟨_, rfl, .new _ hnumber ?_ (Table.perm_putRow hnumber)⟩
    intro s hs hp
    obtain ⟨k, p, v', c', rfl⟩ := hrows s hs
    cases hp
    have hk := hkeys filesKey ht.key rfl _ hs
    rw [show filesKey.columns = [0] from rfl, sameKey_path] at hk
    cases hk
  · -- a clash that the statement accepts is one of paths
    obtain ⟨⟨rest, rfl⟩, rfl⟩ := accepts_key ha
    obtain ⟨hold, hk⟩ := Table.clash?_some hc
    obtain ⟨k, p, v', c, rfl⟩ := hrows old hold
    have hpath : path = p := by
      rcases hk with hk | hk
      · cases hk
      · exact path_eq_of_sameKey hk
    subst hpath
    rcases hch with ⟨hnil, -⟩ | ⟨values, changed, hv, hrow⟩
    · cases hnil
    · rw [evalChanges_count] at hv
      cases hv
      obtain ⟨given, hstored, hclash, rfl⟩ := Table.changeRow_cases hrow
      obtain ⟨k', rfl⟩ := storedRow_files_values hstored
      obtain ⟨hnumber, -⟩ := Table.clash?_none hclash
      exact ⟨_, rfl, .changed k v' c hold k' hnumber (Table.perm_putRow hnumber)⟩

/-! ## All paths -/

/-- `c` is the largest number, as it is stored, of a line of `path`. -/
structure Largest (lines : List LogLine) (path : String) (c : Int64) : Prop where
  reached : ∃ l ∈ lines, l.path = path ∧ Int64.ofNat l.number = c
  bound : ∀ l ∈ lines, l.path = path → Int64.ofNat l.number ≤ c

theorem Largest.append_other {lines : List LogLine} {path : String} {c : Int64}
    (h : Largest lines path c) {l : LogLine} (hl : l.path ≠ path) :
    Largest (lines ++ [l]) path c := by
  obtain ⟨m, hm, hp, hc⟩ := h.reached
  refine ⟨⟨m, List.mem_append_left _ hm, hp, hc⟩, ?_⟩
  intro m hm hp
  rcases List.mem_append.1 hm with hm | hm
  · exact h.bound m hm hp
  · rw [List.mem_singleton.1 hm] at hp
    exact absurd hp hl

theorem Largest.append_same {lines : List LogLine} {path : String} {c : Int64}
    (h : Largest lines path c) {l : LogLine} (hl : l.path = path) :
    Largest (lines ++ [l]) path (larger c (Int64.ofNat l.number)) := by
  have hlast : l ∈ lines ++ [l] := List.mem_append_right _ (List.mem_singleton_self l)
  obtain ⟨m, hm, hp, hc⟩ := h.reached
  by_cases hlt : c < Int64.ofNat l.number
  · rw [larger, if_pos hlt]
    refine ⟨⟨l, hlast, hl, rfl⟩, ?_⟩
    intro k hk hkp
    rcases List.mem_append.1 hk with hk | hk
    · exact Int64.le_trans (h.bound k hk hkp) (Int64.le_of_lt hlt)
    · rw [List.mem_singleton.1 hk]
      exact Int64.le_refl _
  · rw [larger, if_neg hlt]
    refine ⟨⟨m, List.mem_append_left _ hm, hp, hc⟩, ?_⟩
    intro k hk hkp
    rcases List.mem_append.1 hk with hk | hk
    · exact h.bound k hk hkp
    · rw [List.mem_singleton.1 hk]
      exact Int64.not_lt.1 hlt

theorem largest_first {lines : List LogLine} {l : LogLine} (h : ∀ m ∈ lines, m.path ≠ l.path) :
    Largest (lines ++ [l]) l.path (Int64.ofNat l.number) := by
  refine ⟨⟨l, List.mem_append_right _ (List.mem_singleton_self l), rfl, rfl⟩, ?_⟩
  intro m hm hp
  rcases List.mem_append.1 hm with hm | hm
  · exact absurd hp (h m hm)
  · rw [List.mem_singleton.1 hm]
    exact Int64.le_refl _

theorem nodup_map_cons {α : Type} {f : Row → α} {r : Row} {rows : List Row}
    (h : (rows.map f).Nodup) (hr : ∀ s ∈ rows, f s ≠ f r) : ((r :: rows).map f).Nodup := by
  rw [List.map_cons, List.nodup_cons]
  refine ⟨?_, h⟩
  intro hm
  obtain ⟨s, hs, he⟩ := List.mem_map.1 hm
  exact hr s hs he

structure FileRows (lines : List LogLine) (rows : List Row) : Prop where
  numbers : (rows.map (·.number)).Nodup
  paths : (rows.map pathOf).Nodup
  counts : ∀ r ∈ rows, ∃ k path v c, r = fileRow k path v c ∧ Largest lines path c
  all : ∀ l ∈ lines, ∃ r ∈ rows, pathOf r = some (.text l.path)

namespace FileRows

variable {lines : List LogLine} {rows made : List Row} {l : LogLine}

theorem nil : FileRows [] [] where
  numbers := List.nodup_nil
  paths := List.nodup_nil
  counts := by simp
  all := by simp

theorem perm (h : FileRows lines rows) (hp : made.Perm rows) : FileRows lines made where
  numbers := (hp.map _).nodup_iff.2 h.numbers
  paths := (hp.map _).nodup_iff.2 h.paths
  counts := fun r hr => h.counts r (hp.mem_iff.1 hr)
  all := fun l hl => by
    obtain ⟨r, hr, he⟩ := h.all l hl
    exact ⟨r, hp.mem_iff.2 hr, he⟩

/-- A row of another path, after one more line. -/
theorem count_other (h : FileRows lines rows) {r : Row} (hr : r ∈ rows)
    (hp : pathOf r ≠ some (.text l.path)) :
    ∃ k path v c, r = fileRow k path v c ∧ Largest (lines ++ [l]) path c := by
  obtain ⟨k, path, v, c, rfl, hc⟩ := h.counts r hr
  refine ⟨k, path, v, c, rfl, hc.append_other ?_⟩
  rintro rfl
  exact hp rfl

theorem add (h : FileRows lines rows) {k : Int} {v : Int64} (hk : ∀ s ∈ rows, s.number ≠ k)
    (hp : ∀ s ∈ rows, pathOf s ≠ some (.text l.path)) :
    FileRows (lines ++ [l]) (fileRow k l.path v (Int64.ofNat l.number) :: rows) where
  numbers := nodup_map_cons h.numbers hk
  paths := nodup_map_cons h.paths hp
  counts := by
    intro r hr
    rcases List.mem_cons.1 hr with rfl | hr
    · refine ⟨k, l.path, v, _, rfl, largest_first fun m hm he => ?_⟩
      obtain ⟨s, hs, hps⟩ := h.all m hm
      exact hp s hs (by rw [hps, he])
    · exact h.count_other hr (hp r hr)
  all := by
    intro m hm
    rcases List.mem_append.1 hm with hm | hm
    · obtain ⟨r, hr, he⟩ := h.all m hm
      exact ⟨r, List.mem_cons_of_mem _ hr, he⟩
    · rw [List.mem_singleton.1 hm]
      exact ⟨_, List.mem_cons_self, rfl⟩

/-- Rows of different numbers have different paths. -/
theorem path_ne (h : FileRows lines rows) {r s : Row} (hr : r ∈ rows) (hs : s ∈ rows)
    (hn : r.number ≠ s.number) : pathOf r ≠ pathOf s := fun he =>
  hn (congrArg Row.number (List.inj_on_of_nodup_map h.paths hr hs he))

theorem change (h : FileRows lines rows) {old k : Int} {v c : Int64}
    (hold : fileRow old l.path v c ∈ rows)
    (hk : ∀ s ∈ rows.filter (·.number != old), s.number ≠ k) :
    FileRows (lines ++ [l])
      (fileRow k l.path v (larger c (Int64.ofNat l.number)) :: rows.filter (·.number != old)) := by
  have hsub : (rows.filter (·.number != old)).Sublist rows := List.filter_sublist
  have hp : ∀ s ∈ rows.filter (·.number != old), pathOf s ≠ some (.text l.path) := by
    intro s hs
    obtain ⟨hs, hn⟩ := List.mem_filter.1 hs
    exact h.path_ne hs hold (by simpa [fileRow] using hn)
  refine ⟨nodup_map_cons (h.numbers.sublist (hsub.map _)) hk,
    nodup_map_cons (h.paths.sublist (hsub.map _)) hp, ?_, ?_⟩
  · intro r hr
    rcases List.mem_cons.1 hr with rfl | hr
    · obtain ⟨k', path, v', c', he, hc⟩ := h.counts _ hold
      cases he
      exact ⟨k, l.path, v, _, rfl, hc.append_same rfl⟩
    · exact h.count_other (hsub.subset hr) (hp r hr)
  · intro m hm
    by_cases hpm : m.path = l.path
    · exact ⟨_, List.mem_cons_self, by rw [hpm]; rfl⟩
    · rcases List.mem_append.1 hm with hm | hm
      · obtain ⟨r, hr, he⟩ := h.all m hm
        have hn : r.number ≠ old := by
          intro hno
          have hsame := List.inj_on_of_nodup_map h.numbers hr hold hno
          rw [hsame, pathOf_fileRow, Option.some.injEq, Value.text.injEq] at he
          exact hpm he.symm
        exact ⟨r, List.mem_cons_of_mem _ (List.mem_filter.2 ⟨hr, by simpa using hn⟩), he⟩
      · exact absurd (congrArg LogLine.path (List.mem_singleton.1 hm)) hpm

theorem upserted (h : FileRows lines rows) {v : Int64}
    (hu : Upserted rows l.path v (Int64.ofNat l.number) made) : FileRows (lines ++ [l]) made := by
  cases hu with
  | new k number unknown perm => exact (h.add number unknown).perm perm
  | changed old v c known k number perm => exact (h.change known number).perm perm

end FileRows

/-! ## Many lines -/

/-- The tables hold `lines`, each once and in order. -/
structure Copied (db : Database) (lines : List LogLine) (files : List Row) : Prop where
  tables : LogTables db files (logRows lines)
  rows : FileRows lines files

/-- By induction on the lines that are left: what has been copied so far is the invariant, and each
line adds its own row to `all_logs`. -/
theorem copyLines_copied {isVirtual : String → Bool} {names names' : List (Option String)}
    {start db db' : Database} {lines more : List LogLine} {files : List Row}
    (hs : RowsChanged start db) (hc : Copied db lines files)
    (h : copyLines isVirtual { action := .insert fileAction, parameters := names }
      { action := .insert lineAction, parameters := names' } db more = .ok db') :
    ∃ made, Copied db' (lines ++ more) made ∧ RowsChanged start db' := by
  induction more generalizing db lines files with
  | nil =>
    cases h
    exact ⟨files, by rw [List.append_nil]; exact hc, hs⟩
  | cons l more ih =>
    simp only [copyLines] at h
    split at h
    · cases h
    · rename_i db₁ hf
      split at h
      · cases h
      · rename_i db₂ hl
        obtain ⟨made, rfl, hu⟩ := execute_file hc.tables (fun r hr => by
          obtain ⟨k, p, v, c, he, -⟩ := hc.rows.counts r hr
          exact ⟨k, p, v, c, he⟩) hf
        have ht := filesTable_changed hc.tables made
        obtain rfl := execute_line ht hl
        have hc' : Copied _ (lines ++ [l]) made := ⟨logsTable_changed ht _, hc.rows.upserted hu⟩
        obtain ⟨made', hm, hs'⟩ := ih ((hs.files made).logs _) hc' h
        exact ⟨made', by rw [List.append_cons]; exact hm, hs'⟩

theorem copyPending_eq {s : LogStore} {db : Database} {files logs : List Row}
    (ht : LogTables db files logs) :
    s.copyPending db
      = copyLines (fun path => s.virtuals.any fun v => v.name == path)
        { action := .insert fileAction, parameters := putFile.parameters }
        { action := .insert lineAction, parameters := putLine.parameters } db s.pending := by
  rw [copyPending, prepareText_fileText ht, prepareText_lineText ht]
  rfl

theorem copyPending_copied {s : LogStore} {db db' : Database} {lines : List LogLine}
    {files : List Row} (hc : Copied db lines files) (h : s.copyPending db = .ok db') :
    ∃ made, Copied db' (lines ++ s.pending) made ∧ RowsChanged db db' := by
  rw [copyPending_eq hc.tables] at h
  exact copyLines_copied .refl hc h

end LogConsole.LogStore
