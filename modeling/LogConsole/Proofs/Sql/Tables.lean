import LogConsole.Sql.Action

/-!
# LogConsole.Proofs.Sql.Tables

What a change of one row does to a table, and what a change of one table does to a database.

* `putRow_of_lt`, `perm_putRow`   — a row with a number of its own goes between the others;
* `table?_changeTable`, `table?_changeTable_other`, `indexesOf_changeTable` — changing a table
  changes nothing else;
* `table?_add_index`, `table?_removeIndex` — making and removing an index changes no table;
* `clash?_none`, `clash?_some`    — what a row clashes with;
* `changeRow_cases`, `insertRow_cases` — all that a changed or an inserted row can come to;
* `run_insert`                    — an insertion that succeeds changes its table only.
-/

namespace LogConsole.Sql

/-! ## Names -/

theorem sameName_iff {a b : String} : sameName a b = true ↔ foldName a = foldName b := by
  simp only [sameName, beq_iff_eq]

@[simp] theorem sameName_self (a : String) : sameName a a = true := sameName_iff.2 rfl

theorem sameName_congr {a b : String} (h : sameName a b = true) (c : String) :
    sameName a c = sameName b c := by
  simp only [sameName, sameName_iff.1 h]

/-! ## Rows -/

namespace Table

theorem putRow_of_lt {r : Row} {rows : List Row} (h : ∀ s ∈ rows, s.number < r.number) :
    putRow r rows = rows ++ [r] := by
  induction rows with
  | nil => rfl
  | cons s rows ih =>
    have hs : s.number < r.number := h s List.mem_cons_self
    have hne : s.number ≠ r.number := by omega
    have hlt : ¬ r.number < s.number := by omega
    rw [putRow, if_neg hne, if_neg hlt, ih fun t ht => h t (List.mem_cons_of_mem s ht)]
    rfl

theorem perm_putRow {r : Row} {rows : List Row} (h : ∀ s ∈ rows, s.number ≠ r.number) :
    (putRow r rows).Perm (r :: rows) := by
  induction rows with
  | nil => exact .refl _
  | cons s rows ih =>
    rw [putRow, if_neg (h s List.mem_cons_self)]
    split
    · exact .refl _
    · exact ((ih fun t ht => h t (List.mem_cons_of_mem s ht)).cons s).trans (.swap r s rows)

/-! ## Clashes -/

variable {t : Table} {indexes : List Index} {others : List Row} {r : Row}

theorem clash?_none (h : t.clash? indexes others r = none) :
    (∀ s ∈ others, s.number ≠ r.number)
      ∧ ∀ i ∈ indexes, i.unique = true → ∀ s ∈ others, sameKey i.columns r.values s.values = false := by
  simp only [clash?] at h
  split at h
  · cases h
  · rename_i hnone
    refine ⟨?_, ?_⟩
    · intro s hs
      have := List.find?_eq_none.1 hnone s hs
      simpa using this
    · intro i hi hu s hs
      have hfind := List.findSome?_eq_none_iff.1 h i (List.mem_filter.2 ⟨hi, hu⟩)
      have := List.find?_eq_none.1 (Option.map_eq_none_iff.1 hfind) s hs
      simpa using this

theorem clash?_some {key : List Nat} {old : Row} (h : t.clash? indexes others r = some (key, old)) :
    old ∈ others ∧ (key = t.numberKey ∨ sameKey key r.values old.values = true) := by
  simp only [clash?] at h
  split at h
  · rename_i s hs
    cases h
    exact ⟨List.mem_of_find?_eq_some hs, .inl rfl⟩
  · obtain ⟨i, -, hi⟩ := List.exists_of_findSome?_eq_some h
    obtain ⟨s, hs, hp⟩ := Option.map_eq_some_iff.1 hi
    cases hp
    have hk := List.find?_some hs
    exact ⟨List.mem_of_find?_eq_some hs, .inr hk⟩

/-! ## Changed rows -/

/-- A row that is changed goes in the place of the old one, if it clashes with no other. -/
theorem changeRow_cases {old row : Row} {changes : List (Option Nat × Value)} {new : Table}
    (h : t.changeRow indexes old changes = .ok (new, row)) :
    ∃ given, t.storedRow given old.number (assign old.values changes).1 = .ok row
      ∧ t.clash? indexes (t.rows.filter fun s => s.number != old.number) row = none
      ∧ new = { t with
          rows := putRow row (t.rows.filter fun s => s.number != old.number) } := by
  simp only [changeRow] at h
  split at h
  · cases h
  · split at h
    · cases h
    · rename_i stored hs
      split at h
      · cases h
      · rename_i hc
        cases h
        exact ⟨_, hs, hc, rfl⟩

end Table

namespace InsertAction

/-- Either the row is new, or the row that it clashes with is changed or left alone. -/
theorem insertRow_cases {a : InsertAction} {parameters : List Value} {indexes : List Index}
    {t new : Table} {terms : List Term} {out : Option Row} {given : List Value} {row : Row}
    (hg : Term.evalAll ⟨parameters, [], []⟩ terms = .ok given)
    (hs : t.storedRow (a.numberPlace.map fun i => given.getD i .null) t.nextNumber
      (List.zipWith (fun (c : Column) p => valueAt given p c.default) t.columns a.places) = .ok row)
    (h : a.insertRow parameters indexes t terms = .ok (new, out)) :
    (t.clash? indexes t.rows row = none ∧ new = { t with rows := Table.putRow row t.rows })
      ∨ ∃ key old changes, t.clash? indexes t.rows row = some (key, old)
        ∧ a.accepts t key = some changes
        ∧ (changes = [] ∧ new = t
          ∨ ∃ values changed, evalChanges ⟨parameters, numbered old ++ numbered row, []⟩ changes
              = .ok values ∧ t.changeRow indexes old values = .ok (new, changed)) := by
  simp only [insertRow, hg, hs] at h
  split at h
  · rename_i hc
    cases h
    exact .inl ⟨hc, rfl⟩
  · rename_i key old hc
    refine .inr ⟨key, old, ?_⟩
    split at h
    · cases h
    · rename_i ha
      cases h
      exact ⟨[], hc, ha, .inl ⟨rfl, rfl⟩⟩
    · rename_i changes _ ha
      refine ⟨changes, hc, ha, .inr ?_⟩
      split at h
      · cases h
      · rename_i values hv
        split at h
        · cases h
        · rename_i changed hch
          cases h
          exact ⟨values, _, hv, hch⟩

theorem insertRows_single {a : InsertAction} {parameters : List Value} {indexes : List Index}
    {t new : Table} {terms : List Term} {rows : List Row}
    (h : a.insertRows parameters indexes t [terms] = .ok (new, rows)) :
    ∃ out, a.insertRow parameters indexes t terms = .ok (new, out) := by
  simp only [insertRows] at h
  split at h
  · cases h
  · rename_i t' row hr
    cases h
    exact ⟨row, hr⟩

end InsertAction

/-! ## Databases -/

namespace Database

variable {db : Database} {name : String} {t new : Table}

theorem table?_changeTable (h : db.table? name = some t) (hn : sameName new.name name = true) :
    (db.changeTable name fun _ => new).table? name = some new := by
  simp only [table?, changeTable] at h ⊢
  generalize db.entries = entries at h ⊢
  induction entries with
  | nil => cases h
  | cons e entries ih =>
    cases e with
    | table u =>
      cases hu : sameName u.name name with
      | true => simp [hu, Entry.asTable?, hn]
      | false =>
        simp only [List.findSome?_cons, Entry.asTable?, hu, Bool.false_eq_true, if_false] at h
        simpa [hu, Entry.asTable?] using ih h
    | index i => exact ih h
    | view v => exact ih h

theorem table?_changeTable_other {other : String} (hn : sameName new.name name = true)
    (ho : sameName name other = false) :
    (db.changeTable name fun _ => new).table? other = db.table? other := by
  simp only [table?, changeTable, List.findSome?_map]
  congr 1
  funext e
  cases e with
  | table u =>
    cases hu : sameName u.name name with
    | true =>
      have hnew : sameName new.name other = false := by rw [sameName_congr hn, ho]
      have hold : sameName u.name other = false := by rw [sameName_congr hu, ho]
      simp [Entry.asTable?, hu, hnew, hold]
    | false => simp [hu]
  | index i => rfl
  | view v => rfl

theorem indexesOf_changeTable (db : Database) (name table : String) (f : Table → Table) :
    (db.changeTable name f).indexesOf table = db.indexesOf table := by
  simp only [indexesOf, changeTable, List.filterMap_map]
  congr 3
  funext e
  cases e with
  | table u =>
    simp only [Function.comp_apply]
    split <;> rfl
  | index i => rfl
  | view v => rfl

theorem mem_indexesOf_iff {i : Index} {table : String} :
    i ∈ db.indexesOf table ↔ .index i ∈ db.entries ∧ sameName i.table table = true := by
  have entry (e : Entry) : e.asIndex? = some i ↔ e = .index i := by
    cases e <;> simp [Entry.asIndex?]
  simp only [indexesOf, List.mem_filter, List.mem_reverse, List.mem_filterMap, entry,
    exists_eq_right]

theorem table?_add_index (db : Database) (i : Index) (name : String) :
    (db.add (.index i)).table? name = db.table? name := by
  simp [table?, add, Entry.asTable?]

theorem table?_removeIndex (db : Database) (index name : String) :
    (db.removeIndex index).table? name = db.table? name := by
  simp only [table?, removeIndex]
  induction db.entries with
  | nil => rfl
  | cons e entries ih =>
    cases e with
    | table t => rw [List.filter_cons_of_pos rfl, List.findSome?_cons, List.findSome?_cons, ih]
    | view v =>
      rw [List.filter_cons_of_pos rfl]
      exact ih
    | index i =>
      cases removed : sameName i.name index with
      | true =>
        rw [List.filter_cons_of_neg (by simp [Entry.asIndex?, removed])]
        exact ih
      | false =>
        rw [List.filter_cons_of_pos (by simp [Entry.asIndex?, removed])]
        exact ih

end Database

/-! ## Insertion -/

theorem checked_cases {old new : Database} {rows : List (List Value)}
    (h : (Outcome.checked old new rows).rows.failure = none) :
    (Outcome.checked old new rows).database = new := by
  simp only [Outcome.checked] at h ⊢
  split at h
  · cases h
  · rename_i hv
    rw [if_neg hv]

theorem run_insert {a : InsertAction} {db : Database} {parameters : List Value} {t : Table}
    {terms : List Term} (ht : db.table? a.table = some t) (hr : a.rows = [terms])
    (h : ((Action.insert a).run db parameters).rows.failure = none) :
    ∃ new out, a.insertRow parameters (db.indexesOf a.table) t terms = .ok (new, out)
      ∧ ((Action.insert a).run db parameters).database = db.changeTable a.table fun _ => new := by
  simp only [Action.run, Action.changing, ht, hr] at h ⊢
  cases hi : a.insertRows parameters (db.indexesOf a.table) t [terms] with
  | error e =>
    rw [hi] at h
    cases h
  | ok made =>
    obtain ⟨new, rows⟩ := made
    rw [hi] at h
    obtain ⟨out, hrow⟩ := InsertAction.insertRows_single hi
    refine ⟨new, out, hrow, ?_⟩
    dsimp only at h ⊢
    split at h
    · cases h
    · exact checked_cases h

end LogConsole.Sql
