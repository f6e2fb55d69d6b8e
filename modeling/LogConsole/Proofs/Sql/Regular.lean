import LogConsole.Proofs.Sql.Tables
import LogConsole.Proofs.Sql.Widths

/-!
# LogConsole.Proofs.Sql.Regular

What comes out of every statement that is run, and what it leaves.

* `Action.Regular n a`  — the rows that come out have `n` values, none come out if that is zero,
  and a sound database stays sound;
* `Prepared.Regular p`  — the same with the number of the columns that a statement names;
* `ofStatement_regular` — so is every statement that has been read, if it is prepared for a sound
  database;
* `prepare_regular`, `runAll_sound` — the same for texts.

A change of a table leaves all but its rows alone (`changeRow_rest`, `insertRow_rest`), and that is
all that has to be known of the rows it changes.
-/

namespace LogConsole.Sql

/-! ## Rows of a table -/

theorem Table.rest_trans {t u v : Table} (h : u = { t with rows := u.rows })
    (k : v = { u with rows := v.rows }) : v = { t with rows := v.rows } := by
  rw [k, h]

theorem Table.changeRow_rest {t new : Table} {indexes : List Index} {old row : Row}
    {changes : List (Option Nat × Value)} (h : t.changeRow indexes old changes = .ok (new, row)) :
    new = { t with rows := new.rows } := by
  obtain ⟨given, -, -, rfl⟩ := Table.changeRow_cases h
  rfl

namespace InsertAction

variable {a : InsertAction} {parameters : List Value} {indexes : List Index} {t new : Table}

theorem insertRow_rest {terms : List Term} {out : Option Row}
    (h : a.insertRow parameters indexes t terms = .ok (new, out)) :
    new = { t with rows := new.rows } := by
  cases hg : Term.evalAll ⟨parameters, [], []⟩ terms with
  | error e => simp only [insertRow, hg] at h; cases h
  | ok given =>
    cases hs : t.storedRow (a.numberPlace.map fun i => given.getD i .null) t.nextNumber
      (List.zipWith (fun (c : Column) p => valueAt given p c.default) t.columns a.places) with
    | error e => simp only [insertRow, hg, hs] at h; cases h
    | ok row =>
      obtain ⟨-, rfl⟩ | ⟨key, old, changes, -, -, ⟨-, rfl⟩ | ⟨values, changed, -, hc⟩⟩ :=
        insertRow_cases hg hs h
      · rfl
      · rfl
      · exact Table.changeRow_rest hc

theorem insertRows_rest {rows : List (List Term)} {out : List Row}
    (h : a.insertRows parameters indexes t rows = .ok (new, out)) :
    new = { t with rows := new.rows } := by
  induction rows generalizing t out with
  | nil => cases h; rfl
  | cons terms rest ih =>
    simp only [insertRows] at h
    split at h
    · cases h
    · rename_i u row hu
      split at h
      · cases h
      · rename_i v rows hv
        cases h
        exact Table.rest_trans (insertRow_rest hu) (ih hv)

end InsertAction

theorem changeRows_rest {parameters : List Value} {indexes : List Index}
    {assignments : List (Option Nat × Term)} {t new : Table} {rows out : List Row}
    (h : changeRows parameters indexes assignments t rows = .ok (new, out)) :
    new = { t with rows := new.rows } := by
  induction rows generalizing t out with
  | nil => cases h; rfl
  | cons old rest ih =>
    simp only [changeRows] at h
    split at h
    · cases h
    · split at h
      · cases h
      · rename_i u row hu
        split at h
        · cases h
        · rename_i v rows hv
          cases h
          exact Table.rest_trans (Table.changeRow_rest hu) (ih hv)

theorem returned_wide {parameters : List Value} {outputs : List Term} {rows : List Row}
    {made : List (List Value)} (h : returned parameters outputs rows = .ok made) :
    ∀ row ∈ made, row.length = outputs.length := by
  unfold returned at h
  split at h
  · cases h; simp
  · intro row hrow
    obtain ⟨r, -, hr⟩ := mem_of_mapM h row hrow
    exact Term.evalAll_length hr

theorem returned_nothing {parameters : List Value} {rows : List Row} {made : List (List Value)}
    (h : returned parameters [] rows = .ok made) : made = [] := by
  cases h
  rfl

/-! ## Sound databases -/

namespace Database

variable {db : Database}

theorem sound_empty : Database.Sound {} := by
  intro e he
  cases he

theorem Sound.changeTable (h : db.Sound) (name : String) {f : Table → Table}
    (hf : ∀ t, t.columns ≠ [] → (f t).columns ≠ []) : (db.changeTable name f).Sound := by
  intro e he
  obtain ⟨e', he', rfl⟩ := List.mem_map.1 he
  cases e' with
  | table t =>
    dsimp only
    split
    · exact hf t (h _ he')
    · exact h _ he'
  | index i => exact h _ he'
  | view v => exact h _ he'

theorem Sound.add (h : db.Sound) {e : Entry} (he : e.Sound) : (db.add e).Sound := by
  intro e' he'
  rcases List.mem_append.1 he' with he' | he'
  · exact h e' he'
  · rwa [List.mem_singleton.1 he']

theorem Sound.addAll {entries : List Entry} (hs : ∀ e ∈ entries, e.Sound) :
    ∀ {db : Database}, db.Sound → (entries.foldl Database.add db).Sound := by
  induction entries with
  | nil => intro db h; exact h
  | cons e rest ih =>
    intro db h
    exact ih (fun e' he' => hs e' (List.mem_cons_of_mem e he')) (h.add (hs e List.mem_cons_self))

theorem Sound.filter (h : db.Sound) (p : Entry → Bool) :
    Database.Sound { db with entries := db.entries.filter p } :=
  fun e he => h e (List.mem_filter.1 he).1

end Database

/-! ## Actions -/

namespace Action

structure Regular (n : Nat) (a : Action) : Prop where
  wide : ∀ db parameters, (a.run db parameters).rows.Wide n
  silent : n = 0 → ∀ db parameters, (a.run db parameters).rows.rows = []
  sound : ∀ db parameters, db.Sound → (a.run db parameters).database.Sound

/-- What brings out no rows needs to be looked at for the database only. -/
theorem Regular.of_silent {n : Nat} {a : Action}
    (silent : ∀ db parameters, (a.run db parameters).rows.rows = [])
    (sound : ∀ db parameters, db.Sound → (a.run db parameters).database.Sound) : Regular n a where
  wide db parameters row hrow := by
    rw [silent db parameters] at hrow
    cases hrow
  silent _ := silent
  sound := sound

theorem regular_query {q : Query} (h : q.Fits) : Regular q.columns.length (.query q.plan) where
  wide db parameters := Plan.run_wide db parameters q.plan h.wide
  silent none := absurd (List.length_eq_zero_iff.1 none) h.columns
  sound _ _ sound := sound

/-- A change of one table fails and changes nothing, or it puts a new table in the place of the
old one and answers with rows of what it has changed. -/
theorem changing_cases (db : Database) (parameters : List Value) (name : String)
    (outputs : List Term) (change : Table → List Index → Except String (Table × List Row)) :
    (∃ e, changing db parameters name outputs change = .fail db e) ∨
    ∃ t new rows made, db.table? name = some t ∧ change t (db.indexesOf name) = .ok (new, rows) ∧
      returned parameters outputs rows = .ok made ∧
      changing db parameters name outputs change
        = ⟨⟨made, none⟩, db.changeTable name fun _ => new⟩ := by
  unfold changing
  split
  · exact .inl ⟨_, rfl⟩
  · rename_i t ht
    split
    · exact .inl ⟨_, rfl⟩
    · rename_i new rows hc
      split
      · exact .inl ⟨_, rfl⟩
      · rename_i made hm
        unfold Outcome.checked
        split
        · exact .inl ⟨_, rfl⟩
        · exact .inr ⟨t, new, rows, made, ht, hc, hm, rfl⟩

/-- Changes of one table that leave all but its rows alone. -/
def ChangesRows (outputs : List Term) (a : Action) : Prop :=
  ∀ db parameters, ∃ name change,
    a.run db parameters = changing db parameters name outputs change ∧
    ∀ {t indexes new rows}, change t indexes = .ok (new, rows) → new = { t with rows := new.rows }

theorem changesRows_insert (a : InsertAction) : ChangesRows a.returning (.insert a) :=
  fun _ _ => ⟨_, _, rfl, InsertAction.insertRows_rest⟩

theorem changesRows_update (name : String) (assignments : List (Option Nat × Term))
    (filter : Option Term) (outputs : List Term) :
    ChangesRows outputs (.update name assignments filter outputs) := by
  intro db parameters
  simp only [run]
  refine ⟨_, _, rfl, ?_⟩
  intro t indexes new rows h
  split at h
  · cases h
  · exact changeRows_rest h

theorem changesRows_delete (name : String) (filter : Option Term) (outputs : List Term) :
    ChangesRows outputs (.delete name filter outputs) := by
  intro db parameters
  simp only [run]
  refine ⟨_, _, rfl, ?_⟩
  intro t indexes new rows h
  split at h
  · cases h
  · cases h; rfl

theorem ChangesRows.regular {a : Action} {outputs : List Term} (runs : ChangesRows outputs a) :
    Regular outputs.length a where
  wide db parameters := by
    obtain ⟨name, change, run, -⟩ := runs db parameters
    rw [run]
    obtain ⟨e, h⟩ | ⟨t, new, rows, made, -, -, hm, h⟩ :=
      changing_cases db parameters name outputs change
    · rw [h]; exact Rows.wide_fail e
    · rw [h]; exact returned_wide hm
  silent none db parameters := by
    obtain ⟨name, change, run, -⟩ := runs db parameters
    rw [run]
    obtain ⟨e, h⟩ | ⟨t, new, rows, made, -, -, hm, h⟩ :=
      changing_cases db parameters name outputs change
    · rw [h]; rfl
    · rw [List.length_eq_zero_iff.1 none] at hm
      rw [h]
      exact returned_nothing hm
  sound db parameters sound := by
    obtain ⟨name, change, run, rest⟩ := runs db parameters
    rw [run]
    obtain ⟨e, h⟩ | ⟨t, new, rows, made, ht, hc, -, h⟩ :=
      changing_cases db parameters name outputs change
    · rw [h]; exact sound
    · rw [h]
      have columns : new.columns = t.columns := by rw [rest hc]
      exact sound.changeTable name fun _ _ => columns ▸ sound.table ht

theorem regular_add {n : Nat} {entries : List Entry} (h : ∀ e ∈ entries, e.Sound) :
    Regular n (.add entries) := by
  refine .of_silent (fun db parameters => ?_) (fun db parameters sound => ?_)
  · simp only [run]
    split <;> rfl
  · simp only [run]
    split
    · exact sound
    · exact .addAll h sound

theorem regular_removeTable {n : Nat} (name : String) : Regular n (.removeTable name) := by
  refine .of_silent (fun db parameters => ?_) (fun db parameters sound => ?_)
  · simp only [run, Outcome.checked]
    repeat' split
    all_goals rfl
  · have emptied := sound.changeTable name (f := fun t => { t with rows := [] }) fun _ h => h
    simp only [run, Outcome.checked]
    split
    · split
      · exact sound
      · exact emptied
    · exact sound.filter _

theorem regular_removeView {n : Nat} (name : String) : Regular n (.removeView name) :=
  .of_silent (fun _ _ => rfl) fun _ _ sound => sound.filter _

theorem regular_removeIndex {n : Nat} (name : String) : Regular n (.removeIndex name) :=
  .of_silent (fun _ _ => rfl) fun _ _ sound => sound.filter _

theorem regular_setVersion {n : Nat} (v : Int32) : Regular n (.setVersion v) :=
  .of_silent (fun _ _ => rfl) fun _ _ sound => sound

theorem regular_nothing {n : Nat} : Regular n .nothing :=
  .of_silent (fun _ _ => rfl) fun _ _ sound => sound

theorem regular_readVersion : Regular 1 .readVersion where
  wide db parameters row hrow := by
    rw [List.mem_singleton.1 hrow]
    rfl
  silent none := absurd none Nat.one_ne_zero
  sound _ _ sound := sound

end Action

/-! ## Statements -/

namespace Prepared

def Regular (p : Prepared) : Prop := p.action.Regular p.columns.length

/-- Statements that answer with results for the rows they change. -/
theorem Regular.of_outputs {p : Prepared} {outputs : List Output}
    (named : p.columns = outputNames outputs)
    (h : p.action.Regular (outputTerms outputs).length) : p.Regular := by
  unfold Regular
  rw [named]
  simpa only [outputNames, outputTerms, List.length_map] using h

theorem yields_insert {a : InsertAction} {outputs : List Output}
    (h : a.returning = outputTerms outputs) :
    Yields Regular (.ok { action := .insert a, columns := outputNames outputs }
      : Except SqlError Prepared) :=
  .pure (.of_outputs rfl (h ▸ (Action.changesRows_insert a).regular))

theorem insertion_regular (db : Database) (i : Insertion) : Yields Regular (insertion db i) := by
  simp only [insertion]
  refine .bind fun t => .bind fun places => ?_
  -- every way through the checks that are left ends with an insertion
  repeat' first
    | exact .error _
    | exact yields_insert rfl
    | refine Yields.bind fun _ => ?_
    | split

theorem updating_regular (db : Database) (name : String) (sets : List (String × Expr))
    (filter : Option Expr) (returning : List ResultColumn) :
    Yields Regular (updating db name sets filter returning) :=
  .bind fun _ => .bind fun _ => .bind fun _ => .bind fun _ => .bind fun _ =>
    .pure (.of_outputs rfl (Action.changesRows_update _ _ _ _).regular)

theorem deleting_regular (db : Database) (name : String) (filter : Option Expr)
    (returning : List ResultColumn) : Yields Regular (deleting db name filter returning) :=
  .bind fun _ => .bind fun _ => .bind fun _ => .bind fun _ =>
    .pure (.of_outputs rfl (Action.changesRows_delete _ _ _).regular)

theorem tableEntries_sound {d : TableDef} (h : d.columns ≠ []) :
    ∀ e ∈ tableEntries d, e.Sound := by
  intro e he
  rcases List.mem_cons.1 he with rfl | he
  · simpa only [Entry.Sound, ne_eq, List.map_eq_nil_iff] using h
  · obtain ⟨⟨columns, i⟩, -, rfl⟩ := List.mem_map.1 he
    exact trivial

theorem creatingTable_regular (db : Database) (ifMissing : Bool) (offset : Nat) {d : TableDef}
    (h : d.columns ≠ []) : Yields Regular (creatingTable db ifMissing offset d) := by
  refine .bind fun there => ?_
  split
  · exact .pure Action.regular_nothing
  · split
    · exact .error _
    · exact .pure (Action.regular_add (tableEntries_sound h))

theorem creatingIndex_regular (db : Database) (ifMissing unique : Bool) (name table : String)
    (columns : List (String × Nat)) (text : String) :
    Yields Regular (creatingIndex db ifMissing unique name table columns text) := by
  unfold creatingIndex
  split
  · split
    · exact .error _
    · split <;> exact .error _
  · refine .bind fun _ => ?_
    split
    · exact .error _
    · split
      · split
        · exact .pure Action.regular_nothing
        · exact .error _
      · refine .bind fun places => .pure (Action.regular_add fun e he => ?_)
        rw [List.mem_singleton.1 he]
        exact trivial

theorem creatingView_regular (db : Database) (ifMissing : Bool) (offset : Nat) (name : String)
    (columns : List String) {s : Select} (h : s.HasColumns) (text : String) :
    Yields Regular (creatingView db ifMissing offset name columns s text) := by
  refine .bind fun there => ?_
  split
  · exact .pure Action.regular_nothing
  · refine .pure (Action.regular_add fun e he => ?_)
    rw [List.mem_singleton.1 he]
    exact h

theorem droppingTable_regular (db : Database) (ifThere : Bool) (name : String) :
    Yields Regular (droppingTable db ifThere name) := by
  unfold droppingTable
  repeat' split
  all_goals first
    | exact .error _
    | exact .pure Action.regular_nothing
    | exact .pure (Action.regular_removeTable _)

theorem droppingView_regular (db : Database) (ifThere : Bool) (name : String) :
    Yields Regular (droppingView db ifThere name) := by
  unfold droppingView
  repeat' split
  all_goals first
    | exact .error _
    | exact .pure Action.regular_nothing
    | exact .pure (Action.regular_removeView _)

theorem droppingIndex_regular (db : Database) (ifThere : Bool) (name : String) :
    Yields Regular (droppingIndex db ifThere name) := by
  unfold droppingIndex
  repeat' split
  all_goals first
    | exact .error _
    | exact .pure Action.regular_nothing
    | exact .pure (Action.regular_removeIndex _)

theorem ofStatement_regular {db : Database} (sound : db.Sound) {s : Statement} (h : s.HasColumns) :
    Yields Regular (ofStatement db s) := by
  cases s with
  | select s =>
    refine (query_fits sound h).bind_of fun q hq => .pure ?_
    simpa only [Regular, Query.names, List.length_map] using Action.regular_query hq
  | createTable ifMissing offset d => exact creatingTable_regular db ifMissing offset h
  | createIndex ifMissing unique name table columns text =>
    exact creatingIndex_regular db ifMissing unique name table columns text
  | createView ifMissing offset name columns s text =>
    exact creatingView_regular db ifMissing offset name columns h text
  | insert i => exact insertion_regular db i
  | update table sets filter returning => exact updating_regular db table sets filter returning
  | delete table filter returning => exact deleting_regular db table filter returning
  | dropTable ifThere name => exact droppingTable_regular db ifThere name
  | dropView ifThere name => exact droppingView_regular db ifThere name
  | dropIndex ifThere name => exact droppingIndex_regular db ifThere name
  | readVersion => exact .pure Action.regular_readVersion
  | setVersion n => exact .pure (Action.regular_setVersion n)
  | otherSetting => exact .pure Action.regular_nothing

end Prepared

/-! ## Texts -/

section Texts

variable {db : Database} {text : String} {p : Prepared}

theorem prepareFirst_regular {rest : String} (sound : db.Sound)
    (h : prepareFirst db text = .ok (some p, rest)) : p.Regular := by
  simp only [prepareFirst] at h
  split at h
  · cases h
  · split at h
    · cases h
    · split at h
      · cases h
      · rename_i s reading hs
        split at h
        · cases h
        · rename_i q hq
          cases h
          have asked : s.HasColumns := Parser.statement_hasColumns _ (s, reading) hs
          exact Prepared.ofStatement_regular sound asked q hq

theorem prepareFrom_regular (fuel : Nat) (sound : db.Sound)
    (h : prepareFrom db fuel text = .ok (some p)) : p.Regular := by
  cases fuel with
  | zero => cases h
  | succ fuel =>
    simp only [prepareFrom] at h
    split at h
    · cases h
    · rename_i q rest hq
      have key : q = some p := by
        split at h
        · cases h; rfl
        · split at h <;> cases h
          rfl
      subst key
      exact prepareFirst_regular sound hq

/-- The rows of a statement are as wide as it has columns, and there are none without columns. A
sound database is sound after it, also if it has been prepared for another one. -/
theorem prepare_regular (sound : db.Sound) (h : prepare db text = .ok (some p)) : p.Regular :=
  prepareFrom_regular _ sound h

theorem runAllFrom_sound (fuel : Nat) :
    ∀ (db : Database) (text : String), db.Sound → (runAllFrom fuel db text).2.Sound := by
  induction fuel with
  | zero => intro db text sound; exact sound
  | succ fuel ih =>
    intro db text sound
    simp only [runAllFrom]
    split
    · exact sound
    · exact sound
    · rename_i p rest hp
      have after := (prepareFirst_regular sound hp).sound db [] sound
      split
      · exact after
      · exact ih _ rest after

theorem runAll_sound (sound : db.Sound) (text : String) : (runAll db text).2.Sound :=
  runAllFrom_sound _ db text sound

end Texts

end LogConsole.Sql
