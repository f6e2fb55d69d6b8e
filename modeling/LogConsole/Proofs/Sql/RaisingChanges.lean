import LogConsole.Proofs.Sql.Raising

/-!
# LogConsole.Proofs.Sql.RaisingChanges

Changes that come to a call of `raise_error`, and statements of all kinds.

* `InsertAction.RowRaises` — the values of a row, or what happens to a row that it clashes with;
* `Action.Raises`          — the evaluation of a statement comes to such a call;
* `Action.run_of_raises`   — it fails with what the function says, and the database stays as it is.
-/

namespace LogConsole.Sql

variable {ps args : List Value}

/-! ## Parts of a change -/

theorem evalChanges_of_raises {b : Bindings} {changes : List (Option Nat × Term)}
    (h : Term.RaisesAmong b args (changes.map (·.2))) :
    evalChanges b changes = .error (Function.raised args) := by
  have failed := Term.evalAll_of_raises h
  clear h
  induction changes with
  | nil => cases failed
  | cons change changes ih =>
    simp only [List.map_cons, Term.evalAll] at failed
    simp only [evalChanges]
    cases hv : change.2.eval b with
    | error e =>
      rw [hv] at failed
      cases failed
      rfl
    | ok v =>
      rw [hv] at failed
      dsimp only at failed ⊢
      split at failed
      · cases failed
        rw [ih ‹_›]
      · cases failed

/-- The condition of a change comes to a call of `raise_error` in one of the rows. -/
def ConditionRaises (ps args : List Value) (filter : Option Term) (rows : List Row) : Prop :=
  ∃ before r after, rows = before ++ r :: after ∧
    (∀ x ∈ before, ∃ h, Term.holds ⟨ps, numbered x, []⟩ filter = .ok h) ∧
    Term.RaisesAmong ⟨ps, numbered r, []⟩ args filter.toList

theorem rowsWhere_of_raises {filter : Option Term} {rows : List Row}
    (h : ConditionRaises ps args filter rows) :
    rowsWhere ps filter rows = .error (Function.raised args) := by
  obtain ⟨before, r, after, rfl, hb, h⟩ := h
  induction before with
  | nil => simp only [List.nil_append, rowsWhere, Term.holds_of_raises h]
  | cons first before ih =>
    obtain ⟨b, hh⟩ := hb first List.mem_cons_self
    simp only [List.cons_append, rowsWhere, hh, ih fun x hx => hb x (List.mem_cons_of_mem _ hx)]

/-- What is to come out of a change comes to a call of `raise_error` in one of the rows. -/
def ReturningRaises (ps args : List Value) (outputs : List Term) (rows : List Row) : Prop :=
  ∃ before r after, rows = before ++ r :: after ∧
    (∀ x ∈ before, Term.Succeed ⟨ps, numbered x, []⟩ outputs) ∧
    Term.RaisesAmong ⟨ps, numbered r, []⟩ args outputs

theorem returned_of_raises {outputs : List Term} {rows : List Row}
    (h : ReturningRaises ps args outputs rows) :
    returned ps outputs rows = .error (Function.raised args) := by
  obtain ⟨before, r, after, rfl, hb, h⟩ := h
  have some : outputs ≠ [] := by
    rintro rfl
    obtain ⟨_, _, _, he, -⟩ := h
    simp at he
  rw [returned]
  · induction before with
    | nil =>
      rw [List.nil_append, List.mapM_cons, Term.evalAll_of_raises h]
      rfl
    | cons first before ih =>
      obtain ⟨vs, hv⟩ := hb first List.mem_cons_self
      rw [List.cons_append, List.mapM_cons, hv, ih fun x hx => hb x (List.mem_cons_of_mem _ hx)]
      rfl
  · exact some

namespace InsertAction

/-- The values as they are to be stored, with the defaults of columns that are not named. -/
def stored (a : InsertAction) (t : Table) (given : List Value) : Except String Row :=
  t.storedRow (a.numberPlace.map fun i => given.getD i .null) t.nextNumber
    (List.zipWith (fun (c : Column) p => valueAt given p c.default) t.columns a.places)

/-- Inserting a row comes to a call of `raise_error`: in its values, or in the change that is made
to the row it clashes with. -/
inductive RowRaises (ps args : List Value) (a : InsertAction) (indexes : List Index) (t : Table)
    (terms : List Term) : Prop where
  | value (h : Term.RaisesAmong ⟨ps, [], []⟩ args terms)
  | change {given : List Value} {row old : Row} {key : List Nat} {changes : List (Option Nat × Term)}
      (hg : Term.evalAll ⟨ps, [], []⟩ terms = .ok given) (hr : a.stored t given = .ok row)
      (hc : t.clash? indexes t.rows row = some (key, old)) (ha : a.accepts t key = some changes)
      (h : Term.RaisesAmong ⟨ps, numbered old ++ numbered row, []⟩ args (changes.map (·.2)))

theorem insertRow_of_raises {a : InsertAction} {indexes : List Index} {t : Table}
    {terms : List Term} (h : a.RowRaises ps args indexes t terms) :
    a.insertRow ps indexes t terms = .error (Function.raised args) := by
  cases h with
  | value h => simp only [insertRow, Term.evalAll_of_raises h]
  | @change given row old key changes hg hr hc ha h =>
    rw [stored] at hr
    cases changes with
    | nil =>
      obtain ⟨_, _, _, he, -⟩ := h
      simp at he
    | cons change changes =>
      simp only [insertRow, hg, hr, hc, ha, evalChanges_of_raises h]

theorem insertRows_of_raises {a : InsertAction} {indexes : List Index} {t u : Table}
    {before after : List (List Term)} {terms : List Term} {made : List Row}
    (hb : a.insertRows ps indexes t before = .ok (u, made))
    (h : a.RowRaises ps args indexes u terms) :
    a.insertRows ps indexes t (before ++ terms :: after) = .error (Function.raised args) := by
  induction before generalizing t made with
  | nil =>
    cases hb
    simp only [List.nil_append, insertRows, insertRow_of_raises h]
  | cons first before ih =>
    simp only [insertRows] at hb
    simp only [List.cons_append, insertRows]
    split at hb
    · cases hb
    · split at hb
      · cases hb
      · rename_i hl
        cases hb
        simp only [ih hl]

end InsertAction

theorem changeRows_of_raises {indexes : List Index} {assignments : List (Option Nat × Term)}
    {t u : Table} {before after made : List Row} {old : Row}
    (hb : changeRows ps indexes assignments t before = .ok (u, made))
    (h : Term.RaisesAmong ⟨ps, numbered old, []⟩ args (assignments.map (·.2))) :
    changeRows ps indexes assignments t (before ++ old :: after)
      = .error (Function.raised args) := by
  induction before generalizing t made with
  | nil => simp only [List.nil_append, changeRows, evalChanges_of_raises h]
  | cons first before ih =>
    simp only [changeRows] at hb
    simp only [List.cons_append, changeRows]
    split at hb
    · cases hb
    · split at hb
      · cases hb
      · split at hb
        · cases hb
        · rename_i hl
          cases hb
          simp only [ih hl]

/-! ## Statements -/

namespace Action

/-- The run of a statement comes to a call of `raise_error` with these arguments. -/
inductive Raises (db : Database) (ps args : List Value) : Action → Prop where
  | query {p : Plan} (h : p.Raises db ps args) : Raises db ps args (.query p)
  | insert {a : InsertAction} {t u : Table} {before after : List (List Term)} {terms : List Term}
      {made : List Row} (ht : db.table? a.table = some t) (hr : a.rows = before ++ terms :: after)
      (hb : a.insertRows ps (db.indexesOf a.table) t before = .ok (u, made))
      (h : a.RowRaises ps args (db.indexesOf a.table) u terms) : Raises db ps args (.insert a)
  | insertReturning {a : InsertAction} {t u : Table} {rows : List Row}
      (ht : db.table? a.table = some t)
      (hr : a.insertRows ps (db.indexesOf a.table) t a.rows = .ok (u, rows))
      (h : ReturningRaises ps args a.returning rows) : Raises db ps args (.insert a)
  | updateCondition {name : String} {assignments : List (Option Nat × Term)} {filter : Option Term}
      {outputs : List Term} {t : Table} (ht : db.table? name = some t)
      (h : ConditionRaises ps args filter t.rows) :
      Raises db ps args (.update name assignments filter outputs)
  | update {name : String} {assignments : List (Option Nat × Term)} {filter : Option Term}
      {outputs : List Term} {t u : Table} {before after made : List Row} {old : Row}
      (ht : db.table? name = some t)
      (hw : rowsWhere ps filter t.rows = .ok (before ++ old :: after))
      (hb : changeRows ps (db.indexesOf name) assignments t before = .ok (u, made))
      (h : Term.RaisesAmong ⟨ps, numbered old, []⟩ args (assignments.map (·.2))) :
      Raises db ps args (.update name assignments filter outputs)
  | updateReturning {name : String} {assignments : List (Option Nat × Term)} {filter : Option Term}
      {outputs : List Term} {t u : Table} {found rows : List Row} (ht : db.table? name = some t)
      (hw : rowsWhere ps filter t.rows = .ok found)
      (hr : changeRows ps (db.indexesOf name) assignments t found = .ok (u, rows))
      (h : ReturningRaises ps args outputs rows) :
      Raises db ps args (.update name assignments filter outputs)
  | deleteCondition {name : String} {filter : Option Term} {outputs : List Term} {t : Table}
      (ht : db.table? name = some t) (h : ConditionRaises ps args filter t.rows) :
      Raises db ps args (.delete name filter outputs)
  | deleteReturning {name : String} {filter : Option Term} {outputs : List Term} {t : Table}
      {rows : List Row} (ht : db.table? name = some t)
      (hw : rowsWhere ps filter t.rows = .ok rows)
      (h : ReturningRaises ps args outputs rows) : Raises db ps args (.delete name filter outputs)

variable {db : Database} {name e : String} {outputs : List Term} {t : Table}
  {change : Table → List Index → Except String (Table × List Row)}

theorem changing_fails (ht : db.table? name = some t)
    (h : change t (db.indexesOf name) = .error e) :
    changing db ps name outputs change = .fail db e := by
  simp only [changing, ht, h]

theorem changing_returning {u : Table} {rows : List Row} (ht : db.table? name = some t)
    (hc : change t (db.indexesOf name) = .ok (u, rows)) (h : ReturningRaises ps args outputs rows) :
    changing db ps name outputs change = .fail db (Function.raised args) := by
  simp only [changing, ht, hc, returned_of_raises h]

/-- A statement whose run comes to a call of `raise_error` fails with what that says. -/
theorem run_of_raises {a : Action} (h : a.Raises db ps args) :
    (a.run db ps).rows.failure = some (Function.raised args) ∧ (a.run db ps).database = db := by
  have failed {o : Outcome} (ho : o = .fail db (Function.raised args)) :
      o.rows.failure = some (Function.raised args) ∧ o.database = db := by
    rw [ho]
    exact ⟨rfl, rfl⟩
  cases h with
  | query h => exact ⟨Plan.run_of_raises h, rfl⟩
  | insert ht hr hb h =>
    apply failed
    rw [run, changing_fails ht]
    rw [hr]
    exact InsertAction.insertRows_of_raises hb h
  | insertReturning ht hr h =>
    apply failed
    rw [run, changing_returning ht hr h]
  | updateCondition ht h =>
    apply failed
    rw [run, changing_fails ht]
    simp only [rowsWhere_of_raises h]
  | update ht hw hb h =>
    apply failed
    rw [run, changing_fails ht]
    simp only [hw, changeRows_of_raises hb h]
  | updateReturning ht hw hr h =>
    apply failed
    rw [run]
    exact changing_returning ht (by rw [hw]; exact hr) h
  | deleteCondition ht h =>
    apply failed
    rw [run, changing_fails ht]
    simp only [rowsWhere_of_raises h]
  | deleteReturning ht hw h =>
    apply failed
    rw [run]
    exact changing_returning ht (by rw [hw]) h

end Action

end LogConsole.Sql
