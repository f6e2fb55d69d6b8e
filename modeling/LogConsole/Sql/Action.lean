import LogConsole.Sql.Query

/-!
# LogConsole.Sql.Action

What a statement does to a database.

* `Action`  — a query, or a change;
* `Outcome` — the rows that come out, and the database afterwards;
* `Table.insertRow`, `Table.changeRow` — one row, checked against the rules of its table;
* `violations` — how many rows refer to a row that is not there;
* `Action.run` — a change that fails, or that leaves more such rows than it found, changes
  nothing.
-/

namespace LogConsole.Sql

structure InsertAction where
  table : String
  /-- For each column of the table, the place of its value among those given. -/
  places : List (Option Nat)
  /-- The place of the row's number, if it is given by that name. -/
  numberPlace : Option Nat
  rows : List (List Term)
  /-- The columns of the key and what happens to a row that has it, if rows may clash. -/
  conflict : Option (List Nat × List (Option Nat × Term)) := none
  returning : List Term := []

inductive Action where
  | query (p : Plan)
  | insert (a : InsertAction)
  /-- Assignments are to a column, or to the number of the row. -/
  | update (table : String) (assignments : List (Option Nat × Term)) (filter : Option Term)
      (returning : List Term)
  | delete (table : String) (filter : Option Term) (returning : List Term)
  | add (entries : List Entry)
  | removeTable (name : String)
  | removeView (name : String)
  | removeIndex (name : String)
  | readVersion
  | setVersion (n : Int32)
  | nothing
  deriving Inhabited

structure Outcome where
  rows : Rows := {}
  database : Database

/-! ## Keys -/

namespace Table

def columnName (t : Table) (i : Nat) : String := ((t.columns[i]?).map (·.name)).getD "rowid"

def affinityOf (t : Table) (i : Nat) : Affinity :=
  match t.columns[i]? with
  | some c => c.affinity
  | none => .integer

def qualifiedName (t : Table) (i : Nat) : String := t.name ++ "." ++ t.columnName i

def uniqueFailure (t : Table) (columns : List Nat) : String :=
  "UNIQUE constraint failed: " ++ ", ".intercalate (columns.map t.qualifiedName)

/-- The columns named by the number of a row. -/
def numberKey (t : Table) : List Nat := [t.numberColumn.getD t.columns.length]

def sameKey (columns : List Nat) (a b : List Value) : Bool :=
  let key := pick columns a
  !key.any Value.isNull && compareKeys (columns.map fun _ => false) key (pick columns b) == .eq

/-- The first key that a row shares with another one, and that one. The number of a row is a key,
and goes before the others. -/
def clash? (t : Table) (indexes : List Index) (others : List Row) (r : Row) :
    Option (List Nat × Row) :=
  match others.find? fun s => s.number == r.number with
  | some s => some (t.numberKey, s)
  | none =>
    (indexes.filter (·.unique)).findSome? fun i =>
      (others.find? fun s => sameKey i.columns r.values s.values).map fun s => (i.columns, s)

/-! ## Values -/

def missingValue? (t : Table) (values : List Value) : Option String :=
  let missing := (t.columns.zip values).find? fun (c, v) => c.notNull && v.isNull
  missing.map fun (c, _) => "NOT NULL constraint failed: " ++ t.name ++ "." ++ c.name

/-- The number that a value gives to a row, if it is a whole number. -/
def numberOf? (v : Value) : Option Int :=
  match Affinity.apply .integer v with
  | .integer n => some n.toInt
  | _ => none

/-- A row with the values as they are stored. The number is the value of the column for it, or
`given`, or `next`. -/
def storedRow (t : Table) (given : Option Value) (next : Int) (values : List Value) :
    Except String Row :=
  let values := List.zipWith (fun (c : Column) v => c.affinity.apply v) t.columns values
  let chosen := match t.numberColumn with
    | some i => given.orElse fun _ => values[i]?
    | none => given
  let number := match chosen with
    | none => some next
    | some .null => some next
    | some v => numberOf? v
  match number with
  | none => .error "datatype mismatch"
  | some n =>
    let values := match t.numberColumn with
      | some i => values.set i (Value.ofInt n)
      | none => values
    match t.missingValue? values with
    | some e => .error e
    | none => .ok ⟨n, values⟩

/-- Puts values in the places of others. -/
def assign (values : List Value) : List (Option Nat × Value) → List Value × Option Value
  | [] => (values, none)
  | (some i, v) :: rest => assign (values.set i v) rest
  | (none, v) :: rest => ((assign values rest).1, some v)

/-- Puts a changed row in the place of an old one. -/
def changeRow (t : Table) (indexes : List Index) (old : Row) (changes : List (Option Nat × Value)) :
    Except String (Table × Row) :=
  let (values, number) := assign old.values changes
  let given := match number, t.numberColumn with
    | some v, _ => some v
    | none, some i => values[i]?
    | none, none => some (Value.ofInt old.number)
  match given with
  | some .null => .error "datatype mismatch"
  | given =>
    match t.storedRow given old.number values with
    | .error e => .error e
    | .ok row =>
      let others := t.rows.filter fun s => s.number != old.number
      match t.clash? indexes others row with
      | some (columns, _) => .error (t.uniqueFailure columns)
      | none => .ok ({ t with rows := putRow row others }, row)

end Table

def evalChanges (b : Bindings) : List (Option Nat × Term) →
    Except String (List (Option Nat × Value))
  | [] => .ok []
  | (i, t) :: rest =>
    match t.eval b with
    | .error e => .error e
    | .ok v =>
      match evalChanges b rest with
      | .error e => .error e
      | .ok vs => .ok ((i, v) :: vs)

/-! ## Rows -/

namespace InsertAction

def valueAt (given : List Value) (place : Option Nat) (default : Value) : Value :=
  match place with
  | some i => given.getD i .null
  | none => default

/-- Whether rows that clash in a key are to be changed instead. -/
def accepts (a : InsertAction) (t : Table) (key : List Nat) : Option (List (Option Nat × Term)) :=
  match a.conflict with
  | some (columns, changes) =>
    if columns.isEmpty || (columns.all key.contains && key.all columns.contains)
        || (key == t.numberKey && columns == [t.columns.length]) then some changes
    else none
  | none => none

/-- Inserts a row, or changes the one it clashes with. No row comes out if nothing happens. -/
def insertRow (a : InsertAction) (parameters : List Value) (indexes : List Index) (t : Table)
    (terms : List Term) : Except String (Table × Option Row) :=
  match Term.evalAll ⟨parameters, [], []⟩ terms with
  | .error e => .error e
  | .ok given =>
    let values := List.zipWith (fun (c : Column) p => valueAt given p c.default) t.columns a.places
    match t.storedRow (a.numberPlace.map fun i => given.getD i .null) t.nextNumber values with
    | .error e => .error e
    | .ok row =>
      match t.clash? indexes t.rows row with
      | none => .ok ({ t with rows := Table.putRow row t.rows }, some row)
      | some (key, old) =>
        match a.accepts t key with
        | none => .error (t.uniqueFailure key)
        | some [] => .ok (t, none)
        | some changes =>
          match evalChanges ⟨parameters, numbered old ++ numbered row, []⟩ changes with
          | .error e => .error e
          | .ok changes =>
            match t.changeRow indexes old changes with
            | .error e => .error e
            | .ok (t, row) => .ok (t, some row)

/-- Inserts rows one after the other. -/
def insertRows (a : InsertAction) (parameters : List Value) (indexes : List Index) (t : Table) :
    List (List Term) → Except String (Table × List Row)
  | [] => .ok (t, [])
  | terms :: rest =>
    match a.insertRow parameters indexes t terms with
    | .error e => .error e
    | .ok (t, row) =>
      match insertRows a parameters indexes t rest with
      | .error e => .error e
      | .ok (t, rows) => .ok (t, row.toList ++ rows)

end InsertAction

/-- The rows for which a condition holds. -/
def rowsWhere (parameters : List Value) (filter : Option Term) : List Row → Except String (List Row)
  | [] => .ok []
  | r :: rest =>
    match Term.holds ⟨parameters, numbered r, []⟩ filter with
    | .error e => .error e
    | .ok b =>
      match rowsWhere parameters filter rest with
      | .error e => .error e
      | .ok rows => .ok (if b then r :: rows else rows)

/-- Changes rows one after the other. -/
def changeRows (parameters : List Value) (indexes : List Index)
    (assignments : List (Option Nat × Term)) (t : Table) :
    List Row → Except String (Table × List Row)
  | [] => .ok (t, [])
  | old :: rest =>
    match evalChanges ⟨parameters, numbered old, []⟩ assignments with
    | .error e => .error e
    | .ok changes =>
      match t.changeRow indexes old changes with
      | .error e => .error e
      | .ok (t, row) =>
        match changeRows parameters indexes assignments t rest with
        | .error e => .error e
        | .ok (t, rows) => .ok (t, row :: rows)

/-- The outputs for rows that have been changed. -/
def returned (parameters : List Value) (outputs : List Term) (rows : List Row) :
    Except String (List (List Value)) :=
  match outputs with
  | [] => .ok []
  | _ => rows.mapM fun r => Term.evalAll ⟨parameters, numbered r, []⟩ outputs

/-! ## References -/

/-- The columns that a reference is to. -/
def parentColumns (db : Database) (parent : Table) (k : ForeignKey) : List Nat :=
  if k.parentColumns.isEmpty then
    match parent.numberColumn with
    | some i => [i]
    | none =>
      match (db.indexesOf parent.name).reverse.find? (·.unique) with
      | some i => i.columns
      | none => []
  else k.parentColumns.filterMap parent.columnIndex?

/-- Whether a row has the values that a reference is to. -/
def isParent (parent : Table) (columns : List Nat) (key : List Value) (r : Row) : Bool :=
  let affine := List.zipWith (fun i v => (parent.affinityOf i).apply v) columns key
  compareKeys (columns.map fun _ => false) affine (Table.pick columns r.values) == .eq

/-- How many rows of a table refer to a row that is not there. -/
def violationsOf (db : Database) (t : Table) (k : ForeignKey) : Nat :=
  let columns := k.columns.filterMap t.columnIndex?
  let found (key : List Value) : Bool :=
    match db.table? k.parent with
    | none => false
    | some parent =>
      let places := parentColumns db parent k
      parent.rows.any (isParent parent places key)
  (t.rows.filter fun r =>
    let key := Table.pick columns r.values
    !key.any Value.isNull && !found key).length

def violations (db : Database) : Nat :=
  (db.entries.filterMap Entry.asTable?).foldl
    (fun n t => t.parents.foldl (fun n k => n + violationsOf db t k) n) 0

/-! ## Running -/

namespace Outcome

def fail (db : Database) (text : String) : Outcome := ⟨Rows.fail text, db⟩

/-- A database in place of an old one, unless more rows refer to what is not there. -/
def checked (old new : Database) (rows : List (List Value)) : Outcome :=
  if violations old < violations new then fail old "FOREIGN KEY constraint failed"
  else ⟨⟨rows, none⟩, new⟩

end Outcome

namespace Action

/-- A change of one table, with the rows that it has changed. -/
def changing (db : Database) (parameters : List Value) (name : String) (outputs : List Term)
    (change : Table → List Index → Except String (Table × List Row)) : Outcome :=
  match db.table? name with
  | none => .fail db ("no such table: " ++ name)
  | some t =>
    match change t (db.indexesOf name) with
    | .error e => .fail db e
    | .ok (new, rows) =>
      match returned parameters outputs rows with
      | .error e => .fail db e
      | .ok made => .checked db (db.changeTable name fun _ => new) made

/-- The first unique index that two rows of its table have the same values in. -/
def clashing? (db : Database) (e : Entry) : Option String :=
  match e with
  | .index i =>
    match db.table? i.table with
    | none => none
    | some t =>
      if i.unique && t.rows.any fun r => t.rows.any fun s =>
          s.number != r.number && Table.sameKey i.columns r.values s.values then
        some (t.uniqueFailure i.columns)
      else none
  | _ => none

def run (db : Database) (parameters : List Value) : Action → Outcome
  | .query p => ⟨p.run db parameters, db⟩
  | .insert a =>
    changing db parameters a.table a.returning fun t indexes =>
      a.insertRows parameters indexes t a.rows
  | .update name assignments filter outputs =>
    changing db parameters name outputs fun t indexes =>
      match rowsWhere parameters filter t.rows with
      | .error e => .error e
      | .ok rows => changeRows parameters indexes assignments t rows
  | .delete name filter outputs =>
    changing db parameters name outputs fun t _ =>
      match rowsWhere parameters filter t.rows with
      | .error e => .error e
      | .ok rows =>
        let gone := rows.map (·.number)
        .ok ({ t with rows := t.rows.filter fun r => !gone.contains r.number }, rows)
  | .add entries =>
    match entries.findSome? (clashing? db) with
    | some e => .fail db e
    | none => ⟨{}, entries.foldl Database.add db⟩
  | .removeTable name =>
    let emptied := db.changeTable name fun t => { t with rows := [] }
    let outcome := Outcome.checked db emptied []
    match outcome.rows.failure with
    | some _ => outcome
    | none => ⟨{}, db.removeAll name⟩
  | .removeView name => ⟨{}, db.removeAll name⟩
  | .removeIndex name => ⟨{}, db.removeIndex name⟩
  | .readVersion => ⟨⟨[[.integer db.userVersion.toInt64]], none⟩, db⟩
  | .setVersion n => ⟨{}, { db with userVersion := n }⟩
  | .nothing => ⟨{}, db⟩

end Action

end LogConsole.Sql
