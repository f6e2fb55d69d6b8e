import LogConsole.Sql.Action

/-!
# LogConsole.Sql.Prepared

Statements that are ready to run.

* `Prepared`   — an action, the names of the columns that come out, the parameters, and whether
  the database stays as it is;
* `Prepared.ofStatement` — a statement against the tables there are;
* `prepareFirst` — the first statement of a text, and the text after it;
* `prepare`    — the only statement of a text; none if there is none. What follows it must hold no
  statement, and is refused first if it is not well formed;
* `runAll`     — the statements of a text one after the other, up to the first failure.
-/

namespace LogConsole.Sql

structure Prepared where
  action : Action := .nothing
  columns : List String := []
  /-- The names of the parameters, from the first on. -/
  parameters : List (Option String) := []
  readOnly : Bool := false

namespace Prepared

def error {α : Type} (text : String) : Except SqlError α := .error ⟨text, none⟩

/-! ## Changes of rows -/

/-- The table that a change is made to. A view cannot be changed, and one that cannot be read is
refused for that. -/
def target (db : Database) (name : String) : Except SqlError Table :=
  match db.table? name with
  | some t => .ok t
  | none =>
    if Database.isCatalog name then error ("table " ++ name ++ " may not be modified")
    else
      match db.view? name with
      | some v =>
        match query db (.single [.star] (.table (some "main") v.name none) none []) with
        | .error e => .error e
        | .ok _ => error ("cannot modify " ++ v.name ++ " because it is a view")
      | none => error ("no such table: " ++ name)

/-- The tables that a table refers to must be there. -/
def checkParents (db : Database) (parents : List ForeignKey) : Except SqlError Unit :=
  match parents.find? fun k => (db.table? k.parent).isNone with
  | some k => error ("no such table: main." ++ k.parent)
  | none => .ok ()

def returningOf (t : Table) (columns : List ResultColumn) : Except SqlError (List Output) :=
  match outputsOf (Scope.ofTable t t.name) columns {} with
  | .ok (outputs, _) => .ok outputs
  | .error e => .error e

def outputTerms (outputs : List Output) : List Term := outputs.map (·.resolved.term)

def outputNames (outputs : List Output) : List String := outputs.map (·.name)

/-- The column of a table, or none for the number of its rows. -/
def place (t : Table) (name : String) (missing : String) : Except SqlError (Option Nat) :=
  match t.columnIndex? name with
  | some i => .ok (some i)
  | none =>
    if Scope.numberNames.any (sameName name) then .ok none
    else error missing

def assignments (s : Scope) (t : Table) : List (String × Expr) →
    Except SqlError (List (Option Nat × Term))
  | [] => .ok []
  | (name, e) :: rest => do
    let term ← resolvePlain s e
    let i ← place t name ("no such column: " ++ name)
    return (i, term) :: (← assignments s t rest)

/-- The columns of a table and of the row that was to be inserted. -/
def conflictScope (t : Table) : Scope :=
  { columns := Scope.columnsOf t.name false t.columns t.numberColumn 0
      ++ Scope.columnsOf "excluded" true t.columns t.numberColumn (t.columns.length + 1) }

def sameColumns (a b : List Nat) : Bool := a.all b.contains && b.all a.contains

def isKey (db : Database) (t : Table) (columns : List Nat) : Bool :=
  columns.isEmpty || sameColumns columns t.numberKey
    || (db.indexesOf t.name).any fun i => i.unique && sameColumns columns i.columns

def conflictOf (db : Database) (t : Table) (columns : List String) (c : Conflict) :
    Except SqlError (List Nat × List (Option Nat × Term)) := do
  let places ← columns.mapM fun name => place t name ("no such column: " ++ name)
  let key := places.map (·.getD t.columns.length)
  if isKey db t key then
    match c with
    | .nothing => return (key, [])
    | .update sets => return (key, ← assignments (conflictScope t) t sets)
  else error "ON CONFLICT clause does not match any PRIMARY KEY or UNIQUE constraint"

def insertion (db : Database) (i : Insertion) : Except SqlError Prepared := do
  let t ← target db i.table
  let shown := Resolver.columnText i.schema i.table
  let places ← i.columns.mapM fun name =>
    place t name ("table " ++ shown ++ " has no column named " ++ name)
  let width := (i.rows.headD []).length
  if i.rows.any fun r => r.length != width then
    error "all VALUES must have the same number of terms"
  let rows ← i.rows.mapM (resolvePlainAll {})
  if places.isEmpty then
    if width != t.columns.length then
      error ("table " ++ shown ++ " has " ++ toString t.columns.length ++ " columns but "
        ++ toString width ++ " values were supplied")
  else if width != places.length then
    error (toString width ++ " values for " ++ toString places.length ++ " columns")
  let columns := (List.range t.columns.length).map fun c =>
    if places.isEmpty then some c else places.findIdx? (· == some c)
  let conflict ← match i.conflict with
    | none => pure none
    | some (names, c) => do pure (some (← conflictOf db t names c))
  checkParents db t.parents
  let outputs ← returningOf t i.returning
  return {
    action := .insert ⟨t.name, columns, places.findIdx? (· == none), rows, conflict,
      outputTerms outputs⟩
    columns := outputNames outputs }

def updating (db : Database) (name : String) (sets : List (String × Expr)) (filter : Option Expr)
    (returning : List ResultColumn) : Except SqlError Prepared := do
  let t ← target db name
  let scope := Scope.ofTable t t.name
  let changes ← assignments scope t sets
  let condition ← filter.mapM (resolvePlain scope)
  checkParents db (t.parents.filter fun k => k.columns.any fun c => sets.any fun s => sameName s.1 c)
  let outputs ← returningOf t returning
  return {
    action := .update t.name changes condition (outputTerms outputs)
    columns := outputNames outputs }

def deleting (db : Database) (name : String) (filter : Option Expr)
    (returning : List ResultColumn) : Except SqlError Prepared := do
  let t ← target db name
  let condition ← filter.mapM (resolvePlain (Scope.ofTable t t.name))
  checkParents db t.parents
  let outputs ← returningOf t returning
  return {
    action := .delete t.name condition (outputTerms outputs)
    columns := outputNames outputs }

/-! ## Tables, indexes and views -/

def reservedStart : List Char := "sqlite_".toList

def checkReserved (name : String) : Except SqlError Unit :=
  if reservedStart.isPrefixOf (foldName name).toList then
    error ("object name reserved for internal use: " ++ name)
  else .ok ()

/-- What a name of a new table or view must not be; whether there is one already. -/
def checkNew (db : Database) (name : String) (offset : Nat) (ifMissing : Bool) :
    Except SqlError Bool := do
  checkReserved name
  let there (kind : String) : Except SqlError Bool :=
    if ifMissing then .ok true
    else .error ⟨kind ++ " " ++ name ++ " already exists", some offset⟩
  if (db.table? name).isSome then there "table"
  else if (db.view? name).isSome then there "view"
  else if (db.index? name).isSome then error ("there is already an index named " ++ name)
  else return false

/-- A table that is there already is refused before its columns are read. -/
def checkHead (db : Database) (reading : Reading) : Except SqlError Unit :=
  match Parser.newTable reading with
  | .error _ => .ok ()
  | .ok ((ifMissing, t), _) =>
    (checkNew db (Parser.plainText t) t.start ifMissing).map fun _ => ()

def columnWidth (type : String) : Nat :=
  match Affinity.ofType type with
  | .text => 5
  | .any => if type.isEmpty then 1 else 5
  | _ => 1

def columnOf (c : ColumnDef) : Column :=
  { name := c.name, affinity := Affinity.ofType c.type, width := columnWidth c.type,
    notNull := c.notNull, default := c.default }

def columnIndex? (columns : List ColumnDef) (name : String) : Option Nat :=
  columns.findIdx? fun c => sameName c.name name

/-- The column of a primary key that is the number of the row. -/
def numberColumn? (columns : List ColumnDef) (key : List Nat) : Option Nat :=
  match key with
  | [i] =>
    match columns[i]? with
    | some c => if sameName c.type "integer" then some i else none
    | none => none
  | _ => none

/-- The keys of a table that have an index, in the order of their declaration. -/
def declaredKeys (d : TableDef) (key : List Nat) : List (List Nat) :=
  let number := numberColumn? d.columns key
  let single := d.columns.zipIdx.flatMap fun (c, i) =>
    (if c.primaryKey && number.isNone then [[i]] else []) ++ (if c.unique then [[i]] else [])
  let whole := if d.primaryKey.isEmpty || number.isSome then [] else [key]
  single ++ whole ++ d.uniques.map fun names => names.filterMap (columnIndex? d.columns)

def distinctKeys : List (List Nat) → List (List Nat)
  | [] => []
  | k :: rest => k :: (distinctKeys rest).filter (· != k)

def tableEntries (d : TableDef) : List Entry :=
  let key := if d.primaryKey.isEmpty
    then (d.columns.zipIdx.filter (·.1.primaryKey)).map (·.2)
    else d.primaryKey.filterMap (columnIndex? d.columns)
  let table : Table :=
    { name := d.name, columns := d.columns.map columnOf, numberColumn := numberColumn? d.columns key,
      parents := (d.columns.flatMap (·.parents)) ++ d.parents, text := d.text }
  let indexes := (distinctKeys (declaredKeys d key)).zipIdx.map fun (columns, i) =>
    Entry.index { name := "sqlite_autoindex_" ++ d.name ++ "_" ++ toString (i + 1),
                  table := d.name, columns, unique := true, text := none }
  .table table :: indexes

/-- A name that comes again later. -/
def repeatedName? (seen : List String) : List String → Option String
  | [] => none
  | name :: rest =>
    if seen.any (sameName name) then some name else repeatedName? (name :: seen) rest

def creatingTable (db : Database) (ifMissing : Bool) (offset : Nat) (d : TableDef) :
    Except SqlError Prepared := do
  if ← checkNew db d.name offset ifMissing then return {}
  match repeatedName? [] (d.columns.map (·.name)) with
  | some name => error ("duplicate column name: " ++ name)
  | none => return { action := .add (tableEntries d) }

def creatingIndex (db : Database) (ifMissing unique : Bool) (name table : String)
    (columns : List (String × Nat)) (text : String) : Except SqlError Prepared := do
  match db.table? table with
  | none =>
    if Database.isCatalog table then error ("table " ++ table ++ " may not be indexed")
    else if (db.view? table).isSome then error "views may not be indexed"
    else error ("no such table: main." ++ table)
  | some t =>
    checkReserved name
    if (db.table? name).isSome || (db.view? name).isSome then
      error ("there is already a table named " ++ name)
    else if (db.index? name).isSome then
      if ifMissing then return {} else error ("index " ++ name ++ " already exists")
    else
      let places ← columns.mapM fun (c, offset) =>
        match t.columnIndex? c with
        | some i => Except.ok i
        | none => .error ⟨"no such column: " ++ c, some offset⟩
      return { action := .add [.index { name, table := t.name, columns := places, unique,
                                        text := some text }] }

def creatingView (db : Database) (ifMissing : Bool) (offset : Nat) (name : String)
    (columns : List String) (s : Select) (text : String) : Except SqlError Prepared := do
  if ← checkNew db name offset ifMissing then return {}
  else return { action := .add [.view ⟨name, columns, s, text⟩] }

def droppingTable (db : Database) (ifThere : Bool) (name : String) : Except SqlError Prepared :=
  match db.table? name with
  | some t => .ok { action := .removeTable t.name }
  | none =>
    match db.view? name with
    | some v => error ("use DROP VIEW to delete view " ++ v.name)
    | none =>
      if Database.isCatalog name then error ("table " ++ name ++ " may not be dropped")
      else if ifThere then .ok {}
      else error ("no such table: " ++ name)

def droppingView (db : Database) (ifThere : Bool) (name : String) : Except SqlError Prepared :=
  match db.view? name with
  | some v => .ok { action := .removeView v.name }
  | none =>
    match db.table? name with
    | some t => error ("use DROP TABLE to delete table " ++ t.name)
    | none => if ifThere then .ok {} else error ("no such view: " ++ name)

def droppingIndex (db : Database) (ifThere : Bool) (name : String) : Except SqlError Prepared :=
  match db.index? name with
  | some i =>
    match i.text with
    | some _ => .ok { action := .removeIndex i.name }
    | none => error "index associated with UNIQUE or PRIMARY KEY constraint cannot be dropped"
  | none => if ifThere then .ok {} else error ("no such index: " ++ name)

/-! ## Statements -/

def ofStatement (db : Database) : Statement → Except SqlError Prepared
  | .select s => do
    let q ← query db s
    return { action := .query q.plan, columns := q.names, readOnly := true }
  | .createTable ifMissing offset d => creatingTable db ifMissing offset d
  | .createIndex ifMissing unique name table columns text =>
    creatingIndex db ifMissing unique name table columns text
  | .createView ifMissing offset name columns s text =>
    creatingView db ifMissing offset name columns s text
  | .insert i => insertion db i
  | .update table sets filter returning => updating db table sets filter returning
  | .delete table filter returning => deleting db table filter returning
  | .dropTable ifThere name => droppingTable db ifThere name
  | .dropView ifThere name => droppingView db ifThere name
  | .dropIndex ifThere name => droppingIndex db ifThere name
  | .readVersion => .ok { action := .readVersion, columns := ["user_version"], readOnly := true }
  | .setVersion n => .ok { action := .setVersion n }
  | .otherSetting => .ok { readOnly := true }

def run (p : Prepared) (db : Database) (parameters : List Value) : Outcome :=
  p.action.run db parameters

end Prepared

/-! ## Texts -/

def isSeparator (t : Token) : Bool := t.kind == .symbol && t.text == ";"

/-- The text of some tokens and of what comes after them. -/
def textFrom (tokens : List Token) (last : String) : String :=
  String.join (tokens.map fun t => t.gap ++ t.text) ++ last

/-- The first statement of a text, if it holds one, and the text after it. -/
def prepareFirst (db : Database) (text : String) : Except SqlError (Option Prepared × String) :=
  let (tokens, last) := tokenize text
  match tokens.dropWhile isSeparator with
  | [] => .ok (none, "")
  | t :: more =>
    let all := t :: more
    let length := (all.takeWhile fun t => !isSeparator t).length + 1
    let reading : Reading := ⟨all.take length, [], last⟩
    match Prepared.checkHead db reading with
    | .error e => .error e
    | .ok () =>
      match Parser.statement reading with
      | .error e => .error e
      | .ok (s, reading) =>
        match Prepared.ofStatement db s with
        | .error e => .error e
        | .ok p => .ok (some { p with parameters := reading.parameters },
          if all.length < length then "" else textFrom (all.drop length) last)

/-- The only statement of a text; `fuel` bounds how many there are. -/
def prepareFrom (db : Database) : Nat → String → Except String (Option Prepared)
  | 0, _ => .ok none
  | fuel + 1, text =>
    match prepareFirst db text with
    | .error e => .error (e.display text)
    | .ok (p, rest) =>
      if rest.isEmpty then .ok p
      else
        match prepareFrom db fuel rest with
        | .error e => .error e
        | .ok none => .ok p
        | .ok (some _) => .error "Multiple statements provided"

def prepare (db : Database) (text : String) : Except String (Option Prepared) :=
  prepareFrom db (text.length + 1) text

/-- Runs the statements of a text; `fuel` bounds how many there are. -/
def runAllFrom : Nat → Database → String → Except String Unit × Database
  | 0, db, _ => (.ok (), db)
  | fuel + 1, db, text =>
    match prepareFirst db text with
    | .error e => (.error (e.display text), db)
    | .ok (none, _) => (.ok (), db)
    | .ok (some p, rest) =>
      let outcome := p.run db []
      match outcome.rows.failure with
      | some e => (.error e, outcome.database)
      | none => runAllFrom fuel outcome.database rest

def runAll (db : Database) (text : String) : Except String Unit × Database :=
  runAllFrom (text.length + 1) db text

end LogConsole.Sql
