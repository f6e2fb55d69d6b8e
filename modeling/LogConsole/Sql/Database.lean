import LogConsole.Sql.Arithmetic

/-!
# LogConsole.Sql.Database

Tables and what belongs to them.

* `Affinity`  — the kind of value that a column's declared type prefers, and what it makes of a
  value;
* `Column`, `Table` — a table's columns and rows. Rows are in increasing order of their numbers;
  a column declared `INTEGER PRIMARY KEY` is that number;
* `Entry`     — a table, an index or a view;
* `Database`  — the entries in the order in which they were made, and the user's version number;
* `catalogRows` — the entries as the rows of the table `sqlite_master`.
-/

namespace LogConsole.Sql

/-! ## Affinity -/

inductive Affinity where
  | text | numeric | integer | real
  /-- No preference. -/
  | any
  deriving DecidableEq, Repr

namespace Affinity

def holds (part : String) (type : List Char) : Bool :=
  match type with
  | [] => false
  | c :: rest => part.toList.isPrefixOf (c :: rest) || holds part rest

def ofType (type : String) : Affinity :=
  let cs := (foldName type).toList
  if holds "int" cs then .integer
  else if holds "char" cs || holds "clob" cs || holds "text" cs then .text
  else if cs.isEmpty || holds "blob" cs then .any
  else if holds "real" cs || holds "floa" cs || holds "doub" cs then .real
  else .numeric

def isNumeric : Affinity → Bool
  | .numeric | .integer | .real => true
  | _ => false

/-- A real number that is a whole number as an integer. -/
def narrow (v : Value) : Value :=
  match v with
  | .real f =>
    match Value.exactInt? f with
    | some n => if Number.inInt64 n then .integer (Int64.ofInt n) else v
    | none => v
  | _ => v

/-- A text that writes a number, as that number. -/
def numberOf (v : Value) : Value :=
  match v with
  | .text s => (Value.wholeNumber? s).getD v
  | _ => v

/-- What a column of this affinity stores for a value. -/
def apply (a : Affinity) (v : Value) : Value :=
  match a with
  | .any => v
  | .text =>
    match v with
    | .integer _ => .text v.toText
    | .real _ => .text v.toText
    | _ => v
  | .numeric => narrow (numberOf v)
  | .integer => narrow (numberOf v)
  | .real =>
    match numberOf v with
    | .integer n => .real n.toFloat
    | v => v

end Affinity

/-! ## Tables -/

structure Column where
  name : String
  affinity : Affinity := .any
  /-- How much room its values are taken to need. -/
  width : Nat := 1
  notNull : Bool := false
  default : Value := .null

structure Row where
  number : Int
  values : List Value

structure Table where
  name : String
  columns : List Column
  /-- The column that is the number of the row. -/
  numberColumn : Option Nat := none
  parents : List ForeignKey := []
  rows : List Row := []
  text : String

structure Index where
  name : String
  table : String
  columns : List Nat := []
  /-- Whether no two rows have the same values in its columns. -/
  unique : Bool := false
  /-- The statement that made it, if there was one. -/
  text : Option String

structure View where
  name : String
  columns : List String
  query : Select
  text : String

inductive Entry where
  | table (t : Table)
  | index (i : Index)
  | view (v : View)

namespace Entry

def name : Entry → String
  | .table t => t.name
  | .index i => i.name
  | .view v => v.name

/-- The table that an entry belongs to. -/
def tableName : Entry → String
  | .table t => t.name
  | .index i => i.table
  | .view v => v.name

def kind : Entry → String
  | .table _ => "table"
  | .index _ => "index"
  | .view _ => "view"

def text? : Entry → Option String
  | .table t => some t.text
  | .index i => i.text
  | .view v => some v.text

def asTable? : Entry → Option Table
  | .table t => some t
  | _ => none

def asIndex? : Entry → Option Index
  | .index i => some i
  | _ => none

def asView? : Entry → Option View
  | .view v => some v
  | _ => none

end Entry

structure Database where
  entries : List Entry := []
  userVersion : Int32 := 0

namespace Database

def table? (db : Database) (name : String) : Option Table :=
  db.entries.findSome? fun e =>
    match e.asTable? with
    | some t => if sameName t.name name then some t else none
    | none => none

def view? (db : Database) (name : String) : Option View :=
  db.entries.findSome? fun e =>
    match e.asView? with
    | some v => if sameName v.name name then some v else none
    | none => none

def entry? (db : Database) (name : String) : Option Entry :=
  db.entries.find? fun e => sameName e.name name

/-- The indexes of a table, the last one made first. -/
def indexesOf (db : Database) (table : String) : List Index :=
  (db.entries.filterMap Entry.asIndex?).reverse.filter fun i => sameName i.table table

def index? (db : Database) (name : String) : Option Index :=
  (db.entries.filterMap Entry.asIndex?).find? fun i => sameName i.name name

/-- Changes the table of a name. -/
def changeTable (db : Database) (name : String) (f : Table → Table) : Database :=
  { db with
    entries := db.entries.map fun e =>
      match e with
      | .table t => if sameName t.name name then .table (f t) else .table t
      | e => e }

def add (db : Database) (e : Entry) : Database := { db with entries := db.entries ++ [e] }

/-- Removes everything that belongs to a table or a view. -/
def removeAll (db : Database) (name : String) : Database :=
  { db with entries := db.entries.filter fun e => !sameName e.tableName name }

def removeIndex (db : Database) (name : String) : Database :=
  { db with
    entries := db.entries.filter fun e =>
      match e.asIndex? with
      | some i => !sameName i.name name
      | none => true }

/-! ## The catalog -/

def isCatalog (name : String) : Bool :=
  sameName name "sqlite_master" || sameName name "sqlite_schema"

def catalogColumns : List Column :=
  [{ name := "type", affinity := .text }, { name := "name", affinity := .text },
   { name := "tbl_name", affinity := .text }, { name := "rootpage", affinity := .integer },
   { name := "sql", affinity := .text }]

/-- The rows for entries; tables and indexes have pages of their own, starting with `page`. -/
def catalogFrom (page number : Int) : List Entry → List Row
  | [] => []
  | e :: rest =>
    let root := match e with
      | .view _ => 0
      | _ => page
    let next := match e with
      | .view _ => page
      | _ => page + 1
    ⟨number, [.text e.kind, .text e.name, .text e.tableName, Value.ofInt root,
      (e.text?.map Value.text).getD .null]⟩ :: catalogFrom next (number + 1) rest

def catalogRows (db : Database) : List Row := catalogFrom 2 1 db.entries

end Database

/-! ## Rows -/

namespace Table

/-- Puts a row into its place, instead of one of the same number. -/
def putRow (r : Row) : List Row → List Row
  | [] => [r]
  | s :: rest =>
    if s.number = r.number then r :: rest
    else if r.number < s.number then r :: s :: rest
    else s :: putRow r rest

/-- The number of the next row. -/
def nextNumber (t : Table) : Int :=
  match t.rows.getLast? with
  | some r => r.number + 1
  | none => 1

def columnIndex? (t : Table) (name : String) : Option Nat :=
  t.columns.findIdx? fun c => sameName c.name name

/-- The values of some columns. -/
def pick (columns : List Nat) (values : List Value) : List Value :=
  columns.map fun i => values.getD i .null

end Table

end LogConsole.Sql
