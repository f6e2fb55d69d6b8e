import LogConsole.Sql.Token
import LogConsole.Sql.Value

/-!
# LogConsole.Sql.Syntax

SQL statements.

* `Expr`       — expressions, with the offsets of the names in them;
* `Select`     — queries: single ones, lists of values, and unions of all rows;
* `Statement`  — queries, and what makes, fills, changes and removes tables;
* `sameName`   — names are equal up to the case of ASCII letters.

There are no joins, limits, triggers, temporary tables or transactions.
-/

namespace LogConsole.Sql

def foldName (name : String) : String :=
  String.ofList (name.toList.map fun c =>
    if 'A' ≤ c && c ≤ 'Z' then Char.ofNat (c.toNat + 32) else c)

def sameName (a b : String) : Bool := foldName a == foldName b

inductive UnaryOp where
  | negate | plus | bitNot | not
  deriving DecidableEq, Repr

inductive BinaryOp where
  | concat
  | mul | div | rem
  | add | sub
  | bitAnd | bitOr | shiftLeft | shiftRight
  | less | lessEq | greater | greaterEq
  | eq | ne | is | isNot
  | and | or
  deriving DecidableEq, Repr

inductive Expr where
  | literal (v : Value)
  | parameter (index : Nat)
  /-- A name, perhaps of a table's column. One in double quotes that names no column is a text. -/
  | column (table : Option String) (name : String) (quoted : Bool) (offset : Nat)
  | unary (op : UnaryOp) (a : Expr)
  | binary (op : BinaryOp) (a b : Expr)
  | isNull (negative : Bool) (a : Expr)
  | like (negative : Bool) (a pattern : Expr)
  | inList (negative : Bool) (a : Expr) (items : List Expr)
  /-- A function call; `star` stands for the argument `*`. -/
  | call (name : String) (args : List Expr) (star : Bool) (offset : Nat)
  deriving Inhabited

inductive ResultColumn where
  | star
  | tableStar (table : String)
  /-- An expression, the name given to it, and its text. -/
  | expr (e : Expr) (label : Option String) (text : String)

structure OrderTerm where
  expr : Expr
  descending : Bool := false
  /-- Where the expression begins, without the signs and parentheses before it. -/
  offset : Nat := 0

mutual

inductive Select where
  | single (columns : List ResultColumn) (source : SelectSource) (filter : Option Expr)
      (groups : List Expr)
  | values (rows : List (List Expr))
  | unionAll (a b : Select)
  /-- A query with its rows put in order. -/
  | ordered (s : Select) (terms : List OrderTerm)

inductive SelectSource where
  | nothing
  | table (schema : Option String) (name : String) (label : Option String)
  | query (s : Select) (label : Option String)

end

instance : Inhabited Select := ⟨.values []⟩

structure ForeignKey where
  columns : List String
  parent : String
  parentColumns : List String
  deriving DecidableEq, Repr

structure ColumnDef where
  name : String
  type : String := ""
  notNull : Bool := false
  unique : Bool := false
  primaryKey : Bool := false
  default : Value := .null
  parents : List ForeignKey := []

structure TableDef where
  name : String
  columns : List ColumnDef
  primaryKey : List String := []
  uniques : List (List String) := []
  parents : List ForeignKey := []
  /-- The statement as it is shown to the user. -/
  text : String

/-- What an insertion does with a row whose key is there already. -/
inductive Conflict where
  | nothing
  | update (assignments : List (String × Expr))

structure Insertion where
  schema : Option String := none
  table : String
  columns : List String
  rows : List (List Expr)
  /-- The columns of the key, and what happens if it is there. -/
  conflict : Option (List String × Conflict) := none
  returning : List ResultColumn := []

inductive Statement where
  | select (s : Select)
  | createTable (ifMissing : Bool) (offset : Nat) (d : TableDef)
  /-- An index; its columns come with the offsets of their names. -/
  | createIndex (ifMissing unique : Bool) (name table : String) (columns : List (String × Nat))
      (text : String)
  | createView (ifMissing : Bool) (offset : Nat) (name : String) (columns : List String)
      (s : Select) (text : String)
  | insert (i : Insertion)
  | update (table : String) (assignments : List (String × Expr)) (filter : Option Expr)
      (returning : List ResultColumn)
  | delete (table : String) (filter : Option Expr) (returning : List ResultColumn)
  | dropTable (ifThere : Bool) (name : String)
  | dropView (ifThere : Bool) (name : String)
  | dropIndex (ifThere : Bool) (name : String)
  | readVersion
  | setVersion (n : Int32)
  /-- A setting that has no effect here. -/
  | otherSetting

end LogConsole.Sql
