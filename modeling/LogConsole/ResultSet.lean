import LogConsole.Csv
import LogConsole.Json.Value
import LogConsole.Sql.Value

/-!
# LogConsole.ResultSet

The rows of the last query, as texts.

* `ColumnHeader` — the name of a column and the storage class of its first value. A numeric
  column that is no key can be graphed;
* `ResultSet`    — headers, and rows of cells in which null is `none`;
* `record`       — adds a row; the first row after `clear` sets the headers;
* `toCsv`, `toJson` — the two exports.
-/

namespace LogConsole

structure ColumnHeader where
  name : String
  storage : Sql.StorageClass
  graphable : Bool
  deriving DecidableEq, Repr

abbrev Cell := Option String

structure ResultSet where
  headers : List ColumnHeader := []
  rows : List (List Cell) := []
  keyColumns : List String := []
  deriving DecidableEq, Repr

namespace ResultSet

def clear (r : ResultSet) : ResultSet := { r with headers := [], rows := [] }

def isEmpty (r : ResultSet) : Bool := r.rows.isEmpty

def header (keyColumns : List String) (name : String) (value : Sql.Value) : ColumnHeader :=
  ⟨name, value.storageClass, value.storageClass.isNumeric && !keyColumns.contains name⟩

/-- The headers that a first row sets. -/
def headersOf (keyColumns columns : List String) (row : List Sql.Value) : List ColumnHeader :=
  List.zipWith (header keyColumns) columns row

/-- Adds a row with the given column names. -/
def record (r : ResultSet) (columns : List String) (row : List Sql.Value) : ResultSet :=
  { r with
    headers := if r.headers.isEmpty then headersOf r.keyColumns columns row else r.headers
    rows := r.rows ++ [row.map (·.cell?)] }

def toCsv (r : ResultSet) : String :=
  Csv.encode (r.headers.map (·.name) :: r.rows.map fun row => row.map (·.getD ""))

/-- A cell in the numeric form that its column asks for, if its text has that form. -/
def cellToJson (storage : Sql.StorageClass) (text : String) : Json :=
  match storage with
  | .integer =>
    match Number.readInt64? text with
    | some n => .int n.toInt
    | none => .str text
  | .real =>
    match Number.readFloat? text with
    | some f => Json.ofReal f
    | none => .str text
  | _ => .str text

def rowToJson (headers : List ColumnHeader) (row : List Cell) : Json :=
  .obj (List.zipWith (fun h cell =>
    (h.name,
      match cell with
      | none => Json.null
      | some text => cellToJson h.storage text)) headers row)

/-- One object a row, with members in increasing order of their names. -/
def toJson (r : ResultSet) : Json := (Json.arr (r.rows.map (rowToJson r.headers))).sortKeys

@[simp] theorem clear_rows (r : ResultSet) : r.clear.rows = [] := rfl

end ResultSet

end LogConsole
