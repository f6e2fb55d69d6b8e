import LogConsole.Number.Text
import LogConsole.Text.Utf8

/-!
# LogConsole.Sql.Value

The values of the query engine.

* `StorageClass` — the five kinds of value;
* `Value`        — null, 64-bit integers, binary64 numbers, texts and byte strings;
* `Value.cell?`  — a value as the text of a table cell; null has none;
* `Value.ofTextBytes` — a text from bytes that may not be UTF-8.
-/

namespace LogConsole.Sql

inductive StorageClass where
  | null | integer | real | text | blob
  deriving DecidableEq, Repr

namespace StorageClass

def name : StorageClass → String
  | .null => "null"
  | .integer => "integer"
  | .real => "real"
  | .text => "text"
  | .blob => "blob"

/-- The name with a capital letter. -/
def title : StorageClass → String
  | .null => "Null"
  | .integer => "Integer"
  | .real => "Real"
  | .text => "Text"
  | .blob => "Blob"

def isNumeric : StorageClass → Bool
  | .integer | .real => true
  | _ => false

end StorageClass

inductive Value where
  | null
  | integer (n : Int64)
  | real (f : Float)
  | text (s : String)
  | blob (bytes : List UInt8)
  deriving Inhabited, Repr

namespace Value

def storageClass : Value → StorageClass
  | .null => .null
  | .integer _ => .integer
  | .real _ => .real
  | .text _ => .text
  | .blob _ => .blob

def cell? : Value → Option String
  | .null => none
  | .integer n => some (toString n.toInt)
  | .real f => some (Number.plain f)
  | .text s => some s
  | .blob bytes => some ("<" ++ toString bytes.length ++ " byte blob>")

def ofTextBytes (bytes : List UInt8) : Value := .text (Text.Utf8.decodeLossy bytes)

def ofBool (b : Bool) : Value := .integer (if b then 1 else 0)

@[simp] theorem cell?_eq_none_iff (v : Value) : v.cell? = none ↔ v = .null := by
  cases v <;> simp [cell?]

end Value

end LogConsole.Sql
