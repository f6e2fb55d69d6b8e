import LogConsole.Context
import LogConsole.Sql.Arithmetic
import LogConsole.Text.Category
import LogConsole.Text.Utf8

/-!
# LogConsole.Query.Binding

The values of the parameters of a statement, and the names a first row may set.

* `isPlainIdentifier` — a letter or underscore, then letters, digits and underscores, all ASCII;
* `parameterValue`    — the value of one parameter: by override, then `$name` by the terminal
  size or as a variable, then `:name` by line value, else null;
* `bindFailure?`      — a text that is too long for a parameter.
-/

namespace LogConsole

def isPlainIdentifier (name : String) : Bool :=
  match name.toList with
  | [] => false
  | c :: rest => (Text.isAsciiLetter c || c == '_') && rest.all Text.isAsciiWord

namespace Datum

def toSql : Datum → Sql.Value
  | .null => .null
  | .boolean b => .ofBool b
  | .integer n => .integer n
  | .float f => .ofFloat f
  | .text s => .text s

end Datum

namespace Query

/-- The lines or the columns of a terminal, if the name asks for them. -/
def terminalValue? (terminal : Option (Nat × Nat)) (name : String) : Option String :=
  match terminal with
  | none => none
  | some (lines, columns) =>
    if name = "LINES" then some (toString lines)
    else if name = "COLS" then some (toString columns)
    else none

/-- A text, or null if there is none. -/
def textOrNull : Option String → Sql.Value
  | some s => .text s
  | none => .null

def variableValue (k : Console) (terminal : Option (Nat × Nat)) (name : String) : Sql.Value :=
  match terminalValue? terminal name with
  | some s => .text s
  | none => textOrNull (k.lookup name)

/-- The first line value of a name. -/
def lineValue (values : List LineValue) (name : String) : Sql.Value :=
  match values.find? fun v => v.name == name with
  | some v => v.value.toSql
  | none => .null

/-- The value of a parameter, whose name starts with its mark. -/
def parameterValue (k : Console) (terminal : Option (Nat × Nat)) : Option String → Sql.Value
  | none => .null
  | some name =>
    match k.context.overrides.get? name with
    | some s => .text s
    | none =>
      match name.toList with
      | '$' :: rest => variableValue k terminal (String.ofList rest)
      | ':' :: rest => lineValue k.context.lineValues (String.ofList rest)
      | _ => .null

/-- The size in bytes of the longest text that the engine takes. -/
def maxTextSize : Nat := 1000000000

/-- From this size on the engine cannot even be told how long a text is. -/
def untoldSize : Nat := 2147483647

/-- What the engine says when a parameter is given a value that it does not take. -/
def valueFailure? : Sql.Value → Option String
  | .text s =>
    let size := Text.Utf8.size s.toList
    if untoldSize ≤ size then some "Error code 18: String or BLOB exceeded size limit"
    else if maxTextSize < size then some "string or blob too big"
    else none
  | _ => none

/-- Parameters are given their values in order, up to the first that is not taken. -/
def bindFailure? (values : List Sql.Value) : Option String := values.findSome? valueFailure?

end Query

end LogConsole
