/-!
# LogConsole.Toml.Table

TOML documents as values, and how the lines of a document build them.

* `Value`     — texts, booleans, arrays and tables; numbers and times are kept as written;
* `Node`      — a value or a table under construction, marked by what made it;
* `assign`    — sets a dotted key in a table;
* `openTable`, `openElement` — what the header of a table, or of an element of an array of
  tables, makes.

Each of the three refuses to define something twice: nothing that has a value gets another,
no table has two headers, and a table that dotted keys have made gets no header.
-/

namespace LogConsole.Toml

inductive Value where
  | text (s : String)
  | boolean (b : Bool)
  /-- A number or a time, as written. -/
  | scalar (s : String)
  | array (items : List Value)
  | table (entries : List (String × Value))
  deriving Inhabited

/-- What made a table: a longer header, a header of its own, or a dotted key. -/
inductive Origin where
  | implied | header | dotted
  deriving DecidableEq, Repr

inductive Node where
  | value (v : Value)
  | table (origin : Origin) (entries : List (String × Node))
  /-- An array of tables. -/
  | tables (elements : List (List (String × Node)))
  deriving Inhabited

abbrev Entries := List (String × Node)

namespace Node

mutual

def toValue : Node → Value
  | .value v => v
  | .table _ entries => .table (entriesToValues entries)
  | .tables elements => .array (elementsToValues elements)

def entriesToValues : List (String × Node) → List (String × Value)
  | [] => []
  | (k, n) :: rest => (k, toValue n) :: entriesToValues rest

def elementsToValues : List (List (String × Node)) → List Value
  | [] => []
  | entries :: rest => .table (entriesToValues entries) :: elementsToValues rest

end

end Node

def lookup {α : Type} (key : String) : List (String × α) → Option α
  | [] => none
  | (k, v) :: rest => if k = key then some v else lookup key rest

/-- Puts an entry in the place of the one of its name, or at the end. -/
def replace {α : Type} (key : String) (value : α) : List (String × α) → List (String × α)
  | [] => [(key, value)]
  | (k, v) :: rest => if k = key then (key, value) :: rest else (k, v) :: replace key value rest

/-- Sets a dotted key. -/
def assign (v : Value) : List String → Entries → Option Entries
  | [], _ => none
  | [key], entries =>
    match lookup key entries with
    | some _ => none
    | none => some (entries ++ [(key, .value v)])
  | key :: path, entries =>
    match lookup key entries with
    | none => (assign v path []).map fun inner => entries ++ [(key, .table .dotted inner)]
    | some (.table .header _) => none
    | some (.table origin inner) =>
      (assign v path inner).map fun inner => replace key (.table origin inner) entries
    | some _ => none

/-- Applies `f` to the last element. -/
def changeLast {α : Type} (f : α → Option α) : List α → Option (List α)
  | [] => none
  | [a] => (f a).map fun a => [a]
  | a :: rest => (changeLast f rest).map (a :: ·)

/-- Applies `f` to the table that holds the last name of a path; names on the way that are not
there yet become tables. -/
def descend (f : String → Entries → Option Entries) : List String → Entries → Option Entries
  | [], _ => none
  | [key], entries => f key entries
  | key :: path, entries =>
    match lookup key entries with
    | none => (descend f path []).map fun inner => entries ++ [(key, .table .implied inner)]
    | some (.table origin inner) =>
      (descend f path inner).map fun inner => replace key (.table origin inner) entries
    | some (.tables elements) =>
      (changeLast (descend f path) elements).map fun es => replace key (.tables es) entries
    | some (.value _) => none

/-- The header `[a.b.c]`. -/
def openTable : List String → Entries → Option Entries :=
  descend fun key entries =>
    match lookup key entries with
    | none => some (entries ++ [(key, .table .header [])])
    | some (.table .implied inner) => some (replace key (.table .header inner) entries)
    | some _ => none

/-- The header `[[a.b.c]]`. -/
def openElement : List String → Entries → Option Entries :=
  descend fun key entries =>
    match lookup key entries with
    | none => some (entries ++ [(key, .tables [[]])])
    | some (.tables elements) => some (replace key (.tables (elements ++ [[]])) entries)
    | some _ => none

/-- Sets a dotted key in the table that the last header opened. -/
def assignUnder (header key : List String) (v : Value) (entries : Entries) : Option Entries :=
  match header with
  | [] => assign v key entries
  | header =>
    descend (fun last outer =>
      match lookup last outer with
      | some (.table origin inner) =>
        (assign v key inner).map fun inner => replace last (.table origin inner) outer
      | some (.tables elements) =>
        (changeLast (assign v key) elements).map fun es => replace last (.tables es) outer
      | _ => none) header entries

end LogConsole.Toml
