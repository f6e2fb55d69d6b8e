import LogConsole.Query.Binding
import LogConsole.Query.Failure
import LogConsole.Session.Basic

/-!
# LogConsole.Session.Query

Running the statements that start with a semicolon.

* `tableNames`, `schemaOf` — what the statements `.tables` and `.schema` show;
* `runMeta`        — a statement that starts with a dot;
* `runStatement`   — a statement of the query engine: it is prepared, checked against the
  permission, its parameters get their values, and its rows are collected one by one;
* `summarize`      — what is said of the rows;
* `storeFirstRow`  — the first row's values become local variables;
* `runQuery`       — all of it.
-/

namespace LogConsole

/-! ## Statements about the database -/

namespace MetaStatement

open Sql (Database Entry)

/-- Names that belong to the query engine. -/
def isReserved (name : String) : Bool := Sql.like "sqlite_%" name

def insertBy {α : Type} (before : α → α → Bool) (a : α) : List α → List α
  | [] => [a]
  | b :: rest => if before a b then a :: b :: rest else b :: insertBy before a rest

def sortBy {α : Type} (before : α → α → Bool) (xs : List α) : List α :=
  xs.foldr (insertBy before) []

def isTableOrView : Entry → Bool
  | .index _ => false
  | _ => true

/-- The tables and views, by name. -/
def tableNames (db : Database) : List String :=
  sortBy (· < ·) ((db.entries.filter fun e => isTableOrView e && !isReserved e.name).map (·.name))

/-- Kinds in decreasing order, then names in increasing order. -/
def beforeInTable (a b : Entry) : Bool :=
  if a.kind = b.kind then a.name < b.name else b.kind < a.kind

def before (a b : Entry) : Bool :=
  if a.tableName = b.tableName then beforeInTable a b else a.tableName < b.tableName

/-- The statements that made the entries of a table. -/
def schemaOf (db : Database) (table : String) : List String :=
  (sortBy beforeInTable (db.entries.filter fun e => e.tableName == table)).filterMap (·.text?)

/-- The statements that made all entries. -/
def schemaOfAll (db : Database) : List String :=
  (sortBy before (db.entries.filter fun e => !isReserved e.name)).filterMap (·.text?)

def closed (statements : List String) : String := "\n".intercalate (statements.map (· ++ ";"))

/-- The answer to a statement with its words. -/
def answer (db : Database) (ctx : Context) (m : MetaStatement) (words : List String) :
    Except Message String :=
  match m, words with
  | .tables, _ => .ok ("\n".intercalate (tableNames db))
  | .schema, _ :: table :: _ =>
    match schemaOf db table with
    | [] => .error (ctx.error .commandFailed ("unknown table -- " ++ table))
    | statements => .ok (closed statements)
  | .schema, _ => .ok (closed (schemaOfAll db))

end MetaStatement

/-! ## Statements of the query engine -/

namespace Query

/-- The statement that `.msgformats` stands for. -/
def messageFormatsText : String :=
  "SELECT count(*) AS total, min(log_line) AS log_line, log_msg_format "
    ++ "FROM all_logs GROUP BY log_msg_format ORDER BY total DESC"

def expandAlias (text : String) : String :=
  if text = ".msgformats" then messageFormatsText else text

/-- Said of many rows. -/
def manyRowsHint : String :=
  "Press y/Y to move forward/backward through query results in the log view"

/-- A length of time in seconds with three places, of which the last three are at least one. -/
def elapsedText (milliseconds : Nat) : String :=
  let places := toString (max 1 (milliseconds % 1000))
  toString (milliseconds / 1000) ++ "." ++ String.ofList (List.replicate (3 - places.length) '0')
    ++ places

def pairText (h : ColumnHeader) (cell : Cell) : String := h.name ++ "=" ++ cell.getD ""

def summarize (readOnly : Bool) (queryTime : Nat) (results : ResultSet) : Output :=
  match results.rows with
  | [] => if readOnly then ⟨"No rows matched", ""⟩ else {}
  | [row] =>
    match results.headers, row with
    | [_], cell :: _ => ⟨cell.getD "", ""⟩
    | headers, row => ⟨"; ".intercalate (List.zipWith pairText headers row), ""⟩
  | rows =>
    ⟨toString rows.length ++ " rows matched in " ++ elapsedText queryTime ++ " seconds", manyRowsHint⟩

/-- The variables that the first row sets. -/
def firstRowVariables (results : ResultSet) : List (String × String) :=
  match results.rows with
  | [] => []
  | row :: _ =>
    (List.zip results.headers row).filterMap fun (h, cell) =>
      if isPlainIdentifier h.name then cell.map fun v => (h.name, v) else none

/-- Sets local variables one after the other. -/
def setLocals (vars : List (String × String)) (ctx : Context) : Context :=
  vars.foldl (fun ctx v => ctx.setLocal v.1 v.2) ctx

/-- What the engine says when there is no statement to run. -/
def misuse : String := "bad parameter or other API misuse"

end Query

namespace Run

open Query

/-- Fails with a failure text of the query engine. -/
def failEngine {α : Type} (text : String) : Run α := fun s =>
  some (.error (engineFailure s.context text), s)

/-- Hands the clearing call to the collector. -/
def clearResults : Run Unit := fun s =>
  match s.collector.clear with
  | (.ok (), collector) => some (.ok (), { s with collector })
  | (.error text, collector) => failEngine text { s with collector }

/-- Runs a statement and collects its rows, up to the first failure of either. -/
def collectRows (p : Sql.Prepared) (values : List Sql.Value) : Run Unit := fun s =>
  let outcome := p.run s.database values
  match s.collector.recordAll p.columns outcome.rows.rows with
  | (.error text, collector) =>
    failEngine text { s with collector, database := outcome.database }
  | (.ok (), collector) =>
    let s := { s with collector, database := outcome.database }
    match outcome.rows.failure with
    | some text => failEngine text s
    | none => some (.ok (), s)

def storeFirstRow : Run Unit :=
  change fun s =>
    if s.context.dryRun then s
    else s.changeContext (setLocals (firstRowVariables s.results))

def parameterValues (s : Session) (p : Sql.Prepared) : List Sql.Value :=
  p.parameters.map (parameterValue s.console (s.host.terminalSize s.world))

/-- Gives the parameters of a statement their values. -/
def bindParameters (p : Sql.Prepared) : Run (List Sql.Value) := fun s =>
  let values := parameterValues s p
  match bindFailure? values with
  | some text => failEngine text s
  | none => some (.ok values, s)

/-- Runs a statement that has been prepared; its text is told to a user who may not run it. -/
def runPrepared (text : String) (p : Sql.Prepared) : Run Output := do
  if (← get fun s => s.context.readOnly) && !p.readOnly then
    fail .readOnlyViolation ("modifying statements are not allowed in this context: " ++ text)
  else
    let values ← bindParameters p
    clearResults
    collectRows p values
    storeFirstRow
    get fun s => summarize p.readOnly s.world.queryTime s.results

/-- Runs a text without a statement in it, which the engine refuses. -/
def runNothing : Run Output := do
  clearResults
  failEngine misuse

def runStatement (text statement : String) : Run Output := do
  match ← get fun s => Sql.prepare s.database statement with
  | .error e => fail .parseFailure e
  | .ok none => runNothing
  | .ok (some p) => runPrepared text p

def runMeta (m : MetaStatement) (words : List String) : Run Output :=
  withHelp m.helpText fun s =>
    match m.answer s.database s.context words with
    | .ok text => some (.ok ⟨text, ""⟩, s)
    | .error e => some (.error e, s)

/-- The statement about the database that a text is, if it is one. -/
def metaStatement? (statement : String) : Option MetaStatement :=
  match Text.words statement with
  | name :: _ => MetaStatement.ofName? name
  | [] => none

def runQuery (text : String) : Run Output :=
  let statement := Text.trim text
  match metaStatement? statement with
  | some m => runMeta m (Text.words statement)
  | none =>
    if statement.isEmpty then fail .noCommandGiven "no statement given"
    else runStatement text (expandAlias statement)

end Run

end LogConsole
