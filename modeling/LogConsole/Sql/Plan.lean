import LogConsole.Sql.Term

/-!
# LogConsole.Sql.Plan

Queries that can be run.

* `Total`     — what is counted or picked over the rows of a group, and its value for them;
* `Plan`      — where rows come from and what becomes of them;
* `Rows`      — the rows of a query up to the first that fails, and why that one fails;
* `Plan.run`  — the rows of a plan. What puts rows in order or into groups has no rows if one of
  them fails. Groups are in increasing order of their keys, and rows with equal keys stay in the
  order in which they came.
-/

namespace LogConsole.Sql

inductive TotalKind where
  | count
  | least
  | greatest
  deriving DecidableEq, Repr

structure Total where
  kind : TotalKind
  /-- What is looked at in each row; none for the row itself. -/
  arg : Option Term

structure SortKey where
  term : Term
  descending : Bool := false

inductive Plan where
  /-- One row without columns. -/
  | unit
  /-- The rows of a table, each with its number after its values, in the order of some columns. -/
  | table (name : String) (order : List Nat)
  | catalog
  | values (rows : List (List Term))
  | select (source : Plan) (filter : Option Term) (order : List SortKey) (outputs : List Term)
  | group (source : Plan) (filter : Option Term) (keys : List Term) (totals : List Total)
      (order : List SortKey) (outputs : List Term)
  | unionAll (a b : Plan)
  | sort (a : Plan) (order : List SortKey)
  deriving Inhabited

/-- A plan whose rows are put in order later: its own order does not matter. -/
def Plan.unsorted : Plan → Plan
  | .select source filter _ outputs => .select source.unsorted filter [] outputs
  | .group source filter keys totals _ outputs => .group source filter keys totals [] outputs
  | .sort a _ => a
  | p => p

structure Rows where
  rows : List (List Value) := []
  failure : Option String := none
  deriving Inhabited

namespace Rows

def fail (text : String) : Rows := ⟨[], some text⟩

/-- Adds a row before others. -/
def cons (row : List Value) (r : Rows) : Rows := { r with rows := row :: r.rows }

/-- What comes after rows that have not failed. -/
def andThen (a b : Rows) : Rows :=
  match a.failure with
  | some e => ⟨a.rows, some e⟩
  | none => ⟨a.rows ++ b.rows, b.failure⟩

/-- Makes of each row another one, or none, up to the first failure. -/
def filterMapFrom (f : List Value → Except String (Option (List Value))) (failure : Option String) :
    List (List Value) → Rows
  | [] => ⟨[], failure⟩
  | row :: rest =>
    match f row with
    | .error e => fail e
    | .ok none => filterMapFrom f failure rest
    | .ok (some made) => cons made (filterMapFrom f failure rest)

def filterMap (r : Rows) (f : List Value → Except String (Option (List Value))) : Rows :=
  filterMapFrom f r.failure r.rows

end Rows

/-! ## Order -/

/-- The order of two rows by their keys and the directions of these. -/
def compareKeys : List Bool → List Value → List Value → Ordering
  | [], _, _ => .eq
  | descending :: rest, as, bs =>
    match compare (as.headD .null) (bs.headD .null) with
    | .eq => compareKeys rest (as.drop 1) (bs.drop 1)
    | o => if descending then o.swap else o

/-- Puts rows, each with its keys, in order. -/
def sortRows {α : Type} (directions : List Bool) (rows : List (List Value × α)) :
    List (List Value × α) :=
  rows.mergeSort fun a b => compareKeys directions a.1 b.1 != .gt

/-- Cuts rows in order into groups of equal keys. -/
def groupsOf {α : Type} (directions : List Bool) :
    List (List Value × α) → List (List Value × List α)
  | [] => []
  | (key, row) :: rest =>
    match groupsOf directions rest with
    | [] => [(key, [row])]
    | (next, rows) :: more =>
      if compareKeys directions key next == .eq then (key, row :: rows) :: more
      else (key, [row]) :: (next, rows) :: more

/-! ## Totals -/

namespace Total

/-- The values of a total's argument in some rows. -/
def args (parameters : List Value) (t : Total) :
    List (List Value) → Except String (List Value)
  | [] => .ok []
  | row :: rest =>
    let value : Except String Value := match t.arg with
      | none => .ok (.integer 1)
      | some a => a.eval ⟨parameters, row, []⟩
    match value with
    | .error e => .error e
    | .ok v =>
      match args parameters t rest with
      | .error e => .error e
      | .ok vs => .ok (v :: vs)

/-- Whether a value is picked over the one picked so far. -/
def beats (kind : TotalKind) (v best : Value) : Bool :=
  if v.isNull then best.isNull
  else if best.isNull then true
  else
    match kind with
    | .least => compare v best == .lt
    | .greatest => compare v best == .gt
    | .count => false

/-- The picked value and its row. -/
def pick (kind : TotalKind) (value : Value) (row : List Value) :
    List (Value × List Value) → Value × List Value
  | [] => (value, row)
  | (v, r) :: rest => if beats kind v value then pick kind v r rest else pick kind value row rest

def value (kind : TotalKind) (vs : List Value) : Value :=
  match kind with
  | .count => .integer (Int64.ofNat (vs.filter fun v => !v.isNull).length)
  | _ => (pick kind .null [] (vs.map fun v => (v, []))).1

end Total

/-- The values of totals, and the row that columns outside of them are taken from: the first, or
the one that the last `least` or `greatest` picks. -/
def totalsOf (parameters : List Value) (rows : List (List Value)) (row : List Value) :
    List Total → Except String (List Value × List Value)
  | [] => .ok ([], row)
  | t :: rest =>
    match t.args parameters rows with
    | .error e => .error e
    | .ok vs =>
      let row := match t.kind with
        | .count => row
        | kind => (Total.pick kind .null row (vs.zip rows)).2
      match totalsOf parameters rows row rest with
      | .error e => .error e
      | .ok (values, row) => .ok (Total.value t.kind vs :: values, row)

/-! ## Running -/

/-- The values of a row and its number. -/
def numbered (r : Row) : List Value := r.values ++ [Value.ofInt r.number]

namespace Plan

/-- Rows with the keys they are put in order by. -/
def keyed (b : List Value → Bindings) (order : List SortKey) (outputs : List Term) :
    List (List Value) → Except String (List (List Value × List Value))
  | [] => .ok []
  | row :: rest =>
    match Term.evalAll (b row) outputs with
    | .error e => .error e
    | .ok made =>
      match Term.evalAll (b row) (order.map (·.term)) with
      | .error e => .error e
      | .ok keys =>
        match keyed b order outputs rest with
        | .error e => .error e
        | .ok more => .ok ((keys, made) :: more)

/-- The outputs for each row, put in order if there is one. -/
def finish (b : List Value → Bindings) (order : List SortKey) (outputs : List Term) (r : Rows) :
    Rows :=
  match order with
  | [] => r.filterMap fun row => (Term.evalAll (b row) outputs).map some
  | _ =>
    match keyed b order outputs r.rows with
    | .error e => .fail e
    | .ok keyed =>
      match r.failure with
      | some e => .fail e
      | none => ⟨(sortRows (order.map (·.descending)) keyed).map (·.2), none⟩

/-- The rows for which a condition holds. -/
def filterRows (parameters : List Value) (filter : Option Term) (r : Rows) : Rows :=
  r.filterMap fun row =>
    match Term.holds ⟨parameters, row, []⟩ filter with
    | .error e => .error e
    | .ok b => .ok (if b then some row else none)

/-- Each group as one row: the totals, and after them the columns. -/
def totalRows (parameters : List Value) (totals : List Total) (rows : List (List (List Value))) :
    Rows :=
  rows.foldr (fun group rest =>
    match totalsOf parameters group (group.headD []) totals with
    | .error e => .fail e
    | .ok (made, row) => Rows.cons (made ++ row) rest) {}

/-- The groups of rows; without keys all rows are one group, even if there are none. -/
def groupRows (parameters : List Value) (keys : List Term) (r : Rows) :
    Except String (List (List (List Value))) :=
  match r.failure with
  | some e => .error e
  | none =>
    match keys with
    | [] => .ok [r.rows]
    | _ =>
      match keyed (fun row => ⟨parameters, row, []⟩) (keys.map (⟨·, false⟩)) [] r.rows with
      | .error e => .error e
      | .ok made =>
        let directions := keys.map fun _ => false
        let sorted := sortRows directions (List.zipWith (fun k row => (k.1, row)) made r.rows)
        .ok ((groupsOf directions sorted).map (·.2))

/-- The rows of lists of values. -/
def valueRows (parameters : List Value) : List (List Term) → Rows
  | [] => {}
  | row :: rest =>
    match Term.evalAll ⟨parameters, [], []⟩ row with
    | .error e => .fail e
    | .ok made => Rows.cons made (valueRows parameters rest)

/-- Rows in the order of some columns. -/
def scan (order : List Nat) (rows : List (List Value)) : List (List Value) :=
  match order with
  | [] => rows
  | _ => (sortRows (order.map fun _ => false) (rows.map fun r => (Table.pick order r, r))).map (·.2)

def run (db : Database) (parameters : List Value) : Plan → Rows
  | .unit => ⟨[[]], none⟩
  | .table name order =>
    match db.table? name with
    | some t => ⟨scan order (t.rows.map numbered), none⟩
    | none => .fail ("no such table: " ++ name)
  | .catalog => ⟨db.catalogRows.map numbered, none⟩
  | .values rows => valueRows parameters rows
  | .select source filter order outputs =>
    finish (fun row => ⟨parameters, row, []⟩) order outputs
      (filterRows parameters filter (run db parameters source))
  | .group source filter keys totals order outputs =>
    match groupRows parameters keys
        (filterRows parameters filter (run db parameters source)) with
    | .error e => .fail e
    | .ok groups =>
      let count := totals.length
      finish (fun row => ⟨parameters, row.drop count, row.take count⟩) order outputs
        (totalRows parameters totals groups)
  | .unionAll a b => (run db parameters a).andThen (run db parameters b)
  | .sort a order =>
    let r := run db parameters a
    match r.failure with
    | some e => .fail e
    | none =>
      match keyed (fun row => ⟨parameters, row, []⟩) order [] r.rows with
      | .error e => .fail e
      | .ok made =>
        let directions := order.map (·.descending)
        ⟨(sortRows directions (List.zipWith (fun k row => (k.1, row)) made r.rows)).map (·.2), none⟩

end Plan

end LogConsole.Sql
