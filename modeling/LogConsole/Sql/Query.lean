import LogConsole.Sql.Scope

/-!
# LogConsole.Sql.Query

Queries against the tables and views there are.

* `Query`     — a plan, and the names of its columns;
* `outputsOf` — the columns that a list of results stands for. A result is named by the name
  given to it, else as the column that it is, else by its text;
* `readThrough` — the order in which rows are read: that of their numbers, or of an index that has
  all the columns in use;
* `missing?`  — the last table of a query that there is none of;
* `query`     — a query that can be run. The tables are looked for first, then the names are
  resolved, both in the later parts of a union before the earlier ones.
-/

namespace LogConsole.Sql

/-! ## Results -/

structure QueryColumn where
  name : String
  affinity : Option Affinity := none

structure Output where
  name : String
  /-- The name that was given to it. -/
  given : Option String := none
  resolved : Resolved

/-- What the names in one query of a union stand for, and its results. -/
structure Member where
  scope : Scope
  outputs : List Output

structure Query where
  plan : Plan
  columns : List QueryColumn
  members : List Member

namespace Query

def names (q : Query) : List String := q.columns.map (·.name)

end Query

namespace Output

def ofColumn (c : ScopeColumn) : Output := ⟨c.label, none, ⟨.column c.index, c.affinity⟩⟩

def nameOf (s : Scope) (e : Expr) (text : String) : String :=
  match e with
  | .column table name _ _ => ((s.find? table name).map (·.label)).getD text
  | _ => text

end Output

def visible (s : Scope) : List ScopeColumn := s.columns.filter fun c => !c.hidden && !c.qualified

def outputsOf (s : Scope) : List ResultColumn → Resolver (List Output)
  | [] => return []
  | .star :: rest => do
    if s.columns.isEmpty then Resolver.fail "no tables specified" none
    else return (visible s).map Output.ofColumn ++ (← outputsOf s rest)
  | .tableStar table :: rest => do
    match (visible s).filter fun c => sameName c.table table with
    | [] => Resolver.fail ("no such table: " ++ table) none
    | columns => return columns.map Output.ofColumn ++ (← outputsOf s rest)
  | .expr e given text :: rest => do
    let r ← resolve s e
    return ⟨given.getD (Output.nameOf s e text), given, r⟩ :: (← outputsOf s rest)

def givenNames (outputs : List Output) : List (String × Resolved) :=
  outputs.filterMap fun o => o.given.map fun n => (n, o.resolved)

/-! ## Names of columns -/

/-- A name without a number after a colon. -/
def baseName (name : String) : String :=
  match name.toList.reverse.dropWhile Lexer.isDigit with
  | ':' :: rest => if rest.isEmpty then name else String.ofList rest.reverse
  | _ => name

/-- A name that is not among `seen`, with a number from `n` on if it has to have one. -/
def freshName (seen : List String) : Nat → Nat → String → String
  | 0, _, name => name
  | fuel + 1, n, name =>
    if seen.any (sameName name) then
      freshName seen fuel (n + 1) (baseName name ++ ":" ++ toString n)
    else name

def uniqueNames (seen : List String) : List String → List String
  | [] => []
  | name :: rest =>
    let name := freshName seen (seen.length + 1) 1 name
    name :: uniqueNames (name :: seen) rest

/-- The columns of a query that is used as a table. -/
def derivedScope (table : String) (columns : List QueryColumn) : Scope :=
  { columns := ((uniqueNames [] (columns.map (·.name))).zip columns).zipIdx.map
      fun ((name, c), i) => { table, name, label := name, index := i, affinity := c.affinity } }

/-! ## Order -/

def ordinal (n : Nat) : String :=
  let suffix := if n % 100 / 10 == 1 then "th"
    else
      match n % 10 with
      | 1 => "st"
      | 2 => "nd"
      | 3 => "rd"
      | _ => "th"
  toString n ++ suffix

def outOfRange (n : Nat) (clause : String) (count : Nat) (offset : Option Nat) : SqlError :=
  ⟨ordinal n ++ " " ++ clause ++ " BY term out of range - should be between 1 and "
    ++ toString count, offset⟩

/-- The number that an expression is, if it is nothing but a small whole number with signs. -/
def wholeNumber? : Expr → Option Int
  | .literal (.integer k) => if k.toInt.natAbs < Number.twoTo 31 then some k.toInt else none
  | .unary .negate e => (wholeNumber? e).map (- ·)
  | .unary .plus e => wholeNumber? e
  | _ => none

/-- The greatest number that can be meant as a position. -/
def maxPosition : Nat := 65535

/-- The result at a position from one on, or what is said if there is none. -/
def atPosition (outputs : List Output) (n : Nat) (clause : String) (k : Int) :
    Except SqlError Term :=
  match outputs[k.toNat - 1]? with
  | some o => .ok o.resolved.term
  | none => .error (outOfRange n clause outputs.length none)

/-- What rows are put in order by: a result by its name or its position, or another expression. A
position that is too large is refused only after all the names have been resolved. -/
def orderTerm (s : Scope) (outputs : List Output) (n : Nat) (o : OrderTerm) :
    Resolver (Except SqlError Term) := do
  match wholeNumber? o.expr with
  | some k =>
    if k < 1 || maxPosition < k.toNat then
      throw (outOfRange n "ORDER" outputs.length (some o.offset))
    else return atPosition outputs n "ORDER" k
  | none =>
    match o.expr with
    | .column none name _ _ =>
      match (givenNames outputs).find? fun given => sameName given.1 name with
      | some given => return .ok given.2.term
      | none => return .ok (← resolve s o.expr).term
    | e => return .ok (← resolve s e).term

def orderKeys (s : Scope) (outputs : List Output) : Nat → List OrderTerm →
    Resolver (List (Except SqlError SortKey))
  | _, [] => return []
  | n, o :: rest => do
    let t ← orderTerm s outputs n o
    return (t.map (⟨·, o.descending⟩)) :: (← orderKeys s outputs (n + 1) rest)

def orderTerms (s : Scope) (outputs : List Output) (order : List OrderTerm) :
    Resolver (List SortKey) := do
  match (← orderKeys s outputs 1 order).mapM id with
  | .ok keys => return keys
  | .error e => throw e

def groupTerms (s : Scope) (outputs : List Output) : Nat → List Expr → Resolver (List Term)
  | _, [] => return []
  | n, e :: rest => do
    let t ← match wholeNumber? e with
      | some k =>
        match atPosition outputs n "GROUP" k with
        | .ok t => pure t
        | .error err => throw err
      | none => do pure (← resolve (s.withTotals false) e).term
    return t :: (← groupTerms s outputs (n + 1) rest)

/-- The column of the results that is the same as a column of the source. -/
def sameColumn? (outputs : List Output) (index : Nat) : Option Nat :=
  outputs.findIdx? fun o =>
    match o.resolved.term with
    | .column i => i == index
    | _ => false

/-- The column of the results that a name stands for: it has been given that name, or is what the
name stands for in the query. -/
def Member.place? (m : Member) (e : Expr) : Option Nat :=
  match e with
  | .column table name _ _ =>
    let given : Option Nat := if table.isSome then none
      else m.outputs.findIdx? fun o => (o.given.map (sameName name)).getD false
    match given, m.scope.find? table name with
    | some i, _ => some i
    | none, some c => sameColumn? m.outputs c.index
    | none, none => none
  | _ => none

/-- The column that a term puts a union in order by: that of a position, or the first that one of
the queries has for it. -/
def unionPlace (q : Query) (n : Nat) (o : OrderTerm) : Except SqlError Nat :=
  match wholeNumber? o.expr with
  | some k =>
    if k < 1 || q.columns.length < k.toNat then
      .error (outOfRange n "ORDER" q.columns.length (some o.offset))
    else .ok (k.toNat - 1)
  | none =>
    match q.members.findSome? fun m => m.place? o.expr with
    | some i => .ok i
    | none =>
      .error ⟨ordinal n ++ " ORDER BY term does not match any column in the result set", none⟩

/-- The places, with a position that is out of range refused before a name without a column. -/
def unionPlaces (q : Query) (order : List OrderTerm) : Except SqlError (List Nat) :=
  let places := (order.zipIdx 1).map fun (o, n) => (wholeNumber? o.expr, unionPlace q n o)
  let refusedFirst := places.filter fun p => p.1.isSome
  match refusedFirst.mapM (·.2) with
  | .error e => .error e
  | .ok _ => places.mapM (·.2)

def unionOrder (q : Query) (order : List OrderTerm) : Except SqlError (List SortKey) :=
  (unionPlaces q order).map fun places =>
    List.zipWith (fun i (o : OrderTerm) => ⟨.column i, o.descending⟩) places order

/-! ## Tables -/

def isMain (schema : Option String) : Bool :=
  match schema with
  | some s => sameName s "main"
  | none => true

def noTable (schema : Option String) (name : String) : SqlError :=
  ⟨"no such table: " ++ Resolver.columnText schema name, none⟩

def hasTable (db : Database) (schema : Option String) (name : String) : Bool :=
  isMain schema
    && (Database.isCatalog name || (db.table? name).isSome || (db.view? name).isSome)

mutual

def missing? (db : Database) (schema : Option String) : Select → Option SqlError
  | .single _ source _ _ => missingIn? db schema source
  | .values _ => none
  | .unionAll a b =>
    match missing? db schema b with
    | some e => some e
    | none => missing? db schema a
  | .ordered s _ => missing? db schema s

def missingIn? (db : Database) (schema : Option String) : SelectSource → Option SqlError
  | .nothing => none
  | .table given name _ =>
    let schema := given.orElse fun _ => schema
    if hasTable db schema name then none else some (noTable schema name)
  | .query s _ => missing? db schema s

end

/-! ## Queries -/

structure Source where
  plan : Plan
  scope : Scope

/-- How much room the entries of an index are taken to need. -/
def indexWidth (t : Table) (i : Index) : Nat :=
  i.columns.foldl (fun n c => n + ((t.columns[c]?).map (·.width)).getD 1) 1

def tableWidth (t : Table) : Nat :=
  t.columns.foldl (fun n c => n + c.width) (if t.numberColumn.isSome then 0 else 1)

/-- Whether an index has all the columns, and needs less room than its table. -/
def serves (t : Table) (used : List Nat) (i : Index) : Bool :=
  indexWidth t i < tableWidth t
    && used.all fun c => i.columns.contains c || c == t.columns.length || t.numberColumn == some c

/-- The order in which rows come that only these columns are used of: that of an index which has
them, if there is one. -/
def readThrough (db : Database) (used : List Nat) (p : Plan) : Plan :=
  match p with
  | .table name _ =>
    match db.table? name with
    | some t =>
      match (db.indexesOf name).find? (serves t used) with
      | some i => .table name i.columns
      | none => p
    | none => p
  | p => p

/-- A single query over its source. -/
def single (db : Database) (src : Source) (columns : List ResultColumn) (filter : Option Expr)
    (groups : List Expr) (order : List OrderTerm) : Except SqlError Query := do
  let build : Resolver Query := do
    let scope := src.scope.withTotals true
    let outputs ← outputsOf scope columns
    let named := scope.withNames (givenNames outputs)
    let condition ← match filter with
      | none => pure none
      | some e => do pure (some (← resolve (named.withTotals false) e).term)
    let grouped := !groups.isEmpty || !(← get).totals.isEmpty
    let keys ← orderTerms (named.withTotals grouped) outputs order
    let groupKeys ← groupTerms named outputs 1 groups
    let totals := (← get).totals
    let terms := outputs.map (·.resolved.term)
    let used := Term.columnsAll (terms ++ condition.toList ++ keys.map (·.term) ++ groupKeys
      ++ totals.filterMap (·.arg))
    let source := readThrough db used (if order.isEmpty then src.plan else src.plan.unsorted)
    let plan := if totals.isEmpty && groupKeys.isEmpty
      then Plan.select source condition keys terms
      else Plan.group source condition groupKeys totals keys terms
    return ⟨plan, outputs.map fun o => ⟨o.name, o.resolved.affinity⟩, [⟨scope, outputs⟩]⟩
  match build {} with
  | .ok (q, _) => .ok q
  | .error e => .error e

def valuesWidth : String := "all VALUES must have the same number of terms"

def valuesQuery (rows : List (List Expr)) : Except SqlError Query := do
  let width := (rows.headD []).length
  if rows.any fun r => r.length != width then
    .error ⟨valuesWidth, none⟩
  else
    let terms ← rows.mapM (resolvePlainAll {})
    return ⟨.values terms, (List.range width).map fun i => ⟨"column" ++ toString (i + 1), none⟩, []⟩

/-- What is said of a query that has more or fewer columns than the one before it in a union. -/
def widthText : Select → String
  | .values [_] => valuesWidth
  | _ => "SELECTs to the left and right of UNION ALL do not have the same number of result columns"

/-- Two queries of a union; `text` is said if the second does not fit. -/
def unionQuery (a b : Query) (text : String) : Except SqlError Query :=
  if a.columns.length == b.columns.length then
    .ok ⟨.unionAll a.plan b.plan, a.columns, a.members ++ b.members⟩
  else .error ⟨text, none⟩

/-- The columns of a view: the names given with it, or those of its query. -/
def viewColumns (v : View) (columns : List QueryColumn) : Except SqlError (List QueryColumn) :=
  if v.columns.isEmpty then .ok columns
  else if v.columns.length == columns.length then
    .ok (List.zipWith (fun name (c : QueryColumn) => { c with name }) v.columns columns)
  else .error ⟨"expected " ++ toString v.columns.length ++ " columns for '" ++ v.name
    ++ "' but got " ++ toString columns.length, none⟩

/-- A failure inside a view, whose text is not the one that is read. -/
def withoutOffset {α : Type} (r : Except SqlError α) : Except SqlError α :=
  r.mapError fun e => { e with offset := none }

mutual

/-- A query inside some views; `fuel` bounds how deep queries and views are nested. -/
def queryFrom (db : Database) (inside : List String) : Nat → Select → Except SqlError Query
  | 0, _ => .error ⟨"parser stack overflow", none⟩
  | fuel + 1, .single columns source filter groups => do
    single db (← sourceFrom db inside fuel source) columns filter groups []
  | _ + 1, .values rows => valuesQuery rows
  | fuel + 1, .unionAll a b => do
    joinFrom db inside fuel a (← queryFrom db inside fuel b) (widthText b)
  | fuel + 1, .ordered s terms =>
    match s with
    | .single columns source filter groups => do
      single db (← sourceFrom db inside fuel source) columns filter groups terms
    | s => do
      let q ← queryFrom db inside fuel s
      let keys ← unionOrder q terms
      return { q with plan := .sort q.plan keys }

/-- A union of what comes before a query with that query. The widths are compared from the end,
each as soon as both queries are known. -/
def joinFrom (db : Database) (inside : List String) : Nat → Select → Query → String →
    Except SqlError Query
  | 0, _, _, _ => .error ⟨"parser stack overflow", none⟩
  | fuel + 1, .unionAll a b, right, text => do
    let joined ← unionQuery (← queryFrom db inside fuel b) right text
    joinFrom db inside fuel a joined (widthText b)
  | fuel + 1, s, right, text => do
    unionQuery (← queryFrom db inside fuel s) right text

def sourceFrom (db : Database) (inside : List String) : Nat → SelectSource →
    Except SqlError Source
  | 0, _ => .error ⟨"parser stack overflow", none⟩
  | _ + 1, .nothing => .ok ⟨.unit, {}⟩
  | fuel + 1, .query s label => do
    let q ← queryFrom db inside fuel s
    return ⟨q.plan, derivedScope (label.getD "") q.columns⟩
  | fuel + 1, .table given name label =>
    if Database.isCatalog name then
      .ok ⟨.catalog, { columns :=
        Scope.columnsOf (label.getD name) false Database.catalogColumns none 0 }⟩
    else
      match db.table? name with
      | some t => .ok ⟨.table t.name [], Scope.ofTable t (label.getD name)⟩
      | none =>
        match db.view? name with
        | none => .error (noTable given name)
        | some v =>
          if inside.any (sameName v.name) then
            .error ⟨"view " ++ v.name ++ " is circularly defined", none⟩
          else
            match missing? db (some "main") v.query with
            | some e => .error e
            | none => do
              let q ← withoutOffset (queryFrom db (v.name :: inside) fuel v.query)
              return ⟨q.plan, derivedScope (label.getD name) (← viewColumns v q.columns)⟩

end

mutual

def Select.depth : Select → Nat
  | .single _ source _ _ => source.depth + 1
  | .values _ => 1
  | .unionAll a b => max a.depth b.depth + 2
  | .ordered s _ => s.depth + 1

def SelectSource.depth : SelectSource → Nat
  | .nothing => 1
  | .table _ _ _ => 1
  | .query s _ => s.depth + 1

end

/-- How deep views can be nested in a query. -/
def viewDepth (db : Database) : Nat :=
  db.entries.foldl (fun n e =>
    match e with
    | .view v => n + v.query.depth + 2
    | _ => n) 0

def query (db : Database) (s : Select) : Except SqlError Query :=
  match missing? db none s with
  | some e => .error e
  | none => queryFrom db [] (s.depth + viewDepth db + 1) s

end LogConsole.Sql
