import LogConsole.Sql.Parser
import LogConsole.Sql.Plan

/-!
# LogConsole.Sql.Scope

What the names in an expression stand for.

* `Scope`    — the columns of a source, and the names given to results. A column goes before a
  result of the same name;
* `Resolver` — collects the totals that an expression mentions, and the last thing that is wrong
  with it. A name that stands for nothing ends the reading of the innermost list of arguments that
  it stands in; after that, and after a call that cannot be made, the next name or call is still
  looked at, and the next literal or operator ends the reading;
* `resolve`  — an expression as a term. It has an affinity if it is a column.
-/

namespace LogConsole.Sql

structure ScopeColumn where
  table : String
  name : String
  /-- The name that results have which are this column. -/
  label : String
  index : Nat
  /-- None for a column that an expression makes. -/
  affinity : Option Affinity := none
  /-- A column that `*` does not stand for. -/
  hidden : Bool := false
  /-- A column that is found only together with its table. -/
  qualified : Bool := false

structure Resolved where
  term : Term
  affinity : Option Affinity := none

structure Scope where
  columns : List ScopeColumn := []
  names : List (String × Resolved) := []
  /-- Whether totals may be mentioned. -/
  totals : Bool := false

namespace Scope

def find? (s : Scope) (table : Option String) (name : String) : Option ScopeColumn :=
  s.columns.find? fun c =>
    sameName c.name name &&
      match table with
      | some t => sameName c.table t
      | none => !c.qualified

def named? (s : Scope) (name : String) : Option Resolved :=
  (s.names.find? fun n => sameName n.1 name).map (·.2)

def withNames (s : Scope) (names : List (String × Resolved)) : Scope := { s with names := names }

def withTotals (s : Scope) (totals : Bool) : Scope := { s with totals := totals }

/-- The names for the number of a row. -/
def numberNames : List String := ["rowid", "oid", "_rowid_"]

/-- The columns of a table under a name, starting at an index. -/
def columnsOf (table : String) (qualified : Bool) (columns : List Column)
    (numberColumn : Option Nat) (start : Nat) : List ScopeColumn :=
  let declared := columns.zipIdx.map fun (c, i) =>
    ({ table, name := c.name, label := c.name, index := start + i, affinity := some c.affinity,
       qualified } : ScopeColumn)
  let label := match numberColumn with
    | some i => ((columns[i]?).map (·.name)).getD "rowid"
    | none => "rowid"
  declared ++ numberNames.map fun n =>
    { table, name := n, label, index := start + columns.length, affinity := some .integer,
      hidden := true, qualified }

def ofTable (t : Table) (name : String) : Scope :=
  { columns := columnsOf name false t.columns t.numberColumn 0 }

end Scope

structure Resolution where
  totals : List Total := []
  failure : Option SqlError := none

abbrev Resolver := StateT Resolution (Except SqlError)

namespace Resolver

def fail {α : Type} (text : String) (offset : Option Nat) : Resolver α :=
  fun _ => .error ⟨text, offset⟩

/-- Remembers a failure, and goes on. -/
def refuse (text : String) (offset : Nat) : Resolver Unit :=
  fun st => .ok ((), { st with failure := some ⟨text, some offset⟩ })

def addTotal (t : Total) : Resolver Resolved :=
  fun st => .ok (⟨.total st.totals.length, none⟩, { st with totals := st.totals ++ [t] })

/-- Fails with the last failure that is remembered. -/
def check : Resolver Unit := fun st =>
  match st.failure with
  | some e => .error e
  | none => .ok ((), st)

/-- Reads a part of an expression, and only remembers it if that fails. -/
def enclosed {α : Type} (r : Resolver α) (instead : α) : Resolver α := fun st =>
  match r st with
  | .ok x => .ok x
  | .error e => .ok (instead, { st with failure := some e })

def columnText (table : Option String) (name : String) : String :=
  match table with
  | some t => t ++ "." ++ name
  | none => name

def column (s : Scope) (table : Option String) (name : String) (quoted : Bool) (offset : Nat) :
    Resolver Resolved :=
  match s.find? table name with
  | some c => return ⟨.column c.index, c.affinity⟩
  | none =>
    match table with
    | some _ => fail ("no such column: " ++ columnText table name) (some offset)
    | none =>
      match s.named? name with
      | some r => return r
      | none =>
        if quoted then return ⟨.value (.text name), none⟩
        else if sameName name "true" then return ⟨.value (.integer 1), none⟩
        else if sameName name "false" then return ⟨.value (.integer 0), none⟩
        else fail ("no such column: " ++ name) (some offset)

/-- The affinity that two operands are compared by. -/
def sharedAffinity : Option Affinity → Option Affinity → Affinity
  | some a, some b => if a.isNumeric || b.isNumeric then .numeric else .any
  | some a, none => a
  | none, some b => b
  | none, none => .any

/-- The totals of a name, unless there are none with that many arguments. -/
def totalKind? (name : String) (count : Nat) : Option TotalKind :=
  match foldName name with
  | "count" => if count ≤ 1 then some .count else none
  | "min" => if count = 1 then some .least else none
  | "max" => if count = 1 then some .greatest else none
  | _ => none

inductive Callee where
  | function (f : Function)
  | total (kind : TotalKind)
  | wrongCount
  | unknown

def callee (name : String) (count : Nat) : Callee :=
  match totalKind? name count with
  | some kind => .total kind
  | none =>
    match Function.ofName? name count with
    | some (f, true) => .function f
    | some (_, false) => .wrongCount
    | none => if foldName name == "count" then .wrongCount else .unknown

/-- What stands in the place of a part that has failed. -/
def nothing : Resolved := ⟨.value .null, none⟩

mutual

def expression (s : Scope) : Expr → Resolver Resolved
  | .literal v => do
    check
    return ⟨.value v, none⟩
  | .parameter i => do
    check
    return ⟨.parameter i, none⟩
  | .column table name quoted offset => column s table name quoted offset
  | .unary op a => do
    check
    return ⟨.unary op (← expression s a).term, none⟩
  | .binary op a b => do
    check
    let l ← expression s a
    let r ← expression s b
    let affinity := if op.compares then sharedAffinity l.affinity r.affinity else .any
    return ⟨.binary op affinity l.term r.term, none⟩
  | .isNull negative a => do
    return ⟨.isNull negative (← enclosed (expression s a) nothing).term, none⟩
  | .like negative a p => do
    if negative then check
    enclosed (do
      let pattern ← expression s p
      let text ← expression s a
      return ⟨.like negative text.term pattern.term, none⟩) nothing
  | .inList negative a items => do
    check
    let l ← expression s a
    let items ← expressions s items
    return ⟨.inList negative (sharedAffinity l.affinity none) l.term (items.map (·.term)), none⟩
  | .call name args _ offset => do
    match callee name args.length with
    | .total kind =>
      if s.totals then
        let args ← enclosed (expressions (s.withTotals false) args) []
        addTotal ⟨kind, args.head?.map (·.term)⟩
      else
        refuse ("misuse of aggregate function " ++ name ++ "()") offset
        let _ ← enclosed (expressions s args) []
        return nothing
    | .function f => do
      let args ← enclosed (expressions s args) []
      return ⟨.call f (args.map (·.term)), none⟩
    | .wrongCount =>
      refuse ("wrong number of arguments to function " ++ name ++ "()") offset
      let _ ← enclosed (expressions s args) []
      return nothing
    | .unknown =>
      refuse ("no such function: " ++ name) offset
      let _ ← enclosed (expressions s args) []
      return nothing

def expressions (s : Scope) : List Expr → Resolver (List Resolved)
  | [] => return []
  | e :: rest => do
    let first ← expression s e
    return first :: (← expressions s rest)

end

end Resolver

/-- The term for an expression. -/
def resolve (s : Scope) (e : Expr) : Resolver Resolved := do
  let r ← Resolver.expression s e
  Resolver.check
  return r

/-- The term for an expression without totals. -/
def resolvePlain (s : Scope) (e : Expr) : Except SqlError Term :=
  match resolve (s.withTotals false) e {} with
  | .ok (r, _) => .ok r.term
  | .error err => .error err

def resolvePlainAll (s : Scope) : List Expr → Except SqlError (List Term)
  | [] => .ok []
  | e :: rest =>
    match resolvePlain s e with
    | .error err => .error err
    | .ok t =>
      match resolvePlainAll s rest with
      | .error err => .error err
      | .ok ts => .ok (t :: ts)

end LogConsole.Sql
