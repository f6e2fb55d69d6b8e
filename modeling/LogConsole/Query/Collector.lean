import LogConsole.ResultSet

/-!
# LogConsole.Query.Collector

What the rows of a query are handed to.

* `Collector` — a result set, and which calls are refused with which text. Calls are counted from
  the last clearing call, which is number 0;
* `clear`, `record` — the clearing call and the call for a row. A refused call changes nothing of
  the result set;
* `recordAll` — rows one after the other, up to the first that is refused.
-/

namespace LogConsole

structure Collector where
  results : ResultSet := {}
  refuse : Nat → Option String := fun _ => none
  calls : Nat := 0

namespace Collector

def ofKeyColumns (keyColumns : List String) : Collector := { results := { keyColumns } }

def clear (c : Collector) : Except String Unit × Collector :=
  let c := { c with calls := 0 }
  match c.refuse 0 with
  | some text => (.error text, c)
  | none => (.ok (), { c with results := c.results.clear })

def record (c : Collector) (columns : List String) (row : List Sql.Value) :
    Except String Unit × Collector :=
  let c := { c with calls := c.calls + 1 }
  match c.refuse c.calls with
  | some text => (.error text, c)
  | none => (.ok (), { c with results := c.results.record columns row })

def recordAll (c : Collector) (columns : List String) : List (List Sql.Value) →
    Except String Unit × Collector
  | [] => (.ok (), c)
  | row :: rest =>
    match c.record columns row with
    | (.error e, c) => (.error e, c)
    | (.ok (), c) => recordAll c columns rest

end Collector

end LogConsole
