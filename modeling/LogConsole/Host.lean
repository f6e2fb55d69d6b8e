import LogConsole.LogStore.Basic
import LogConsole.World

/-!
# LogConsole.Host

What surrounds the console: a view of logs that can be searched, and tables that follow it.

* `HostCall`  — what the host has been asked to do;
* `HostKind`  — a host without logs, a host that has no more than a terminal, or a log store,
  whose searches print the lines they find;
* `Host`      — a kind of host with all calls it has got, in order;
* `search`, `rescan`, `rebuild`, `addInput` — the calls. What fails in them is the host's to
  report.
-/

namespace LogConsole

inductive HostCall where
  | search (pattern : String)
  | rescan
  | rebuild
  | addInput (name : String) (bytes : List UInt8)
  deriving DecidableEq, Repr

inductive HostKind where
  | empty
  | terminal (size : Option (Nat × Nat))
  | logs (store : LogStore)

structure Host where
  kind : HostKind := .empty
  calls : List HostCall := []

namespace Host

/-- The view that is searched. -/
def view : String := "log"

def record (h : Host) (call : HostCall) : Host := { h with calls := h.calls ++ [call] }

/-- The size of the terminal as lines and columns. -/
def terminalSize (h : Host) (w : World) : Option (Nat × Nat) :=
  match h.kind with
  | .empty => none
  | .terminal size => size
  | .logs _ => w.terminal

def rescanned (disk : Disk) : HostKind → HostKind
  | .logs store => .logs (store.rescan disk).2
  | kind => kind

/-- Reads what has been added to the inputs. -/
def rescan (h : Host) (w : World) : Host :=
  { h.record .rescan with kind := rescanned w.disk h.kind }

/-- Brings the tables up to date. If that fails they stay as they are. -/
def rebuild (h : Host) (db : Sql.Database) : Host × Sql.Database :=
  let h := h.record .rebuild
  match h.kind with
  | .logs store =>
    let (store, db) := store.rebuilt db
    ({ h with kind := .logs store }, db)
  | _ => (h, db)

def hitText (l : LogLine) : String := l.path ++ ":" ++ toString l.number ++ ": " ++ l.body ++ "\n"

def badPattern (e : StoreError) : String :=
  "⚠ warning: invalid search pattern -- " ++ e.display ++ "\n"

/-- Prints the lines in which a pattern is found. -/
def printHits (store : LogStore) (pattern : String) (w : World) : World :=
  match store.search pattern with
  | .ok hits => w.print (String.join (hits.map hitText))
  | .error e => w.printError (badPattern e)

/-- Hands a pattern to the view. -/
def search (h : Host) (w : World) (pattern : String) : Host × World :=
  let h := h.record (.search pattern)
  match h.kind with
  | .logs store =>
    let store := (store.rescan w.disk).2
    ({ h with kind := .logs store }, printHits store pattern w)
  | _ => (h, w)

/-- Adds an input that holds given bytes. -/
def addInput (h : Host) (name : String) (bytes : List UInt8) : Host :=
  let h := h.record (.addInput name bytes)
  match h.kind with
  | .logs store => { h with kind := .logs (store.addVirtual (VirtualInput.ofBytes name bytes)) }
  | _ => h

end Host

end LogConsole
