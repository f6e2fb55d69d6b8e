/-!
# LogConsole.Stack

Stacks that are never empty.

* `Stack`        — the top and what is below it, nearest first;
* `push`, `pop`  — `pop` takes nothing off a stack of one;
* `depth`        — the number of elements.
-/

namespace LogConsole

structure Stack (α : Type) where
  top : α
  below : List α := []
  deriving DecidableEq, Repr

namespace Stack

variable {α : Type}

def push (s : Stack α) (a : α) : Stack α := ⟨a, s.top :: s.below⟩

def pop (s : Stack α) : Stack α :=
  match s.below with
  | [] => s
  | a :: rest => ⟨a, rest⟩

def depth (s : Stack α) : Nat := s.below.length + 1

def setTop (s : Stack α) (a : α) : Stack α := { s with top := a }

def toList (s : Stack α) : List α := s.top :: s.below

end Stack

end LogConsole
