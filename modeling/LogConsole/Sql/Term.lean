import LogConsole.Message.Wire
import LogConsole.Sql.Database

/-!
# LogConsole.Sql.Term

Expressions whose names have been resolved, and their values.

* `Function` — the functions on the values of one row; `raise_error` fails with a message that
  can be decoded again;
* `Term`     — an expression over the columns of a row and the totals of a group;
* `Bindings` — what the parameters, the columns and the totals stand for;
* `Term.eval` — the value of a term, or the text of its failure. Operands are evaluated from left
  to right, but a pattern before what it is matched with; `and` and `or` leave out the second if
  the first decides.
-/

namespace LogConsole.Sql

inductive Function where
  | typeName
  | raiseError
  | least
  | greatest
  deriving DecidableEq, Repr

namespace Function

/-- The function of a name, and whether it takes that many arguments; none if there is none. -/
def ofName? (name : String) (count : Nat) : Option (Function × Bool) :=
  match foldName name with
  | "typeof" => some (.typeName, count == 1)
  | "raise_error" => some (.raiseError, true)
  | "min" => some (.least, 1 < count)
  | "max" => some (.greatest, 1 < count)
  | _ => none

def wrongParameter (v : Value) (index : Nat) : String :=
  "Invalid function parameter type " ++ v.storageClass.title ++ " at index " ++ toString index

/-- The failure text of `raise_error`: an encoded message with an optional reason. -/
def raised : List Value → String
  | [.text m] => (Message.error m).wire
  | [.text m, .null] => (Message.error m).wire
  | [.text m, .text r] => ((Message.error m).withReason r).wire
  | [.text _, v] => wrongParameter v 1
  | [v] => wrongParameter v 0
  | [v, _] => wrongParameter v 0
  | _ => "raise_error() expects a message and an optional reason"

/-- The value that none goes before, in an order of the values; null if there is a null. -/
def best (before : Value → Value → Bool) : List Value → Value
  | [] => .null
  | [v] => v
  | v :: rest =>
    let w := best before rest
    if v.isNull || w.isNull then .null else if before w v then w else v

/-- The last of the least values. -/
def lastLeast : List Value → Value := best fun w v => compare w v != .gt

/-- The first of the greatest values. -/
def firstGreatest : List Value → Value := best fun w v => compare w v == .gt

def apply (f : Function) (args : List Value) : Except String Value :=
  match f with
  | .typeName => .ok (.text (args.headD .null).storageClass.name)
  | .raiseError => .error (raised args)
  | .least => .ok (lastLeast args)
  | .greatest => .ok (firstGreatest args)

end Function

inductive Term where
  | value (v : Value)
  | parameter (index : Nat)
  | column (index : Nat)
  | total (index : Nat)
  | unary (op : UnaryOp) (a : Term)
  /-- An operation; operands that are compared are first brought to the affinity. -/
  | binary (op : BinaryOp) (affinity : Affinity) (a b : Term)
  | isNull (negative : Bool) (a : Term)
  | like (negative : Bool) (a pattern : Term)
  | inList (negative : Bool) (affinity : Affinity) (a : Term) (items : List Term)
  | call (f : Function) (args : List Term)
  deriving Inhabited

structure Bindings where
  parameters : List Value := []
  columns : List Value := []
  totals : List Value := []

namespace BinaryOp

def compares : BinaryOp → Bool
  | .less | .lessEq | .greater | .greaterEq | .eq | .ne | .is | .isNot => true
  | _ => false

/-- Whether the first operand alone decides. -/
def decides (op : BinaryOp) (a : Value) : Bool :=
  match op with
  | .and => a.truth == some false
  | .or => a.truth == some true
  | _ => false

end BinaryOp

/-- Whether a value is one of some values; unknown if it is none of them, but one is null. -/
def member (v : Value) (items : List Value) : Truth :=
  if items.isEmpty then some false
  else if v.isNull then none
  else if items.any fun w => !w.isNull && compare v w == .eq then some true
  else if items.any Value.isNull then none
  else some false

def negateIf (negative : Bool) (t : Truth) : Value :=
  Truth.toValue (if negative then t.map (!·) else t)

namespace Term

mutual

def eval (b : Bindings) : Term → Except String Value
  | .value v => .ok v
  | .parameter i => .ok (b.parameters.getD (i - 1) .null)
  | .column i => .ok (b.columns.getD i .null)
  | .total i => .ok (b.totals.getD i .null)
  | .unary op a =>
    match eval b a with
    | .error e => .error e
    | .ok v => .ok (applyUnary op v)
  | .binary op affinity l r =>
    match eval b l with
    | .error e => .error e
    | .ok v =>
      if op.decides v then .ok (Truth.toValue v.truth)
      else
        match eval b r with
        | .error e => .error e
        | .ok w => .ok (applyBinary op (affinity.apply v) (affinity.apply w))
  | .isNull negative a =>
    match eval b a with
    | .error e => .error e
    | .ok v => .ok (Value.ofBool (v.isNull != negative))
  | .like negative a pattern =>
    match eval b pattern with
    | .error e => .error e
    | .ok p =>
      match eval b a with
      | .error e => .error e
      | .ok v => .ok (negateIf negative (likeValue p v).truth)
  | .inList negative affinity a items =>
    match eval b a with
    | .error e => .error e
    | .ok v =>
      match evalAll b items with
      | .error e => .error e
      | .ok vs => .ok (negateIf negative (member (affinity.apply v) (vs.map affinity.apply)))
  | .call f args =>
    match evalAll b args with
    | .error e => .error e
    | .ok vs => f.apply vs

def evalAll (b : Bindings) : List Term → Except String (List Value)
  | [] => .ok []
  | t :: rest =>
    match eval b t with
    | .error e => .error e
    | .ok v =>
      match evalAll b rest with
      | .error e => .error e
      | .ok vs => .ok (v :: vs)

end

mutual

/-- The columns that a term mentions. -/
def columns : Term → List Nat
  | .value _ => []
  | .parameter _ => []
  | .column i => [i]
  | .total _ => []
  | .unary _ a => columns a
  | .binary _ _ a b => columns a ++ columns b
  | .isNull _ a => columns a
  | .like _ a p => columns a ++ columns p
  | .inList _ _ a items => columns a ++ columnsAll items
  | .call _ args => columnsAll args

def columnsAll : List Term → List Nat
  | [] => []
  | t :: rest => columns t ++ columnsAll rest

end

/-- Whether a condition holds; unknown counts as false. -/
def holds (b : Bindings) (condition : Option Term) : Except String Bool :=
  match condition with
  | none => .ok true
  | some t =>
    match t.eval b with
    | .error e => .error e
    | .ok v => .ok (v.truth == some true)

end Term

end LogConsole.Sql
