import LogConsole.Number.Text
import LogConsole.Sql.Syntax

/-!
# LogConsole.Sql.Parser

Reads SQL statements from tokens.

* `SqlError`    — what is said of a failure, and the byte offset it points to, if any;
* `Reading`     — the tokens left, and the names of the parameters met so far. Parameters are
  numbered from one: `?` takes the next number, `?5` the number five, and a name always the
  number it had before;
* `expression`  — by the strengths of the operators;
* `statement`   — one statement, which must be all there is.

The first token that cannot continue what has been read is the one that is refused; that may be
the separator after the statement.
-/

namespace LogConsole.Sql

structure SqlError where
  text : String
  offset : Option Nat := none
  deriving DecidableEq, Repr

/-- The text that is shown for a failure of a statement that has not been run. -/
def SqlError.display (e : SqlError) (sql : String) : String :=
  match e.offset with
  | some n => e.text ++ " in " ++ sql ++ " at offset " ++ toString n
  | none => e.text

structure Reading where
  tokens : List Token
  parameters : List (Option String) := []
  /-- What stands after the last token. -/
  last : String := ""

abbrev Parser := StateT Reading (Except SqlError)

namespace Parser

/-! ## Tokens -/

def fail {α : Type} (text : String) (offset : Option Nat) : Parser α :=
  fun _ => .error ⟨text, offset⟩

/-- Refuses the next token. -/
def unexpected {α : Type} : Parser α := fun st =>
  match st.tokens with
  | [] => .error ⟨"incomplete input", none⟩
  | t :: _ =>
    match t.kind with
    | .illegal => .error ⟨"unrecognized token: \"" ++ t.text ++ "\"", some t.start⟩
    | _ => .error ⟨"near \"" ++ t.text ++ "\": syntax error", some t.start⟩

def tokens : Parser (List Token) := fun st => .ok (st.tokens, st)

/-- What stands before the next token, or at the end. -/
def gap : Parser String := fun st => .ok ((st.tokens.head?.map (·.gap)).getD st.last, st)

def peek : Parser (Option Token) := fun st => .ok (st.tokens.head?, st)

def advance : Parser Unit := fun st => .ok ((), { st with tokens := st.tokens.drop 1 })

def isKeyword (word : String) (t : Token) : Bool := t.kind == .word && foldName t.text == word

def isSymbol (symbol : String) (t : Token) : Bool := t.kind == .symbol && t.text == symbol

def nextIs (p : Token → Bool) : Parser Bool := do
  match ← peek with
  | some t => return p t
  | none => return false

/-- Whether the statement ends here. -/
def atEnd : Parser Bool := do return (← peek).isNone || (← nextIs (isSymbol ";"))

/-- Takes a keyword, given in small letters, if it is next. -/
def keyword? (word : String) : Parser Bool := do
  if ← nextIs (isKeyword word) then
    advance
    return true
  else return false

def keyword (word : String) : Parser Unit := do
  if ← keyword? word then return () else unexpected

def symbol? (symbol : String) : Parser Bool := do
  if ← nextIs (isSymbol symbol) then
    advance
    return true
  else return false

def symbol (symbol : String) : Parser Unit := do
  if ← symbol? symbol then return () else unexpected

/-- Keywords that are never names. -/
def reserved : List String :=
  ["add", "all", "alter", "and", "as", "autoincrement", "between", "case", "check", "collate",
   "commit", "constraint", "create", "cross", "default", "deferrable", "delete", "distinct",
   "drop", "else", "escape", "except", "exists", "foreign", "from", "full", "group", "having",
   "in", "index", "inner", "insert", "intersect", "into", "is", "isnull", "join", "left",
   "limit", "natural", "not", "nothing", "notnull", "null", "on", "or", "order", "outer",
   "primary", "references", "returning", "right", "select", "set", "table", "then", "to",
   "transaction", "union", "unique", "update", "using", "values", "when", "where"]

def isFreeWord (t : Token) : Bool := t.kind == .word && !reserved.contains (foldName t.text)

def isName (t : Token) : Bool := isFreeWord t || t.kind == .name || t.kind == .string

/-- The characters of a quotation without its marks; doubled marks count once. -/
def unmark (mark : Char) : List Char → List Char
  | [] => []
  | c :: rest =>
    if c = mark then
      match rest with
      | d :: rest => if d = mark then c :: unmark mark rest else []
      | [] => []
    else c :: unmark mark rest

/-- What a name or a string stands for. -/
def plainText (t : Token) : String :=
  match t.text.toList with
  | '\'' :: rest => String.ofList (unmark '\'' rest)
  | '"' :: rest => String.ofList (unmark '"' rest)
  | '\x60' :: rest => String.ofList (unmark '\x60' rest)
  | '[' :: rest => String.ofList (rest.takeWhile (· != ']'))
  | _ => t.text

def nameToken : Parser Token := do
  match ← peek with
  | some t =>
    if isName t then
      advance
      return t
    else unexpected
  | none => unexpected

def name : Parser String := do return plainText (← nameToken)

/-- A name, and perhaps a schema before it. -/
def schemaName : Parser (Option String × Token) := do
  let first ← nameToken
  if ← symbol? "." then
    let second ← nameToken
    return (some (plainText first), second)
  else return (none, first)

/-- Items with commas between them, at most `fuel`. -/
def sepBy {α : Type} (item : Parser α) : Nat → Parser (List α)
  | 0 => unexpected
  | fuel + 1 => do
    let first ← item
    if ← symbol? "," then
      let rest ← sepBy item fuel
      return first :: rest
    else return [first]

def commaList {α : Type} (item : Parser α) : Parser (List α) := do
  let ts ← tokens
  sepBy item (ts.length + 1)

/-! ## Parameters -/

/-- The number of a parameter whose text is already known. -/
def indexOf? (text : String) (n : Nat) : List (Option String) → Option Nat
  | [] => none
  | p :: rest => if p = some text then some n else indexOf? text (n + 1) rest

/-- Gives the parameter `n` a name if it has none. -/
def nameParameter (n : Nat) (text : String) (names : List (Option String)) :
    List (Option String) :=
  let names := names ++ List.replicate (n - names.length) none
  match names[n - 1]? with
  | some none => names.set (n - 1) (some text)
  | _ => names

def maxParameter : Nat := 32766

def parameterNumber (t : Token) : Parser Nat := fun st =>
  match t.text.toList with
  | ['?'] =>
    .ok (st.parameters.length + 1, { st with parameters := st.parameters ++ [none] })
  | '?' :: digits =>
    let n := Number.digitsValue digits
    if n = 0 || maxParameter < n then
      .error ⟨"variable number must be between ?1 and ?32766", some t.start⟩
    else .ok (n, { st with parameters := nameParameter n t.text st.parameters })
  | _ =>
    match indexOf? t.text 1 st.parameters with
    | some n => .ok (n, st)
    | none =>
      .ok (st.parameters.length + 1, { st with parameters := st.parameters ++ [some t.text] })

/-! ## Expressions -/

def hexDigits (cs : List Char) : Nat :=
  cs.foldl (fun n c => n * 16 +
    (if c ≤ '9' then c.toNat - 48 else if c ≤ 'F' then c.toNat - 55 else c.toNat - 87)) 0

def hexValue (negative : Bool) (digits : List Char) : Int64 :=
  let n := Int64.ofNat (hexDigits digits)
  if negative then -n else n

def withoutSeparators (text : String) : List Char := text.toList.filter (· != '_')

/-- An integer that does not fit into 64 bits is a real number. -/
def integerValue (negative : Bool) (text : String) : Value :=
  match withoutSeparators text with
  | '0' :: 'x' :: digits => .integer (hexValue negative digits)
  | '0' :: 'X' :: digits => .integer (hexValue negative digits)
  | digits =>
    let n := Number.digitsValue digits
    let signed : Int := if negative then -n else n
    if Number.inInt64 signed then .integer (Int64.ofInt signed)
    else .real (Number.applySign negative (Number.floatOfDecimal n 0))

def realValue (text : String) : Value :=
  match Number.readFloat? (String.ofList (withoutSeparators text)) with
  | some f => .real f
  | none => .real 0.0

def bytePairs : List Char → List UInt8
  | a :: b :: rest => UInt8.ofNat (hexDigits [a, b]) :: bytePairs rest
  | _ => []

def blobValue (text : String) : Value :=
  .blob (bytePairs ((text.toList.drop 2).takeWhile (· != '\'')))

/-- The operators written as symbols, and their strengths. -/
def symbolOp? : String → Option (BinaryOp × Nat)
  | "||" => some (.concat, 10)
  | "*" => some (.mul, 9)
  | "/" => some (.div, 9)
  | "%" => some (.rem, 9)
  | "+" => some (.add, 8)
  | "-" => some (.sub, 8)
  | "&" => some (.bitAnd, 7)
  | "|" => some (.bitOr, 7)
  | "<<" => some (.shiftLeft, 7)
  | ">>" => some (.shiftRight, 7)
  | "<" => some (.less, 5)
  | "<=" => some (.lessEq, 5)
  | ">" => some (.greater, 5)
  | ">=" => some (.greaterEq, 5)
  | "=" => some (.eq, 4)
  | "==" => some (.eq, 4)
  | "!=" => some (.ne, 4)
  | "<>" => some (.ne, 4)
  | _ => none

/-- What may follow an operand. -/
inductive Follow where
  | binary (op : BinaryOp) (strength : Nat)
  | keyword (word : String) (strength : Nat)

def follow? (t : Token) : Option Follow :=
  match t.kind with
  | .symbol => (symbolOp? t.text).map fun (op, n) => .binary op n
  | .word =>
    match foldName t.text with
    | "or" => some (.binary .or 1)
    | "and" => some (.binary .and 2)
    | "is" => some (.keyword "is" 4)
    | "not" => some (.keyword "not" 4)
    | "like" => some (.keyword "like" 4)
    | "in" => some (.keyword "in" 4)
    | "isnull" => some (.keyword "isnull" 4)
    | "notnull" => some (.keyword "notnull" 4)
    | _ => none
  | _ => none

def notStrength : Nat := 3

def equalityStrength : Nat := 4

def unaryStrength : Nat := 12

/-- A column of a table, after the table's name and the point. -/
def columnOf (table : Token) : Parser Expr := do
  let column ← nameToken
  return .column (some (plainText table)) (plainText column) false table.start

mutual

/-- An expression of operators that bind at least as strongly as `least`. -/
def expressionFrom : Nat → Nat → Parser Expr
  | 0, _ => unexpected
  | fuel + 1, least => do
    let first ← operand fuel
    continuation fuel least first

/-- The operators after an operand. -/
def continuation : Nat → Nat → Expr → Parser Expr
  | 0, _, _ => unexpected
  | fuel + 1, least, left => do
    match (← peek).bind follow? with
    | none => return left
    | some (.binary op n) =>
      if n < least then return left
      else
        advance
        let right ← expressionFrom fuel (n + 1)
        continuation fuel least (.binary op left right)
    | some (.keyword word n) =>
      if n < least then return left
      else
        advance
        let whole ← postfixed fuel word left
        continuation fuel least whole

/-- What follows an operand after a keyword. -/
def postfixed : Nat → String → Expr → Parser Expr
  | 0, _, _ => unexpected
  | fuel + 1, word, left => do
    match word with
    | "isnull" => return .isNull false left
    | "notnull" => return .isNull true left
    | "is" =>
      let negative ← keyword? "not"
      let right ← expressionFrom fuel (equalityStrength + 1)
      match right with
      | .literal .null => return .isNull negative left
      | _ => return .binary (if negative then .isNot else .is) left right
    | "not" =>
      if ← keyword? "null" then return .isNull true left
      else if ← keyword? "like" then likePattern fuel true left
      else if ← keyword? "in" then listItems fuel true left
      else unexpected
    | "like" => likePattern fuel false left
    | _ => listItems fuel false left

def likePattern : Nat → Bool → Expr → Parser Expr
  | 0, _, _ => unexpected
  | fuel + 1, negative, left => do
    let pattern ← expressionFrom fuel (equalityStrength + 1)
    return .like negative left pattern

def listItems : Nat → Bool → Expr → Parser Expr
  | 0, _, _ => unexpected
  | fuel + 1, negative, left => do
    symbol "("
    let items ← arguments fuel
    return .inList negative left items

/-- Expressions with commas between them up to a closing parenthesis. -/
def arguments : Nat → Parser (List Expr)
  | 0 => unexpected
  | fuel + 1 => do
    if ← symbol? ")" then return []
    else
      let first ← expressionFrom fuel 0
      if ← symbol? "," then moreArguments fuel [first]
      else
        symbol ")"
        return [first]

def moreArguments : Nat → List Expr → Parser (List Expr)
  | 0, _ => unexpected
  | fuel + 1, before => do
    let next ← expressionFrom fuel 0
    if ← symbol? "," then moreArguments fuel (before ++ [next])
    else
      symbol ")"
      return before ++ [next]

/-- A literal, a parameter, a name, a call, or an expression in parentheses or after a sign. -/
def operand : Nat → Parser Expr
  | 0 => unexpected
  | fuel + 1 => do
    match ← peek with
    | none => unexpected
    | some t =>
      match t.kind with
      | .integer =>
        advance
        return .literal (integerValue false t.text)
      | .real =>
        advance
        return .literal (realValue t.text)
      | .misgrouped => fail ("unrecognized token: \"" ++ t.text ++ "\"") none
      | .string =>
        advance
        if ← symbol? "." then columnOf t else return .literal (.text (plainText t))
      | .blob =>
        advance
        return .literal (blobValue t.text)
      | .parameter =>
        advance
        return .parameter (← parameterNumber t)
      | .name => named fuel t
      | .word =>
        match foldName t.text with
        | "null" =>
          advance
          return .literal .null
        | "not" =>
          advance
          return .unary .not (← expressionFrom fuel notStrength)
        | _ => if isFreeWord t then named fuel t else unexpected
      | .symbol =>
        match t.text with
        | "(" =>
          advance
          let e ← expressionFrom fuel 0
          symbol ")"
          return e
        | "-" =>
          advance
          match ← peek with
          | some n =>
            if n.kind == .integer then
              advance
              continuation fuel unaryStrength (.literal (integerValue true n.text))
            else return .unary .negate (← expressionFrom fuel unaryStrength)
          | none => unexpected
        | "+" =>
          advance
          return .unary .plus (← expressionFrom fuel unaryStrength)
        | "~" =>
          advance
          return .unary .bitNot (← expressionFrom fuel unaryStrength)
        | _ => unexpected
      | .illegal => unexpected

/-- A column or a call, at its name. -/
def named : Nat → Token → Parser Expr
  | 0, _ => unexpected
  | fuel + 1, t => do
    advance
    if t.kind == .word && (← symbol? "(") then
      if ← symbol? "*" then
        symbol ")"
        return .call (plainText t) [] true t.start
      else
        let args ← arguments fuel
        return .call (plainText t) args false t.start
    else if ← symbol? "." then columnOf t
    else return .column none (plainText t) (t.text.toList.head? == some '"') t.start

end

def expression : Parser Expr := do
  let ts ← tokens
  expressionFrom (8 * ts.length + 8) 0

/-! ## Queries -/

/-- A name after `as`, or directly. -/
def label? : Parser (Option String) := do
  if ← keyword? "as" then return some (← name)
  else if ← nextIs isName then return some (← name)
  else return none

def spanFrom (before after : List Token) : List Token :=
  before.take (before.length - after.length)

/-- A text without the ASCII blanks at its end. -/
def withoutBlanks (s : String) : String :=
  String.ofList (s.toList.reverse.dropWhile Lexer.isBlank).reverse

def resultColumn : Parser ResultColumn := do
  let before ← tokens
  match before with
  | t :: dot :: star :: _ =>
    if isSymbol "*" t then
      advance
      return .star
    else if isName t && isSymbol "." dot && isSymbol "*" star then
      advance
      advance
      advance
      return .tableStar (plainText t)
    else finish before
  | t :: _ =>
    if isSymbol "*" t then
      advance
      return .star
    else finish before
  | [] => finish before
where
  finish (before : List Token) : Parser ResultColumn := do
    let e ← expression
    let after ← tokens
    let text := withoutBlanks (spanText (spanFrom before after) ++ (← gap))
    let label ← label?
    return .expr e label text

/-- The offset of the first token that is neither a sign nor a parenthesis. -/
def bareOffset (tokens : List Token) : Nat :=
  let isOpening (t : Token) : Bool := isSymbol "(" t || isSymbol "-" t || isSymbol "+" t
  ((tokens.dropWhile isOpening).head?.map (·.start)).getD 0

def orderTerm : Parser OrderTerm := do
  let offset := bareOffset (← tokens)
  let e ← expression
  if ← keyword? "asc" then return ⟨e, false, offset⟩
  else if ← keyword? "desc" then return ⟨e, true, offset⟩
  else return ⟨e, false, offset⟩

def orderTerms : Parser (List OrderTerm) := do
  if ← keyword? "order" then
    keyword "by"
    commaList orderTerm
  else return []

def filter? : Parser (Option Expr) := do
  if ← keyword? "where" then return some (← expression) else return none

def valuesRow : Parser (List Expr) := do
  symbol "("
  let items ← commaList expression
  symbol ")"
  return items

mutual

def source : Nat → Parser SelectSource
  | 0 => unexpected
  | fuel + 1 => do
    if ← symbol? "(" then
      let s ← select fuel
      symbol ")"
      return .query s (← label?)
    else
      let (schema, t) ← schemaName
      return .table schema (plainText t) (← label?)

/-- One query of a union, with the order of its rows. -/
def single : Nat → Parser (Select × List OrderTerm)
  | 0 => unexpected
  | fuel + 1 => do
    if ← keyword? "values" then
      let rows ← commaList valuesRow
      return (.values rows, [])
    else
      keyword "select"
      if ← keyword? "all" then pure ()
      let columns ← commaList resultColumn
      let from_ ← if ← keyword? "from" then source fuel else pure .nothing
      let condition ← filter?
      let groups ← if ← keyword? "group" then do
          keyword "by"
          commaList expression
        else pure []
      let order ← orderTerms
      return (.single columns from_ condition groups, order)

/-- What follows the first query of a union. Only its last one can be put in order; `misplaced`
says whether another one has been. -/
def unions : Nat → Bool → Select → List OrderTerm → Parser Select
  | 0, _, _, _ => unexpected
  | fuel + 1, misplaced, left, order => do
    if ← keyword? "union" then
      keyword "all"
      let (right, next) ← single fuel
      unions fuel (misplaced || !order.isEmpty) (.unionAll left right) next
    else if misplaced then fail "ORDER BY clause should come after UNION ALL not before" none
    else if order.isEmpty then return left
    else return .ordered left order

def select : Nat → Parser Select
  | 0 => unexpected
  | fuel + 1 => do
    let (s, order) ← single fuel
    unions fuel false s order

end

def selectStatement : Parser Select := do
  let ts ← tokens
  select (2 * ts.length + 4)

/-! ## Tables -/

def ifNotExists : Parser Bool := do
  if ← keyword? "if" then
    keyword "not"
    keyword "exists"
    return true
  else return false

def ifExists : Parser Bool := do
  if ← keyword? "if" then
    keyword "exists"
    return true
  else return false

def nameList : Parser (List String) := do
  symbol "("
  let names ← commaList name
  symbol ")"
  return names

def direction : Parser Unit := do
  if ← keyword? "asc" then pure ()
  else if ← keyword? "desc" then pure ()

/-- Columns, each perhaps with a direction, in parentheses. -/
def indexedTokens : Parser (List Token) := do
  symbol "("
  let columns ← commaList do
    let t ← nameToken
    direction
    return t
  symbol ")"
  return columns

def indexedColumns : Parser (List String) := do return (← indexedTokens).map plainText

def signedNumber : Parser Value := do
  let negative ← if ← symbol? "-" then pure true else do
    let _ ← symbol? "+"
    pure false
  match ← peek with
  | some t =>
    match t.kind with
    | .integer =>
      advance
      return integerValue negative t.text
    | .real =>
      advance
      match realValue t.text with
      | .real f => return .real (Number.applySign negative f)
      | v => return v
    | _ => unexpected
  | none => unexpected

def defaultValue : Parser Value := do
  match ← peek with
  | some t =>
    match t.kind with
    | .string => return .text (← name)
    | .name => return .text (← name)
    | .blob =>
      advance
      return blobValue t.text
    | .word =>
      match foldName t.text with
      | "null" =>
        advance
        return .null
      | "true" =>
        advance
        return .integer 1
      | "false" =>
        advance
        return .integer 0
      | _ => return .text (← name)
    | _ => signedNumber
  | none => unexpected

/-- The table and the columns that a key refers to. -/
def parent (columns : List String) : Parser ForeignKey := do
  let table ← name
  let names ← if ← nextIs (isSymbol "(") then nameList else pure []
  return ⟨columns, table, names⟩

/-- The constraints of a column, at most `fuel`. -/
def columnConstraints : Nat → ColumnDef → Parser ColumnDef
  | 0, c => return c
  | fuel + 1, c => do
    if ← keyword? "constraint" then
      let _ ← name
    if ← keyword? "primary" then
      keyword "key"
      direction
      let _ ← keyword? "autoincrement"
      columnConstraints fuel { c with primaryKey := true }
    else if ← keyword? "not" then
      keyword "null"
      columnConstraints fuel { c with notNull := true }
    else if ← keyword? "null" then columnConstraints fuel c
    else if ← keyword? "unique" then columnConstraints fuel { c with unique := true }
    else if ← keyword? "default" then
      let v ← defaultValue
      columnConstraints fuel { c with default := v }
    else if ← keyword? "references" then
      let p ← parent [c.name]
      columnConstraints fuel { c with parents := c.parents ++ [p] }
    else return c

/-- The words of a type, at most `fuel`. -/
def typeWords : Nat → Parser Unit
  | 0 => return ()
  | fuel + 1 => do
    if ← nextIs isName then
      advance
      typeWords fuel
    else return ()

def typeSize : Parser Unit := do
  if ← symbol? "(" then
    let _ ← commaList signedNumber
    symbol ")"

def columnDef : Parser ColumnDef := do
  let n ← name
  let before ← tokens
  typeWords before.length
  if (spanFrom before (← tokens)).isEmpty then
    columnConstraints before.length { name := n }
  else
    typeSize
    let after ← tokens
    columnConstraints before.length { name := n, type := spanText (spanFrom before after) }

inductive TablePart where
  | column (c : ColumnDef)
  | primaryKey (columns : List String)
  | unique (columns : List String)
  | parent (p : ForeignKey)

/-- A constraint on a whole table. -/
def tableConstraint? : Parser (Option TablePart) := do
  if ← keyword? "constraint" then
    let _ ← name
  if ← keyword? "primary" then
    keyword "key"
    return some (.primaryKey (← indexedColumns))
  else if ← keyword? "unique" then return some (.unique (← indexedColumns))
  else if ← keyword? "foreign" then
    keyword "key"
    let columns ← nameList
    keyword "references"
    return some (.parent (← Parser.parent columns))
  else return none

/-- Parts of a table after commas, at most `fuel`: no column comes after a constraint. -/
def moreParts : Nat → Bool → Parser (List TablePart)
  | 0, _ => unexpected
  | fuel + 1, constrained => do
    if ← symbol? "," then
      match ← tableConstraint? with
      | some part => return part :: (← moreParts fuel true)
      | none =>
        if constrained then unexpected
        else
          let c ← columnDef
          return .column c :: (← moreParts fuel false)
    else return []

def tableParts : Parser (List TablePart) := do
  let ts ← tokens
  let first ← columnDef
  return .column first :: (← moreParts (ts.length + 1) false)

/-- What follows the parts of a table: options, at most `fuel`, none of which is known. -/
def tableOptions : Nat → Parser Unit
  | 0 => unexpected
  | fuel + 1 => do
    if ← nextIs isName then
      let t ← nameToken
      if (← atEnd) || (← nextIs (isSymbol ",")) then
        fail ("unknown table option: " ++ t.text) none
      else unexpected
    else if ← symbol? "," then
      if ← nextIs isName then tableOptions fuel else unexpected
    else return ()

def addPart (d : TableDef) : TablePart → TableDef
  | .column c => { d with columns := d.columns ++ [c] }
  | .primaryKey columns => { d with primaryKey := columns }
  | .unique columns => { d with uniques := d.uniques ++ [columns] }
  | .parent p => { d with parents := d.parents ++ [p] }

/-! ## Statements -/

/-- What comes before the columns of a table. -/
def tableHead : Parser (Bool × Token) := do
  let ifMissing ← ifNotExists
  let (_, t) ← schemaName
  return (ifMissing, t)

/-- The head of a statement that creates a table, as soon as the columns, or the rows,
begin. -/
def newTable : Parser (Bool × Token) := do
  keyword "create"
  keyword "table"
  let head ← tableHead
  if (← symbol? "(") || (← keyword? "as") then return head else unexpected

def createTable : Parser Statement := do
  let (ifMissing, t) ← tableHead
  let after ← tokens
  symbol "("
  let parts ← tableParts
  symbol ")"
  let rest ← tokens
  tableOptions (rest.length + 1)
  let text := "CREATE TABLE " ++ spanText (t :: spanFrom after rest)
  return .createTable ifMissing t.start (parts.foldl addPart ⟨plainText t, [], [], [], [], text⟩)

/-- An index. What stands before the end of the statement belongs to its text. -/
def createIndex (unique : Bool) : Parser Statement := do
  let ifMissing ← ifNotExists
  let (_, t) ← schemaName
  let after ← tokens
  keyword "on"
  let table ← name
  let columns ← indexedTokens
  let rest ← tokens
  let text := (if unique then "CREATE UNIQUE INDEX " else "CREATE INDEX ")
    ++ spanText (t :: spanFrom after rest) ++ (← gap)
  return .createIndex ifMissing unique (plainText t) table
    (columns.map fun c => (plainText c, c.start)) text

/-- A view. What stands before the end of the statement belongs to its text, but for blanks. -/
def createView : Parser Statement := do
  let ifMissing ← ifNotExists
  let (_, t) ← schemaName
  let after ← tokens
  let columns ← if ← nextIs (isSymbol "(") then nameList else pure []
  keyword "as"
  let s ← selectStatement
  if !(← get).parameters.isEmpty && (← atEnd) then
    fail "parameters are not allowed in views" none
  let rest ← tokens
  let text := "CREATE VIEW " ++ withoutBlanks (spanText (t :: spanFrom after rest) ++ (← gap))
  return .createView ifMissing t.start (plainText t) columns s text

def assignment : Parser (String × Expr) := do
  let n ← name
  symbol "="
  return (n, ← expression)

def returning : Parser (List ResultColumn) := do
  if ← keyword? "returning" then commaList resultColumn else return []

def conflict : Parser (Option (List String × Conflict)) := do
  if ← keyword? "on" then
    keyword "conflict"
    let columns ← if ← nextIs (isSymbol "(") then nameList else pure []
    keyword "do"
    if ← keyword? "nothing" then return some (columns, .nothing)
    else
      keyword "update"
      keyword "set"
      return some (columns, .update (← commaList assignment))
  else return none

def insert : Parser Statement := do
  keyword "into"
  let (schema, t) ← schemaName
  let columns ← if ← nextIs (isSymbol "(") then nameList else pure []
  keyword "values"
  let rows ← commaList valuesRow
  let clash ← conflict
  return .insert ⟨schema, plainText t, columns, rows, clash, ← returning⟩

def update : Parser Statement := do
  let (_, t) ← schemaName
  keyword "set"
  let assignments ← commaList assignment
  let condition ← filter?
  return .update (plainText t) assignments condition (← returning)

def delete : Parser Statement := do
  keyword "from"
  let (_, t) ← schemaName
  let condition ← filter?
  return .delete (plainText t) condition (← returning)

def create : Parser Statement := do
  if ← keyword? "table" then createTable
  else if ← keyword? "index" then createIndex false
  else if ← keyword? "unique" then
    keyword "index"
    createIndex true
  else if ← keyword? "view" then createView
  else unexpected

def drop : Parser Statement := do
  if ← keyword? "table" then
    let ifThere ← ifExists
    return .dropTable ifThere (plainText (← schemaName).2)
  else if ← keyword? "view" then
    let ifThere ← ifExists
    return .dropView ifThere (plainText (← schemaName).2)
  else if ← keyword? "index" then
    let ifThere ← ifExists
    return .dropIndex ifThere (plainText (← schemaName).2)
  else unexpected

/-- The whole number at the head of a text without blanks; zero if there is none or it is not
within 32 bits. -/
def smallNumber (text : String) : Int32 :=
  let (negative, cs) := Number.takeSign text.toList
  let n : Int := Number.digitsValue (cs.takeWhile Lexer.isDigit)
  let n := if negative then -n else n
  if -2147483648 ≤ n && n ≤ 2147483647 then Int32.ofInt n else 0

/-- The value given to a setting: a number, or a name or a string that may hold one. -/
def settingValue : Parser Int32 := do
  if ← nextIs isName then return smallNumber (← name)
  else
    let sign ← if ← symbol? "-" then pure "-" else do
      let _ ← symbol? "+"
      pure ""
    match ← peek with
    | some t =>
      if t.kind == .integer || t.kind == .real then
        advance
        return smallNumber (sign ++ t.text)
      else unexpected
    | none => unexpected

def setting : Parser Statement := do
  let (_, t) ← schemaName
  let isVersion := sameName (plainText t) "user_version"
  if ← symbol? "=" then
    let n ← settingValue
    return if isVersion then .setVersion n else .otherSetting
  else if ← symbol? "(" then
    let n ← settingValue
    symbol ")"
    return if isVersion then .setVersion n else .otherSetting
  else return if isVersion then .readVersion else .otherSetting

def statementOf : Parser Statement := do
  if (← nextIs (isKeyword "select")) || (← nextIs (isKeyword "values")) then
    return .select (← selectStatement)
  else if ← keyword? "create" then create
  else if ← keyword? "insert" then insert
  else if ← keyword? "update" then update
  else if ← keyword? "delete" then delete
  else if ← keyword? "drop" then drop
  else if ← keyword? "pragma" then setting
  else unexpected

/-- A statement, which ends with the text or with a separator. -/
def statement : Parser Statement := do
  let s ← statementOf
  if ← atEnd then return s else unexpected

end Parser

end LogConsole.Sql
