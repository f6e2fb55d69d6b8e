import LogConsole.Text.Utf8

/-!
# LogConsole.Sql.Token

The tokens of SQL.

* `Token`     — its kind, its text, the blanks and comments before it, and where it starts,
  counted in bytes;
* `lexeme`    — the kind and the length of the token at the head of a text; blanks and comments
  have no kind;
* `tokenize`  — all tokens of a text, and the blanks after the last;
* `spanText`  — the text from the first to the last of some tokens.

What starts no token, a quotation that is not closed, and a number that runs into a word are
`illegal` tokens; they are refused where they are read. A `misgrouped` number is refused where a
number may stand.
-/

namespace LogConsole.Sql

inductive TokenKind where
  | word
  /-- A name in double quotes, backquotes or brackets. -/
  | name
  | string
  | blob
  | integer
  | real
  /-- A number with an underscore that is not between two digits. -/
  | misgrouped
  | parameter
  | symbol
  | illegal
  deriving DecidableEq, Repr

structure Token where
  kind : TokenKind
  text : String
  gap : String := ""
  start : Nat := 0
  deriving DecidableEq, Repr

namespace Lexer

def isSpace (c : Char) : Bool :=
  c == ' ' || c == '\t' || c == '\n' || c == '\x0c' || c == '\r'

/-- A blank, or the vertical tab that may stand among blanks. -/
def isBlank (c : Char) : Bool := isSpace c || c == '\x0b'

def isDigit (c : Char) : Bool := '0' ≤ c && c ≤ '9'

def isHexDigit (c : Char) : Bool :=
  isDigit c || ('a' ≤ c && c ≤ 'f') || ('A' ≤ c && c ≤ 'F')

def isNameStart (c : Char) : Bool :=
  ('a' ≤ c && c ≤ 'z') || ('A' ≤ c && c ≤ 'Z') || c == '_' || 128 ≤ c.toNat

def isNameChar (c : Char) : Bool := isNameStart c || isDigit c || c == '$'

def count (p : Char → Bool) (cs : List Char) : Nat := (cs.takeWhile p).length

/-- The length of the rest of a quotation with its closing mark; a doubled mark does not close
it. None if it is not closed. -/
def quoteLength (mark : Char) : List Char → Option Nat
  | [] => none
  | c :: rest =>
    if c = mark then
      match rest with
      | d :: rest => if d = mark then (quoteLength mark rest).map (· + 2) else some 1
      | [] => some 1
    else (quoteLength mark rest).map (· + 1)

/-- The length of the rest of a comment between `/*` and `*/`, or to the end of the text. -/
def commentLength : List Char → Nat
  | [] => 0
  | '*' :: '/' :: _ => 2
  | _ :: rest => commentLength rest + 1

/-- The kind and the length of the rest of a parameter's name, after `n` characters of it. -/
def parameterName : Nat → List Char → TokenKind × Nat
  | n, c :: rest =>
    if isNameChar c then longer 1 (parameterName (n + 1) rest)
    else if c = '(' && 0 < n then
      let inside := count (fun d => !isBlank d && d != ')') rest
      match rest.drop inside with
      | ')' :: _ => (.parameter, inside + 2)
      | _ => (.illegal, inside + 1)
    else if c = ':' then
      match rest with
      | ':' :: rest => longer 2 (parameterName n rest)
      | _ => (ending n, 0)
    else (ending n, 0)
  | n, [] => (ending n, 0)
where
  longer (n : Nat) (r : TokenKind × Nat) : TokenKind × Nat := (r.1, r.2 + n)
  ending (n : Nat) : TokenKind := if 0 < n then .parameter else .illegal

/-- The length of an exponent, or none if the text starts with no exponent. -/
def exponentLength : List Char → Nat
  | e :: rest =>
    if e = 'e' || e = 'E' then
      match rest with
      | s :: d :: _ =>
        if isDigit s then 1 + count isDigit rest
        else if (s = '+' || s = '-') && isDigit d then 2 + count isDigit (rest.drop 1)
        else 0
      | [d] => if isDigit d then 2 else 0
      | [] => 0
    else 0
  | [] => 0

/-- The length of an exponent with underscores between its digits. -/
def groupedExponentLength (cs : List Char) : Nat :=
  match exponentLength cs with
  | 0 => 0
  | n => n + count (fun c => isDigit c || c == '_') (cs.drop n)

/-- Whether each underscore stands between two digits; the first argument is what stands before. -/
def wellGrouped (digit : Char → Bool) : Char → List Char → Bool
  | _, [] => true
  | before, c :: rest =>
    (c != '_' || (digit before && (rest.head?.map digit).getD false)) && wellGrouped digit c rest

/-- A number, which must not run into a word. Underscores may separate its digits. -/
def number (cs : List Char) : TokenKind × Nat :=
  let close (kind : TokenKind) (digit : Char → Bool) (length : Nat) : TokenKind × Nat :=
    match count isNameChar (cs.drop length) with
    | 0 => (if wellGrouped digit '_' (cs.take length) then kind else .misgrouped, length)
    | more => (.illegal, length + more)
  let isGrouped (c : Char) : Bool := isDigit c || c == '_'
  let decimal : TokenKind × Nat :=
    let whole := count isGrouped cs
    match cs.drop whole with
    | '.' :: rest =>
      let length := whole + 1 + count isGrouped rest
      close .real isDigit (length + groupedExponentLength (cs.drop length))
    | rest =>
      match groupedExponentLength rest with
      | 0 => close .integer isDigit whole
      | more => close .real isDigit (whole + more)
  match cs with
  | '0' :: x :: d :: rest =>
    if (x = 'x' || x = 'X') && isHexDigit d then
      close .integer isHexDigit (2 + count (fun c => isHexDigit c || c == '_') (d :: rest))
    else decimal
  | _ => decimal

/-- A byte string: pairs of hexadecimal digits. -/
def blob (cs : List Char) : TokenKind × Nat :=
  let digits := count isHexDigit (cs.drop 2)
  match cs.drop (2 + digits) with
  | '\'' :: _ => if digits % 2 == 0 then (.blob, digits + 3) else (.illegal, digits + 3)
  | rest =>
    let more := count (· != '\'') rest
    (.illegal, 2 + digits + more + (rest.drop more).length.min 1)

def quotation (kind : TokenKind) (mark : Char) (rest : List Char) : Option TokenKind × Nat :=
  match quoteLength mark rest with
  | some n => (some kind, n + 1)
  | none => (some .illegal, rest.length + 1)

def wordAt (cs : List Char) : Option TokenKind × Nat := (some .word, count isNameChar cs)

def kinded (r : TokenKind × Nat) : Option TokenKind × Nat := (some r.1, r.2)

/-- The token at the head of a text that is not empty. -/
def lexeme : List Char → Option TokenKind × Nat
  | [] => (none, 0)
  | c :: rest =>
    if isSpace c then (none, 1 + count isBlank rest)
    else if c = '-' then
      match rest with
      | '-' :: more => (none, 2 + count (· != '\n') more)
      | '>' :: '>' :: _ => (some .symbol, 3)
      | '>' :: _ => (some .symbol, 2)
      | _ => (some .symbol, 1)
    else if c = '/' then
      match rest with
      | '*' :: d :: more => (none, 3 + (if d = '*' && more.head? == some '/' then 1
          else commentLength more))
      | _ => (some .symbol, 1)
    else if c = '(' || c = ')' || c = ';' || c = '+' || c = '*' || c = '%' || c = ',' || c = '&'
        || c = '~' then (some .symbol, 1)
    else if c = '=' then (some .symbol, if rest.head? == some '=' then 2 else 1)
    else if c = '<' then
      match rest.head? with
      | some '=' => (some .symbol, 2)
      | some '>' => (some .symbol, 2)
      | some '<' => (some .symbol, 2)
      | _ => (some .symbol, 1)
    else if c = '>' then
      match rest.head? with
      | some '=' => (some .symbol, 2)
      | some '>' => (some .symbol, 2)
      | _ => (some .symbol, 1)
    else if c = '!' then if rest.head? == some '=' then (some .symbol, 2) else (some .illegal, 1)
    else if c = '|' then (some .symbol, if rest.head? == some '|' then 2 else 1)
    else if c = '\'' then quotation .string '\'' rest
    else if c = '"' then quotation .name '"' rest
    else if c = '\x60' then quotation .name '\x60' rest
    else if c = '[' then
      let inside := count (· != ']') rest
      if inside < rest.length then (some .name, inside + 2) else (some .illegal, rest.length + 1)
    else if c = '.' then
      match rest with
      | d :: _ => if isDigit d then kinded (number (c :: rest)) else (some .symbol, 1)
      | [] => (some .symbol, 1)
    else if isDigit c then kinded (number (c :: rest))
    else if c = '?' then (some .parameter, 1 + count isDigit rest)
    else if c = '$' || c = '@' || c = '#' || c = ':' then kinded (parameterName.longer 1 (parameterName 0 rest))
    else if c = 'x' || c = 'X' then
      match rest with
      | '\'' :: _ => kinded (blob (c :: rest))
      | _ => wordAt (c :: rest)
    else if isNameStart c then wordAt (c :: rest)
    else (some .illegal, 1)

/-- Reads at most `fuel` tokens and gaps; `gap` is what has been skipped, and `start` the offset
after it. -/
def tokensFrom : Nat → List Char → Nat → List Char → List Token × String
  | _, gap, _, [] => ([], String.ofList gap)
  | 0, gap, _, _ => ([], String.ofList gap)
  | fuel + 1, gap, start, cs =>
    match lexeme cs with
    | (none, n) =>
      tokensFrom fuel (gap ++ cs.take n) (start + Text.Utf8.size (cs.take n)) (cs.drop n)
    | (some kind, n) =>
      let (tokens, last) := tokensFrom fuel [] (start + Text.Utf8.size (cs.take n)) (cs.drop n)
      (⟨kind, String.ofList (cs.take n), String.ofList gap, start⟩ :: tokens, last)

end Lexer

/-- The tokens of a text and the blanks after the last one. A text ends at its first NUL. -/
def tokenize (text : String) : List Token × String :=
  let cs := text.toList.takeWhile (· != '\x00')
  Lexer.tokensFrom cs.length [] 0 cs

def spanText : List Token → String
  | [] => ""
  | t :: rest => t.text ++ String.join (rest.map fun u => u.gap ++ u.text)

end LogConsole.Sql
