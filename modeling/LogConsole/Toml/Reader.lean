import LogConsole.Toml.Scalar
import LogConsole.Toml.Table

/-!
# LogConsole.Toml.Reader

Reads TOML documents (version 1.0).

* `key`, `value`  — a dotted key and a value at the head of a text;
* `document`      — all lines of a document, from top to bottom;
* `parse`         — the table that a document describes; none if it is not well formed.

The readers return what they read and the text after it. Line ends are one line feed: `parse`
replaces the longer form first.
-/

namespace LogConsole.Toml

abbrev Reader (α : Type) := List Char → Option (α × List Char)

/-! ## Space -/

def isSpace (c : Char) : Bool := c == ' ' || c == '\t'

def skipSpace (cs : List Char) : List Char := cs.dropWhile isSpace

/-- Characters that may stand in a comment, or unescaped in a string of one line. -/
def isPlain (c : Char) : Bool := c == '\t' || (0x20 ≤ c.toNat && c.toNat != 0x7F)

/-- Skips the rest of a line that holds nothing more than a comment. -/
def lineEnd (cs : List Char) : Option (List Char) :=
  let afterComment :=
    match skipSpace cs with
    | '#' :: rest => rest.dropWhile isPlain
    | rest => rest
  match afterComment with
  | [] => some []
  | '\n' :: rest => some rest
  | _ => none

/-- Skips space, line ends and comments. -/
def skipGaps (inComment : Bool) : List Char → Option (List Char)
  | [] => some []
  | c :: rest =>
    if c = '\n' then skipGaps false rest
    else if inComment then if isPlain c then skipGaps true rest else none
    else if isSpace c then skipGaps false rest
    else if c = '#' then skipGaps true rest
    else some (c :: rest)

/-! ## Strings -/

def hexValue? (c : Char) : Option Nat :=
  if '0' ≤ c && c ≤ '9' then some (c.toNat - 48)
  else if 'a' ≤ c && c ≤ 'f' then some (c.toNat - 87)
  else if 'A' ≤ c && c ≤ 'F' then some (c.toNat - 55)
  else none

/-- A character by its code point in hexadecimal digits. -/
def codeChar? (digits : List Char) : Option Char :=
  match digits.foldl (fun n d => match n, hexValue? d with
      | some n, some v => some (n * 16 + v)
      | _, _ => none) (some 0) with
  | some n => if n.isValidChar then some (Char.ofNat n) else none
  | none => none

/-- The character that a backslash and one more character stand for. -/
def simpleEscape? (c : Char) : Option Char :=
  if c = 'b' then some '\x08'
  else if c = 't' then some '\t'
  else if c = 'n' then some '\n'
  else if c = 'f' then some '\x0c'
  else if c = 'r' then some '\r'
  else if c = '"' then some '"'
  else if c = '\\' then some '\\'
  else none

/-- Whether a line holds nothing more. -/
def endsLine : List Char → Bool
  | [] => false
  | c :: rest => c == '\n' || (isSpace c && endsLine rest)

/-- The rest of a string in double quotes, of one line or of several; `acc` is what has been
read, last character first. With `skipping`, space and line ends are left out. -/
def basicFrom (long skipping : Bool) (acc : List Char) : Reader String
  | [] => none
  | '"' :: rest =>
    if long then
      match rest with
      | '"' :: '"' :: '"' :: '"' :: rest => some (String.ofList ('"' :: '"' :: acc).reverse, rest)
      | '"' :: '"' :: '"' :: rest => some (String.ofList ('"' :: acc).reverse, rest)
      | '"' :: '"' :: rest => some (String.ofList acc.reverse, rest)
      | rest => basicFrom long false ('"' :: acc) rest
    else some (String.ofList acc.reverse, rest)
  | '\\' :: rest =>
    match rest with
    | 'u' :: a :: b :: c :: d :: rest =>
      match codeChar? [a, b, c, d] with
      | some x => basicFrom long false (x :: acc) rest
      | none => none
    | 'U' :: a :: b :: c :: d :: e :: f :: g :: h :: rest =>
      match codeChar? [a, b, c, d, e, f, g, h] with
      | some x => basicFrom long false (x :: acc) rest
      | none => none
    | c :: rest =>
      match simpleEscape? c with
      | some x => basicFrom long false (x :: acc) rest
      | none => if long && endsLine (c :: rest) then basicFrom long true acc rest else none
    | [] => none
  | c :: rest =>
    if skipping && (isSpace c || c == '\n') then basicFrom long true acc rest
    else if isPlain c || (long && c == '\n') then basicFrom long false (c :: acc) rest
    else none

/-- The rest of a string in single quotes, of one line or of several. -/
def literalFrom (long : Bool) (acc : List Char) : Reader String
  | [] => none
  | '\'' :: rest =>
    if long then
      match rest with
      | '\'' :: '\'' :: '\'' :: '\'' :: rest =>
        some (String.ofList ('\'' :: '\'' :: acc).reverse, rest)
      | '\'' :: '\'' :: '\'' :: rest => some (String.ofList ('\'' :: acc).reverse, rest)
      | '\'' :: '\'' :: rest => some (String.ofList acc.reverse, rest)
      | rest => literalFrom long ('\'' :: acc) rest
    else some (String.ofList acc.reverse, rest)
  | c :: rest =>
    if isPlain c || (long && c == '\n') then literalFrom long (c :: acc) rest else none

def dropLineFeed : List Char → List Char
  | '\n' :: rest => rest
  | cs => cs

/-! ## Keys -/

def simpleKey : Reader String
  | '"' :: rest => basicFrom false false [] rest
  | '\'' :: rest => literalFrom false [] rest
  | cs =>
    match cs.takeWhile isBare with
    | [] => none
    | name => some (String.ofList name, cs.dropWhile isBare)

/-- Keys with dots between them; `fuel` bounds their number. -/
def keyFrom : Nat → Reader (List String)
  | 0, _ => none
  | fuel + 1, cs =>
    match simpleKey (skipSpace cs) with
    | none => none
    | some (name, rest) =>
      match skipSpace rest with
      | '.' :: rest =>
        match keyFrom fuel rest with
        | some (path, rest) => some (name :: path, rest)
        | none => none
      | rest => some ([name], rest)

def key : Reader (List String) := fun cs => keyFrom (cs.length + 1) cs

/-! ## Values -/

/-- A value of one word; a time may follow a date after a single space. -/
def word (cs : List Char) : Option (Value × List Char) :=
  let token := cs.takeWhile isWordChar
  let rest := cs.dropWhile isWordChar
  if token = "true".toList then some (.boolean true, rest)
  else if token = "false".toList then some (.boolean false, rest)
  else if isDate token then
    match rest with
    | ' ' :: more =>
      let time := more.takeWhile isWordChar
      if isClock time then
        some (.scalar (String.ofList (token ++ ' ' :: time)), more.dropWhile isWordChar)
      else some (.scalar (String.ofList token), rest)
    | _ => some (.scalar (String.ofList token), rest)
  else if isScalar token then some (.scalar (String.ofList token), rest)
  else none

mutual

def value : Nat → Reader Value
  | 0, _ => none
  | fuel + 1, cs =>
    match cs with
    | '"' :: '"' :: '"' :: rest =>
      (basicFrom true false [] (dropLineFeed rest)).map fun (s, rest) => (.text s, rest)
    | '"' :: rest => (basicFrom false false [] rest).map fun (s, rest) => (.text s, rest)
    | '\'' :: '\'' :: '\'' :: rest =>
      (literalFrom true [] (dropLineFeed rest)).map fun (s, rest) => (.text s, rest)
    | '\'' :: rest => (literalFrom false [] rest).map fun (s, rest) => (.text s, rest)
    | '[' :: rest => (items fuel rest).map fun (vs, rest) => (.array vs, rest)
    | '\x7b' :: rest =>
      match skipSpace rest with
      | '\x7d' :: rest => some (.table [], rest)
      | rest => (members fuel [] rest).map fun (es, rest) =>
        (.table (Node.entriesToValues es), rest)
    | cs => word cs

/-- The rest of an array, at an item or at the closing bracket. -/
def items : Nat → Reader (List Value)
  | 0, _ => none
  | fuel + 1, cs =>
    match skipGaps false cs with
    | none => none
    | some (']' :: rest) => some ([], rest)
    | some cs =>
      match value fuel cs with
      | none => none
      | some (v, rest) =>
        match skipGaps false rest with
        | some (',' :: rest) => (items fuel rest).map fun (vs, rest) => (v :: vs, rest)
        | some (']' :: rest) => some ([v], rest)
        | _ => none

/-- The rest of an inline table, at a key. -/
def members : Nat → Entries → Reader Entries
  | 0, _, _ => none
  | fuel + 1, entries, cs =>
    match key cs with
    | some (path, '=' :: rest) =>
      match value fuel (skipSpace rest) with
      | none => none
      | some (v, rest) =>
        match assign v path entries with
        | none => none
        | some entries =>
          match skipSpace rest with
          | ',' :: rest => members fuel entries rest
          | '\x7d' :: rest => some (entries, rest)
          | _ => none
    | _ => none

end

/-! ## Documents -/

/-- Reads lines; `header` is the path of the last header and `entries` what the lines before
have built. -/
def document : Nat → List String → Entries → List Char → Option Entries
  | 0, _, _, _ => none
  | fuel + 1, header, entries, cs =>
    match skipSpace cs with
    | [] => some entries
    | '[' :: '[' :: rest =>
      match key rest with
      | some (path, ']' :: ']' :: rest) =>
        match lineEnd rest, openElement path entries with
        | some rest, some entries => document fuel path entries rest
        | _, _ => none
      | _ => none
    | '[' :: rest =>
      match key rest with
      | some (path, ']' :: rest) =>
        match lineEnd rest, openTable path entries with
        | some rest, some entries => document fuel path entries rest
        | _, _ => none
      | _ => none
    | cs =>
      match lineEnd cs with
      | some rest => document fuel header entries rest
      | none =>
        match key cs with
        | some (path, '=' :: rest) =>
          match value (rest.length + 1) (skipSpace rest) with
          | none => none
          | some (v, rest) =>
            match lineEnd rest, assignUnder header path v entries with
            | some rest, some entries => document fuel header entries rest
            | _, _ => none
        | _ => none

/-- Replaces each carriage return and line feed by a line feed. -/
def joinLineEnds : List Char → List Char
  | '\r' :: '\n' :: rest => '\n' :: joinLineEnds rest
  | c :: rest => c :: joinLineEnds rest
  | [] => []

def dropMark : List Char → List Char
  | '\uFEFF' :: rest => rest
  | cs => cs

def parse (text : String) : Option (List (String × Value)) :=
  let cs := joinLineEnds (dropMark text.toList)
  (document (cs.length + 1) [] [] cs).map Node.entriesToValues

end LogConsole.Toml
