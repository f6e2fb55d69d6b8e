import LogConsole.Number.Text

/-!
# LogConsole.Json.Value

JSON values and their written forms (RFC 8259).

* `Json`        — a value; a number is a whole number or a binary64 number;
* `compact`     — no space at all;
* `pretty`      — one element a line, two blanks for each level;
* `sortKeys`    — members in increasing order of their names, the last of equal names kept.

A string escapes the quotation mark, the backslash and the characters below U+0020 and nothing
else, so a written value holds no control character. A number that is not finite is `null`.
-/

namespace LogConsole

inductive Json where
  | null
  | bool (b : Bool)
  | int (n : Int)
  | real (f : Float)
  | str (s : String)
  | arr (items : List Json)
  | obj (members : List (String × Json))
  deriving Inhabited

namespace Json

def hexDigit (n : Nat) : Char :=
  if n < 10 then Char.ofNat (n + 48) else Char.ofNat (n + 87)

def escapeChar (c : Char) : List Char :=
  if c = '"' then ['\\', '"']
  else if c = '\\' then ['\\', '\\']
  else if 0x20 ≤ c.toNat then [c]
  else if c = '\x08' then ['\\', 'b']
  else if c = '\x0c' then ['\\', 'f']
  else if c = '\n' then ['\\', 'n']
  else if c = '\r' then ['\\', 'r']
  else if c = '\t' then ['\\', 't']
  else ['\\', 'u', '0', '0', hexDigit (c.toNat / 16), hexDigit (c.toNat % 16)]

def quoted (s : String) : List Char := '"' :: s.toList.flatMap escapeChar ++ ['"']

def realText (f : Float) : List Char :=
  match Number.jsonNumber? f with
  | some s => s.toList
  | none => "null".toList

mutual

def compactChars : Json → List Char
  | .null => "null".toList
  | .bool true => "true".toList
  | .bool false => "false".toList
  | .int n => (toString n).toList
  | .real f => realText f
  | .str s => quoted s
  | .arr items => '[' :: compactItems items ++ [']']
  | .obj members => '\x7b' :: compactMembers members ++ ['\x7d']

def compactItems : List Json → List Char
  | [] => []
  | [j] => compactChars j
  | j :: rest => compactChars j ++ ',' :: compactItems rest

def compactMembers : List (String × Json) → List Char
  | [] => []
  | [(k, j)] => quoted k ++ ':' :: compactChars j
  | (k, j) :: rest => quoted k ++ ':' :: compactChars j ++ ',' :: compactMembers rest

end

def compact (j : Json) : String := String.ofList (compactChars j)

def newline (depth : Nat) : List Char := '\n' :: List.replicate (2 * depth) ' '

mutual

def prettyChars (depth : Nat) : Json → List Char
  | .arr [] => ['[', ']']
  | .arr items => '[' :: prettyItems depth items ++ newline depth ++ [']']
  | .obj [] => ['\x7b', '\x7d']
  | .obj members => '\x7b' :: prettyMembers depth members ++ newline depth ++ ['\x7d']
  | .null => "null".toList
  | .bool true => "true".toList
  | .bool false => "false".toList
  | .int n => (toString n).toList
  | .real f => realText f
  | .str s => quoted s

def prettyItems (depth : Nat) : List Json → List Char
  | [] => []
  | [j] => newline (depth + 1) ++ prettyChars (depth + 1) j
  | j :: rest =>
    newline (depth + 1) ++ prettyChars (depth + 1) j ++ ',' :: prettyItems depth rest

def prettyMembers (depth : Nat) : List (String × Json) → List Char
  | [] => []
  | [(k, j)] =>
    newline (depth + 1) ++ quoted k ++ ':' :: ' ' :: prettyChars (depth + 1) j
  | (k, j) :: rest =>
    newline (depth + 1) ++ quoted k ++ ':' :: ' ' :: prettyChars (depth + 1) j
      ++ ',' :: prettyMembers depth rest

end

def pretty (j : Json) : String := String.ofList (prettyChars 0 j)

/-- Puts a member into members sorted by name, in place of one of the same name. -/
def putMember (k : String) (j : Json) : List (String × Json) → List (String × Json)
  | [] => [(k, j)]
  | (k', j') :: rest =>
    if k' = k then (k, j) :: rest
    else if k < k' then (k, j) :: (k', j') :: rest
    else (k', j') :: putMember k j rest

mutual

def sortKeys : Json → Json
  | .arr items => .arr (sortItems items)
  | .obj members => .obj (sortMembers [] members)
  | j => j

def sortItems : List Json → List Json
  | [] => []
  | j :: rest => sortKeys j :: sortItems rest

/-- `sorted` holds the members before these. -/
def sortMembers (sorted : List (String × Json)) : List (String × Json) → List (String × Json)
  | [] => sorted
  | (k, j) :: rest => sortMembers (putMember k (sortKeys j) sorted) rest

end

/-- A number that is not finite has no JSON form of its own. -/
def ofReal (f : Float) : Json := if Number.isFinite f then .real f else .null

end Json

end LogConsole
