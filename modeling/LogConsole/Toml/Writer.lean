import LogConsole.Toml.Scalar

/-!
# LogConsole.Toml.Writer

The written forms of TOML's strings, keys and arrays of strings.

* `Traits`   — what in a text decides how it can be quoted;
* `Quoting`  — the four kinds of string; `preferred` picks the first that needs no escape;
* `writeText`  — a text as a string;
* `writeKey`   — a name as a key: bare if its characters allow, else quoted;
* `writeTextArray` — no item, or one item a line.
-/

namespace LogConsole.Toml

/-- The length of the longest run of `q`; `run` is the length of the run being read. -/
def longestRun (q : Char) (run : Nat) : List Char → Nat
  | [] => run
  | c :: rest => if c = q then longestRun q (run + 1) rest else max run (longestRun q 0 rest)

structure Traits where
  singles : Nat
  doubles : Nat
  backslash : Bool
  /-- Control characters other than the tab and the line feed. -/
  control : Bool
  lineFeed : Bool
  deriving DecidableEq, Repr

def isControl (c : Char) : Bool :=
  (c.toNat < 0x20 && c != '\t' && c != '\n') || c.toNat == 0x7F

def traits (cs : List Char) : Traits :=
  ⟨longestRun '\'' 0 cs, longestRun '"' 0 cs, cs.contains '\\', cs.any isControl,
    cs.contains '\n'⟩

inductive Quoting where
  | basic | literal | longBasic | longLiteral
  deriving DecidableEq, Repr

/-- The first of the kinds that show the text as it is, or else one with escapes. -/
def Traits.preferred (t : Traits) : Quoting :=
  if !t.backslash && !t.control && t.doubles == 0 && !t.lineFeed then .basic
  else if !t.control && t.singles == 0 && !t.lineFeed then .literal
  else if !t.backslash && !t.control && t.doubles ≤ 2 then .longBasic
  else if !t.control && t.singles ≤ 2 then .longLiteral
  else if t.lineFeed then .longBasic
  else .basic

def hexDigit (n : Nat) : Char :=
  if n < 10 then Char.ofNat (n + 48) else Char.ofNat (n + 55)

def escapeControl (c : Char) : List Char :=
  if c = '\x08' then ['\\', 'b']
  else if c = '\t' then ['\\', 't']
  else if c = '\n' then ['\\', 'n']
  else if c = '\x0c' then ['\\', 'f']
  else if c = '\r' then ['\\', 'r']
  else ['\\', 'u', '0', '0', hexDigit (c.toNat / 16), hexDigit (c.toNat % 16)]

/-- The characters between double quotes. In a string of several lines a line feed stands for
itself, and so do up to two quotes in a row; `run` counts those just before. -/
def escaped (long : Bool) (run : Nat) : List Char → List Char
  | [] => []
  | c :: rest =>
    if c = '"' then
      if long && run < 2 then '"' :: escaped long (run + 1) rest
      else '\\' :: '"' :: escaped long 0 rest
    else if c = '\\' then '\\' :: '\\' :: escaped long 0 rest
    else if c = '\n' && long then '\n' :: escaped long 0 rest
    else if c.toNat < 0x20 || c.toNat == 0x7F then escapeControl c ++ escaped long 0 rest
    else c :: escaped long 0 rest

/-- A line feed right after the opening quotes of a string of several lines is not part of it. -/
def opening (t : Traits) : List Char := if t.lineFeed then ['\n'] else []

def quoted (t : Traits) (cs : List Char) : Quoting → List Char
  | .basic => '"' :: escaped false 0 cs ++ ['"']
  | .literal => '\'' :: cs ++ ['\'']
  | .longBasic => '"' :: '"' :: '"' :: opening t ++ escaped true 0 cs ++ ['"', '"', '"']
  | .longLiteral => '\'' :: '\'' :: '\'' :: opening t ++ cs ++ ['\'', '\'', '\'']

def textChars (cs : List Char) : List Char := quoted (traits cs) cs (traits cs).preferred

def writeText (s : String) : String := String.ofList (textChars s.toList)

def keyChars (cs : List Char) : List Char :=
  let t := traits cs
  if !cs.isEmpty && cs.all isBare then cs
  else if !t.backslash && !t.control && !t.lineFeed && t.doubles == 0 then quoted t cs .basic
  else if !t.control && !t.lineFeed && t.singles == 0 then quoted t cs .literal
  else quoted t cs .basic

def writeKey (s : String) : String := String.ofList (keyChars s.toList)

def writeTextArray (items : List String) : String :=
  match items with
  | [] => "[]"
  | items => "[\n" ++ String.join (items.map fun s => "    " ++ writeText s ++ ",\n") ++ "]"

end LogConsole.Toml
