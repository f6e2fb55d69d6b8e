import LogConsole.Text.Category

/-!
# LogConsole.Shell.Syntax

The command lines that are handed to a shell (a part of POSIX's shell language).

* `Piece`, `Word` — quoted and unquoted text and parameters, side by side;
* `Token`         — words and operators, as `tokenize` finds them;
* `Simple`, `Pipeline`, `Script` — a command with its redirections, commands joined by `|`, and
  pipelines joined by `;`, `&&` and `||`;
* `Script.parse`  — the script that a text holds, or what is wrong with it.
-/

namespace LogConsole.Shell

inductive Piece where
  | text (cs : List Char) (quoted : Bool)
  | parameter (name : String) (quoted : Bool)
  deriving DecidableEq, Repr

abbrev Word := List Piece

inductive Token where
  | word (w : Word)
  | operator (name : String)
  deriving DecidableEq, Repr

/-! ## Tokens -/

/-- Characters before a quotation mark, and what comes after it. -/
def single : List Char → Option (List Char × List Char)
  | [] => none
  | c :: rest =>
    if c = '\'' then some ([], rest)
    else (single rest).map fun (cs, rest) => (c :: cs, rest)

/-- The name after a dollar sign, and how many characters it takes. -/
def parameterName? (cs : List Char) : Option (String × Nat) :=
  match cs with
  | '\x7b' :: rest =>
    let name := rest.takeWhile (· != '\x7d')
    some (String.ofList name, name.length + 2)
  | c :: rest =>
    if Text.isAsciiLetter c || c == '_' then
      let name := c :: rest.takeWhile Text.isAsciiWord
      some (String.ofList name, name.length)
    else if Text.isAsciiWord c || "?#@*$!-".toList.contains c then some (String.singleton c, 1)
    else none
  | [] => none

/-- Where the reading of a word stands. -/
structure Reading where
  word : Word := []
  /-- Whether a word has begun. -/
  started : Bool := false
  tokens : List Token := []

namespace Reading

def addText (r : Reading) (cs : List Char) (quoted : Bool) : Reading :=
  { r with word := r.word ++ [.text cs quoted], started := true }

def addParameter (r : Reading) (name : String) (quoted : Bool) : Reading :=
  { r with word := r.word ++ [.parameter name quoted], started := true }

def endWord (r : Reading) : Reading :=
  if r.started then { word := [], started := false, tokens := r.tokens ++ [.word r.word] } else r

def addOperator (r : Reading) (name : String) : Reading :=
  { r.endWord with tokens := r.endWord.tokens ++ [.operator name] }

/-- The operators, each before those that it starts with. -/
def operators : List String :=
  ["2>&1", "1>&2", "2>>", "2>", "1>>", "1>", ">&2", ">&1", "&&", "||", ">>", ";", "|", "&", ">", "<"]

/-- An operator that starts with a digit stands at the start of a word only. -/
def operator? (started : Bool) (cs : List Char) : Option String :=
  operators.find? fun o =>
    o.toList.isPrefixOf cs && !(started && (o.toList.headD ' ').isDigit)

end Reading

/-- Reads on, in double quotes or outside them; `fuel` bounds the number of characters. -/
def readFrom : Nat → Bool → Reading → List Char → Except String (List Token)
  | _, true, _, [] => .error "Unterminated quoted string"
  | _, false, r, [] => .ok r.endWord.tokens
  | 0, _, r, _ => .ok r.endWord.tokens
  | fuel + 1, true, r, c :: rest =>
    if c = '"' then readFrom fuel false (r.addText [] true) rest
    else if c = '\\' then
      match rest with
      | d :: more =>
        if d = '\n' then readFrom fuel true r more
        else if d = '$' || d = '\x60' || d = '"' || d = '\\' then
          readFrom fuel true (r.addText [d] true) more
        else readFrom fuel true (r.addText [c, d] true) more
      | [] => .error "Unterminated quoted string"
    else if c = '$' then
      match parameterName? rest with
      | some (name, size) => readFrom fuel true (r.addParameter name true) (rest.drop size)
      | none => readFrom fuel true (r.addText [c] true) rest
    else readFrom fuel true (r.addText [c] true) rest
  | fuel + 1, false, r, c :: rest =>
    if c = ' ' || c = '\t' then readFrom fuel false r.endWord rest
    else if c = '\n' then readFrom fuel false (r.addOperator ";") rest
    else if c = '#' && !r.started then readFrom fuel false r (rest.dropWhile (· != '\n'))
    else if c = '\'' then
      match single rest with
      | some (cs, rest) => readFrom fuel false (r.addText cs true) rest
      | none => .error "Unterminated quoted string"
    else if c = '"' then readFrom fuel true r rest
    else if c = '\\' then
      match rest with
      | d :: more =>
        if d = '\n' then readFrom fuel false r more
        else readFrom fuel false (r.addText [d] true) more
      | [] => readFrom fuel false (r.addText [c] true) []
    else if c = '$' then
      match parameterName? rest with
      | some (name, size) => readFrom fuel false (r.addParameter name false) (rest.drop size)
      | none => readFrom fuel false (r.addText [c] false) rest
    else
      match Reading.operator? r.started (c :: rest) with
      | some o => readFrom fuel false (r.addOperator o) ((c :: rest).drop o.length)
      | none => readFrom fuel false (r.addText [c] false) rest

def tokenize (text : String) : Except String (List Token) :=
  readFrom text.length false {} text.toList

/-! ## Scripts -/

inductive Stream where
  | input | output | errors
  deriving DecidableEq, Repr

inductive Redirection where
  | read (w : Word)
  | write (stream : Stream) (append : Bool) (w : Word)
  /-- Where a stream goes from here on is where another one goes. -/
  | copy (stream other : Stream)
  deriving DecidableEq, Repr

structure Simple where
  words : List Word := []
  redirections : List Redirection := []
  deriving DecidableEq, Repr

abbrev Pipeline := List Simple

/-- When a pipeline runs, by the outcome of the one before it. -/
inductive Condition where
  | always | afterSuccess | afterFailure
  deriving DecidableEq, Repr

abbrev Script := List (Condition × Pipeline)

namespace Script

def redirection? : String → Option (Word → Redirection)
  | "<" => some .read
  | ">" | "1>" => some (.write .output false)
  | ">>" | "1>>" => some (.write .output true)
  | "2>" => some (.write .errors false)
  | "2>>" => some (.write .errors true)
  | _ => none

def copy? : String → Option Redirection
  | "2>&1" => some (.copy .errors .output)
  | "1>&2" | ">&2" => some (.copy .output .errors)
  | ">&1" => some (.copy .output .output)
  | _ => none

def unexpected (what : String) : String := what ++ " unexpected"

/-- A script as far as it has been read: what is complete, the commands of the pipeline being
read, and the command being read. -/
structure Progress where
  done : Script := []
  condition : Condition := .always
  pipeline : Pipeline := []
  current : Simple := {}
  deriving DecidableEq, Repr

namespace Progress

def isBlank (p : Progress) : Bool := p.current.words.isEmpty && p.current.redirections.isEmpty

/-- Ends the pipeline being read; the next one runs on a condition. -/
def endPipeline (p : Progress) (next : Condition) : Progress :=
  if p.isBlank && p.pipeline.isEmpty then { p with condition := next }
  else ⟨p.done ++ [(p.condition, p.pipeline ++ [p.current])], next, [], {}⟩

def addRedirection (p : Progress) (r : Redirection) : Progress :=
  { p with current := { p.current with redirections := p.current.redirections ++ [r] } }

/-- An operator other than a redirection. -/
def addOperator (p : Progress) (name : String) : Except String Progress :=
  if name = ";" then
    if p.isBlank && (!p.pipeline.isEmpty || p.condition != .always) then .ok p
    else .ok (p.endPipeline .always)
  else if p.isBlank then .error (unexpected ("\"" ++ name ++ "\""))
  else if name = "|" then .ok { p with pipeline := p.pipeline ++ [p.current], current := {} }
  else if name = "&&" then .ok (p.endPipeline .afterSuccess)
  else if name = "||" then .ok (p.endPipeline .afterFailure)
  else .ok (p.endPipeline .always)

end Progress

def parseFrom (p : Progress) : List Token → Except String Script
  | [] =>
    if p.isBlank && (!p.pipeline.isEmpty || p.condition != .always) then
      .error (unexpected "end of file")
    else .ok (p.endPipeline .always).done
  | .word w :: rest =>
    parseFrom { p with current := { p.current with words := p.current.words ++ [w] } } rest
  | .operator name :: rest =>
    match copy? name with
    | some r => parseFrom (p.addRedirection r) rest
    | none =>
      match redirection? name with
      | some r =>
        match rest with
        | .word w :: rest => parseFrom (p.addRedirection (r w)) rest
        | .operator o :: _ => .error (unexpected ("\"" ++ o ++ "\""))
        | [] => .error (unexpected "end of file")
      | none =>
        match p.addOperator name with
        | .ok p => parseFrom p rest
        | .error e => .error e

def parse (text : String) : Except String Script :=
  match tokenize text with
  | .ok tokens => parseFrom {} tokens
  | .error e => .error e

end Script

end LogConsole.Shell
