import LogConsole.Expansion
import LogConsole.Text.Blank

/-!
# LogConsole.Words

The words of a command line.

* `Words.split`  — words by the quoting rules of POSIX: blanks outside quotes part words, single
  quotes keep everything, double quotes keep everything but a backslash before one of
  `$`, backquote, `"`, backslash and line feed, and a `#` at the start of a word starts a
  comment;
* `splitExpanded` — the words of a text whose variable references have been replaced;
* `Words.quote`  — a word in single quotes;
* `argumentText` — a command line without the name it starts with.
-/

namespace LogConsole.Words

def isSeparator (c : Char) : Bool := c == ' ' || c == '\t' || c == '\n'

/-- Where the reading of a text stands. -/
inductive State where
  /-- Between two words. -/
  | between
  /-- In a comment. -/
  | comment
  /-- In a word, outside quotes; the characters of the word, last first. -/
  | plain (word : List Char)
  | single (word : List Char)
  | double (word : List Char)
  /-- After a backslash outside quotes. -/
  | escape (word : List Char)
  /-- After a backslash in double quotes. -/
  | doubleEscape (word : List Char)
  deriving DecidableEq, Repr

/-- A character in a word outside quotes: the next state, or the end of the word. -/
def plainStep (word : List Char) (c : Char) : State ⊕ String :=
  if isSeparator c then .inr (String.ofList word.reverse)
  else if c = '\'' then .inl (.single word)
  else if c = '"' then .inl (.double word)
  else if c = '\\' then .inl (.escape word)
  else .inl (.plain (c :: word))

def doubleEscapeStep (word : List Char) (c : Char) : List Char :=
  if c = '\n' then word
  else if c = '$' ∨ c = '\x60' ∨ c = '"' ∨ c = '\\' then c :: word
  else c :: '\\' :: word

/-- The words of the rest of a text; none if it ends in a quotation or after a backslash. -/
def splitFrom : State → List Char → Option (List String)
  | .between, [] => some []
  | .comment, [] => some []
  | .plain word, [] => some [String.ofList word.reverse]
  | .single _, [] => none
  | .double _, [] => none
  | .escape _, [] => none
  | .doubleEscape _, [] => none
  | .between, c :: rest =>
    if isSeparator c then splitFrom .between rest
    else if c = '#' then splitFrom .comment rest
    else
      match plainStep [] c with
      | .inl state => splitFrom state rest
      | .inr _ => splitFrom .between rest
  | .comment, c :: rest => splitFrom (if c = '\n' then .between else .comment) rest
  | .plain word, c :: rest =>
    match plainStep word c with
    | .inl state => splitFrom state rest
    | .inr w => (splitFrom .between rest).map (w :: ·)
  | .single word, c :: rest =>
    splitFrom (if c = '\'' then .plain word else .single (c :: word)) rest
  | .double word, c :: rest =>
    splitFrom (if c = '"' then .plain word
      else if c = '\\' then .doubleEscape word
      else .double (c :: word)) rest
  | .escape word, c :: rest => splitFrom (.plain (if c = '\n' then word else c :: word)) rest
  | .doubleEscape word, c :: rest => splitFrom (.double (doubleEscapeStep word c)) rest

def split (text : String) : Option (List String) := splitFrom .between text.toList

/-- A word in single quotes, with each single quote in it moved outside them. -/
def quote (word : String) : String :=
  "'" ++ String.ofList (word.toList.flatMap fun c =>
    if c = '\'' then ['\'', '\\', '\'', '\''] else [c]) ++ "'"

end LogConsole.Words

namespace LogConsole

/-- Replaces variable references, then splits into words. -/
def splitExpanded (lookup : String → Option String) (text : String) :
    Except ExpansionError (List String) :=
  match expand lookup text with
  | .error e => .error e
  | .ok text =>
    match Words.split text with
    | some words => .ok words
    | none => .error .unbalancedQuotes

/-- The text after the first word, without the blanks in front of it. -/
def argumentText (commandLine : String) : String :=
  match Text.afterBlank? (Text.dropBlanks commandLine.toList) with
  | some rest => String.ofList (Text.dropBlanks rest)
  | none => ""

end LogConsole
