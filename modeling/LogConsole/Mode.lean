import LogConsole.Text.Blank

/-!
# LogConsole.Mode

The four modes of a line, told by its first character.

* `Mode.mark`, `Mode.ofMark?` — the mode's character;
* `Mode.split`                — the mode and the payload of a line. A line is trimmed first, and
  one that starts with no mark is a command.
-/

namespace LogConsole

inductive Mode where
  | command
  | search
  | query
  | script
  deriving DecidableEq, Repr

namespace Mode

def mark : Mode → Char
  | .command => ':'
  | .search => '/'
  | .query => ';'
  | .script => '|'

def ofMark? (c : Char) : Option Mode :=
  if c = ':' then some .command
  else if c = '/' then some .search
  else if c = ';' then some .query
  else if c = '|' then some .script
  else none

/-- The mode and the payload of a line that has been trimmed. -/
def splitTrimmed : List Char → Mode × List Char
  | [] => (.command, [])
  | c :: rest =>
    match ofMark? c with
    | some mode => (mode, rest)
    | none => (.command, c :: rest)

def split (line : String) : Mode × String :=
  let (mode, payload) := splitTrimmed (Text.trim line).toList
  (mode, String.ofList payload)

@[simp] theorem ofMark?_mark (mode : Mode) : ofMark? mode.mark = some mode := by
  cases mode <;> rfl

end Mode

end LogConsole
