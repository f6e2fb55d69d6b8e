import LogConsole.Text.Category
import LogConsole.Text.Utf8

/-!
# LogConsole.Expansion

Variable references in a text: `$name`, `${name}` and `$#`.

* `Quotes`         — whether the text read so far leaves a quotation open;
* `expand`         — the text with each reference replaced by its value, as it stands. Text in
  single quotes and a character after a backslash are left alone; an unknown name has the empty
  value;
* `ExpansionError` — a `${` that is never closed, at its byte offset.
-/

namespace LogConsole

inductive ExpansionError where
  /-- The byte offset of the dollar sign. -/
  | unterminatedBrace (offset : Nat)
  | unbalancedQuotes
  deriving DecidableEq, Repr

namespace ExpansionError

def message : ExpansionError → String
  | .unterminatedBrace offset =>
    "missing '\x7d' for variable reference at offset " ++ toString offset
  | .unbalancedQuotes => "unbalanced quotes"

end ExpansionError

namespace Expansion

/-- The quotation that is open. -/
inductive Quotes where
  | none | single | double
  deriving DecidableEq, Repr

/-- The characters of a name that needs no braces. -/
def isNameChar (c : Char) : Bool := Text.isAsciiWord c

/-- What comes before the first closing brace, and what comes after it. -/
def splitBrace : List Char → Option (List Char × List Char)
  | [] => none
  | c :: rest =>
    if c = '\x7d' then some ([], rest)
    else
      match splitBrace rest with
      | some (name, rest) => some (c :: name, rest)
      | none => none

theorem length_splitBrace {cs name rest : List Char} (h : splitBrace cs = some (name, rest)) :
    rest.length < cs.length := by
  induction cs generalizing name rest with
  | nil => simp [splitBrace] at h
  | cons c cs ih =>
    simp only [splitBrace] at h
    split at h
    · simp at h
      simp [h.2]
    · split at h
      · next n r heq =>
        simp at h
        have := ih heq
        simp only [List.length_cons, ← h.2]
        omega
      · simp at h

/-- Expands the rest of a text, which starts at byte `pos`. -/
def expandFrom (lookup : String → Option String) (quotes : Quotes) (pos : Nat) :
    List Char → Except ExpansionError (List Char)
  | [] => .ok []
  | c :: rest =>
    if c = '\'' ∧ quotes ≠ .double then
      match expandFrom lookup (if quotes = .single then .none else .single) (pos + 1) rest with
      | .ok out => .ok ('\'' :: out)
      | .error e => .error e
    else if c = '"' ∧ quotes ≠ .single then
      match expandFrom lookup (if quotes = .double then .none else .double) (pos + 1) rest with
      | .ok out => .ok ('"' :: out)
      | .error e => .error e
    else if c = '\\' ∧ quotes ≠ .single then
      match rest with
      | [] => .ok ['\\']
      | d :: rest =>
        match expandFrom lookup quotes (pos + 1 + d.utf8Size) rest with
        | .ok out => .ok ('\\' :: d :: out)
        | .error e => .error e
    else if c = '$' ∧ quotes ≠ .single then
      match rest with
      | [] => .ok ['$']
      | d :: tail =>
        if d = '\x7b' then
          match h : splitBrace tail with
          | none => .error (.unterminatedBrace pos)
          | some (name, after) =>
            have := length_splitBrace h
            match expandFrom lookup quotes (pos + 3 + Text.Utf8.size name) after with
            | .ok out => .ok (((lookup (String.ofList name)).getD "").toList ++ out)
            | .error e => .error e
        else if d = '#' then
          match expandFrom lookup quotes (pos + 2) tail with
          | .ok out => .ok (((lookup "#").getD "").toList ++ out)
          | .error e => .error e
        else if isNameChar d then
          have : ((d :: tail).dropWhile isNameChar).length < (c :: d :: tail).length := by
            have := (List.dropWhile_sublist isNameChar (l := d :: tail)).length_le
            simp at this ⊢
            omega
          match expandFrom lookup quotes (pos + 1 + Text.Utf8.size ((d :: tail).takeWhile isNameChar))
              ((d :: tail).dropWhile isNameChar) with
          | .ok out =>
            .ok (((lookup (String.ofList ((d :: tail).takeWhile isNameChar))).getD "").toList
              ++ out)
          | .error e => .error e
        else
          match expandFrom lookup quotes (pos + 1) (d :: tail) with
          | .ok out => .ok ('$' :: out)
          | .error e => .error e
    else
      match expandFrom lookup quotes (pos + c.utf8Size) rest with
      | .ok out => .ok (c :: out)
      | .error e => .error e
termination_by cs => cs.length
decreasing_by all_goals (simp only [List.length_cons] at *; omega)

end Expansion

/-- The text with its variable references replaced. -/
def expand (lookup : String → Option String) (text : String) : Except ExpansionError String :=
  match Expansion.expandFrom lookup .none 0 text.toList with
  | .ok out => .ok (String.ofList out)
  | .error e => .error e

end LogConsole
