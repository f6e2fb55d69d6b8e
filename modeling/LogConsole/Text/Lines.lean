/-!
# LogConsole.Text.Lines

A line ends at a line feed, and a carriage return just before that line feed belongs to the
line end. What follows the last line feed is a line of its own unless it is empty.

* `cutLines`  — the lines of a list, over any alphabet with a line feed and a carriage return,
  so that the same rule serves characters and bytes;
* `lines`     — the lines of a text;
* `byteLines` — the lines of a byte sequence.
-/

namespace LogConsole.Text

variable {α : Type} [DecidableEq α]

/-- The line read so far, last element first, without a carriage return at its end. -/
def closeLine (cr : α) : List α → List α
  | [] => []
  | c :: rest => if c = cr then rest.reverse else (c :: rest).reverse

/-- `line` is the line being read, last element first. -/
def cutLinesFrom (lf cr : α) (line : List α) : List α → List (List α)
  | [] => if line.isEmpty then [] else [line.reverse]
  | c :: rest =>
    if c = lf then closeLine cr line :: cutLinesFrom lf cr [] rest
    else cutLinesFrom lf cr (c :: line) rest

def cutLines (lf cr : α) (text : List α) : List (List α) := cutLinesFrom lf cr [] text

def lines (s : String) : List String := (cutLines '\n' '\r' s.toList).map String.ofList

def byteLines (bytes : List UInt8) : List (List UInt8) := cutLines 10 13 bytes

@[simp] theorem cutLines_nil (lf cr : α) : cutLines lf cr [] = [] := rfl

theorem cutLinesFrom_append_lf (lf cr : α) (line body rest : List α) (h : lf ∉ body) :
    cutLinesFrom lf cr line (body ++ lf :: rest)
      = closeLine cr (body.reverse ++ line) :: cutLines lf cr rest := by
  induction body generalizing line with
  | nil => simp [cutLinesFrom, cutLines]
  | cons c body ih =>
    have hc : c ≠ lf := fun e => h (by simp [e])
    have hb : lf ∉ body := fun e => h (by simp [e])
    simp [cutLinesFrom, hc, ih (c :: line) hb]

end LogConsole.Text
