/-!
# LogConsole.Text.Blank

White space in the sense of Unicode's `White_Space` property (25 characters), and the cuts
a console makes with it:

* `isBlank`            — the property itself;
* `trimStart`, `trimEnd`, `trim` — a text without the blanks at its ends;
* `words`              — the maximal runs of characters that are not blank.

Every cut works on lists of characters; the `String` forms wrap them.
-/

namespace LogConsole.Text

/-- The characters with the `White_Space` property. -/
def isBlank (c : Char) : Bool :=
  let n := c.toNat
  (9 ≤ n && n ≤ 13) || n == 0x20 || n == 0x85 || n == 0xA0 || n == 0x1680
    || (0x2000 ≤ n && n ≤ 0x200A) || n == 0x2028 || n == 0x2029 || n == 0x202F
    || n == 0x205F || n == 0x3000

def dropBlanks (cs : List Char) : List Char := cs.dropWhile isBlank

def dropBlanksEnd (cs : List Char) : List Char := (cs.reverse.dropWhile isBlank).reverse

def trimStart (s : String) : String := String.ofList (dropBlanks s.toList)

def trimEnd (s : String) : String := String.ofList (dropBlanksEnd s.toList)

def trim (s : String) : String := String.ofList (dropBlanksEnd (dropBlanks s.toList))

/-- Collects the runs of `keep`; `run` is the run being read, last character first. -/
def runsFrom (keep : Char → Bool) (run : List Char) : List Char → List (List Char)
  | [] => if run.isEmpty then [] else [run.reverse]
  | c :: rest =>
    if keep c then runsFrom keep (c :: run) rest
    else if run.isEmpty then runsFrom keep [] rest
    else run.reverse :: runsFrom keep [] rest

def words (s : String) : List String :=
  (runsFrom (fun c => !isBlank c) [] s.toList).map String.ofList

/-- The text after the first blank, or none if there is no blank. -/
def afterBlank? : List Char → Option (List Char)
  | [] => none
  | c :: rest => if isBlank c then some rest else afterBlank? rest

theorem dropBlanks_cons_of_not_blank {c : Char} {cs : List Char} (h : isBlank c = false) :
    dropBlanks (c :: cs) = c :: cs := by
  simp [dropBlanks, List.dropWhile, h]

end LogConsole.Text
