import LogConsole.Pattern.Basic

/-!
# LogConsole.Pattern.Reader

Reads search patterns.

* `Flags`         — the modes that `(?i)` and the like switch: ignoring case, lines, a dot that
  matches line feeds, blanks without meaning, Unicode, long line ends;
* `escape`        — what a backslash and the characters after it stand for;
* `bracketed`     — a set in brackets, with ranges, nested sets and set operations;
* `alternatives`  — a pattern up to the end of its group;
* `Pattern.parse?` — a whole pattern; none if it is not well formed. References to groups and
  conditions on the text around a match are not.

Each reader returns what it has read and the text after it.
-/

namespace LogConsole.Pattern

structure Flags where
  ignoreCase : Bool := false
  lines : Bool := false
  dotAll : Bool := false
  verbose : Bool := false
  unicode : Bool := true
  longLineEnds : Bool := false
  deriving DecidableEq, Repr

abbrev Read (α : Type) := Option (α × List Char)

/-! ## Blanks and numbers -/

/-- Skips blanks and comments where they have no meaning. -/
def skipComments (comment : Bool) : List Char → List Char
  | [] => []
  | c :: rest =>
    if comment then skipComments (c != '\n') rest
    else if Text.isBlank c then skipComments false rest
    else if c = '#' then skipComments true rest
    else c :: rest

def skip (f : Flags) (cs : List Char) : List Char := if f.verbose then skipComments false cs else cs

def digitsValue (base : Nat) (digits : List Nat) : Nat := digits.foldl (fun n d => n * base + d) 0

def hexValue? (c : Char) : Option Nat :=
  if '0' ≤ c && c ≤ '9' then some (c.toNat - 48)
  else if 'a' ≤ c && c ≤ 'f' then some (c.toNat - 87)
  else if 'A' ≤ c && c ≤ 'F' then some (c.toNat - 55)
  else none

def hexChar? (cs : List Char) : Option Char :=
  let digits := cs.filterMap hexValue?
  if digits.isEmpty || digits.length != cs.length || 8 < cs.length then none
  else
    let n := digitsValue 16 digits
    if n.isValidChar then some (Char.ofNat n) else none

def maxCount : Nat := 4294967295

/-- A decimal number with blanks around it. -/
def decimal (cs : List Char) : Read Nat :=
  let cs := cs.dropWhile Text.isBlank
  let digits := cs.takeWhile Text.isAsciiDigit
  let n := digitsValue 10 (digits.map fun c => c.toNat - 48)
  if digits.isEmpty || maxCount < n then none
  else some (n, (cs.drop digits.length).dropWhile Text.isBlank)

/-! ## Sets -/

/-- A set under the flags: case does not matter if they say so. -/
def withCase (f : Flags) (s : CharSet) : CharSet :=
  if f.ignoreCase then if f.unicode then .folded s else .asciiFolded s else s

/-- The complement of a set; without Unicode it would hold bytes that are no characters. -/
def negated? (f : Flags) (negative : Bool) (s : CharSet) : Option CharSet :=
  if negative then if f.unicode then some (.compl s) else none else some s

inductive Escape where
  | char (c : Char)
  | set (s : CharSet)
  | look (l : Look)

def digits (f : Flags) : CharSet := if f.unicode then .digit else .asciiDigit

def blanks (f : Flags) : CharSet := if f.unicode then .space else .asciiSpace

def wordChars (f : Flags) : CharSet := if f.unicode then .word else .asciiWord

/-- `\d`, `\s`, `\w` and their complements. -/
def shortSet? (f : Flags) (c : Char) : Option (Option CharSet) :=
  if c = 'd' then some (some (digits f))
  else if c = 's' then some (some (blanks f))
  else if c = 'w' then some (some (wordChars f))
  else if c = 'D' then some (negated? f true (digits f))
  else if c = 'S' then some (negated? f true (blanks f))
  else if c = 'W' then some (negated? f true (wordChars f))
  else none

/-- Letters that stand for a control character. -/
def control? (c : Char) : Option Char :=
  if c = 'a' then some '\x07'
  else if c = 'f' then some '\x0c'
  else if c = 't' then some '\t'
  else if c = 'n' then some '\n'
  else if c = 'r' then some '\r'
  else if c = 'v' then some '\x0b'
  else none

/-- A property after `\p` or `\P`: one letter, or a name in braces that may start with `^`. -/
def property (f : Flags) (negative : Bool) (cs : List Char) : Read Escape :=
  let finish (negative : Bool) (name rest : List Char) : Read Escape :=
    match CharSet.property? name with
    | some s => (negated? f negative (withCase f s)).map fun s => (.set s, rest)
    | none => none
  if !f.unicode then none
  else
    match cs with
    | [] => none
    | '\x7b' :: rest =>
      let name := rest.takeWhile (· != '\x7d')
      match rest.dropWhile (· != '\x7d') with
      | [] => none
      | _ :: after =>
        match name with
        | '^' :: name => finish (!negative) name after
        | name =>
          match name.dropWhile (· != '!') with
          | '!' :: '=' :: value => finish (!negative) (name.takeWhile (· != '!') ++ '=' :: value) after
          | _ => finish negative name after
    | c :: rest => finish negative [c] rest

/-- A code point: `width` digits, or any number of them in braces. -/
def codePoint (f : Flags) (width : Nat) (cs : List Char) : Read Escape :=
  let finish (digits rest : List Char) : Read Escape :=
    match hexChar? digits with
    | some c => if !f.unicode && 127 < c.toNat then none else some (.char c, rest)
    | none => none
  match cs with
  | '\x7b' :: rest =>
    match rest.dropWhile (· != '\x7d') with
    | [] => none
    | _ :: after => finish (rest.takeWhile (· != '\x7d')) after
  | cs => if cs.length < width then none else finish (cs.take width) (cs.drop width)

def isNameOfBoundary (c : Char) : Bool := Text.isAsciiLetter c || c == '-'

/-- What follows `\b`: nothing, or the kind of boundary in braces. -/
def wordBoundary (f : Flags) (cs : List Char) : Read Escape :=
  let ascii := !f.unicode
  match cs with
  | '\x7b' :: c :: rest =>
    if isNameOfBoundary c then
      match (c :: rest).dropWhile isNameOfBoundary with
      | '\x7d' :: after =>
        match String.ofList ((c :: rest).takeWhile isNameOfBoundary) with
        | "start" => some (.look (.wordStart ascii), after)
        | "end" => some (.look (.wordEnd ascii), after)
        | "start-half" => some (.look (.wordStartHalf ascii), after)
        | "end-half" => some (.look (.wordEndHalf ascii), after)
        | _ => none
      | _ => none
    else some (.look (.boundary ascii), cs)
  | _ => some (.look (.boundary ascii), cs)

/-- Whether a backslash takes away the meaning of a character. -/
def isEscapable (c : Char) : Bool :=
  c.toNat < 128 && !Text.isAsciiLetter c && !Text.isAsciiDigit c && c != '<' && c != '>'

/-- What follows a backslash. -/
def escape (f : Flags) : List Char → Read Escape
  | [] => none
  | c :: rest =>
    match shortSet? f c with
    | some (some s) => some (.set s, rest)
    | some none => none
    | none =>
      match control? c with
      | some d => some (.char d, rest)
      | none =>
        if c = 'x' then codePoint f 2 rest
        else if c = 'u' then codePoint f 4 rest
        else if c = 'U' then codePoint f 8 rest
        else if c = 'p' then property f false rest
        else if c = 'P' then property f true rest
        else if c = 'A' then some (.look .textStart, rest)
        else if c = 'z' then some (.look .textEnd, rest)
        else if c = 'b' then wordBoundary f rest
        else if c = 'B' then if f.unicode then some (.look (.noBoundary false), rest) else none
        else if c = '<' then some (.look (.wordStart (!f.unicode)), rest)
        else if c = '>' then some (.look (.wordEnd (!f.unicode)), rest)
        else if isEscapable c then some (.char c, rest)
        else none

/-- `[:name:]` or `[:^name:]`, after the bracket. -/
def posixSet (f : Flags) : List Char → Read CharSet
  | ':' :: rest =>
    let negative := rest.head? == some '^'
    let rest := if negative then rest.drop 1 else rest
    match rest.dropWhile (· != ':') with
    | ':' :: ']' :: after =>
      match CharSet.posix? (String.ofList (rest.takeWhile (· != ':'))) with
      | some s => (negated? f negative s).map fun s => (s, after)
      | none => none
    | _ => none
  | _ => none

/-- A member of a set in brackets, before it is known whether a range starts with it. -/
def setItem (f : Flags) : List Char → Read (Char ⊕ CharSet)
  | [] => none
  | '\\' :: rest =>
    match escape f rest with
    | some (.char c, rest) => some (.inl c, rest)
    | some (.set s, rest) => some (.inr s, rest)
    | _ => none
  | c :: rest => some (.inl c, rest)

def itemSet : Char ⊕ CharSet → CharSet
  | .inl c => .char c
  | .inr s => s

/-- A member or a range. -/
def setRange (f : Flags) (cs : List Char) : Read CharSet :=
  match setItem f cs with
  | none => none
  | some (first, rest) =>
    match skip f rest with
    | [] => none
    | '-' :: more =>
      match skip f more with
      | [] => none
      | ']' :: _ => some (itemSet first, '-' :: more)
      | '-' :: _ => some (itemSet first, '-' :: more)
      | more =>
        match first, setItem f more with
        | .inl a, some (.inl b, rest) => if a ≤ b then some (.between a b, rest) else none
        | _, _ => none
    | rest => some (itemSet first, rest)

inductive SetOp where
  | inter | diff | symmDiff
  deriving DecidableEq, Repr

def SetOp.join (op : SetOp) (a b : CharSet) : CharSet :=
  match op with
  | .inter => .inter a b
  | .diff => .inter a (.compl b)
  | .symmDiff => .union (.inter a (.compl b)) (.inter b (.compl a))

/-- What has been read of a set: the operand on the left of an operation, and the members of
the operand being read, last first. -/
structure SetDraft where
  left : Option (CharSet × SetOp) := none
  members : List CharSet := []

namespace SetDraft

def add (d : SetDraft) (s : CharSet) : SetDraft := { d with members := s :: d.members }

def value (f : Flags) (d : SetDraft) : CharSet :=
  let right := withCase f (.unionAll d.members.reverse)
  match d.left with
  | none => right
  | some (left, op) => op.join left right

def operate (f : Flags) (op : SetOp) (d : SetDraft) : SetDraft := ⟨some (d.value f, op), []⟩

end SetDraft

/-- Hyphens at the start of a set, and a closing bracket there, stand for themselves. -/
def setStart (f : Flags) (d : SetDraft) : List Char → SetDraft × List Char
  | '-' :: rest => setStart f (d.add (.char '-')) rest
  | ']' :: rest => if d.members.isEmpty then (d.add (.char ']'), rest) else (d, ']' :: rest)
  | cs => (d, cs)

mutual

/-- A set, after its opening bracket. -/
def bracketed (f : Flags) : Nat → List Char → Read CharSet
  | 0, _ => none
  | fuel + 1, cs =>
    let cs := skip f cs
    let negative := cs.head? == some '^'
    let cs := if negative then skip f (cs.drop 1) else cs
    let (d, cs) := setStart f {} cs
    match members f fuel d cs with
    | none => none
    | some (s, rest) => (negated? f negative s).map fun s => (s, rest)

/-- The rest of a set. -/
def members (f : Flags) : Nat → SetDraft → List Char → Read CharSet
  | 0, _, _ => none
  | fuel + 1, d, cs =>
    match skip f cs with
    | [] => none
    | ']' :: rest => some (d.value f, rest)
    | '[' :: rest =>
      match posixSet f rest with
      | some (s, rest) => members f fuel (d.add s) rest
      | none =>
        match bracketed f fuel rest with
        | some (s, rest) => members f fuel (d.add s) rest
        | none => none
    | '&' :: '&' :: rest => members f fuel (d.operate f .inter) rest
    | '-' :: '-' :: rest => members f fuel (d.operate f .diff) rest
    | '~' :: '~' :: rest => members f fuel (d.operate f .symmDiff) rest
    | cs =>
      match setRange f cs with
      | some (s, rest) => members f fuel (d.add s) rest
      | none => none

end

/-! ## Groups -/

/-- The letters that may stand in a group's flags. -/
def setFlag (on : Bool) (f : Flags) (c : Char) : Option Flags :=
  if c = 'i' then some { f with ignoreCase := on }
  else if c = 'm' then some { f with lines := on }
  else if c = 's' then some { f with dotAll := on }
  else if c = 'x' then some { f with verbose := on }
  else if c = 'u' then some { f with unicode := on }
  else if c = 'R' then some { f with longLineEnds := on }
  else if c = 'U' then some f
  else none

/-- Flags up to a colon or a closing parenthesis, which is kept. `seen` holds the letters read;
no letter may come twice, and letters must follow a minus sign. -/
def flagsFrom (f : Flags) (on : Bool) (seen : List Char) : List Char → Read (Flags × List Char)
  | [] => none
  | c :: rest =>
    if c = ':' || c = ')' then
      if seen.head? == some '-' then none else some ((f, seen), c :: rest)
    else if seen.contains c then none
    else if c = '-' then flagsFrom f false ('-' :: seen) rest
    else
      match setFlag on f c with
      | some f => flagsFrom f on (c :: seen) rest
      | none => none

def isNameStart (c : Char) : Bool := c == '_' || Text.isAlphabetic c

def isNameChar (c : Char) : Bool :=
  isNameStart c || c == '.' || c == '[' || c == ']' || Text.isWord c

/-- The name of a group, up to the closing angle bracket. -/
def groupName (cs : List Char) : Read (List Char) :=
  let name := cs.takeWhile (· != '>')
  match cs.dropWhile (· != '>') with
  | [] => none
  | _ :: rest =>
    match name with
    | [] => none
    | c :: more => if isNameStart c && more.all isNameChar then some (name, rest) else none

/-- What opens a group. -/
inductive Opening where
  | flags (f : Flags)
  | group (f : Flags)
  | named (name : List Char)

/-- What follows an opening parenthesis. -/
def opening (f : Flags) : List Char → Read Opening
  | '?' :: 'P' :: '<' :: rest => (groupName rest).map fun (n, rest) => (.named n, rest)
  | '?' :: '<' :: '=' :: _ => none
  | '?' :: '<' :: '!' :: _ => none
  | '?' :: '<' :: rest => (groupName rest).map fun (n, rest) => (.named n, rest)
  | '?' :: rest =>
    match flagsFrom f true [] rest with
    | some ((f, seen), ')' :: rest) => if seen.isEmpty then none else some (.flags f, rest)
    | some ((f, _), ':' :: rest) => some (.group f, rest)
    | _ => none
  | rest => some (.group f, rest)

/-! ## Patterns -/

/-- The counts in braces after a pattern. -/
def counts (cs : List Char) : Read (Nat × Option Nat) :=
  match decimal cs with
  | none => none
  | some (low, ',' :: rest) =>
    match rest.dropWhile Text.isBlank with
    | '\x7d' :: rest => some ((low, none), rest)
    | rest =>
      match decimal rest with
      | some (high, '\x7d' :: rest) => if low ≤ high then some ((low, some high), rest) else none
      | _ => none
  | some (low, '\x7d' :: rest) => some ((low, some low), rest)
  | _ => none

/-- A question mark after a repetition makes no difference to what is found. -/
def dropLazy (f : Flags) (cs : List Char) : List Char :=
  match skip f cs with
  | '?' :: rest => rest
  | _ => cs

/-- The pieces of a sequence, last first; a change of flags is a piece that cannot be
repeated. -/
abbrev Pieces := List (Option Pattern)

def repeatLast (low : Nat) (high : Option Nat) : Pieces → Option Pieces
  | some p :: rest => some (some (.rep low high p) :: rest)
  | _ => none

def sequence (pieces : Pieces) : Pattern :=
  pieces.foldl (fun rest piece =>
    match piece, rest with
    | none, rest => rest
    | some p, .empty => p
    | some p, rest => .seq p rest) .empty

def dot (f : Flags) : Option Pattern :=
  if !f.unicode then none
  else if f.dotAll then some (.set .any)
  else if f.longLineEnds then some (.set (.compl (.union (.char '\n') (.char '\r'))))
  else some (.set (.compl (.char '\n')))

def caret (f : Flags) : Look :=
  if f.lines then if f.longLineEnds then .longLineStart else .lineStart else .textStart

def dollar (f : Flags) : Look :=
  if f.lines then if f.longLineEnds then .longLineEnd else .lineEnd else .textEnd

/-- What a reader of a group knows and returns: its names, its flags and the pattern. -/
structure GroupState where
  names : List (List Char) := []
  flags : Flags := {}

/-- Reads a pattern up to the end of the text or the parenthesis that closes its group, which
is kept. `before` holds the alternatives read, and `pieces` the sequence being read. -/
def alternatives : Nat → GroupState → List Pattern → Pieces → List Char →
    Option (Pattern × GroupState × List Char)
  | 0, _, _, _, _ => none
  | fuel + 1, st, before, pieces, cs =>
    let f := st.flags
    let close (rest : List Char) : Option (Pattern × GroupState × List Char) :=
      some (before.foldl (fun b a => .alt a b) (sequence pieces), st, rest)
    let add (p : Pattern) (rest : List Char) := alternatives fuel st before (some p :: pieces) rest
    match skip f cs with
    | [] => close []
    | ')' :: rest => close (')' :: rest)
    | '|' :: rest => alternatives fuel st (sequence pieces :: before) [] rest
    | '(' :: rest =>
      match opening f rest with
      | none => none
      | some (.flags f, rest) => alternatives fuel { st with flags := f } before (none :: pieces) rest
      | some (.group inner, rest) =>
        match alternatives fuel { st with flags := inner } [] [] rest with
        | some (p, st', ')' :: rest) =>
          alternatives fuel { st' with flags := f } before (some p :: pieces) rest
        | _ => none
      | some (.named name, rest) =>
        if st.names.contains name then none
        else
          match alternatives fuel { st with names := name :: st.names } [] [] rest with
          | some (p, st', ')' :: rest) =>
            alternatives fuel { st' with flags := f } before (some p :: pieces) rest
          | _ => none
    | '[' :: rest =>
      match bracketed f fuel rest with
      | some (s, rest) => add (.set s) rest
      | none => none
    | '*' :: rest =>
      match repeatLast 0 none pieces with
      | some pieces => alternatives fuel st before pieces (dropLazy f rest)
      | none => none
    | '+' :: rest =>
      match repeatLast 1 none pieces with
      | some pieces => alternatives fuel st before pieces (dropLazy f rest)
      | none => none
    | '?' :: rest =>
      match repeatLast 0 (some 1) pieces with
      | some pieces => alternatives fuel st before pieces (dropLazy f rest)
      | none => none
    | '\x7b' :: rest =>
      match counts rest with
      | some ((low, high), rest) =>
        match repeatLast low high pieces with
        | some pieces => alternatives fuel st before pieces (dropLazy f rest)
        | none => none
      | none => none
    | '.' :: rest =>
      match dot f with
      | some p => add p rest
      | none => none
    | '^' :: rest => add (.look (caret f)) rest
    | '$' :: rest => add (.look (dollar f)) rest
    | '\\' :: rest =>
      match escape f rest with
      | some (.char c, rest) => add (.set (withCase f (.char c))) rest
      | some (.set s, rest) => add (.set s) rest
      | some (.look l, rest) => add (.look l) rest
      | none =>
        match f.verbose, rest with
        | true, ' ' :: rest => add (.set (.char ' ')) rest
        | _, _ => none
    | c :: rest => add (.set (withCase f (.char c))) rest

def parse? (text : String) : Option Pattern :=
  let cs := text.toList
  match alternatives (2 * cs.length + 2) {} [] [] cs with
  | some (p, _, []) => some p
  | _ => none

end LogConsole.Pattern
