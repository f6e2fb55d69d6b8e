/-!
# LogConsole.Path

File names as texts.

* `segments`, `isAbsolute` — the parts between slashes;
* `Path.same`      — whether two names have the same components: empty parts do not count, nor
  does a `.` other than at the start;
* `join`           — a name taken relative to a directory;
* `parent?`        — the name without its last component;
* `fileName?`, `stem?`, `extension?` — the last component, cut at its last dot. A dot at the
  start cuts nothing.
-/

namespace LogConsole.Path

def isAbsolute (p : String) : Bool := p.toList.head? == some '/'

/-- `part` is the part being read, last character first. -/
def segmentsFrom (part : List Char) : List Char → List String
  | [] => [String.ofList part.reverse]
  | c :: rest =>
    if c = '/' then String.ofList part.reverse :: segmentsFrom [] rest
    else segmentsFrom (c :: part) rest

/-- The parts between slashes, empty ones too. -/
def segments (p : String) : List String := segmentsFrom [] p.toList

/-- A part that is a component wherever it stands. -/
def counts (s : String) : Bool := s != "" && s != "."

/-- The components of a name without its leading slash. -/
def components (p : String) : List String :=
  match segments p with
  | "." :: rest => "." :: rest.filter counts
  | parts => parts.filter counts

def same (p q : String) : Bool := isAbsolute p == isAbsolute q && components p == components q

def join (dir p : String) : String :=
  if isAbsolute p then p
  else if dir.isEmpty || dir.toList.getLast? == some '/' then dir ++ p
  else dir ++ "/" ++ p

/-- The parts of a name, last first, without those at its end that are no components. The first
part of a name is kept if it is `.`. -/
def dropNoise : List String → List String
  | [] => []
  | [s] => if s = "" then [] else [s]
  | s :: rest => if counts s then s :: rest else dropNoise rest

def parent? (p : String) : Option String :=
  match dropNoise (segments p).reverse with
  | [] => none
  | _ :: before =>
    match dropNoise before with
    | [] => some (if isAbsolute p then "/" else "")
    | parts => some ("/".intercalate parts.reverse)

def fileName? (p : String) : Option String :=
  match (components p).getLast? with
  | some s => if s = ".." || s = "." then none else some s
  | none => none

/-- The texts before and after the last dot. -/
def splitDot (s : String) : Option (String × String) :=
  let cs := s.toList.reverse
  let after := cs.takeWhile (· != '.')
  match cs.dropWhile (· != '.') with
  | [] => none
  | [_] => none
  | _ :: before => some (String.ofList before.reverse, String.ofList after.reverse)

def stem? (p : String) : Option String :=
  (fileName? p).map fun s =>
    match splitDot s with
    | some (before, _) => before
    | none => s

def extension? (p : String) : Option String :=
  match fileName? p with
  | some s => (splitDot s).map (·.2)
  | none => none

end LogConsole.Path
