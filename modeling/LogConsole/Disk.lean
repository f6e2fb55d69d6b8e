import LogConsole.Path

/-!
# LogConsole.Disk

Files and directories.

* `IoError`  — why an operation on a file fails, and the text that says so;
* `Location` — where a file is: the names on the way from the root. Locations are ordered name
  by name, so a directory is followed by everything below it;
* `Disk`     — the table of locations in that order, the contents of the files, and the
  directory that relative names start from;
* `find`, `read`, `write`, `makeDir`, `makeDirs`, `remove` — the operations by name;
* `filesBelow` — the regular files below a directory, in order. There are no links.

A file keeps its contents while it is open, also if its name is removed; so contents are held
apart from names and found by number. Names are texts. Nobody is refused a file, and there are two
devices.
-/

namespace LogConsole

inductive IoError where
  | notFound
  | isDirectory
  | notDirectory
  | alreadyExists
  | nameTooLong
  | noSpace
  | nulInName
  | nulInArgument
  | invalidUtf8
  | other (text : String)
  deriving DecidableEq, Repr

namespace IoError

def message : IoError → String
  | .notFound => "No such file or directory (os error 2)"
  | .isDirectory => "Is a directory (os error 21)"
  | .notDirectory => "Not a directory (os error 20)"
  | .alreadyExists => "File exists (os error 17)"
  | .nameTooLong => "File name too long (os error 36)"
  | .noSpace => "No space left on device (os error 28)"
  | .nulInName => "file name contained an unexpected NUL byte"
  | .nulInArgument => "nul byte found in provided data"
  | .invalidUtf8 => "stream did not contain valid UTF-8"
  | .other text => text

end IoError

abbrev Location := List String

namespace Location

/-- Whether a location comes before another in the order name by name. -/
def before : Location → Location → Bool
  | [], [] => false
  | [], _ :: _ => true
  | _ :: _, [] => false
  | a :: as, b :: bs => if a = b then before as bs else a < b

end Location

inductive Node where
  | dir
  /-- A regular file and the number of its contents. -/
  | file (id : Nat)
  /-- A device that swallows what is written to it. -/
  | sink
  /-- A device that is always full. -/
  | full
  deriving DecidableEq, Repr

structure Disk where
  nodes : List (Location × Node) := [([], .dir)]
  contents : List (List UInt8) := []
  base : Location := []
  deriving Repr

namespace Disk

/-- The devices, and an empty directory that relative names start from. -/
def empty : Disk where
  nodes := [([], .dir), (["dev"], .dir), (["dev", "full"], .full), (["dev", "null"], .sink),
    (["tmp"], .dir), (["work"], .dir)]
  base := ["work"]

def lookup (l : Location) : List (Location × Node) → Option Node
  | [] => none
  | (k, n) :: rest => if k = l then some n else lookup l rest

def insertNode (l : Location) (n : Node) : List (Location × Node) → List (Location × Node)
  | [] => [(l, n)]
  | (k, m) :: rest =>
    if k = l then (l, n) :: rest
    else if Location.before l k then (l, n) :: (k, m) :: rest
    else (k, m) :: insertNode l n rest

def nodeAt (d : Disk) (l : Location) : Option Node := lookup l d.nodes

def maxName : Nat := 255

def maxPath : Nat := 4096

/-- The faults of a name that are seen before it is looked up. -/
def checkName (p : String) : Except IoError Unit :=
  if p.toList.contains '\x00' then .error .nulInName
  else if p.isEmpty then .error .notFound
  else if maxPath ≤ p.utf8ByteSize then .error .nameTooLong
  else .ok ()

/-- Follows names from a location at which `node` stands. -/
def follow (d : Disk) (l : Location) (node : Node) : List String →
    Except IoError (Location × Node)
  | [] => .ok (l, node)
  | s :: rest =>
    match node with
    | .dir =>
      if s = "." then follow d l .dir rest
      else if s = ".." then follow d l.dropLast .dir rest
      else if maxName < s.utf8ByteSize then .error .nameTooLong
      else
        match d.nodeAt (l ++ [s]) with
        | some n => follow d (l ++ [s]) n rest
        | none => .error .notFound
    | _ => .error .notDirectory

def startOf (d : Disk) (p : String) : Location := if Path.isAbsolute p then [] else d.base

/-- The names in a path, `.` and `..` included. -/
def names (p : String) : List String := (Path.segments p).filter (· != "")

def endsInSlash (p : String) : Bool := p.toList.getLast? == some '/'

/-- What a name stands for. -/
def find (d : Disk) (p : String) : Except IoError (Location × Node) :=
  match checkName p with
  | .error e => .error e
  | .ok () =>
    match d.follow (d.startOf p) .dir (names p) with
    | .error e => .error e
    | .ok (l, .dir) => .ok (l, .dir)
    | .ok (l, node) => if endsInSlash p then .error .notDirectory else .ok (l, node)

def isDir (d : Disk) (p : String) : Bool :=
  match d.find p with
  | .ok (_, .dir) => true
  | _ => false

def isFile (d : Disk) (p : String) : Bool :=
  match d.find p with
  | .ok (_, .file _) => true
  | _ => false

def exists? (d : Disk) (p : String) : Bool :=
  match d.find p with
  | .ok _ => true
  | .error _ => false

def contentsOf (d : Disk) (id : Nat) : List UInt8 := d.contents.getD id []

def setContents (d : Disk) (id : Nat) (bytes : List UInt8) : Disk :=
  { d with contents := d.contents.set id bytes }

/-- The bytes at a node; devices have none. -/
def bytesAt (d : Disk) : Node → Except IoError (List UInt8)
  | .dir => .error .isDirectory
  | .file id => .ok (d.contentsOf id)
  | .sink => .ok []
  | .full => .ok []

def read (d : Disk) (p : String) : Except IoError (List UInt8) :=
  match d.find p with
  | .error e => .error e
  | .ok (_, node) => d.bytesAt node

/-- The directory in which a name is to be made, and its last name. -/
def findParent (d : Disk) (p : String) : Except IoError (Location × String) :=
  match checkName p with
  | .error e => .error e
  | .ok () =>
    match (names p).getLast? with
    | none => .ok (d.startOf p, ".")
    | some last =>
      match d.follow (d.startOf p) .dir (names p).dropLast with
      | .error e => .error e
      | .ok (l, .dir) => if maxName < last.utf8ByteSize then .error .nameTooLong else .ok (l, last)
      | .ok _ => .error .notDirectory

/-- A new empty file at a location. -/
def addFile (d : Disk) (l : Location) : Disk × Nat :=
  ({ d with
      nodes := insertNode l (.file d.contents.length) d.nodes
      contents := d.contents ++ [[]] }, d.contents.length)

/-- Opens a file for writing, making it if need be; what it held is kept. -/
def openForWriting (d : Disk) (p : String) : Except IoError (Disk × Node) :=
  match d.findParent p with
  | .error e => .error e
  | .ok (l, last) =>
    if last = "." || last = ".." || endsInSlash p then .error .isDirectory
    else
      match d.nodeAt (l ++ [last]) with
      | some .dir => .error .isDirectory
      | some node => .ok (d, node)
      | none =>
        let (d, id) := d.addFile (l ++ [last])
        .ok (d, .file id)

/-- Opens a file for writing and empties it. -/
def create (d : Disk) (p : String) : Except IoError (Disk × Node) :=
  match d.openForWriting p with
  | .error e => .error e
  | .ok (d, .file id) => .ok (d.setContents id [], .file id)
  | .ok (d, node) => .ok (d, node)

/-- Puts bytes into contents from an offset on; a gap is filled with zeros. -/
def overwrite (old : List UInt8) (offset : Nat) (bytes : List UInt8) : List UInt8 :=
  old.take offset ++ List.replicate (offset - old.length) 0 ++ bytes
    ++ old.drop (offset + bytes.length)

def write (d : Disk) (p : String) (bytes : List UInt8) : Except IoError Disk :=
  match d.create p with
  | .error e => .error e
  | .ok (d, .file id) => .ok (d.setContents id bytes)
  | .ok (d, .full) => if bytes.isEmpty then .ok d else .error .noSpace
  | .ok (d, _) => .ok d

def append (d : Disk) (p : String) (bytes : List UInt8) : Except IoError Disk :=
  match d.openForWriting p with
  | .error e => .error e
  | .ok (d, .file id) => .ok (d.setContents id (d.contentsOf id ++ bytes))
  | .ok (d, .full) => if bytes.isEmpty then .ok d else .error .noSpace
  | .ok (d, _) => .ok d

def makeDir (d : Disk) (p : String) : Except IoError Disk :=
  match d.findParent p with
  | .error e => .error e
  | .ok (l, last) =>
    if last = "." || last = ".." then .error .alreadyExists
    else
      match d.nodeAt (l ++ [last]) with
      | some _ => .error .alreadyExists
      | none => .ok { d with nodes := insertNode (l ++ [last]) .dir d.nodes }

/-- Makes a directory and those above it that are missing; `fuel` bounds their number. -/
def makeDirsFrom : Nat → Disk → String → Except IoError Disk
  | 0, _, _ => .error .notFound
  | fuel + 1, d, p =>
    if p.isEmpty then .ok d
    else
      match d.makeDir p with
      | .ok d => .ok d
      | .error .notFound =>
        match Path.parent? p with
        | none => .error .notFound
        | some q =>
          match makeDirsFrom fuel d q with
          | .error e => .error e
          | .ok d =>
            match d.makeDir p with
            | .ok d => .ok d
            | .error e => if d.isDir p then .ok d else .error e
      | .error e => if d.isDir p then .ok d else .error e

def makeDirs (d : Disk) (p : String) : Except IoError Disk :=
  makeDirsFrom ((Path.segments p).length + 1) d p

def remove (d : Disk) (p : String) : Except IoError Disk :=
  match d.find p with
  | .error e => .error e
  | .ok (_, .dir) => .error .isDirectory
  | .ok (l, _) => .ok { d with nodes := d.nodes.filter fun e => e.1 != l }

/-- The part of a location below another. -/
def below? : Location → Location → Option Location
  | [], l => some l
  | _ :: _, [] => none
  | a :: as, b :: bs => if a = b then below? as bs else none

/-- The regular files below a location, by the names that lead to them from there. -/
def filesBelow (d : Disk) (root : Location) : List Location :=
  d.nodes.filterMap fun e =>
    match e.2 with
    | .file _ =>
      match below? root e.1 with
      | some [] => none
      | below => below
    | _ => none

/-- The regular files below a directory, by names that start with its own. -/
def walk (d : Disk) (dir : String) : List String :=
  match d.find dir with
  | .ok (l, .dir) => (d.filesBelow l).map fun names => names.foldl Path.join dir
  | _ => []

end Disk

end LogConsole
