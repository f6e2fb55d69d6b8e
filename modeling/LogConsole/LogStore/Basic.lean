import LogConsole.Disk
import LogConsole.LogStore.Schema
import LogConsole.MessageFormat
import LogConsole.Pattern.Reader
import LogConsole.Text.Lines

/-!
# LogConsole.LogStore.Basic

The lines of the logs.

* `LogLine`   — a line, its input, and its number there;
* `FileInput`, `VirtualInput` — a file with how much of it has been read, and lines that come
  from elsewhere;
* `LogStore`  — the inputs, all lines read so far, and how many of them are in the tables;
* `addPath`   — adds a file, or every file below a directory;
* `rescan`    — reads the whole lines that have been added to the inputs since the last time. A
  file that has become shorter is read again from its start;
* `rebuild`   — copies the lines that are not yet in the tables, all of them or none;
* `rebuilt`   — what the store and the database are after that;
* `search`    — the lines in which a pattern is found.
-/

namespace LogConsole

structure LogLine where
  path : String
  number : Nat
  body : String
  deriving DecidableEq, Repr

structure FileInput where
  path : String
  /-- How many bytes have been read. -/
  offset : Nat := 0
  linesRead : Nat := 0
  deriving DecidableEq, Repr

structure VirtualInput where
  name : String
  /-- Lines that have not been read. -/
  pending : List String := []
  linesRead : Nat := 0
  deriving DecidableEq, Repr

structure LogStore where
  files : List FileInput := []
  virtuals : List VirtualInput := []
  lines : List LogLine := []
  indexed : Nat := 0
  deriving DecidableEq, Repr

namespace VirtualInput

/-- Lines up to the first that is not a text. -/
def textLines : List (List UInt8) → List String
  | [] => []
  | line :: rest =>
    match Text.Utf8.decode? line with
    | some s => s :: textLines rest
    | none => []

def ofBytes (name : String) (bytes : List UInt8) : VirtualInput :=
  { name, pending := textLines (Text.byteLines bytes) }

end VirtualInput

namespace LogStore

/-! ## Inputs -/

def addFile (s : LogStore) (disk : Disk) (path : String) : Except StoreError LogStore :=
  match disk.find path with
  | .error e => .error (.io e)
  | .ok _ =>
    if s.files.any fun f => Path.same f.path path then .ok s
    else .ok { s with files := s.files ++ [{ path }] }

/-- Adds files up to the first that cannot be opened. -/
def addFiles (s : LogStore) (disk : Disk) : List String → Except StoreError Unit × LogStore
  | [] => (.ok (), s)
  | path :: rest =>
    match s.addFile disk path with
    | .error e => (.error e, s)
    | .ok s => addFiles s disk rest

/-- The answer is the number of files there are under the name. -/
def addPath (s : LogStore) (disk : Disk) (path : String) : Except StoreError Nat × LogStore :=
  let paths := if disk.isDir path then disk.walk path else [path]
  match s.addFiles disk paths with
  | (.ok (), s) => (.ok paths.length, s)
  | (.error e, s) => (.error e, s)

def addVirtual (s : LogStore) (input : VirtualInput) : LogStore :=
  { s with virtuals := s.virtuals ++ [input] }

def inputNames (s : LogStore) : List String :=
  s.files.map (·.path) ++ s.virtuals.map (·.name)

/-! ## Reading -/

/-- The bytes up to the last line feed. -/
def wholeLines (bytes : List UInt8) : List UInt8 := (bytes.reverse.dropWhile (· != 10)).reverse

/-- The lines that a file has got, and the file as it has now been read. -/
def readAppended (f : FileInput) (bytes : List UInt8) : List String × FileInput :=
  let f := if bytes.length < f.offset then { f with offset := 0, linesRead := 0 } else f
  let whole := wholeLines (bytes.drop f.offset)
  let lines := Text.lines (Text.Utf8.decodeLossy whole)
  (lines, { f with offset := f.offset + whole.length, linesRead := f.linesRead + lines.length })

/-- Lines with their numbers in an input, of which some have been read before. -/
def numberedLines (path : String) (before : Nat) (lines : List String) : List LogLine :=
  lines.zipIdx.map fun (body, i) => ⟨path, before + i + 1, body⟩

/-- A file that cannot be read has no new lines. -/
def readFileInput (disk : Disk) (f : FileInput) : List LogLine × FileInput :=
  match disk.read f.path with
  | .error _ => ([], f)
  | .ok bytes =>
    let (lines, read) := readAppended f bytes
    (numberedLines f.path (read.linesRead - lines.length) lines, read)

def readVirtual (v : VirtualInput) : List LogLine × VirtualInput :=
  (numberedLines v.name v.linesRead v.pending,
    { v with pending := [], linesRead := v.linesRead + v.pending.length })

/-- The answer is the number of new lines. -/
def rescan (s : LogStore) (disk : Disk) : Nat × LogStore :=
  let files := s.files.map (readFileInput disk)
  let virtuals := s.virtuals.map readVirtual
  let added := files.flatMap (·.1) ++ virtuals.flatMap (·.1)
  (added.length,
    { s with
      files := files.map (·.2), virtuals := virtuals.map (·.2), lines := s.lines ++ added })

/-! ## Tables -/

open Sql (Database Prepared Value)

def fileText : String :=
  "INSERT INTO log_files (path, is_virtual, line_count)
                VALUES (?1, ?2, ?3)
                ON CONFLICT(path) DO UPDATE SET line_count = MAX(line_count, ?3)"

def lineText : String :=
  "INSERT INTO all_logs (log_path, log_file_line, log_body, log_msg_format)
                VALUES (?1, ?2, ?3, ?4)"

def prepareText (db : Database) (text : String) : Except StoreError Prepared :=
  match Sql.prepare db text with
  | .error e => .error (.database e)
  | .ok p => .ok (p.getD {})

def execute (db : Database) (p : Prepared) (values : List Value) : Except StoreError Database :=
  let outcome := p.run db values
  match outcome.rows.failure with
  | some e => .error (.database e)
  | none => .ok outcome.database

/-- Copies lines into the tables, up to the first that is refused. -/
def copyLines (isVirtual : String → Bool) (file line : Prepared) (db : Database) :
    List LogLine → Except StoreError Database
  | [] => .ok db
  | l :: rest =>
    let path := Value.text l.path
    let number := Value.integer (Int64.ofNat l.number)
    match execute db file [path, Value.ofBool (isVirtual l.path), number] with
    | .error e => .error e
    | .ok db =>
      match execute db line [path, number, .text l.body, .text (messageFormat l.body)] with
      | .error e => .error e
      | .ok db => copyLines isVirtual file line db rest

def pending (s : LogStore) : List LogLine := s.lines.drop s.indexed

/-- The database with the pending lines in its tables. -/
def copyPending (s : LogStore) (db : Database) : Except StoreError Database := do
  let file ← prepareText db fileText
  let line ← prepareText db lineText
  copyLines (fun path => s.virtuals.any fun v => v.name == path) file line db s.pending

/-- The answer is the number of lines that were copied, and the changed database. -/
def rebuild (s : LogStore) (db : Database) : Except StoreError (Nat × Database) × LogStore :=
  match s.pending with
  | [] => (.ok (0, db), s)
  | lines =>
    match s.copyPending db with
    | .error e => (.error e, s)
    | .ok db => (.ok (lines.length, db), { s with indexed := s.lines.length })

/-- The store and the database after that: copying that fails changes neither. -/
def rebuilt (s : LogStore) (db : Database) : LogStore × Database :=
  match s.rebuild db with
  | (.ok (_, db), s) => (s, db)
  | (.error _, s) => (s, db)

/-! ## Searching -/

def search (s : LogStore) (pattern : String) : Except StoreError (List LogLine) :=
  match Pattern.parse? pattern with
  | none => .error .pattern
  | some p => .ok (s.lines.filter fun l => p.isFoundIn l.body)

end LogStore

end LogConsole
