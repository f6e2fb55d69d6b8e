import LogConsole.Disk
import LogConsole.Text.Blank
import LogConsole.Text.Lines
import LogConsole.Text.Utf8

/-!
# LogConsole.Script.Candidate

A script that a name may stand for.

* `ScriptSource` — standard input or a file;
* `Candidate`    — a source with the synopsis and the description that the script gives of
  itself in the comments it starts with: `# @synopsis: …` and `# @description: …`. The last of
  each kind counts.
-/

namespace LogConsole

inductive ScriptSource where
  | stdin
  | file (path : String)
  deriving DecidableEq, Repr

structure Candidate where
  source : ScriptSource
  synopsis : String := ""
  description : String := ""
  deriving DecidableEq, Repr

namespace Candidate

/-- The value of a header line: `#`, the marked name, a colon, and the value; blanks may stand
anywhere between them. -/
def headerValue? (name : String) (line : List Char) : Option String :=
  match line with
  | '#' :: rest =>
    match Text.dropBlanks rest with
    | '@' :: rest =>
      if name.toList.isPrefixOf rest then
        match Text.dropBlanks (rest.drop name.length) with
        | ':' :: value => some (String.ofList (Text.dropBlanksEnd (Text.dropBlanks value)))
        | _ => none
      else none
    | _ => none
  | _ => none

def withHeaderLine (c : Candidate) (line : List Char) : Candidate :=
  match headerValue? "synopsis" line with
  | some v => { c with synopsis := v }
  | none =>
    match headerValue? "description" line with
    | some v => { c with description := v }
    | none => c

/-- Reads comment and blank lines up to the first other line, or up to a line that is not
UTF-8. -/
def readHeader (c : Candidate) : List (List UInt8) → Candidate
  | [] => c
  | bytes :: rest =>
    match Text.Utf8.decode? bytes with
    | none => c
    | some line =>
      match (Text.trim line).toList with
      | [] => readHeader c rest
      | '#' :: more => readHeader (c.withHeaderLine ('#' :: more)) rest
      | _ => c

/-- The candidate for a file; a file that cannot be read says nothing of itself. -/
def ofFile (disk : Disk) (path : String) : Candidate :=
  match disk.read path with
  | .ok bytes => readHeader ⟨.file path, "", ""⟩ (Text.byteLines bytes)
  | .error _ => ⟨.file path, "", ""⟩

def name (c : Candidate) : String :=
  match c.source with
  | .stdin => "-"
  | .file path => path

end Candidate

end LogConsole
