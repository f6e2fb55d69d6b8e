import LogConsole.Message.Basic
import LogConsole.Json.Reader

/-!
# LogConsole.Message.Wire

Messages as JSON.

* `Message.toJson`   — level, text and those of the other parts that are not empty;
* `Message.encode`   — its compact text;
* `Message.decode`   — a message read back from such a text;
* `errorMarker`, `Message.wire` — the encoded form with the mark in front of it by which a
  failure text of the query engine is known to hold a message.
-/

namespace LogConsole

/-- Stands in front of an encoded message in a failure text of the query engine. -/
def errorMarker : String := "logshell-error:"

namespace Snippet

def toJson (s : Snippet) : Json :=
  .obj [("source", .str s.source), ("line", .int s.line.toInt), ("column", .int s.column.toInt),
    ("content", .str s.content)]

/-- A snippet as far as it has been read. -/
structure Draft where
  source : Option String := none
  line : Option Int32 := none
  column : Option Int32 := none
  content : Option String := none

namespace Draft

def has (d : Draft) : String → Bool
  | "source" => d.source.isSome
  | "line" => d.line.isSome
  | "column" => d.column.isSome
  | "content" => d.content.isSome
  | _ => false

def member (name : String) (d : Draft) : Json.Reader Draft := fun cs =>
  match name with
  | "source" =>
    match Json.string cs with
    | .ok (v, rest) => .ok ({ d with source := some v }, rest)
    | .error e => .error e
  | "line" =>
    match Json.int32 cs with
    | .ok (v, rest) => .ok ({ d with line := some v }, rest)
    | .error e => .error e
  | "column" =>
    match Json.int32 cs with
    | .ok (v, rest) => .ok ({ d with column := some v }, rest)
    | .error e => .error e
  | _ =>
    match Json.string cs with
    | .ok (v, rest) => .ok ({ d with content := some v }, rest)
    | .error e => .error e

def shape : Json.Shape Draft where
  title := "struct Snippet"
  names := ["source", "line", "column", "content"]
  has := has
  member := member
  mayLack := fun name => name != "source"

def finish (d : Draft) : Except Json.Fault Snippet :=
  match d.source with
  | some source => .ok ⟨source, d.line.getD 0, d.column.getD 0, d.content.getD ""⟩
  | none => .error (Json.missing "source")

end Draft

def read : Json.Reader Snippet := fun cs =>
  match Draft.shape.read {} cs with
  | .error e => .error e
  | .ok (d, rest) =>
    match d.finish with
    | .ok s => .ok (s, rest)
    | .error e => .error e

end Snippet

namespace Level

def read : Json.Reader Level := fun cs =>
  match Json.variant (all.map name) cs with
  | .ok (i, rest) => .ok (all.getD i .error, rest)
  | .error e => .error e

end Level

namespace ErrorKind

def read : Json.Reader ErrorKind := fun cs =>
  match Json.variant (all.map tag) cs with
  | .ok (i, rest) => .ok (all.getD i .interrupted, rest)
  | .error e => .error e

def toJson (k : ErrorKind) : Json := .str k.tag

def decode (text : String) : Except Json.Fault ErrorKind := Json.whole read text

end ErrorKind

namespace Message

def toJson (m : Message) : Json :=
  .obj ([("level", .str m.level.name), ("message", .str m.text)]
    ++ (if m.snippets.isEmpty then [] else [("snippets", .arr (m.snippets.map (·.toJson)))])
    ++ (if m.reason.isEmpty then [] else [("reason", .str m.reason)])
    ++ (if m.notes.isEmpty then [] else [("notes", .arr (m.notes.map Json.str))])
    ++ (if m.help.isEmpty then [] else [("help", .str m.help)])
    ++ (match m.kind with
        | some k => [("kind", k.toJson)]
        | none => []))

def encode (m : Message) : String := m.toJson.compact

def wire (m : Message) : String := errorMarker ++ m.encode

/-- A message as far as it has been read. -/
structure Draft where
  level : Option Level := none
  text : Option String := none
  snippets : Option (List Snippet) := none
  reason : Option String := none
  notes : Option (List String) := none
  help : Option String := none
  kind : Option (Option ErrorKind) := none

namespace Draft

def has (d : Draft) : String → Bool
  | "level" => d.level.isSome
  | "message" => d.text.isSome
  | "snippets" => d.snippets.isSome
  | "reason" => d.reason.isSome
  | "notes" => d.notes.isSome
  | "help" => d.help.isSome
  | "kind" => d.kind.isSome
  | _ => false

def member (name : String) (d : Draft) : Json.Reader Draft := fun cs =>
  match name with
  | "level" =>
    match Level.read cs with
    | .ok (v, rest) => .ok ({ d with level := some v }, rest)
    | .error e => .error e
  | "message" =>
    match Json.string cs with
    | .ok (v, rest) => .ok ({ d with text := some v }, rest)
    | .error e => .error e
  | "snippets" =>
    match Json.list Snippet.read cs with
    | .ok (v, rest) => .ok ({ d with snippets := some v }, rest)
    | .error e => .error e
  | "reason" =>
    match Json.string cs with
    | .ok (v, rest) => .ok ({ d with reason := some v }, rest)
    | .error e => .error e
  | "notes" =>
    match Json.list Json.string cs with
    | .ok (v, rest) => .ok ({ d with notes := some v }, rest)
    | .error e => .error e
  | "help" =>
    match Json.string cs with
    | .ok (v, rest) => .ok ({ d with help := some v }, rest)
    | .error e => .error e
  | _ =>
    match Json.optional ErrorKind.read cs with
    | .ok (v, rest) => .ok ({ d with kind := some v }, rest)
    | .error e => .error e

def shape : Json.Shape Draft where
  title := "struct UserMessage"
  names := ["level", "message", "snippets", "reason", "notes", "help", "kind"]
  has := has
  member := member
  mayLack := fun name => name != "level" && name != "message"

def finish (d : Draft) : Except Json.Fault Message :=
  match d.level, d.text with
  | none, _ => .error (Json.missing "level")
  | some _, none => .error (Json.missing "message")
  | some level, some text =>
    .ok ⟨level, text, d.snippets.getD [], d.reason.getD "", d.notes.getD [], d.help.getD "",
      d.kind.getD none⟩

end Draft

def read : Json.Reader Message := fun cs =>
  match Draft.shape.read {} cs with
  | .error e => .error e
  | .ok (d, rest) =>
    match d.finish with
    | .ok m => .ok (m, rest)
    | .error e => .error e

def decode (text : String) : Except Json.Fault Message := Json.whole read text

end Message

end LogConsole
