import LogConsole.Json.Reader

/-!
# LogConsole.Help

The help text of a command.

* `HelpContext` — whether the command is written after a colon or as a query;
* `Help`        — name, summary, parameters and examples;
* `synopsis`    — one line of usage;
* `display`     — the sections shown to the user. Parameter names fill a column as wide, in
  characters, as the longest name has bytes;
* `Help.toJson`, `Help.decode` — help texts as JSON.
-/

namespace LogConsole

inductive HelpContext where
  | command
  | sql
  deriving DecidableEq, Repr

structure HelpParameter where
  name : String
  description : String
  optional : Bool := false
  deriving DecidableEq, Repr

structure Help where
  context : HelpContext := .command
  name : String
  summary : String
  parameters : List HelpParameter := []
  examples : List String := []
  deriving DecidableEq, Repr

namespace HelpContext

def all : List HelpContext := [.command, .sql]

def mark : HelpContext → Char
  | .command => ':'
  | .sql => ';'

def tag : HelpContext → String
  | .command => "Command"
  | .sql => "Sql"

def read : Json.Reader HelpContext := fun cs =>
  match Json.variant (all.map tag) cs with
  | .ok (i, rest) => .ok (all.getD i .command, rest)
  | .error e => .error e

end HelpContext

namespace HelpParameter

def usage (p : HelpParameter) : String :=
  if p.optional then " [" ++ p.name ++ "]" else " <" ++ p.name ++ ">"

def toJson (p : HelpParameter) : Json :=
  .obj [("name", .str p.name), ("description", .str p.description),
    ("optional", .bool p.optional)]

structure Draft where
  name : Option String := none
  description : Option String := none
  optional : Option Bool := none

namespace Draft

def has (d : Draft) : String → Bool
  | "name" => d.name.isSome
  | "description" => d.description.isSome
  | "optional" => d.optional.isSome
  | _ => false

def member (name : String) (d : Draft) : Json.Reader Draft := fun cs =>
  match name with
  | "name" =>
    match Json.string cs with
    | .ok (v, rest) => .ok ({ d with name := some v }, rest)
    | .error e => .error e
  | "description" =>
    match Json.string cs with
    | .ok (v, rest) => .ok ({ d with description := some v }, rest)
    | .error e => .error e
  | _ =>
    match Json.boolean cs with
    | .ok (v, rest) => .ok ({ d with optional := some v }, rest)
    | .error e => .error e

def shape : Json.Shape Draft where
  title := "struct HelpParam"
  names := ["name", "description", "optional"]
  has := has
  member := member
  mayLack := fun _ => false

def finish (d : Draft) : Except Json.Fault HelpParameter :=
  match d.name, d.description, d.optional with
  | some name, some description, some optional => .ok ⟨name, description, optional⟩
  | none, _, _ => .error (Json.missing "name")
  | _, none, _ => .error (Json.missing "description")
  | _, _, none => .error (Json.missing "optional")

end Draft

def read : Json.Reader HelpParameter := fun cs =>
  match Draft.shape.read {} cs with
  | .error e => .error e
  | .ok (d, rest) =>
    match d.finish with
    | .ok p => .ok (p, rest)
    | .error e => .error e

end HelpParameter

namespace Help

/-- Help for a `:` command. -/
def command (name summary : String) : Help := ⟨.command, name, summary, [], []⟩

/-- Help for a `.` statement. -/
def sql (name summary : String) : Help := ⟨.sql, name, summary, [], []⟩

def withParameter (h : Help) (name description : String) : Help :=
  { h with parameters := h.parameters ++ [⟨name, description, false⟩] }

def withOptionalParameter (h : Help) (name description : String) : Help :=
  { h with parameters := h.parameters ++ [⟨name, description, true⟩] }

def withExample (h : Help) (sample : String) : Help :=
  { h with examples := h.examples ++ [sample] }

def synopsis (h : Help) : String :=
  String.singleton h.context.mark ++ h.name ++ String.join (h.parameters.map (·.usage))

/-- A text followed by blanks up to `width` characters. -/
def padded (width : Nat) (s : String) : String :=
  s ++ String.ofList (List.replicate (width - s.length) ' ')

def columnWidth (h : Help) : Nat := (h.parameters.map (·.name.utf8ByteSize)).foldl max 0

def display (h : Help) : String :=
  "Synopsis\n  " ++ h.synopsis ++ "\n    " ++ h.summary
    ++ (if h.parameters.isEmpty then ""
        else "\nParameters" ++ String.join (h.parameters.map fun p =>
          "\n  " ++ padded h.columnWidth p.name ++ "  " ++ p.description))
    ++ (match h.examples with
        | [] => ""
        | [e] => "\nExample\n  " ++ e
        | es => "\nExamples" ++ String.join (es.map ("\n  " ++ ·)))

def toJson (h : Help) : Json :=
  .obj [("context", .str h.context.tag), ("name", .str h.name), ("summary", .str h.summary),
    ("parameters", .arr (h.parameters.map (·.toJson))),
    ("examples", .arr (h.examples.map Json.str))]

structure Draft where
  context : Option HelpContext := none
  name : Option String := none
  summary : Option String := none
  parameters : Option (List HelpParameter) := none
  examples : Option (List String) := none

namespace Draft

def has (d : Draft) : String → Bool
  | "context" => d.context.isSome
  | "name" => d.name.isSome
  | "summary" => d.summary.isSome
  | "parameters" => d.parameters.isSome
  | "examples" => d.examples.isSome
  | _ => false

def member (name : String) (d : Draft) : Json.Reader Draft := fun cs =>
  match name with
  | "context" =>
    match HelpContext.read cs with
    | .ok (v, rest) => .ok ({ d with context := some v }, rest)
    | .error e => .error e
  | "name" =>
    match Json.string cs with
    | .ok (v, rest) => .ok ({ d with name := some v }, rest)
    | .error e => .error e
  | "summary" =>
    match Json.string cs with
    | .ok (v, rest) => .ok ({ d with summary := some v }, rest)
    | .error e => .error e
  | "parameters" =>
    match Json.list HelpParameter.read cs with
    | .ok (v, rest) => .ok ({ d with parameters := some v }, rest)
    | .error e => .error e
  | _ =>
    match Json.list Json.string cs with
    | .ok (v, rest) => .ok ({ d with examples := some v }, rest)
    | .error e => .error e

def shape : Json.Shape Draft where
  title := "struct HelpText"
  names := ["context", "name", "summary", "parameters", "examples"]
  has := has
  member := member
  mayLack := fun _ => false

def finish (d : Draft) : Except Json.Fault Help :=
  match d.context, d.name, d.summary, d.parameters, d.examples with
  | some context, some name, some summary, some parameters, some examples =>
    .ok ⟨context, name, summary, parameters, examples⟩
  | none, _, _, _, _ => .error (Json.missing "context")
  | _, none, _, _, _ => .error (Json.missing "name")
  | _, _, none, _, _ => .error (Json.missing "summary")
  | _, _, _, none, _ => .error (Json.missing "parameters")
  | _, _, _, _, none => .error (Json.missing "examples")

end Draft

def read : Json.Reader Help := fun cs =>
  match Draft.shape.read {} cs with
  | .error e => .error e
  | .ok (d, rest) =>
    match d.finish with
    | .ok h => .ok (h, rest)
    | .error e => .error e

def decode (text : String) : Except Json.Fault Help := Json.whole read text

end Help

end LogConsole
