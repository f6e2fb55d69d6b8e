import LogConsole.Json.Reader

/-!
# LogConsole.LineValue

The values found in the log line that has the focus; a query reaches them by name.

* `Datum`     — nothing, a truth value, a number or a text;
* `LineValue` — a datum with its name;
* `toJson`, `LineValue.decode` — line values as JSON, a datum written as its kind and its
  content. The kind may come after the content.
-/

namespace LogConsole

inductive Datum where
  | null
  | boolean (b : Bool)
  | integer (n : Int64)
  | float (f : Float)
  | text (s : String)

structure LineValue where
  name : String
  value : Datum

namespace Datum

def display : Datum → String
  | .null => ""
  | .boolean b => if b then "true" else "false"
  | .integer n => toString n.toInt
  | .float f => Number.plain f
  | .text s => s

def toJson : Datum → Json
  | .null => .obj [("kind", .str "null")]
  | .boolean b => .obj [("kind", .str "boolean"), ("value", .bool b)]
  | .integer n => .obj [("kind", .str "integer"), ("value", .int n.toInt)]
  | .float f => .obj [("kind", .str "float"), ("value", .real f)]
  | .text s => .obj [("kind", .str "text"), ("value", .str s)]

inductive Kind where
  | null | boolean | integer | float | text
  deriving DecidableEq, Repr

def Kind.all : List Kind := [.null, .boolean, .integer, .float, .text]

def Kind.name : Kind → String
  | .null => "null"
  | .boolean => "boolean"
  | .integer => "integer"
  | .float => "float"
  | .text => "text"

def Kind.read : Json.Reader Kind := fun cs =>
  match Json.variant (Kind.all.map Kind.name) cs with
  | .ok (i, rest) => .ok (Kind.all.getD i .null, rest)
  | .error e => .error e

/-- What a datum is called where another kind of value was found. -/
def title : String := "adjacently tagged enum Value"

/-- The content of a datum of a known kind. -/
def readContent (kind : Kind) : Json.Reader Datum := fun cs =>
  match kind with
  | .null =>
    match Json.nothing "unit variant Value::Null" cs with
    | .ok ((), rest) => .ok (.null, rest)
    | .error e => .error e
  | .boolean =>
    match Json.boolean cs with
    | .ok (b, rest) => .ok (.boolean b, rest)
    | .error e => .error e
  | .integer =>
    match Json.int64 cs with
    | .ok (n, rest) => .ok (.integer n, rest)
    | .error e => .error e
  | .float =>
    match Json.float64 cs with
    | .ok (f, rest) => .ok (.float f, rest)
    | .error e => .error e
  | .text =>
    match Json.string cs with
    | .ok (s, rest) => .ok (.text s, rest)
    | .error e => .error e

/-- The datum of a kind that comes without content. -/
def withoutContent : Kind → Except Json.Fault Datum
  | .null => .ok .null
  | _ => .error (Json.missing "value")

/-- The name of the next member that is a kind or a content (after its colon), or none at the
end of the object; other members are passed over, at most `fuel` of them. -/
def nextPart : Nat → Bool → List Char → Except Json.Fault (Option String × List Char)
  | 0, _, _ => .error .malformed
  | fuel + 1, first, cs =>
    match Json.nextName first cs with
    | .error e => .error e
    | .ok none => .ok (none, cs)
    | .ok (some cs) =>
      match Json.stringFrom [] cs with
      | .error e => .error e
      | .ok (name, rest) =>
        if name == "kind" || name == "value" then .ok (some name, rest)
        else
          match Json.colon rest with
          | .error e => .error e
          | .ok rest =>
            match Json.skipValue (rest.length + 1) rest with
            | .error e => .error e
            | .ok rest => nextPart fuel false rest

/-- The rest of an object once kind and content have been read. -/
def closeParts (d : Datum) (cs : List Char) : Except Json.Fault (Datum × List Char) :=
  match nextPart (cs.length + 1) false cs with
  | .error e => .error e
  | .ok (some name, _) => .error (.mismatch ("duplicate field " ++ Json.backticked name))
  | .ok (none, cs) =>
    match Json.closeObject cs with
    | .ok rest => .ok (d, rest)
    | .error e => .error e

/-- The rest of an object whose first part is the kind. -/
def kindFirst (cs : List Char) : Except Json.Fault (Datum × List Char) :=
  match Json.colon cs with
  | .error e => .error e
  | .ok cs =>
    match Kind.read cs with
    | .error e => .error e
    | .ok (kind, cs) =>
      match nextPart (cs.length + 1) false cs with
      | .error e => .error e
      | .ok (some name, rest) =>
        if name == "kind" then .error (.mismatch "duplicate field `kind`")
        else
          match Json.colon rest with
          | .error e => .error e
          | .ok rest =>
            match readContent kind rest with
            | .ok (d, rest) => closeParts d rest
            | .error e => .error e
      | .ok (none, rest) =>
        match withoutContent kind with
        | .error e => .error e
        | .ok d =>
          match Json.closeObject rest with
          | .ok rest => .ok (d, rest)
          | .error e => .error e

/-- The rest of an object whose first part is the content. It is read as a tree and, once the
kind is known, its written form is read again as content of that kind. -/
def contentFirst (cs : List Char) : Except Json.Fault (Datum × List Char) :=
  match Json.colon cs with
  | .error e => .error e
  | .ok cs =>
    match Json.tree 126 (cs.length + 1) cs with
    | .error e => .error e
    | .ok (content, cs) =>
      match nextPart (cs.length + 1) false cs with
      | .error e => .error e
      | .ok (none, _) => .error (Json.missing "kind")
      | .ok (some name, rest) =>
        if name == "value" then .error (.mismatch "duplicate field `value`")
        else
          match Json.colon rest with
          | .error e => .error e
          | .ok rest =>
            match Kind.read rest with
            | .error e => .error e
            | .ok (kind, rest) =>
              match kind, content with
              | .float, .real f => closeParts (.float f) rest
              | kind, content =>
                match readContent kind content.compactChars with
                | .ok (d, _) => closeParts d rest
                | .error e => .error e

def read : Json.Reader Datum := fun cs =>
  match Json.skip cs with
  | '\x7b' :: rest =>
    match nextPart (rest.length + 1) true rest with
    | .error e => .error e
    | .ok (none, _) => .error (Json.missing "kind")
    | .ok (some name, rest) => if name == "kind" then kindFirst rest else contentFirst rest
  | '[' :: rest =>
    match Json.nextElement true rest with
    | .error e => .error e
    | .ok none => .error (.mismatch ("invalid length 0, expected " ++ title))
    | .ok (some cs) =>
      match Kind.read cs with
      | .error e => .error e
      | .ok (kind, rest) =>
        match Json.nextElement false rest with
        | .error e => .error e
        | .ok none => .error (.mismatch ("invalid length 1, expected " ++ title))
        | .ok (some cs) =>
          match readContent kind cs with
          | .error e => .error e
          | .ok (d, rest) =>
            match Json.closeArray rest with
            | .ok rest => .ok (d, rest)
            | .error e => .error e
  | _ => .error (Json.wrongType title cs)

end Datum

namespace LineValue

def toJson (v : LineValue) : Json := .obj [("name", .str v.name), ("value", v.value.toJson)]

structure Draft where
  name : Option String := none
  value : Option Datum := none

namespace Draft

def has (d : Draft) : String → Bool
  | "name" => d.name.isSome
  | "value" => d.value.isSome
  | _ => false

def member (name : String) (d : Draft) : Json.Reader Draft := fun cs =>
  match name with
  | "name" =>
    match Json.string cs with
    | .ok (v, rest) => .ok ({ d with name := some v }, rest)
    | .error e => .error e
  | _ =>
    match Datum.read cs with
    | .ok (v, rest) => .ok ({ d with value := some v }, rest)
    | .error e => .error e

def shape : Json.Shape Draft where
  title := "struct LineValue"
  names := ["name", "value"]
  has := has
  member := member
  mayLack := fun _ => false

def finish (d : Draft) : Except Json.Fault LineValue :=
  match d.name, d.value with
  | some name, some value => .ok ⟨name, value⟩
  | none, _ => .error (Json.missing "name")
  | _, none => .error (Json.missing "value")

end Draft

def read : Json.Reader LineValue := fun cs =>
  match Draft.shape.read {} cs with
  | .error e => .error e
  | .ok (d, rest) =>
    match d.finish with
    | .ok v => .ok (v, rest)
    | .error e => .error e

def decode (text : String) : Except Json.Fault LineValue := Json.whole read text

end LineValue

end LogConsole
