import LogConsole.Context
import LogConsole.Message.Wire

/-!
# LogConsole.Query.Failure

What the query engine's failure texts mean.

* `markedMessage?` — the message in a failure text that holds one: the mark and an encoded
  message;
* `engineFailure`  — the message for a failure text. A message from the engine gets a kind and
  the current source if it has none; any other text is a message of its own.
-/

namespace LogConsole.Query

/-- What comes after the mark. -/
def afterMarker? (text : String) : Option String :=
  let mark := errorMarker.toList
  if mark.isPrefixOf text.toList then some (String.ofList (text.toList.drop mark.length)) else none

def markedMessage? (text : String) : Option Message :=
  match afterMarker? text with
  | none => none
  | some encoded =>
    match Message.decode encoded with
    | .ok m => some m
    | .error _ => none

/-- Gives a message of the engine what it lacks. -/
def completed (ctx : Context) (m : Message) : Message :=
  let m := if m.kind.isNone then m.withKind .structuredEngineError else m
  if m.snippets.isEmpty then m.withSnippet ctx.source else m

def engineFailure (ctx : Context) (text : String) : Message :=
  match markedMessage? text with
  | some m => completed ctx m
  | none => ctx.error .engineError text

end LogConsole.Query
