import LogConsole.Message.Basic
import LogConsole.Text.Lines

/-!
# LogConsole.Message.Render

The report made of a message: the message after its level, then for each snippet its location
and its lines, then the reason, the notes and the help text.

* `Style`   — the parameters of an escape sequence that sets colour and weight;
* `paint`   — a text in a style;
* `render`  — the report, with or without the level and with or without styles. Styles enclose
  fixed texts only, never a text of the message.
-/

namespace LogConsole

/-- The parameters of a select-graphic-rendition sequence. -/
structure Style where
  parameters : List Nat
  deriving DecidableEq, Repr

namespace Style

def bold : Style := ⟨[1]⟩
def redBold : Style := ⟨[31, 1]⟩
def greenBold : Style := ⟨[32, 1]⟩
def yellowBold : Style := ⟨[33, 1]⟩
def blueBold : Style := ⟨[34, 1]⟩
def cyanBold : Style := ⟨[36, 1]⟩

def start (s : Style) : String :=
  "\x1b[" ++ ";".intercalate (s.parameters.map toString) ++ "m"

def reset : String := "\x1b[0m"

end Style

def paint (color : Bool) (style : Style) (text : String) : String :=
  if color then style.start ++ text ++ Style.reset else text

namespace Level

def label : Level → String
  | .ok => "✔ "
  | .info => "ⓘ info: "
  | .warning => "⚠ warning: "
  | .error => "✘ error: "

def style : Level → Style
  | .ok => .greenBold
  | .info => .cyanBold
  | .warning => .yellowBold
  | .error => .redBold

end Level

/-- The lines of a text, each but the first moved in by `indent`. -/
def indented (indent text : String) : String :=
  ("\n" ++ indent).intercalate (Text.lines text)

namespace Snippet

def render (color : Bool) (s : Snippet) : String :=
  "\n" ++ paint color .blueBold " --> " ++ s.location
    ++ String.join ((Text.lines s.content).map fun line =>
        "\n" ++ paint color .blueBold "  | " ++ line)

end Snippet

namespace Message

/-- A section with a heading; empty for an empty text. -/
def renderSection (color : Bool) (style : Style) (heading indent text : String) : String :=
  if text.isEmpty then "" else "\n" ++ paint color style heading ++ indented indent text

def renderNote (color : Bool) (note : String) : String :=
  "\n" ++ paint color .blueBold " • " ++ indented "   " note

def render (labelled color : Bool) (m : Message) : String :=
  (if labelled then paint color m.level.style m.level.label else "")
    ++ m.text
    ++ String.join (m.snippets.map (·.render color))
    ++ renderSection color .bold " reason: " "         " m.reason
    ++ String.join (m.notes.map (renderNote color))
    ++ renderSection color .cyanBold " = help: " "   " m.help

/-- The report as it is shown without a terminal. -/
def display (m : Message) : String := m.render true false

end Message

end LogConsole
