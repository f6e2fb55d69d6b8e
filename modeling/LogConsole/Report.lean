import LogConsole.CommandLine
import LogConsole.Message.Render
import LogConsole.Message.Wire
import LogConsole.ResultSet
import LogConsole.World

/-!
# LogConsole.Report

What is printed of the outcome of a line.

* `printMessage` — the answer to a line;
* `printError`   — a failure: a report on standard error, or an object on standard output;
* `printTable`   — rows with their headers, parted by tabs, or an array of objects.
-/

namespace LogConsole.Report

def jsonLine (members : List (String × Json)) : String :=
  (Json.obj members).sortKeys.compact ++ "\n"

def printMessage (format : OutputFormat) (line answer : String) (w : World) : World :=
  match format with
  | .plain => if answer.isEmpty then w else w.print (answer ++ "\n")
  | .json => w.print (jsonLine [("command", .str line), ("result", .str answer)])

def printError (format : OutputFormat) (line : String) (m : Message) (w : World) : World :=
  match format with
  | .plain => w.printError (m.display ++ "\n")
  | .json => w.print (jsonLine [("command", .str line), ("error", m.toJson)])

/-- Cells parted by tabs. -/
def tableLine (cells : List String) : String := "\t".intercalate cells ++ "\n"

def tableText (r : ResultSet) : String :=
  tableLine (r.headers.map (·.name))
    ++ String.join (r.rows.map fun row => tableLine (row.map (·.getD "<NULL>")))

def printTable (format : OutputFormat) (r : ResultSet) (w : World) : World :=
  match format with
  | .plain => w.print (tableText r)
  | .json => w.print (r.toJson.compact ++ "\n")

end LogConsole.Report
