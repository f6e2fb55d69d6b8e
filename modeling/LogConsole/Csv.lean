/-!
# LogConsole.Csv

Tables as comma-separated values (RFC 4180, with a line feed at the end of each record).

* `field`  — a field, quoted if a reader could not tell its extent otherwise;
* `record` — the fields of a record. A record with nothing in it is a pair of quotes, since an
  empty line is no record;
* `encode` — records one after the other.
-/

namespace LogConsole.Csv

def needsQuotes (c : Char) : Bool := c == ',' || c == '"' || c == '\r' || c == '\n'

/-- A quotation mark inside a quoted field is written twice. -/
def quoted (cs : List Char) : List Char :=
  '"' :: cs.flatMap (fun c => if c = '"' then ['"', '"'] else [c]) ++ ['"']

def field (s : String) : List Char :=
  if s.toList.any needsQuotes then quoted s.toList else s.toList

def joinFields : List (List Char) → List Char
  | [] => []
  | [f] => f
  | f :: rest => f ++ ',' :: joinFields rest

def record (fields : List String) : List Char :=
  match joinFields (fields.map field) with
  | [] => ['"', '"', '\n']
  | cs => cs ++ ['\n']

def encode (records : List (List String)) : String :=
  String.ofList (records.flatMap record)

end LogConsole.Csv
