import LogConsole.Proofs.Context.Delivery
import LogConsole.Proofs.Csv.Grammar
import LogConsole.Proofs.Session.Reachable
import LogConsole.Proofs.Text.Utf8

/-!
# LogConsole.Proofs.Session.CsvExport

What the CSV export writes is read back as the table it was made of.

* `ResultSet.table`    — the names of the columns, then the rows, in which a null is empty;
* `Aligned.table_even`, `Aligned.table_fields` — its records are of equal length, which is not zero
  if there are headers;
* `Csv.ReadsAs`        — what bytes are as a text of comma-separated values;
* `export_reads_back`  — the result, for every session and every sink that refuses nothing.
-/

namespace LogConsole

open Text.Utf8 (decode? decode?_encode)

namespace ResultSet

/-- The names of the columns, and the cells of each row with nothing in place of a null. -/
def table (r : ResultSet) : List (List String) :=
  r.headers.map (·.name) :: r.rows.map fun row => row.map (·.getD "")

theorem Aligned.table_even {r : ResultSet} (h : r.Aligned) :
    ∀ fields ∈ r.table, fields.length = r.headers.length := by
  intro fields hfields
  rcases List.mem_cons.1 hfields with rfl | hfields
  · exact List.length_map _
  · obtain ⟨row, hrow, rfl⟩ := List.mem_map.1 hfields
    rw [List.length_map, h.even row hrow]

theorem Aligned.table_fields {r : ResultSet} (h : r.Aligned) (headed : r.headers ≠ []) :
    ∀ fields ∈ r.table, fields ≠ [] := by
  intro fields hfields none
  have width := h.table_even fields hfields
  rw [none, List.length_nil] at width
  exact headed (List.length_eq_zero_iff.1 width.symm)

end ResultSet

namespace Csv

/-- Bytes that are a text of comma-separated values. -/
def ReadsAs (bytes : List UInt8) (records : List (List String)) : Prop :=
  ∃ text, decode? bytes = some text ∧ Table text.toList records

theorem readsAs_encode_iff {records : List (List String)}
    (some_field : ∀ fields ∈ records, fields ≠ []) (others : List (List String)) :
    ReadsAs (Text.Utf8.encode (encode records)) others ↔ others = records := by
  rw [← table_encode_iff some_field, ReadsAs, decode?_encode]
  simp

end Csv

namespace Session

variable {s : Session}

/-- **The CSV export can be read back.** Whatever has been run in a session: if its results have
headers, all of them are written, to any sink that refuses nothing and however the text is cut into
pieces. What such a sink has received is then a text of comma-separated values, which reads in one
way only, as the names of the columns followed by the rows in their order. There are as many records
as rows and one more, each with as many fields as there are headers, in which a null cell is empty
and every other one is as it was. -/
theorem export_reads_back (h : Reachable s) (headed : s.results.headers ≠ []) :
    Csv.write s.results.table = .ok s.results.toCsv ∧
    (∀ (w : World) (id : Nat) (calls : List SinkCall), w.Accepting id →
      Conveys calls (Text.Utf8.encode s.results.toCsv) →
      ∃ v before after written, w.callAll id calls = (.ok (), v) ∧ w.sinks[id]? = some before ∧
        v.sinks[id]? = some after ∧ after.received = before.received ++ written ∧
        ∀ records, Csv.ReadsAs written records ↔ records = s.results.table) ∧
    s.results.table.length = s.results.rows.length + 1 ∧
    ∀ fields ∈ s.results.table, fields.length = s.results.headers.length := by
  have aligned := h.regular.results
  refine ⟨aligned.writes, fun w id calls accepting conveys => ?_, ?_, aligned.table_even⟩
  · obtain ⟨v, before, after, called, there, left, took⟩ := accepting.conveyed conveys
    exact ⟨v, before, after, _, called, there, left, took.received,
      Csv.readsAs_encode_iff (aligned.table_fields headed)⟩
  · rw [ResultSet.table, List.length_cons, List.length_map]

/-- A query whose names and cells have in them what separates fields and records. -/
def awkwardQuery : String :=
  ";SELECT NULL AS \"a,b\", 'two\nlines' AS c UNION ALL SELECT 'say \"hi\"', ''"

def awkwardTable : List (List String) := [["a,b", "c"], ["", "two\nlines"], ["say \"hi\"", ""]]

def awkwardText : String := "\"a,b\",c\n,\"two\nlines\"\n\"say \"\"hi\"\"\",\n"

/-- A world with one sink, which refuses nothing. -/
def oneSink : World := (({} : World).addSink (.memory "sink" fun _ _ => none)).2

set_option maxRecDepth 8000 in
/-- A query is run and its results are written to a sink, from which they are read back. -/
theorem awkward_export_reads_back :
    ∃ r t v sink, executeAny 1 awkwardQuery {} = some (r, t) ∧ Reachable t ∧
      t.results.headers ≠ [] ∧ t.results.table = awkwardTable ∧ t.results.toCsv = awkwardText ∧
      oneSink.callAll 0 [.write (Text.Utf8.encode awkwardText), .flush] = (.ok (), v) ∧
      v.sinks[0]? = some sink ∧ ∀ records, Csv.ReadsAs sink.received records ↔
        records = awkwardTable := by
  have outcome : (executeAny 1 awkwardQuery {}).map
      (fun e => (e.2.results.table, e.2.results.toCsv)) = some (awkwardTable, awkwardText) := by
    decide +kernel
  obtain ⟨⟨r, t⟩, run, seen⟩ := Option.map_eq_some_iff.1 outcome
  obtain ⟨table, text⟩ := Prod.mk.inj seen
  change t.results.table = awkwardTable at table
  change t.results.toCsv = awkwardText at text
  have reached : Reachable t := .step (.start Sql.Database.sound_empty rfl rfl) (.line run)
  have headed : t.results.headers ≠ [] := fun none => by
    simp [ResultSet.table, none, awkwardTable] at table
  obtain ⟨-, written, -, -⟩ := export_reads_back reached headed
  rw [table, text] at written
  have accepting : oneSink.Accepting 0 := ⟨_, rfl, fun _ _ => rfl⟩
  obtain ⟨v, before, sink, bytes, called, there, left, received, reads⟩ :=
    written oneSink 0 _ accepting (.of_pieces [Text.Utf8.encode awkwardText])
  cases there
  refine ⟨r, t, v, sink, run, reached, headed, table, text, called, left, ?_⟩
  rw [received]
  exact reads

end Session

end LogConsole
