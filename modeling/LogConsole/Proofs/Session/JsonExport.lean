import LogConsole.Proofs.Json.Sorting
import LogConsole.Proofs.Number.RoundTrip
import LogConsole.Proofs.Session.FailedQuery
import LogConsole.Report
import LogConsole.Session.Command

/-!
# LogConsole.Proofs.Session.JsonExport

What the JSON export makes of the values of a query.

* `Exported kind v j`   — `j` is written for `v` under a column of which the first value is of that
  kind;
* `exportCell_exported` — a cell that is kept as a text is written as that;
* `ExportedRow`         — the object of a row;
* `export_by_first_row` — the result.

Cells are texts, and a column has the kind of its first value. A value of that kind is written as
itself, which needs that numbers are read back from their texts.
-/

namespace LogConsole

open Sql (Value StorageClass)

namespace Json

theorem sortItems_eq (js : List Json) : sortItems js = js.map sortKeys := by
  induction js with
  | nil => rfl
  | cons j rest ih => rw [sortItems, ih, List.map_cons]

end Json

namespace ResultSet

/-! ## Cells -/

/-- The JSON value of a cell under a column whose first value is of some kind. -/
inductive Exported (kind : StorageClass) : Value → Json → Prop where
  | null : Exported kind .null .null
  | integer (n : Int64) (same : kind = .integer) : Exported kind (.integer n) (.int n.toInt)
  /-- In the digits that are written, which are read back as the number. -/
  | real (f : Float) {digits : String} (same : kind = .real) (finite : Number.isFinite f = true)
      (written : Number.jsonNumber? f = some digits) (reads : Number.readFloat? digits = some f) :
      Exported kind (.real f) (.real f)
  | infinite (f : Float) (same : kind = .real) (infinite : Number.isFinite f = false) :
      Exported kind (.real f) .null
  /-- A column of texts, of bytes or of nothing. -/
  | string {v : Value} {text : String} (cell : v.cell? = some text)
      (other : kind.isNumeric = false) : Exported kind v (.str text)
  | readInteger {v : Value} {text : String} {n : Int64} (cell : v.cell? = some text)
      (column : kind = .integer) (other : v.storageClass ≠ kind)
      (reads : Number.readInt64? text = some n) : Exported kind v (.int n.toInt)
  | readReal {v : Value} {text : String} {f : Float} (cell : v.cell? = some text)
      (column : kind = .real) (other : v.storageClass ≠ kind)
      (reads : Number.readFloat? text = some f) : Exported kind v (.ofReal f)
  | unread {v : Value} {text : String} (cell : v.cell? = some text)
      (other : v.storageClass ≠ kind)
      (integer : kind = .integer → Number.readInt64? text = none)
      (real : kind = .real → Number.readFloat? text = none) : Exported kind v (.str text)

def exportCell (kind : StorageClass) (v : Value) : Json :=
  match v.cell? with
  | none => .null
  | some text => cellToJson kind text

theorem plain_infinite {f : Float} (infinite : Number.isFinite f = false) :
    ∃ g, Number.readFloat? (Number.plain f) = some g ∧ Number.isFinite g = false := by
  have bits : (Number.expBits f == 2047) = true := by simpa [Number.isFinite] using infinite
  have none : Number.Binary.ofFloat? f = none := by simp [Number.Binary.ofFloat?, bits]
  unfold Number.plain
  rw [none]
  dsimp only
  cases Number.isNaN f with
  | true =>
    rw [if_pos rfl]
    exact ⟨Number.nan, rfl, by decide +kernel⟩
  | false =>
    rw [if_neg (by decide), infinite, Number.signOf]
    cases Number.isNegative f with
    | false => exact ⟨Number.infinity, rfl, by decide +kernel⟩
    | true => exact ⟨-Number.infinity, rfl, by decide +kernel⟩

/-- A value that is not of the kind of its column is only its text. -/
theorem cellToJson_exported {kind : StorageClass} {v : Value} {text : String}
    (cell : v.cell? = some text) (other : v.storageClass ≠ kind) :
    Exported kind v (cellToJson kind text) := by
  cases kind with
  | null | text | blob => exact .string cell rfl
  | integer =>
    unfold cellToJson
    cases reads : Number.readInt64? text with
    | some n => exact .readInteger cell rfl other reads
    | none => exact .unread cell other (fun _ => reads) fun h => nomatch h
  | real =>
    unfold cellToJson
    cases reads : Number.readFloat? text with
    | some f => exact .readReal cell rfl other reads
    | none => exact .unread cell other (fun h => nomatch h) fun _ => reads

theorem exportCell_exported (kind : StorageClass) (v : Value) :
    Exported kind v (exportCell kind v) := by
  cases cell : v.cell? with
  | none =>
    rw [Value.cell?_eq_none_iff] at cell
    subst cell
    exact .null
  | some text =>
    rw [exportCell, cell]
    by_cases same : v.storageClass = kind
    · subst same
      cases v with
      | null => cases cell
      | integer n =>
        cases cell
        simp only [cellToJson, Value.storageClass, Number.readInt64?_toString]
        exact .integer n rfl
      | real f =>
        cases cell
        cases finite : Number.isFinite f with
        | true =>
          simp only [cellToJson, Value.storageClass, Number.readFloat?_plain finite, Json.ofReal,
            finite, if_true]
          obtain ⟨digits, written, reads⟩ := Number.readFloat?_jsonNumber finite
          exact .real f rfl finite written reads
        | false =>
          obtain ⟨g, reads, infinite⟩ := plain_infinite finite
          simp only [cellToJson, Value.storageClass, reads, Json.ofReal, infinite,
            Bool.false_eq_true, if_false]
          exact .infinite f rfl finite
      | text s => exact .string cell rfl
      | blob bytes => exact .string cell rfl
    · exact cellToJson_exported cell same

/-! ## Rows -/

/-- The object of a row, of which each member stands for the value under its name. -/
structure ExportedRow (columns : List String) (first row : List Value)
    (members : List (String × Json)) : Prop where
  sorted : Json.Sorted members
  cells : ∃ js, members.Perm (columns.zip js) ∧ js.length = columns.length ∧
    List.Forall₂ (fun (c : Value × Value) j => Exported c.1.storageClass c.2 j) (first.zip row) js

/-- The cells of a row. -/
def exportCells (first row : List Value) : List Json :=
  (first.zip row).map fun c => exportCell c.1.storageClass c.2

def exportMembers (columns : List String) (first row : List Value) : List (String × Json) :=
  Json.sortMembers [] (columns.zip (exportCells first row))

/-- There is nothing to sort within a cell. -/
theorem Exported.sortKeys_eq {kind : StorageClass} {v : Value} {j : Json} (h : Exported kind v j) :
    j.sortKeys = j := by
  cases h <;> try rfl
  unfold Json.ofReal
  split <;> rfl

theorem exportMembers_row {columns : List String} {first row : List Value}
    (distinct : columns.Nodup) (headed : first.length = columns.length)
    (wide : row.length = columns.length) :
    ExportedRow columns first row (exportMembers columns first row) := by
  have size : (exportCells first row).length = columns.length := by
    rw [exportCells, List.length_map, List.length_zip, headed, wide, Nat.min_self]
  have names : (columns.zip (exportCells first row)).map (·.1) = columns :=
    List.map_fst_zip size.ge
  have cells : (columns.zip (exportCells first row)).map (fun m => (m.1, m.2.sortKeys))
      = columns.zip (exportCells first row) := by
    refine (List.map_congr_left fun m hm => ?_).trans (List.map_id _)
    obtain ⟨c, -, hc⟩ := List.mem_map.1 (List.of_mem_zip hm).2
    rw [← hc, (exportCell_exported _ _).sortKeys_eq, hc]
    rfl
  refine ⟨Json.sortMembers_sorted Json.sorted_nil _, exportCells first row, ?_, size, ?_⟩
  · have perm := @Json.sortMembers_perm [] (columns.zip (exportCells first row))
      (by rw [List.nil_append, names]; exact distinct)
    rwa [cells] at perm
  · rw [exportCells, List.forall₂_map_right_iff]
    exact List.forall₂_same.2 fun c _ => exportCell_exported _ _

/-- A row under the headers that the first one has set. -/
theorem rowToJson_headersOf (keyColumns columns : List String) (first row : List Value) :
    rowToJson (headersOf keyColumns columns first) (row.map (·.cell?))
      = .obj (columns.zip (exportCells first row)) := by
  refine congrArg Json.obj ?_
  unfold headersOf exportCells
  induction columns generalizing first row with
  | nil => rfl
  | cons column columns ih =>
    cases first with
    | nil => rfl
    | cons v first =>
      cases row with
      | nil => rfl
      | cons w row => exact congrArg _ (ih first row)

theorem toJson_ofRows (keyColumns columns : List String) (rows : List (List Value)) :
    (ofRows keyColumns columns rows).toJson
      = .arr (rows.map fun row => .obj (exportMembers columns (rows.headD []) row)) := by
  cases rows with
  | nil => rfl
  | cons first rest =>
    have headers : (ofRows keyColumns columns (first :: rest)).headers
        = headersOf keyColumns columns first := rfl
    have cells : (ofRows keyColumns columns (first :: rest)).rows
        = (first :: rest).map fun row => row.map (·.cell?) := rfl
    rw [toJson, Json.sortKeys, Json.sortItems_eq, headers, cells, List.map_map, List.map_map]
    refine congrArg Json.arr (List.map_congr_left fun row _ => ?_)
    simp only [Function.comp, rowToJson_headersOf, Json.sortKeys]
    rfl

end ResultSet

namespace Session

open Run ResultSet

/-! ## The result -/

/-- **The JSON export goes by the first row.** For the rows of a query whose columns have different
names, what `:write-json-to` writes and what is printed as the table is one object a row, in the
order of the rows, whose members are the cells under the names of their columns. A null is null. A
value of the storage class that the first value of its column has is written as itself: an integer
as that number, a finite real as that number, a text as exactly that string. Of any other value the
text is written: as a number if the first value is an integer or a real and the text reads as one,
else as a string. The results of a session are always the rows of one query. -/
theorem export_by_first_row :
    (∀ (keyColumns columns : List String) (rows : List (List Value)), columns.Nodup →
      (∀ row ∈ rows, row.length = columns.length) →
      ∃ objects : List (List (String × Json)),
        List.Forall₂ (ExportedRow columns (rows.headD [])) rows objects ∧
        jsonText (.ofRows keyColumns columns rows)
          = (Json.arr (objects.map .obj)).pretty ++ "\n" ∧
        ∀ w, Report.printTable .json (.ofRows keyColumns columns rows) w
          = w.print ((Json.arr (objects.map .obj)).compact ++ "\n")) ∧
    ∀ s : Session, Reachable s → s.results.OfOne := by
  refine ⟨fun keyColumns columns rows distinct wide => ?_, fun s reached => reached.ofOne⟩
  have exported := toJson_ofRows keyColumns columns rows
  refine ⟨rows.map (exportMembers columns (rows.headD [])), ?_, ?_, fun w => ?_⟩
  · rw [List.forall₂_map_right_iff]
    refine List.forall₂_same.2 fun row hrow => ?_
    have headed : (rows.headD []).length = columns.length := by
      obtain ⟨first, rest, rfl⟩ := List.exists_cons_of_ne_nil (List.ne_nil_of_mem hrow)
      exact wide first List.mem_cons_self
    exact exportMembers_row distinct headed (wide row hrow)
  · rw [jsonText, exported, List.map_map]
    rfl
  · rw [Report.printTable, exported, List.map_map]
    rfl

/-- Values under an integer, under nothing and under a number with a fraction. -/
def mixedRows : List (List Value) :=
  [[.integer 1, .null, .real 0.5], [.text "2", .integer 3, .text "x"],
    [.null, .text "y", .real 1e300]]

theorem mixed_rows_exported :
    (∃ objects : List (List (String × Json)),
      List.Forall₂ (ExportedRow ["n", "a", "f"] [.integer 1, .null, .real 0.5]) mixedRows objects ∧
      jsonText (.ofRows [] ["n", "a", "f"] mixedRows)
        = (Json.arr (objects.map .obj)).pretty ++ "\n" ∧
      ∀ w, Report.printTable .json (.ofRows [] ["n", "a", "f"] mixedRows) w
        = w.print ((Json.arr (objects.map .obj)).compact ++ "\n")) ∧
    ({} : Session).results.OfOne :=
  ⟨export_by_first_row.1 [] ["n", "a", "f"] mixedRows (by decide) (by decide),
    export_by_first_row.2 {} (.start Sql.Database.sound_empty rfl rfl)⟩

/-- A value written as what it is itself. -/
def Faithful : Value → Json → Prop
  | .null, j => j = .null
  | .integer n, j => j = .int n.toInt
  | .real f, j => Number.isFinite f = true → ∃ g, Number.isFinite g = true ∧ j = .real g
  | .text s, j => j = .str s
  | .blob _, _ => True

def FaithfulRow (columns : List String) (row : List Value) (members : List (String × Json)) :
    Prop :=
  ∃ js, members.Perm (columns.zip js) ∧ List.Forall₂ Faithful row js

set_option maxRecDepth 8000 in
/-- A text under an integer is written as a number, and so not as what it is itself. -/
theorem text_under_integer_not_faithful :
    ∃ answer t, runQuery "VALUES (1), ('2')" {} = some (.ok answer, t) ∧
      t.results = .ofRows [] ["column1"] [[.integer 1], [.text "2"]] ∧
      ¬ ∃ objects, List.Forall₂ (FaithfulRow ["column1"]) [[.integer 1], [.text "2"]] objects ∧
        jsonText t.results = (Json.arr (objects.map .obj)).pretty ++ "\n" := by
  have seen : (runQuery "VALUES (1), ('2')" {}).map (fun e => (e.1.isOk, e.2.results))
      = some (true, .ofRows [] ["column1"] [[.integer 1], [.text "2"]]) := by decide +kernel
  obtain ⟨⟨r, t⟩, run, seen⟩ := Option.map_eq_some_iff.1 seen
  obtain ⟨done, results⟩ := Prod.mk.inj seen
  cases r with
  | error m => cases done
  | ok answer =>
    refine ⟨answer, t, run, results, ?_⟩
    rintro ⟨objects, rows, text⟩
    change t.results = _ at results
    rw [results] at text
    have only {v : Value} {members : List (String × Json)} {j : Json}
        (own : ∀ k, Faithful v k → k = j) (h : FaithfulRow ["column1"] [v] members) :
        members = [("column1", j)] := by
      obtain ⟨js, perm, faithful⟩ := h
      obtain _ | ⟨h, none⟩ := faithful
      cases none
      rw [own _ h] at perm
      exact List.perm_singleton.1 perm
    obtain _ | ⟨first, rest⟩ := rows
    obtain _ | ⟨second, none⟩ := rest
    cases none
    rw [only (v := .integer 1) (j := .int 1) (fun _ h => h) first,
      only (v := .text "2") (j := .str "2") (fun _ h => h) second] at text
    exact absurd text (by decide +kernel)

end Session

end LogConsole
