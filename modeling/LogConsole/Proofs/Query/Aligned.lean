import LogConsole.Session.Query

/-!
# LogConsole.Proofs.Query.Aligned

A result set in which every cell stands under a header.

* `ResultSet.Aligned` — each row has as many cells as there are headers, and there are headers
  exactly if there are rows;
* `recordAll_aligned` — rows that are all as wide as there are columns are recorded as such a
  result set, whichever of them are refused. They have to be recorded after clearing: the headers
  of an earlier query would stay;
* `ResultSet.Paired`  — the cells of a row with their headers, and that all who read the two side by
  side read these;
* `Csv.write`         — a writer that refuses a record with more or fewer fields than the one
  before.
-/

namespace LogConsole

/-! ## Writing records -/

namespace Csv

/-- A record with more or fewer fields than the one before it. -/
structure UnequalLengths where
  expected : Nat
  found : Nat
  deriving DecidableEq, Repr

/-- Writes records, each only if it has as many fields as are expected. -/
def writeAfter (expected : Nat) : List (List String) → Except UnequalLengths (List Char)
  | [] => .ok []
  | fields :: rest =>
    if fields.length = expected then
      match writeAfter expected rest with
      | .error e => .error e
      | .ok cs => .ok (record fields ++ cs)
    else .error ⟨expected, fields.length⟩

/-- Writes records. The first says how many fields the others must have. -/
def write : List (List String) → Except UnequalLengths String
  | [] => .ok ""
  | fields :: rest =>
    match writeAfter fields.length rest with
    | .error e => .error e
    | .ok cs => .ok (String.ofList (record fields ++ cs))

theorem writeAfter_even {expected : Nat} {records : List (List String)}
    (h : ∀ fields ∈ records, fields.length = expected) :
    writeAfter expected records = .ok (records.flatMap record) := by
  induction records with
  | nil => rfl
  | cons fields rest ih =>
    have first : fields.length = expected := h fields List.mem_cons_self
    rw [writeAfter, if_pos first, ih fun fields hf => h fields (List.mem_cons_of_mem _ hf)]
    rfl

/-- Records of equal length are written, and nothing else than what they are encoded as. -/
theorem write_even {fields : List String} {rest : List (List String)}
    (h : ∀ others ∈ rest, others.length = fields.length) :
    write (fields :: rest) = .ok (encode (fields :: rest)) := by
  rw [write, writeAfter_even h]
  rfl

end Csv

/-! ## Headers and cells -/

namespace ResultSet

open Query (pairText summarize firstRowVariables)

structure Aligned (r : ResultSet) : Prop where
  even : ∀ row ∈ r.rows, row.length = r.headers.length
  headed : r.headers ≠ [] ↔ r.rows ≠ []

theorem aligned_of_empty {r : ResultSet} (headers : r.headers = []) (rows : r.rows = []) :
    r.Aligned := by
  constructor
  · rw [rows]; simp
  · rw [headers, rows]; simp

/-- The first row sets as many headers as there are columns, and the next ones find them. -/
theorem Aligned.record {r : ResultSet} (h : r.Aligned) {columns : List String}
    {row : List Sql.Value} (named : columns ≠ []) (wide : row.length = columns.length)
    (same : r.headers = [] ∨ r.headers.length = columns.length) :
    (r.record columns row).Aligned ∧ (r.record columns row).headers.length = columns.length := by
  have headers : (r.record columns row).headers.length = columns.length := by
    rcases same with none | same
    · simp [ResultSet.record, none, headersOf, wide]
    · by_cases none : r.headers = []
      · simp [ResultSet.record, none, headersOf, wide]
      · simpa [ResultSet.record, none] using same
  have some : (r.record columns row).headers ≠ [] := by
    rw [ne_eq, ← List.length_eq_zero_iff, headers, List.length_eq_zero_iff]
    exact named
  refine ⟨⟨fun made hmade => ?_, fun _ => ?_, fun _ => some⟩, headers⟩
  · rw [headers]
    rcases List.mem_append.1 hmade with hmade | hmade
    · have before : r.headers ≠ [] := h.headed.2 (List.ne_nil_of_mem hmade)
      rw [h.even made hmade, same.resolve_left before]
    · rw [List.mem_singleton.1 hmade, List.length_map, wide]
  · exact List.append_ne_nil_of_right_ne_nil _ (List.cons_ne_nil _ [])

/-! ## Readers -/

/-- `cells` are a row's cells with their headers, and whoever reads that row reads them all: its
object in the export, the summary of a single row, the variables that the first row sets. -/
structure Paired (r : ResultSet) (row : List Cell) (cells : List (ColumnHeader × Cell)) : Prop where
  headers_eq : cells.map (·.1) = r.headers
  row_eq : cells.map (·.2) = row
  object : rowToJson r.headers row = .obj (cells.map fun c =>
    (c.1.name,
      match c.2 with
      | none => Json.null
      | some text => cellToJson c.1.storage text))
  summary : r.rows = [row] → r.headers.length ≠ 1 → ∀ readOnly time,
    summarize readOnly time r = ⟨"; ".intercalate (cells.map fun c => pairText c.1 c.2), ""⟩
  stored : r.rows.head? = some row → firstRowVariables r = cells.filterMap fun c =>
    if isPlainIdentifier c.1.name then c.2.map fun text => (c.1.name, text) else none

theorem Aligned.paired {r : ResultSet} (h : r.Aligned) {row : List Cell} (hrow : row ∈ r.rows) :
    r.Paired row (r.headers.zip row) := by
  have same := h.even row hrow
  refine ⟨?_, ?_, ?_, ?_, ?_⟩
  · exact List.map_fst_zip (Nat.le_of_eq same.symm)
  · exact List.map_snd_zip (Nat.le_of_eq same)
  · rw [rowToJson, ← List.map_uncurry_zip_eq_zipWith]
    rfl
  · intro single several readOnly time
    have joined : List.zipWith pairText r.headers row
        = (r.headers.zip row).map fun c => pairText c.1 c.2 := by
      rw [← List.map_uncurry_zip_eq_zipWith]
      rfl
    simp only [summarize, single]
    split
    · rename_i header cell more hheader
      rw [hheader] at several
      exact absurd rfl several
    · rw [joined]
  · intro first
    obtain ⟨rest, hrows⟩ := List.head?_eq_some_iff.1 first
    simp only [firstRowVariables, hrows]

/-- The only cell of a single row under a single header is there to be shown. -/
theorem Aligned.single {r : ResultSet} (h : r.Aligned) {row : List Cell} {header : ColumnHeader}
    (hrow : r.rows = [row]) (hheader : r.headers = [header]) : ∃ cell, row = [cell] ∧
      ∀ readOnly time, summarize readOnly time r = ⟨cell.getD "", ""⟩ := by
  have same : row.length = 1 := by
    rw [h.even row (by rw [hrow]; exact List.mem_singleton_self row), hheader]
    rfl
  obtain ⟨cell, rfl⟩ := List.length_eq_one_iff.1 same
  refine ⟨cell, rfl, fun readOnly time => ?_⟩
  simp only [summarize, hrow, hheader]

theorem Aligned.writes {r : ResultSet} (h : r.Aligned) :
    Csv.write (r.headers.map (·.name) :: r.rows.map fun row => row.map (·.getD ""))
      = .ok r.toCsv := by
  refine Csv.write_even fun fields hfields => ?_
  obtain ⟨row, hrow, rfl⟩ := List.mem_map.1 hfields
  rw [List.length_map, List.length_map, h.even row hrow]

end ResultSet

/-! ## Recording -/

namespace Collector

open ResultSet (Aligned)

theorem clear_aligned {c : Collector} (h : c.results.Aligned) : c.clear.2.results.Aligned := by
  unfold clear
  dsimp only
  split
  · exact h
  · exact ResultSet.aligned_of_empty rfl rfl

/-- A row is recorded, or refused and nothing of the results has changed. -/
theorem record_cases (c : Collector) (columns : List String) (row : List Sql.Value) :
    (∃ text d, c.record columns row = (.error text, d) ∧ d.results = c.results) ∨
    ∃ d, c.record columns row = (.ok (), d) ∧ d.results = c.results.record columns row := by
  unfold record
  dsimp only
  split
  · exact .inl ⟨_, _, rfl, rfl⟩
  · exact .inr ⟨_, rfl, rfl⟩

/-- By induction on the rows: what has been recorded has as many headers as there are columns. -/
theorem recordAll_aligned {columns : List String} (named : columns ≠ [])
    {rows : List (List Sql.Value)} (wide : ∀ row ∈ rows, row.length = columns.length) :
    ∀ c : Collector, c.results.Aligned →
      (c.results.headers = [] ∨ c.results.headers.length = columns.length) →
      (c.recordAll columns rows).2.results.Aligned := by
  induction rows with
  | nil => intro c h _; exact h
  | cons row rest ih =>
    intro c h same
    simp only [recordAll]
    obtain ⟨text, d, made, kept⟩ | ⟨d, made, recorded⟩ := record_cases c columns row
    · rw [made]
      dsimp only
      rwa [kept]
    · rw [made]
      have next := h.record named (wide row List.mem_cons_self) same
      rw [← recorded] at next
      exact ih (fun row hrow => wide row (List.mem_cons_of_mem _ hrow)) d next.1 (.inr next.2)

end Collector

end LogConsole
