import LogConsole.Proofs.Sql.Parsed
import LogConsole.Sql.Query

/-!
# LogConsole.Proofs.Sql.Widths

The rows of a query are as wide as it has columns.

* `Rows.Wide n r`  — all rows have `n` values;
* `Plan.Wide n p`  — the rows of a plan have; what a plan takes rows from need not;
* `run_wide`       — they do have, whatever is in the database, by induction on the plan;
* `Query.Fits q`   — its plan has the width of its columns, and there is at least one of these;
* `Database.Sound` — each table has a column, and so does the query of each view;
* `query_fits`     — a query that asks for columns fits when it is made for a sound database.

For `*` a source must have a column to show, or none at all, in which case `*` is refused.
-/

namespace LogConsole.Sql

theorem mem_of_mapM {ε α β : Type} {f : α → Except ε β} {xs : List α} {ys : List β}
    (h : xs.mapM f = .ok ys) : ∀ y ∈ ys, ∃ x ∈ xs, f x = .ok y := by
  induction xs generalizing ys with
  | nil =>
    cases h
    simp
  | cons x rest ih =>
    rw [List.mapM_cons] at h
    cases hx : f x with
    | error e => rw [hx] at h; cases h
    | ok y =>
      cases hr : rest.mapM f with
      | error e => rw [hx, hr] at h; cases h
      | ok more =>
        rw [hx, hr] at h
        cases h
        intro z hz
        rcases List.mem_cons.1 hz with rfl | hz
        · exact ⟨x, List.mem_cons_self, hx⟩
        · obtain ⟨w, hw, hf⟩ := ih hr z hz
          exact ⟨w, List.mem_cons_of_mem x hw, hf⟩

theorem Term.evalAll_length {b : Bindings} {terms : List Term} {made : List Value}
    (h : Term.evalAll b terms = .ok made) : made.length = terms.length := by
  induction terms generalizing made with
  | nil => cases h; rfl
  | cons t rest ih =>
    simp only [Term.evalAll] at h
    split at h
    · cases h
    · split at h
      · cases h
      · rename_i vs hvs
        cases h
        rw [List.length_cons, List.length_cons, ih hvs]

/-! ## Rows -/

namespace Rows

def Wide (n : Nat) (r : Rows) : Prop := ∀ row ∈ r.rows, row.length = n

variable {n : Nat}

theorem wide_fail (text : String) : Wide n (fail text) := by
  intro row hrow
  cases hrow

theorem wide_empty (failure : Option String) : Wide n ⟨[], failure⟩ := by
  intro row hrow
  cases hrow

theorem Wide.cons {row : List Value} {r : Rows} (h : row.length = n) (k : Wide n r) :
    Wide n (cons row r) := by
  intro made hmade
  rcases List.mem_cons.1 hmade with rfl | hmade
  · exact h
  · exact k made hmade

theorem Wide.andThen {a b : Rows} (ha : Wide n a) (hb : Wide n b) : Wide n (a.andThen b) := by
  unfold Rows.andThen
  split
  · exact ha
  · intro row hrow
    rcases List.mem_append.1 hrow with hrow | hrow
    · exact ha row hrow
    · exact hb row hrow

/-- The rows that are made of others are as wide as each is made. -/
theorem wide_filterMapFrom {f : List Value → Except String (Option (List Value))}
    (h : ∀ row made, f row = .ok (some made) → made.length = n) (failure : Option String)
    (rows : List (List Value)) : Wide n (filterMapFrom f failure rows) := by
  induction rows with
  | nil => exact wide_empty failure
  | cons row rest ih =>
    simp only [filterMapFrom]
    split
    · exact wide_fail _
    · exact ih
    · rename_i made hmade
      exact ih.cons (h row made hmade)

end Rows

theorem mem_of_mem_sortRows {α : Type} {directions : List Bool} {rows : List (List Value × α)}
    {row : List Value × α} (h : row ∈ sortRows directions rows) : row ∈ rows :=
  List.mem_mergeSort.1 h

/-! ## Plans -/

namespace Plan

/-- The rows of a plan that shows results have `n` values. -/
def Wide (n : Nat) : Plan → Prop
  | .unit => False
  | .table _ _ => False
  | .catalog => False
  | .values rows => ∀ row ∈ rows, row.length = n
  | .select _ _ _ outputs => outputs.length = n
  | .group _ _ _ _ _ outputs => outputs.length = n
  | .unionAll a b => a.Wide n ∧ b.Wide n
  | .sort a _ => a.Wide n

theorem keyed_length {b : List Value → Bindings} {order : List SortKey} {outputs : List Term}
    {rows : List (List Value)} {made : List (List Value × List Value)}
    (h : keyed b order outputs rows = .ok made) :
    ∀ row ∈ made, row.2.length = outputs.length := by
  induction rows generalizing made with
  | nil => cases h; simp
  | cons row rest ih =>
    simp only [keyed] at h
    split at h
    · cases h
    · rename_i values hvalues
      split at h
      · cases h
      · split at h
        · cases h
        · rename_i more hmore
          cases h
          intro r hr
          rcases List.mem_cons.1 hr with rfl | hr
          · exact Term.evalAll_length hvalues
          · exact ih hmore r hr

theorem finish_wide (b : List Value → Bindings) (order : List SortKey) (outputs : List Term)
    (r : Rows) : (finish b order outputs r).Wide outputs.length := by
  unfold finish
  split
  · refine Rows.wide_filterMapFrom (fun row made h => ?_) _ _
    cases he : Term.evalAll (b row) outputs with
    | error e => rw [he] at h; cases h
    | ok values =>
      rw [he] at h
      cases h
      exact Term.evalAll_length he
  · split
    · exact Rows.wide_fail _
    · rename_i made hmade
      split
      · exact Rows.wide_fail _
      · intro row hrow
        obtain ⟨k, hk, rfl⟩ := List.mem_map.1 hrow
        exact keyed_length hmade k (mem_of_mem_sortRows hk)

theorem valueRows_wide {n : Nat} (parameters : List Value) {rows : List (List Term)}
    (h : ∀ row ∈ rows, row.length = n) : (valueRows parameters rows).Wide n := by
  induction rows with
  | nil => exact Rows.wide_empty none
  | cons row rest ih =>
    simp only [valueRows]
    split
    · exact Rows.wide_fail _
    · rename_i made hmade
      refine (ih fun r hr => h r (List.mem_cons_of_mem row hr)).cons ?_
      rw [Term.evalAll_length hmade, h row List.mem_cons_self]

/-- Rows that are put in order stay as they are. -/
theorem sorted_wide {n : Nat} {keys : List (List Value × List Value)} {rows : List (List Value)}
    (directions : List Bool) (h : ∀ row ∈ rows, row.length = n) :
    Rows.Wide n ⟨(sortRows directions (List.zipWith (fun k row => (k.1, row)) keys rows)).map (·.2),
      none⟩ := by
  intro row hrow
  obtain ⟨k, hk, rfl⟩ := List.mem_map.1 hrow
  have paired := mem_of_mem_sortRows hk
  rw [← List.map_uncurry_zip_eq_zipWith] at paired
  obtain ⟨⟨key, row⟩, hp, rfl⟩ := List.mem_map.1 paired
  exact h row (List.of_mem_zip hp).2

theorem run_wide {n : Nat} (db : Database) (parameters : List Value) (p : Plan) (h : p.Wide n) :
    (p.run db parameters).Wide n := by
  induction p with
  | unit => cases h
  | table name order => cases h
  | catalog => cases h
  | values rows => exact valueRows_wide parameters h
  | select source filter order outputs _ =>
    have made := finish_wide (fun row => ⟨parameters, row, []⟩) order outputs
      (filterRows parameters filter (source.run db parameters))
    rwa [show outputs.length = n from h] at made
  | group source filter keys totals order outputs _ =>
    simp only [run]
    split
    · exact Rows.wide_fail _
    · rename_i groups _
      have made := finish_wide
        (fun row => ⟨parameters, row.drop totals.length, row.take totals.length⟩) order outputs
        (totalRows parameters totals groups)
      rwa [show outputs.length = n from h] at made
  | unionAll a b iha ihb => exact (iha h.1).andThen (ihb h.2)
  | sort a order ih =>
    simp only [run]
    split
    · exact Rows.wide_fail _
    · split
      · exact Rows.wide_fail _
      · exact sorted_wide _ (ih h)

end Plan

/-! ## Results -/

namespace Scope

/-- There is a column to show, or none at all. -/
def Shows (s : Scope) : Prop := s.columns = [] ∨ visible s ≠ []

theorem Shows.withTotals {s : Scope} (h : s.Shows) (totals : Bool) :
    (s.withTotals totals).Shows := h

theorem visible_ne_nil {s : Scope} {c : ScopeColumn} (h : c ∈ s.columns) (shown : c.hidden = false)
    (plain : c.qualified = false) : visible s ≠ [] := by
  refine List.ne_nil_of_mem (a := c) (List.mem_filter.2 ⟨h, ?_⟩)
  simp [shown, plain]

/-- A table with a column shows it. -/
theorem columnsOf_shows (table : String) {columns : List Column} (numberColumn : Option Nat)
    (start : Nat) (h : columns ≠ []) :
    Shows { columns := columnsOf table false columns numberColumn start } := by
  obtain ⟨c, rest, rfl⟩ := List.exists_cons_of_ne_nil h
  have first : (c, 0) ∈ (c :: rest).zipIdx := List.mem_cons_self
  exact .inr (visible_ne_nil (List.mem_append_left _ (List.mem_map.2 ⟨_, first, rfl⟩)) rfl rfl)

/-- A query that is used as a table shows all its columns. -/
theorem derivedScope_shows (table : String) {columns : List QueryColumn} (h : columns ≠ []) :
    (derivedScope table columns).Shows := by
  obtain ⟨c, rest, rfl⟩ := List.exists_cons_of_ne_nil h
  have first : ((c.name, c), 0)
      ∈ ((uniqueNames [] ((c :: rest).map (·.name))).zip (c :: rest)).zipIdx := List.mem_cons_self
  exact .inr (visible_ne_nil (List.mem_map.2 ⟨_, first, rfl⟩) rfl rfl)

end Scope

theorem gives_resolverFail {α : Type} {P : α → Prop} (text : String) (offset : Option Nat) :
    Gives P (Resolver.fail text offset : Resolver α) := fun _ => .error _

/-- Where something is asked for, something comes out. -/
theorem outputsOf_ne_nil {s : Scope} (h : s.Shows) {columns : List ResultColumn}
    (asked : columns ≠ []) : Gives (· ≠ []) (outputsOf s columns) := by
  obtain ⟨c, rest, rfl⟩ := List.exists_cons_of_ne_nil asked
  cases c with
  | star =>
    simp only [outputsOf]
    split
    · exact gives_resolverFail _ _
    · rename_i some
      have shown : visible s ≠ [] := h.resolve_left (by simpa using some)
      refine .after fun more => .pure (List.append_ne_nil_of_left_ne_nil ?_ more)
      simpa only [ne_eq, List.map_eq_nil_iff] using shown
  | tableStar table =>
    simp only [outputsOf]
    split
    · exact gives_resolverFail _ _
    · rename_i shown
      refine .after fun more => .pure (List.append_ne_nil_of_left_ne_nil ?_ more)
      simpa only [ne_eq, List.map_eq_nil_iff] using shown
  | expr e given text =>
    exact .after fun r => .after fun more => .pure (List.cons_ne_nil _ _)

/-! ## Queries -/

structure Query.Fits (q : Query) : Prop where
  wide : q.plan.Wide q.columns.length
  columns : q.columns ≠ []

/-- Results that are shown are the columns, and the outputs of the plan. -/
theorem fits_of_outputs {outputs : List Output} (shown : outputs ≠ []) {plan : Plan}
    (wide : plan.Wide (outputs.map (·.resolved.term)).length) (members : List Member) :
    Query.Fits ⟨plan, outputs.map fun o => ⟨o.name, o.resolved.affinity⟩, members⟩ := by
  constructor
  · simpa only [List.length_map] using wide
  · simpa only [ne_eq, List.map_eq_nil_iff] using shown

theorem single_fits (db : Database) {src : Source} (h : src.scope.Shows)
    {columns : List ResultColumn} (asked : columns ≠ []) (filter : Option Expr) (groups : List Expr)
    (order : List OrderTerm) : Yields Query.Fits (single db src columns filter groups order) := by
  unfold single
  extract_lets scope build
  have fits : Gives Query.Fits build := by
    refine .bind (outputsOf_ne_nil (h.withTotals true) asked) fun outputs shown => ?_
    cases filter with
    | none =>
      refine .after fun condition => .after fun _ => .after fun keys => .after fun groupKeys => ?_
      refine .after fun _ => .pure (fits_of_outputs shown ?_ _)
      split <;> rfl
    | some e =>
      refine .after fun resolved => .after fun condition => .after fun _ => .after fun keys => ?_
      refine .after fun groupKeys => .after fun _ => .pure (fits_of_outputs shown ?_ _)
      split <;> rfl
  split
  · rename_i q st made
    exact .pure (fits {} (q, st) made)
  · exact .error _

theorem unionQuery_fits {a b : Query} (ha : a.Fits) (hb : b.Fits) (text : String) :
    Yields Query.Fits (unionQuery a b text) := by
  unfold unionQuery
  split
  · rename_i same
    refine .pure ⟨⟨ha.wide, ?_⟩, ha.columns⟩
    rw [eq_of_beq same]
    exact hb.wide
  · exact .error _

theorem resolvePlainAll_length {s : Scope} {es : List Expr} {terms : List Term}
    (h : resolvePlainAll s es = .ok terms) : terms.length = es.length := by
  induction es generalizing terms with
  | nil => cases h; rfl
  | cons e rest ih =>
    simp only [resolvePlainAll] at h
    split at h
    · cases h
    · split at h
      · cases h
      · rename_i ts hts
        cases h
        rw [List.length_cons, List.length_cons, ih hts]

theorem valuesQuery_fits {rows : List (List Expr)} (h : rows.headD [] ≠ []) :
    Yields Query.Fits (valuesQuery rows) := by
  unfold valuesQuery
  dsimp only
  split
  · exact .error _
  · rename_i even
    have same : ∀ r ∈ rows, r.length = (rows.headD []).length := by simpa using even
    intro q hq
    cases ht : rows.mapM (resolvePlainAll {}) with
    | error e => rw [ht] at hq; cases hq
    | ok terms =>
      rw [ht] at hq
      cases hq
      constructor
      · intro row hrow
        obtain ⟨r, hr, made⟩ := mem_of_mapM ht row hrow
        rw [resolvePlainAll_length made, same r hr, List.length_map, List.length_range]
      · simpa using h

/-! ## Databases -/

def Entry.Sound : Entry → Prop
  | .table t => t.columns ≠ []
  | .index _ => True
  | .view v => v.query.HasColumns

def Database.Sound (db : Database) : Prop := ∀ e ∈ db.entries, e.Sound

namespace Database

variable {db : Database}

theorem Sound.table (h : db.Sound) {name : String} {t : Table} (there : db.table? name = some t) :
    t.columns ≠ [] := by
  obtain ⟨e, he, found⟩ := List.exists_of_findSome?_eq_some there
  cases e with
  | table u =>
    dsimp only [Entry.asTable?] at found
    split at found
    · cases found; exact h _ he
    · cases found
  | index i => cases found
  | view v => cases found

theorem Sound.view (h : db.Sound) {name : String} {v : View} (there : db.view? name = some v) :
    v.query.HasColumns := by
  obtain ⟨e, he, found⟩ := List.exists_of_findSome?_eq_some there
  cases e with
  | table t => cases found
  | index i => cases found
  | view w =>
    dsimp only [Entry.asView?] at found
    split at found
    · cases found; exact h _ he
    · cases found

end Database

/-! ## Queries for a database -/

theorem viewColumns_ne_nil (v : View) {columns : List QueryColumn} (h : columns ≠ []) :
    Yields (· ≠ []) (viewColumns v columns) := by
  unfold viewColumns
  split
  · exact .pure h
  · rename_i given
    split
    · refine .pure ?_
      have named : v.columns ≠ [] := by simpa using given
      simp [List.zipWith_eq_nil_iff, named, h]
    · exact .error _

theorem yields_withoutOffset {α : Type} {P : α → Prop} {x : Except SqlError α} (h : Yields P x) :
    Yields P (withoutOffset x) := by
  cases x with
  | error e => exact .error _
  | ok a => exact h

section Nested

variable {db : Database} {fuel : Nat}

theorem sourceFrom_shows (sound : db.Sound) {inside : List String}
    (ih : ∀ inside s, Select.HasColumns s → Yields Query.Fits (queryFrom db inside fuel s))
    (src : SelectSource) (h : src.HasColumns) :
    Yields (fun x => x.scope.Shows) (sourceFrom db inside (fuel + 1) src) := by
  cases src with
  | nothing => exact .pure (.inl rfl)
  | query s label =>
    simp only [SelectSource.HasColumns] at h
    simp only [sourceFrom]
    exact (ih inside s h).bind_of fun q hq => .pure (Scope.derivedScope_shows _ hq.columns)
  | table given name label =>
    simp only [sourceFrom]
    split
    · refine .pure (Scope.columnsOf_shows _ _ _ ?_)
      exact List.cons_ne_nil _ _
    · split
      · rename_i t there
        exact .pure (Scope.columnsOf_shows _ _ _ (sound.table there))
      · split
        · exact .error _
        · rename_i v there
          split
          · exact .error _
          · split
            · exact .error _
            · have fits := yields_withoutOffset (ih (v.name :: inside) v.query (sound.view there))
              refine fits.bind_of fun q hq => ?_
              refine (viewColumns_ne_nil v hq.columns).bind_of fun columns hcolumns => ?_
              exact .pure (Scope.derivedScope_shows _ hcolumns)

theorem joinFrom_fits {inside : List String}
    (ih : ∀ s, Select.HasColumns s → Yields Query.Fits (queryFrom db inside fuel s))
    (again : ∀ s right text, Select.HasColumns s → right.Fits →
      Yields Query.Fits (joinFrom db inside fuel s right text))
    (s : Select) (right : Query) (text : String) (h : s.HasColumns) (hright : right.Fits) :
    Yields Query.Fits (joinFrom db inside (fuel + 1) s right text) := by
  cases s with
  | unionAll a b =>
    simp only [Select.HasColumns] at h
    simp only [joinFrom]
    refine (ih b h.2).bind_of fun q hq => ?_
    exact (unionQuery_fits hq hright text).bind_of fun joined hj => again a joined _ h.1 hj
  | single columns source filter groups =>
    exact (ih _ h).bind_of fun q hq => unionQuery_fits hq hright text
  | values rows => exact (ih _ h).bind_of fun q hq => unionQuery_fits hq hright text
  | ordered s terms => exact (ih _ h).bind_of fun q hq => unionQuery_fits hq hright text

theorem queryFrom_fits {inside : List String}
    (ih : ∀ s, Select.HasColumns s → Yields Query.Fits (queryFrom db inside fuel s))
    (join : ∀ s right text, Select.HasColumns s → right.Fits →
      Yields Query.Fits (joinFrom db inside fuel s right text))
    (source : ∀ src, SelectSource.HasColumns src →
      Yields (fun x => x.scope.Shows) (sourceFrom db inside fuel src))
    (s : Select) (h : s.HasColumns) : Yields Query.Fits (queryFrom db inside (fuel + 1) s) := by
  cases s with
  | single columns src filter groups =>
    simp only [Select.HasColumns] at h
    exact (source src h.2).bind_of fun x hx => single_fits db hx h.1 _ _ _
  | values rows =>
    simp only [Select.HasColumns] at h
    exact valuesQuery_fits h
  | unionAll a b =>
    simp only [Select.HasColumns] at h
    exact (ih b h.2).bind_of fun q hq => join a q _ h.1 hq
  | ordered s terms =>
    simp only [Select.HasColumns] at h
    simp only [queryFrom]
    split
    · simp only [Select.HasColumns] at h
      exact (source _ h.2).bind_of fun x hx => single_fits db hx h.1 _ _ _
    · refine (ih s h).bind_of fun q hq => .bind fun keys => .pure ?_
      exact ⟨hq.wide, hq.columns⟩

/-- By induction on the fuel, for queries, unions and sources at once. -/
theorem nested_fit (sound : db.Sound) (fuel : Nat) :
    (∀ inside s, Select.HasColumns s → Yields Query.Fits (queryFrom db inside fuel s)) ∧
    (∀ inside s right text, Select.HasColumns s → right.Fits →
      Yields Query.Fits (joinFrom db inside fuel s right text)) ∧
    (∀ inside src, SelectSource.HasColumns src →
      Yields (fun x => x.scope.Shows) (sourceFrom db inside fuel src)) := by
  induction fuel with
  | zero =>
    exact ⟨fun _ _ _ => .error _, fun _ _ _ _ _ _ => .error _, fun _ _ _ => .error _⟩
  | succ fuel ih =>
    obtain ⟨queries, joins, sources⟩ := ih
    refine ⟨fun inside s h => ?_, fun inside s right text h hright => ?_, fun inside src h => ?_⟩
    · exact queryFrom_fits (queries inside) (joins inside) (sources inside) s h
    · exact joinFrom_fits (queries inside) (joins inside) s right text h hright
    · exact sourceFrom_shows sound queries src h

end Nested

/-- A query that asks for columns has as many as its rows have values, and at least one. -/
theorem query_fits {db : Database} (sound : db.Sound) {s : Select} (h : s.HasColumns) :
    Yields Query.Fits (query db s) := by
  unfold query
  split
  · exact .error _
  · exact (nested_fit sound _).1 [] s h

end LogConsole.Sql
