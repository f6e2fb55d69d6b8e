import LogConsole.Proofs.Session.Faults
import LogConsole.Proofs.Session.Reachable
import LogConsole.Proofs.Session.Results

/-!
# LogConsole.Proofs.Session.FailedQuery

What a query that fails leaves behind.

* `ResultSet.ofRows`  — the result set of rows of one statement;
* `Query.FailsEarly`  — the failures before the results are cleared, and that of clearing itself;
* `Query.FailsLate`   — the failures after that, with the rows that have been recorded by then;
* `runQuery_failed`   — there are no others, and this is what each of them leaves;
* `ResultSet.OfOne`   — all rows and the headers come from one run of one statement;
* `failed_query_leaves_no_half_state` — the result.

Rows are recorded one by one, so that a failure at any of them leaves those before it.
-/

namespace LogConsole

/-! ## Recording -/

namespace ResultSet

/-- The first row sets the headers, if there is one. -/
def ofRows (keyColumns columns : List String) (rows : List (List Sql.Value)) : ResultSet where
  headers := (rows.head?.map (headersOf keyColumns columns)).getD []
  rows := rows.map fun row => row.map (·.cell?)
  keyColumns := keyColumns

/-- Headers that are there stay. -/
theorem recordAll_headed {columns : List String} (rows : List (List Sql.Value)) :
    ∀ r : ResultSet, r.headers ≠ [] →
      r.recordAll columns rows
        = { r with rows := r.rows ++ rows.map fun row => row.map (·.cell?) } := by
  induction rows with
  | nil => intro r _; simp [recordAll]
  | cons row rest ih =>
    intro r headed
    have kept : r.record columns row = { r with rows := r.rows ++ [row.map (·.cell?)] } := by
      simp [record, headed]
    have next := ih (r.record columns row) (by rw [kept]; exact headed)
    rw [kept] at next
    refine (congrArg (recordAll · columns rest) kept).trans (next.trans ?_)
    simp

/-- After clearing, rows that are as wide as there are columns are recorded as they are. -/
theorem recordAll_clear {columns : List String} (r : ResultSet) (rows : List (List Sql.Value))
    (silent : columns = [] → rows = []) (wide : ∀ row ∈ rows, row.length = columns.length) :
    r.clear.recordAll columns rows = ofRows r.keyColumns columns rows := by
  cases rows with
  | nil => rfl
  | cons row rest =>
    have first : r.clear.record columns row
        = ⟨headersOf r.keyColumns columns row, [row.map (·.cell?)], r.keyColumns⟩ := rfl
    have headed : headersOf r.keyColumns columns row ≠ [] := by
      have named : columns ≠ [] := fun none => List.cons_ne_nil _ _ (silent none)
      rw [ne_eq, ← List.length_eq_zero_iff, headersOf, List.length_zipWith,
        wide row List.mem_cons_self, Nat.min_self, List.length_eq_zero_iff]
      exact named
    have others := @recordAll_headed columns rest (r.clear.record columns row) headed
    rw [first] at others
    exact others

end ResultSet

namespace Collector

/-- A clearing call that is refused changes nothing of the results. -/
theorem clear_refused {c : Collector} {e : String} (h : c.clear.1 = .error e) :
    c.clear.2.results = c.results := by
  unfold clear at h ⊢
  dsimp only at h ⊢
  split at h
  · rfl
  · cases h

/-- The first row that is refused is not recorded, and those before it are. -/
theorem recordAll_refused {columns : List String} {e : String} (rows : List (List Sql.Value)) :
    ∀ {c d : Collector}, c.recordAll columns rows = (.error e, d) →
      ∃ n < rows.length, c.refuse (c.calls + n + 1) = some e ∧
        (∀ i < n, c.refuse (c.calls + i + 1) = none) ∧
        d.results = c.results.recordAll columns (rows.take n) := by
  induction rows with
  | nil => intro c d h; cases h
  | cons row rest ih =>
    intro c d h
    simp only [recordAll, record] at h
    cases first : c.refuse (c.calls + 1) with
    | some text =>
      simp only [first] at h
      cases h
      exact ⟨0, Nat.zero_lt_succ _, first, fun i hi => absurd hi (Nat.not_lt_zero i), rfl⟩
    | none =>
      simp only [first] at h
      obtain ⟨n, within, refused, taken, kept⟩ := ih h
      have shift (i : Nat) : c.calls + (i + 1) + 1 = c.calls + 1 + i + 1 := by omega
      refine ⟨n + 1, Nat.succ_lt_succ within, ?_, ?_, kept⟩
      · rw [shift]
        exact refused
      · intro i hi
        cases i with
        | zero => exact first
        | succ i =>
          rw [shift]
          exact taken i (Nat.lt_of_succ_lt_succ hi)

end Collector

/-! ## Failures -/

namespace Query

open Run

/-- How a query can fail before its rows are collected. A statement about the database collects no
rows at all. -/
inductive FailsEarly (s : Session) (text : String) : Message → Prop where
  | answer {k : MetaStatement} {m : Message} (named : metaStatement? (Text.trim text) = some k)
      (h : runMeta k (Text.words (Text.trim text)) s = some (.error m, s)) : FailsEarly s text m
  | empty (noMeta : metaStatement? (Text.trim text) = none)
      (h : (Text.trim text).isEmpty = true) :
      FailsEarly s text (s.context.error .noCommandGiven "no statement given")
  | parse {e : String} (noMeta : metaStatement? (Text.trim text) = none)
      (h : Sql.prepare s.database (expandAlias (Text.trim text)) = .error e) :
      FailsEarly s text (s.context.error .parseFailure e)
  | forbidden {p : Sql.Prepared} (noMeta : metaStatement? (Text.trim text) = none)
      (prepared : Sql.prepare s.database (expandAlias (Text.trim text)) = .ok (some p))
      (readOnly : s.context.readOnly = true) (writes : p.readOnly = false) :
      FailsEarly s text (s.context.error .readOnlyViolation
        ("modifying statements are not allowed in this context: " ++ text))
  | binding {p : Sql.Prepared} {e : String} (submitted : Submitted s text (some p))
      (h : binding s p = some e) : FailsEarly s text (engineFailure s.context e)
  | clearing {found : Option Sql.Prepared} {e : String} (submitted : Submitted s text found)
      (bound : ∀ p, found = some p → Query.binding s p = none)
      (h : s.collector.clear.1 = .error e) : FailsEarly s text (engineFailure s.context e)

/-- How a query can fail after the results have been cleared: what it fails with, the columns of its
statement, and the rows that have been recorded. -/
inductive FailsLate (s : Session) (text : String) :
    String → List String → List (List Sql.Value) → Prop where
  | nothing (submitted : Submitted s text none) (cleared : s.collector.clear.1 = .ok ()) :
      FailsLate s text misuse [] []
  | row {p : Sql.Prepared} {e : String} {n : Nat} (submitted : Submitted s text (some p))
      (bound : binding s p = none) (cleared : s.collector.clear.1 = .ok ())
      (within : n < (outcome s p).rows.rows.length)
      (taken : ∀ i < n, s.collector.refuse (i + 1) = none)
      (refused : s.collector.refuse (n + 1) = some e) :
      FailsLate s text e p.columns ((outcome s p).rows.rows.take n)
  | run {p : Sql.Prepared} {e : String} (submitted : Submitted s text (some p))
      (bound : binding s p = none) (cleared : s.collector.clear.1 = .ok ())
      (collected : collecting s p = .ok ()) (h : (outcome s p).rows.failure = some e) :
      FailsLate s text e p.columns (outcome s p).rows.rows

/-- The rows come from a statement that has been prepared for the database, if there are any. -/
theorem FailsLate.regular {s : Session} {text e : String} {columns : List String}
    {rows : List (List Sql.Value)} (h : FailsLate s text e columns rows)
    (sound : s.database.Sound) :
    (columns = [] → rows = []) ∧ ∀ row ∈ rows, row.length = columns.length := by
  cases h with
  | nothing => exact ⟨fun _ => rfl, nofun⟩
  | @row p _ n submitted =>
    have regular := Sql.prepare_regular sound submitted.prepared
    refine ⟨fun none => ?_, fun row hrow => ?_⟩
    · rw [show (outcome s p).rows.rows = [] from
        regular.silent (List.length_eq_zero_iff.2 none) _ _, List.take_nil]
    · exact regular.wide _ _ row (List.mem_of_mem_take hrow)
  | run submitted =>
    have regular := Sql.prepare_regular sound submitted.prepared
    exact ⟨fun none => regular.silent (List.length_eq_zero_iff.2 none) _ _, regular.wide _ _⟩

end Query

namespace Run

open Query

variable {s t : Session} {m : Message}

theorem bind_failed {α β : Type} {x : Run α} {f : α → Run β}
    (h : (x >>= f) s = some (.error m, t)) :
    x s = some (.error m, t) ∨ ∃ a u, x s = some (.ok a, u) ∧ f a u = some (.error m, t) := by
  rw [bind_def] at h
  split at h
  · cases h
  · rename_i hx; cases h; exact .inl hx
  · rename_i a u hx; exact .inr ⟨a, u, hx, h⟩

theorem clearResults_failed (h : clearResults s = some (.error m, t)) :
    ∃ e, s.collector.clear.1 = .error e ∧ m = engineFailure s.context e ∧
      t.console = s.console ∧ t.results = s.results := by
  unfold clearResults at h
  split at h
  · cases h
  · rename_i e c hc
    cases h
    have refused : s.collector.clear.1 = .error e := by rw [hc]
    have kept := Collector.clear_refused refused
    rw [hc] at kept
    exact ⟨e, refused, rfl, rfl, kept⟩

theorem clear_observer (c : Collector) : c.clear.2.refuse = c.refuse ∧ c.clear.2.calls = 0 := by
  unfold Collector.clear
  dsimp only
  split <;> exact ⟨rfl, rfl⟩

/-- The rows are collected after the results have been cleared. -/
theorem collectRows_failed {text : String} {p : Sql.Prepared}
    (submitted : Submitted s text (some p)) (bound : binding s p = none)
    (cleared : s.collector.clear.1 = .ok ())
    (h : collectRows p (parameterValues s p) { s with collector := s.collector.clear.2 }
      = some (.error m, t)) :
    ∃ e rows, FailsLate s text e p.columns rows ∧ m = engineFailure s.context e ∧
      t.console = s.console ∧ t.results = s.results.clear.recordAll p.columns rows := by
  obtain ⟨refuse, calls⟩ := clear_observer s.collector
  have empty : s.collector.clear.2.results = s.results.clear :=
    Collector.clear_ok (Prod.ext cleared rfl)
  simp only [collectRows] at h
  split at h
  · rename_i e c hc
    cases h
    obtain ⟨n, within, refused, taken, kept⟩ := Collector.recordAll_refused _ hc
    simp only [refuse, calls, Nat.zero_add] at refused taken
    exact ⟨e, _, .row submitted bound cleared within taken refused, rfl, rfl, empty ▸ kept⟩
  · rename_i c hc
    split at h
    · rename_i e he
      cases h
      have collected : collecting s p = .ok () := congrArg Prod.fst hc
      have kept := Collector.recordAll_ok _ hc
      exact ⟨e, _, .run submitted bound cleared collected he, rfl, rfl, empty ▸ kept⟩
    · cases h

theorem runNothing_failed {text : String} (submitted : Submitted s text none)
    (h : runNothing s = some (.error m, t)) :
    t.console = s.console ∧
      (FailsEarly s text m ∧ t.results = s.results ∨
        ∃ e, FailsLate s text e [] [] ∧ m = engineFailure s.context e ∧
          t.results = s.results.clear) := by
  obtain h | ⟨_, u, hc, h⟩ := bind_failed h
  · obtain ⟨e, refused, rfl, console, results⟩ := clearResults_failed h
    exact ⟨console, .inl ⟨.clearing submitted nofun refused, results⟩⟩
  · cases h
    obtain ⟨results, -, console⟩ := clearResults_ok hc
    obtain ⟨cleared, rfl⟩ := clearResults_done hc
    exact ⟨rfl, .inr ⟨misuse, .nothing submitted cleared, rfl, results⟩⟩

/-- A statement that may run fails where its parameters get their values, at clearing, or at one of
its rows. -/
theorem runPrepared_failed {text : String} {p : Sql.Prepared} (submitted : Submitted s text (some p))
    (h : runPrepared text p s = some (.error m, t)) :
    t.console = s.console ∧
      (FailsEarly s text m ∧ t.results = s.results ∨
        ∃ e rows, FailsLate s text e p.columns rows ∧ m = engineFailure s.context e ∧
          t.results = s.results.clear.recordAll p.columns rows) := by
  rw [runPrepared_submitted submitted] at h
  obtain h | ⟨values, u, hb, h⟩ := bind_failed h
  · obtain ⟨e, refused, rfl⟩ := bindParameters_error ⟨t, h⟩
    rw [bindParameters_still h]
    exact ⟨rfl, .inl ⟨.binding submitted refused, rfl⟩⟩
  obtain ⟨bound, rfl, rfl⟩ := bindParameters_done hb
  obtain h | ⟨_, v, hc, h⟩ := bind_failed h
  · obtain ⟨e, refused, rfl, console, results⟩ := clearResults_failed h
    exact ⟨console, .inl ⟨.clearing submitted (by rintro _ ⟨⟩; exact bound) refused, results⟩⟩
  obtain ⟨cleared, rfl⟩ := clearResults_done hc
  obtain h | ⟨_, _, _, h⟩ := bind_failed h
  · obtain ⟨e, rows, fails, rfl, console, results⟩ := collectRows_failed submitted bound cleared h
    exact ⟨console, .inr ⟨e, rows, fails, rfl, results⟩⟩
  -- nothing fails after the last row
  · cases h

/-- What a query that fails leaves: the console, and either the results that were there before or
the rows that have been recorded since. -/
theorem runQuery_failed {text : String} (h : runQuery text s = some (.error m, t)) :
    t.console = s.console ∧
      (FailsEarly s text m ∧ t.results = s.results ∨
        ∃ e columns rows, FailsLate s text e columns rows ∧ m = engineFailure s.context e ∧
          t.results = s.results.clear.recordAll columns rows) := by
  cases noMeta : metaStatement? (Text.trim text) with
  | some k =>
    simp only [runQuery, noMeta] at h
    obtain rfl := runMeta_still h
    exact ⟨rfl, .inl ⟨.answer noMeta h, rfl⟩⟩
  | none =>
    simp only [runQuery, noMeta] at h
    split at h
    · rename_i empty
      cases h
      exact ⟨rfl, .inl ⟨.empty noMeta empty, rfl⟩⟩
    · rename_i given
      simp only [runStatement, bind_def, Run.get] at h
      cases prepared : Sql.prepare s.database (expandAlias (Text.trim text)) with
      | error e =>
        rw [prepared] at h
        cases h
        exact ⟨rfl, .inl ⟨.parse noMeta prepared, rfl⟩⟩
      | ok found =>
        rw [prepared] at h
        have given : (Text.trim text).isEmpty = false := eq_false_of_ne_true given
        cases found with
        | none =>
          have submitted : Submitted s text none := ⟨noMeta, given, prepared, by rintro _ ⟨⟩⟩
          obtain ⟨console, early | ⟨e, late⟩⟩ := runNothing_failed submitted h
          · exact ⟨console, .inl early⟩
          · exact ⟨console, .inr ⟨e, [], [], late⟩⟩
        | some p =>
          by_cases allowed : s.context.readOnly = true → p.readOnly = true
          · have submitted : Submitted s text (some p) :=
              ⟨noMeta, given, prepared, by rintro _ ⟨⟩; exact allowed⟩
            obtain ⟨console, early | ⟨e, late⟩⟩ := runPrepared_failed submitted h
            · exact ⟨console, .inl early⟩
            · exact ⟨console, .inr ⟨e, p.columns, late⟩⟩
          · obtain ⟨readOnly, writes⟩ := Classical.not_imp.1 allowed
            have writes : p.readOnly = false := eq_false_of_ne_true writes
            simp only [runPrepared, bind_def, Run.get, readOnly, writes, Bool.not_false,
              Bool.and_self, if_true] at h
            cases h
            exact ⟨rfl, .inl ⟨.forbidden noMeta prepared readOnly writes, rfl⟩⟩

end Run

/-! ## One statement at a time -/

/-- All rows, and the headers, come from one run of one statement: they are the first of its rows in
their order, as wide as it has columns, under the headers that the first of them has set; or there
is nothing. -/
inductive ResultSet.OfOne (r : ResultSet) : Prop where
  | empty (headers : r.headers = []) (rows : r.rows = []) : OfOne r
  | statement {db : Sql.Database} {text : String} {p : Sql.Prepared} {values : List Sql.Value}
      {taken : List (List Sql.Value)} {keyColumns : List String}
      (prepared : Sql.prepare db text = .ok (some p))
      (first : taken <+: (p.run db values).rows.rows)
      (wide : ∀ row ∈ taken, row.length = p.columns.length)
      (h : r = .ofRows keyColumns p.columns taken) : OfOne r

/-- Whether or not a row is refused, the rows that are recorded are the first ones. -/
theorem Collector.recordAll_taken (c : Collector) (columns : List String)
    (rows : List (List Sql.Value)) :
    ∃ taken, taken <+: rows ∧
      (c.recordAll columns rows).2.results = c.results.recordAll columns taken := by
  rcases h : c.recordAll columns rows with ⟨_ | _, d⟩
  · obtain ⟨n, -, -, -, kept⟩ := recordAll_refused _ h
    exact ⟨rows.take n, List.take_prefix n rows, kept⟩
  · exact ⟨rows, List.prefix_rfl, recordAll_ok _ h⟩

namespace Session

open Run Query

variable {s t : Session}

theorem Regular.collected_ofOne (h : s.Regular) {text : String} {p : Sql.Prepared}
    (values : List Sql.Value) (prepared : Sql.prepare s.database text = .ok (some p))
    (cleared : s.results.headers = [] ∧ s.results.rows = []) :
    (s.collected p values).results.OfOne := by
  have regular := Sql.prepare_regular h.database prepared
  obtain ⟨taken, first, kept⟩ :=
    s.collector.recordAll_taken p.columns (p.run s.database values).rows.rows
  have before : s.collector.results = s.results.clear := by
    obtain ⟨headers, rows⟩ := cleared
    change s.results = _
    rw [ResultSet.clear, ← headers, ← rows]
  have silent (none : p.columns = []) : taken = [] := by
    have quiet : (p.run s.database values).rows.rows = [] :=
      regular.silent (List.length_eq_zero_iff.2 none) _ _
    rw [quiet] at first
    exact List.prefix_nil.1 first
  have wide : ∀ row ∈ taken, row.length = p.columns.length := fun row hrow =>
    regular.wide s.database values row (first.subset hrow)
  rw [before, ResultSet.recordAll_clear _ _ silent wide] at kept
  exact .statement prepared first wide kept

theorem Act.ofOne (h : Act s t) (k : s.Regular) (one : s.results.OfOne) : t.results.OfOne := by
  cases h with
  | clearResults =>
    change s.collector.clear.2.results.OfOne
    unfold Collector.clear
    dsimp only
    split
    · exact one
    · exact .empty rfl rfl
  | collectRows values prepared allowed cleared => exact k.collected_ofOne values prepared cleared
  | shell wet started =>
    obtain ⟨w, rfl⟩ := startShell_ended started
    rw [(captured_same (s.changeWorld fun _ => w) _ _).1]
    exact one
  | redirect wet opened =>
    obtain ⟨w, rfl⟩ := openTarget_ended opened
    exact one
  | «export» bytes wet opened =>
    obtain ⟨w, rfl⟩ := openTarget_ended opened
    exact one
  | storeFirstRow | search | print | showScreen | resolve | takeInput | leaveInput | refresh =>
    exact one

theorem lasting_ofOne : Lasting fun s => s.Regular ∧ s.results.OfOne where
  of_same k results database := ⟨k.1.of_same results database, by rw [results]; exact k.2⟩
  act h k := ⟨h.regular k.1, h.ofOne k.1 k.2⟩
  refresh k := ⟨k.1.refreshHost, k.2⟩
  configured c dataDir k := ⟨lasting_regular.configured c dataDir k.1, .empty rfl rfl⟩

/-- The rows and headers of two statements are never together in the results of a session. -/
theorem Reachable.ofOne (h : Reachable s) : s.results.OfOne := by
  have both : s.Regular ∧ s.results.OfOne := by
    induction h with
    | start sound headers rows =>
      exact ⟨⟨sound, ResultSet.aligned_of_empty headers rows⟩, .empty headers rows⟩
    | step _ h ih => exact lasting_ofOne.step h ih
  exact both.2

/-! ## The result -/

/-- **A query that fails leaves no half state.** It leaves the console as it is, and with it every
scope of variables. If it fails before its rows are collected — there is no statement, the statement
cannot be prepared or may not be run, a parameter does not get its value, the results cannot be
cleared, or a statement about the database has no answer — the results are those that were there. If
it fails later, the results are exactly the rows that have been recorded by then: the ones before
the row that is refused, or all that the statement has made before it fails, in their order, under
the headers that the first of them has set, and without headers if there are none. At no time do the
results hold rows or headers of two statements. -/
theorem failed_query_leaves_no_half_state :
    (∀ (s t : Session) text m, s.database.Sound → runQuery text s = some (.error m, t) →
      t.console = s.console ∧
      (FailsEarly s text m ∧ t.results = s.results ∨
        ∃ e columns rows, FailsLate s text e columns rows ∧ m = engineFailure s.context e ∧
          t.results = .ofRows s.results.keyColumns columns rows)) ∧
    (∀ s : Session, Reachable s → s.database.Sound ∧ s.results.OfOne) := by
  refine ⟨fun s t text m sound failed => ?_, fun s reached =>
    ⟨reached.regular.database, reached.ofOne⟩⟩
  obtain ⟨console, early | ⟨e, columns, rows, late, told, results⟩⟩ := runQuery_failed failed
  · exact ⟨console, .inl early⟩
  · obtain ⟨silent, wide⟩ := late.regular sound
    rw [ResultSet.recordAll_clear _ _ silent wide] at results
    exact ⟨console, .inr ⟨e, columns, rows, late, told, results⟩⟩

/-- A session with results, in which the second row of a query is refused. -/
def withOldRows : Session where
  collector := { refusingSecond.collector with results := ⟨[⟨"old", .text, false⟩], [[some "x"]], []⟩ }

set_option maxRecDepth 8000 in
/-- A statement that is not complete leaves the old row; one whose second row is refused leaves its
first row and nothing of the old one. -/
theorem old_rows_stay_or_go :
    (∃ m t, runQuery "VALUES (1, NULL), " withOldRows = some (.error m, t) ∧
      t.console = withOldRows.console ∧ t.results = withOldRows.results) ∧
    (∃ m t, runQuery "VALUES (1, NULL), (2, 'b')" withOldRows = some (.error m, t) ∧
      t.console = withOldRows.console ∧ t.results = firstOfTwo) ∧
    (({} : Session).results.OfOne) := by
  have ends (text : String) (left : ResultSet) (h : (runQuery text withOldRows).map
      (fun e => (e.1.toOption, e.2.results)) = some (none, left)) :
      ∃ m t, runQuery text withOldRows = some (.error m, t) ∧
        t.console = withOldRows.console ∧ t.results = left := by
    obtain ⟨⟨r, t⟩, run, seen⟩ := Option.map_eq_some_iff.1 h
    obtain ⟨failed, results⟩ := Prod.mk.inj seen
    cases r with
    | ok answer => cases failed
    | error m =>
      have leaves := failed_query_leaves_no_half_state.1 withOldRows t text m
        Sql.Database.sound_empty run
      exact ⟨m, t, run, leaves.1, results⟩
  have reached : Reachable {} := .start Sql.Database.sound_empty rfl rfl
  exact ⟨ends _ _ (by decide +kernel), ends _ _ (by decide +kernel),
    (failed_query_leaves_no_half_state.2 {} reached).2⟩

end Session

end LogConsole
