import LogConsole.Proofs.Sql.ReadOnly

/-!
# LogConsole.Proofs.Sql.Parsed

What every statement has that has been read from a text.

* `Gives P x`             — whatever a reader ends with has the property `P`, unless it fails;
* `Select.HasColumns`     — each query in a query asks for something: a single one for a result,
  and lists of values for a value;
* `Statement.HasColumns`  — so does what a statement asks for, and a table that it makes has a
  column;
* `statement_hasColumns`  — no other statement is read.

The grammar has these things behind a keyword or a parenthesis, with commas between them: that a
list with commas is not empty carries all of it.
-/

namespace LogConsole.Sql

theorem Yields.bind_of {ε α β : Type} {P : α → Prop} {Q : β → Prop} {x : Except ε β}
    {f : β → Except ε α} (hx : Yields Q x) (hf : ∀ b, Q b → Yields P (f b)) :
    Yields P (x >>= f) := by
  intro a ha
  cases h : x with
  | error e => rw [h] at ha; cases ha
  | ok b => rw [h] at ha; exact hf b (hx b h) a ha

/-! ## Readers -/

def Gives {σ ε α : Type} (P : α → Prop) (x : StateT σ (Except ε) α) : Prop :=
  ∀ st, Yields (fun r => P r.1) (x st)

namespace Gives

variable {σ ε α β : Type} {P : α → Prop} {Q : β → Prop}

theorem pure {a : α} (h : P a) : Gives P (pure a : StateT σ (Except ε) α) :=
  fun _ => .pure h

theorem bind {x : StateT σ (Except ε) β} {f : β → StateT σ (Except ε) α} (hx : Gives Q x)
    (hf : ∀ b, Q b → Gives P (f b)) : Gives P (x >>= f) :=
  fun st => (hx st).bind_of fun r hr => hf r.1 hr r.2

theorem imp {R : α → Prop} {x : StateT σ (Except ε) α} (h : Gives P x) (k : ∀ a, P a → R a) :
    Gives R x := fun st r hr => k r.1 (h st r hr)

/-- What is read first does not matter. -/
theorem after {x : StateT σ (Except ε) β} {f : β → StateT σ (Except ε) α}
    (hf : ∀ b, Gives P (f b)) : Gives P (x >>= f) :=
  fun _ => .bind fun r => hf r.1 r.2

/-- Which way is taken does not matter. -/
theorem either {c : StateT σ (Except ε) Bool} {x y : StateT σ (Except ε) α} (hx : Gives P x)
    (hy : Gives P y) : Gives P (c >>= fun b => if b then x else y) := by
  refine .after fun b => ?_
  split
  · exact hx
  · exact hy

end Gives

/-! ## What is asked for -/

mutual

def Select.HasColumns : Select → Prop
  | .single columns source _ _ => columns ≠ [] ∧ source.HasColumns
  | .values rows => rows.headD [] ≠ []
  | .unionAll a b => a.HasColumns ∧ b.HasColumns
  | .ordered s _ => s.HasColumns

def SelectSource.HasColumns : SelectSource → Prop
  | .nothing => True
  | .table _ _ _ => True
  | .query s _ => s.HasColumns

end

def Statement.HasColumns : Statement → Prop
  | .select s => s.HasColumns
  | .createView _ _ _ _ s _ => s.HasColumns
  | .createTable _ _ d => d.columns ≠ []
  | _ => True

namespace Parser

theorem gives_unexpected {α : Type} {P : α → Prop} : Gives P (unexpected : Parser α) := by
  intro st
  unfold unexpected
  split
  · exact .error _
  · split <;> exact .error _

theorem gives_fail {α : Type} {P : α → Prop} (text : String) (offset : Option Nat) :
    Gives P (fail text offset : Parser α) := fun _ => .error _

/-! ## Lists -/

theorem sepBy_nonempty {α : Type} {P : α → Prop} {item : Parser α} (h : Gives P item) (fuel : Nat) :
    Gives (fun items => ∃ a rest, items = a :: rest ∧ P a) (sepBy item fuel) := by
  cases fuel with
  | zero => exact gives_unexpected
  | succ fuel =>
    refine .bind h fun first hfirst => .either (.after fun rest => ?_) ?_
    · exact .pure ⟨first, rest, rfl, hfirst⟩
    · exact .pure ⟨first, [], rfl, hfirst⟩

/-- Items with commas between them: there is a first one. -/
theorem commaList_nonempty {α : Type} {P : α → Prop} {item : Parser α} (h : Gives P item) :
    Gives (fun items => ∃ a rest, items = a :: rest ∧ P a) (commaList item) :=
  .after fun _ => sepBy_nonempty h _

theorem commaList_ne_nil {α : Type} (item : Parser α) : Gives (· ≠ []) (commaList item) := by
  have any : Gives (fun _ => True) item := fun _ _ _ => trivial
  refine (commaList_nonempty any).imp fun items h => ?_
  obtain ⟨a, rest, rfl, -⟩ := h
  exact List.cons_ne_nil a rest

/-! ## Queries -/

theorem valuesRow_ne_nil : Gives (· ≠ []) valuesRow :=
  .after fun _ => .bind (commaList_ne_nil expression) fun _ hitems => .after fun _ => .pure hitems

theorem valuesRows_hasColumns :
    Gives (fun rows => (Select.values rows).HasColumns) (commaList valuesRow) := by
  refine (commaList_nonempty valuesRow_ne_nil).imp fun rows h => ?_
  obtain ⟨row, rest, rfl, hrow⟩ := h
  simpa only [Select.HasColumns, List.headD_cons] using hrow

section Queries

variable {fuel : Nat}

theorem source_hasColumns (ih : Gives Select.HasColumns (select fuel)) :
    Gives SelectSource.HasColumns (source (fuel + 1)) := by
  unfold source
  refine .either ?_ ?_
  · refine .bind ih fun s hs => .after fun _ => .after fun label => .pure ?_
    simpa only [SelectSource.HasColumns] using hs
  · refine .after fun name => .after fun label => .pure ?_
    simp only [SelectSource.HasColumns]

theorem single_hasColumns (ih : Gives SelectSource.HasColumns (source fuel)) :
    Gives (fun r => r.1.HasColumns) (single (fuel + 1)) := by
  unfold single
  refine .either ?_ ?_
  · exact .bind valuesRows_hasColumns fun _ hrows => .pure hrows
  · refine .after fun _ => .after fun isAll => ?_
    dsimp only
    rw [ite_self]
    refine .bind (commaList_ne_nil resultColumn) fun columns hcolumns => ?_
    have whole (source : SelectSource) (hsource : source.HasColumns) (filter : Option Expr)
        (groups : List Expr) : (Select.single columns source filter groups).HasColumns := by
      simp only [Select.HasColumns]
      exact ⟨hcolumns, hsource⟩
    have nothing : SelectSource.HasColumns .nothing := by simp only [SelectSource.HasColumns]
    refine .either (.bind ih fun source hsource => ?_)
      (.bind (.pure nothing) fun source hsource => ?_)
    all_goals
      refine .after fun filter => .either (.after fun _ => .after fun groups => ?_)
        (.after fun groups => ?_)
      all_goals exact .after fun order => .pure (whole source hsource filter groups)

theorem unions_hasColumns (ih : Gives (fun r => r.1.HasColumns) (single fuel))
    (again : ∀ misplaced left order, Select.HasColumns left →
      Gives Select.HasColumns (unions fuel misplaced left order))
    (misplaced : Bool) (left : Select) (order : List OrderTerm) (hleft : left.HasColumns) :
    Gives Select.HasColumns (unions (fuel + 1) misplaced left order) := by
  unfold unions
  refine .either ?_ ?_
  · refine .after fun _ => .bind ih fun right hright => again _ _ _ ?_
    simp only [Select.HasColumns]
    exact ⟨hleft, hright⟩
  · split
    · exact gives_fail _ _
    · split
      · exact .pure hleft
      · refine .pure ?_
        simpa only [Select.HasColumns] using hleft

/-- By induction on the fuel, for all readers of queries at once. -/
theorem readers_haveColumns (fuel : Nat) :
    Gives SelectSource.HasColumns (source fuel) ∧
    Gives (fun r => r.1.HasColumns) (single fuel) ∧
    (∀ misplaced left order, Select.HasColumns left →
      Gives Select.HasColumns (unions fuel misplaced left order)) ∧
    Gives Select.HasColumns (select fuel) := by
  induction fuel with
  | zero =>
    exact ⟨gives_unexpected, gives_unexpected, fun _ _ _ _ => gives_unexpected, gives_unexpected⟩
  | succ fuel ih =>
    obtain ⟨ofSource, ofSingle, ofUnions, ofSelect⟩ := ih
    refine ⟨source_hasColumns ofSelect, single_hasColumns ofSource,
      unions_hasColumns ofSingle ofUnions, ?_⟩
    exact .bind ofSingle fun r hr => ofUnions false r.1 r.2 hr

end Queries

theorem selectStatement_hasColumns : Gives Select.HasColumns selectStatement :=
  .after fun _ => (readers_haveColumns _).2.2.2

/-! ## Tables -/

theorem addPart_columns (d : TableDef) (part : TablePart) (h : d.columns ≠ []) :
    (addPart d part).columns ≠ [] := by
  cases part with
  | column c => exact List.append_ne_nil_of_left_ne_nil h [c]
  | primaryKey columns => exact h
  | unique columns => exact h
  | parent p => exact h

theorem addParts_columns (parts : List TablePart) :
    ∀ d : TableDef, d.columns ≠ [] → (parts.foldl addPart d).columns ≠ [] := by
  induction parts with
  | nil => intro d h; exact h
  | cons part rest ih => intro d h; exact ih _ (addPart_columns d part h)

/-- The first part of a table is a column. -/
theorem tableParts_first : Gives (fun parts => ∃ c rest, parts = .column c :: rest) tableParts :=
  .after fun _ => .after fun c => .after fun rest => .pure ⟨c, rest, rfl⟩

theorem createTable_hasColumns : Gives Statement.HasColumns createTable := by
  refine .after fun head => .after fun after => .after fun _ => .bind tableParts_first ?_
  rintro parts ⟨c, rest, rfl⟩
  refine .after fun _ => .after fun left => .after fun _ => .pure ?_
  exact addParts_columns rest _ (List.append_ne_nil_of_right_ne_nil _ (List.cons_ne_nil c []))

/-! ## Statements -/

theorem createView_hasColumns : Gives Statement.HasColumns createView := by
  unfold createView
  refine .after fun ifMissing => .after fun name => .after fun after => ?_
  refine .either (.after fun columns => ?_) (.after fun columns => ?_)
  all_goals
    refine .after fun _ => .bind selectStatement_hasColumns fun s hs => .after fun st => ?_
    refine .after fun ended => ?_
    split
    · exact .after fun _ => .after fun rest => .after fun gap => .pure hs
    · exact .after fun rest => .after fun gap => .pure hs

theorem createIndex_hasColumns (unique : Bool) : Gives Statement.HasColumns (createIndex unique) :=
  .after fun _ => .after fun _ => .after fun _ => .after fun _ => .after fun _ => .after fun _ =>
    .after fun _ => .after fun _ => .pure trivial

theorem insert_hasColumns : Gives Statement.HasColumns insert := by
  refine .after fun _ => .after fun name => .after fun listed => ?_
  split
  all_goals
    exact .after fun _ => .after fun _ => .after fun _ => .after fun _ => .after fun _ =>
      .pure trivial

theorem update_hasColumns : Gives Statement.HasColumns update :=
  .after fun _ => .after fun _ => .after fun _ => .after fun _ => .after fun _ => .pure trivial

theorem delete_hasColumns : Gives Statement.HasColumns delete :=
  .after fun _ => .after fun _ => .after fun _ => .after fun _ => .pure trivial

theorem drop_hasColumns : Gives Statement.HasColumns drop :=
  .either (.after fun _ => .after fun _ => .pure trivial) <|
  .either (.after fun _ => .after fun _ => .pure trivial) <|
  .either (.after fun _ => .after fun _ => .pure trivial) gives_unexpected

theorem setting_hasColumns : Gives Statement.HasColumns setting := by
  have plain (isVersion : Bool) (a : Statement) (ha : a.HasColumns) :
      Gives Statement.HasColumns
        (pure (if isVersion then a else .otherSetting) : Parser Statement) := by
    cases isVersion with
    | true => exact .pure ha
    | false => exact .pure trivial
  refine .after fun name => .either (.after fun n => ?_) (.either (.after fun n => ?_) ?_)
  · exact plain _ (.setVersion n) trivial
  · exact .after fun _ => plain _ (.setVersion n) trivial
  · exact plain _ .readVersion trivial

theorem create_hasColumns : Gives Statement.HasColumns create :=
  .either createTable_hasColumns <|
  .either (createIndex_hasColumns false) <|
  .either (.after fun _ => createIndex_hasColumns true) <|
  .either createView_hasColumns gives_unexpected

theorem statementOf_hasColumns : Gives Statement.HasColumns statementOf := by
  refine .after fun isSelect => .after fun isValues => ?_
  split
  · exact .bind selectStatement_hasColumns fun s hs => .pure hs
  · exact
      .either create_hasColumns <|
      .either insert_hasColumns <|
      .either update_hasColumns <|
      .either delete_hasColumns <|
      .either drop_hasColumns <|
      .either setting_hasColumns gives_unexpected

/-- Every statement that is read asks for something, and every table that it makes has a column. -/
theorem statement_hasColumns : Gives Statement.HasColumns statement :=
  .bind statementOf_hasColumns fun _ hs => .either (.pure hs) gives_unexpected

end Parser

end LogConsole.Sql
