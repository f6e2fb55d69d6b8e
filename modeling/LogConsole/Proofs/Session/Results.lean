import LogConsole.Proofs.Session.Acts

/-!
# LogConsole.Proofs.Session.Results

Which rows a query leaves behind.

* `ResultSet.recordAll` — a result set with more rows;
* `Query.brought`       — the result set of a text by itself: the rows of its statement and no
  others;
* `Query.BringsMany`    — the statement of a text yields more than one row;
* `Query.storing`       — a console in which the first row of a result set is stored;
* `runQuery_ok`         — a query that succeeds leaves what it brought, stores the first row of it,
  and its answer sums it up. A statement about the database leaves all as it has found it.
-/

namespace LogConsole

namespace ResultSet

def recordAll (r : ResultSet) (columns : List String) (rows : List (List Sql.Value)) : ResultSet :=
  rows.foldl (fun r row => r.record columns row) r

@[simp] theorem recordAll_rows (columns : List String) (rows : List (List Sql.Value)) :
    ∀ r : ResultSet,
      (r.recordAll columns rows).rows = r.rows ++ rows.map fun row => row.map (·.cell?) := by
  induction rows with
  | nil => intro r; simp [recordAll]
  | cons row rest ih =>
    intro r
    exact (ih _).trans (by simp [record])

end ResultSet

namespace Collector

theorem record_ok {c d : Collector} {columns : List String} {row : List Sql.Value}
    (h : c.record columns row = (.ok (), d)) : d.results = c.results.record columns row := by
  simp only [record] at h
  split at h <;> cases h
  rfl

/-- Where no call is refused, all rows are there. -/
theorem recordAll_ok {columns : List String} (rows : List (List Sql.Value)) :
    ∀ {c d : Collector}, c.recordAll columns rows = (.ok (), d) →
      d.results = c.results.recordAll columns rows := by
  induction rows with
  | nil => intro c d h; cases h; rfl
  | cons row rest ih =>
    intro c d h
    simp only [recordAll] at h
    split at h
    · cases h
    · rename_i c' hc
      rw [ih h, record_ok hc]
      rfl

end Collector

namespace Query

open Run

/-- The result set of a statement that is run in a session. -/
def rowsOf (s : Session) (p : Sql.Prepared) : ResultSet :=
  s.results.clear.recordAll p.columns (p.run s.database (parameterValues s p)).rows.rows

/-- A console with the first row of a result set in its variables, unless it is in dry run. -/
def storing (results : ResultSet) (k : Console) : Console :=
  if k.context.dryRun then k
  else { k with context := setLocals (firstRowVariables results) k.context }

theorem storing_world (results : ResultSet) (k : Console) : (storing results k).world = k.world := by
  unfold storing
  split <;> rfl

theorem storing_context {results : ResultSet} {k : Console} (wet : k.context.dryRun = false) :
    (storing results k).context = setLocals (firstRowVariables results) k.context := by
  rw [storing, if_neg (by simp [wet])]

/-- The result set of a text by itself. It has no rows where there is no statement to run. -/
def brought (s : Session) (text : String) : ResultSet :=
  match metaStatement? (Text.trim text), Sql.prepare s.database (expandAlias (Text.trim text)) with
  | none, .ok (some p) => rowsOf s p
  | _, _ => s.results.clear

def BringsMany (s : Session) (text : String) : Prop :=
  metaStatement? (Text.trim text) = none ∧
    ∃ p, Sql.prepare s.database (expandAlias (Text.trim text)) = .ok (some p) ∧
      1 < (p.run s.database (parameterValues s p)).rows.rows.length

theorem bringsMany_iff (s : Session) (text : String) :
    BringsMany s text ↔ 1 < (brought s text).rows.length := by
  unfold BringsMany brought
  split
  · rename_i p hm hp
    simp [hm, hp, rowsOf]
  · rename_i hn
    simp only [ResultSet.clear_rows, List.length_nil, Nat.not_lt_zero, iff_false]
    rintro ⟨hm, p, hp, -⟩
    exact hn p hm hp

end Query

namespace MetaStatement

/-- The context matters to what is said of a failure only. -/
theorem answer_ok {db : Sql.Database} {c : Context} {m : MetaStatement} {words : List String}
    {text : String} (h : m.answer db c words = .ok text) (d : Context) :
    m.answer db d words = .ok text := by
  cases m with
  | tables => exact h
  | schema =>
    match words with
    | [] | [_] => exact h
    | _ :: table :: _ =>
      simp only [answer] at h ⊢
      split at h
      · cases h
      · exact h

end MetaStatement

namespace Run

open Query

variable {α β : Type} {s t : Session}

theorem bind_ok {x : Run α} {f : α → Run β} {b : β} (h : (x >>= f) s = some (.ok b, t)) :
    ∃ a u, x s = some (.ok a, u) ∧ f a u = some (.ok b, t) := by
  rw [bind_def] at h
  split at h
  · cases h
  · cases h
  · rename_i a u hx; exact ⟨a, u, hx, h⟩

theorem collectRows_ok {p : Sql.Prepared} {values : List Sql.Value}
    (h : collectRows p values s = some (.ok (), t)) :
    t.results = s.results.recordAll p.columns (p.run s.database values).rows.rows ∧
      t.console = s.console := by
  simp only [collectRows] at h
  split at h
  · cases h
  · rename_i hc
    split at h <;> cases h
    exact ⟨Collector.recordAll_ok _ hc, rfl⟩

theorem storeFirstRow_ok (h : storeFirstRow s = some (.ok (), t)) :
    t.results = s.results ∧ t.console = storing s.results s.console := by
  cases h
  unfold storing Session.context
  dsimp only
  split <;> exact ⟨rfl, rfl⟩

theorem runPrepared_ok {text : String} {p : Sql.Prepared} {out : Output}
    (h : runPrepared text p s = some (.ok out, t)) :
    t.results = rowsOf s p ∧ t.console = storing (rowsOf s p) s.console ∧
      out = summarize p.readOnly s.world.queryTime t.results := by
  unfold runPrepared at h
  obtain ⟨ro, u, hu, h⟩ := bind_ok h
  cases hu
  split at h
  · cases h
  · obtain ⟨values, u, hu, h⟩ := bind_ok h
    obtain ⟨rfl, same⟩ := bindParameters_ok hu
    rw [same] at h
    obtain ⟨_, s₁, h₁, h⟩ := bind_ok h
    obtain ⟨_, s₂, h₂, h⟩ := bind_ok h
    obtain ⟨_, s₃, h₃, h⟩ := bind_ok h
    cases h
    -- the values were read before the results were cleared, but nothing they depend on changed
    obtain ⟨hr₁, hd₁, hc₁⟩ := clearResults_ok h₁
    obtain ⟨hr₂, hc₂⟩ := collectRows_ok h₂
    obtain ⟨hr₃, hc₃⟩ := storeFirstRow_ok h₃
    have rows : s₂.results = rowsOf s p := by rw [hr₂, hd₁, hr₁, rowsOf]
    have console : t.console = storing (rowsOf s p) s.console := by rw [hc₃, rows, hc₂, hc₁]
    have world : t.world = s.world := by rw [Session.world, console, storing_world, Session.world]
    refine ⟨hr₃.trans rows, console, ?_⟩
    dsimp only
    rw [world]

theorem runStatement_ok {text statement : String} {out : Output}
    (h : runStatement text statement s = some (.ok out, t)) :
    ∃ p, Sql.prepare s.database statement = .ok (some p) ∧
      runPrepared text p s = some (.ok out, t) := by
  simp only [runStatement, bind_def, Run.get] at h
  cases hp : Sql.prepare s.database statement with
  | error e =>
    rw [hp] at h
    cases h
  | ok found =>
    rw [hp] at h
    cases found with
    | none =>
      obtain ⟨_, u, -, hu⟩ := bind_ok h
      cases hu
    | some p => exact ⟨p, rfl, h⟩

theorem runMeta_ok {m : MetaStatement} {words : List String} {out : Output}
    (h : runMeta m words s = some (.ok out, t)) :
    m.answer s.database s.context words = .ok out.summary ∧ t = s := by
  refine ⟨?_, runMeta_still h⟩
  unfold runMeta withHelp at h
  obtain ⟨u, hu, rfl⟩ := within_ended h
  split at hu
  · rename_i ha
    cases hu
    exact MetaStatement.answer_ok ha s.context
  · cases hu

/-- What has been done by a query that succeeds. -/
theorem runQuery_ok {text : String} {out : Output} (h : runQuery text s = some (.ok out, t)) :
    (∃ m, metaStatement? (Text.trim text) = some m ∧
      m.answer s.database s.context (Text.words (Text.trim text)) = .ok out.summary ∧ t = s) ∨
    (metaStatement? (Text.trim text) = none ∧ t.results = brought s text ∧
      t.console = storing (brought s text) s.console ∧
      ∃ readOnly, out = summarize readOnly s.world.queryTime t.results) := by
  cases hm : metaStatement? (Text.trim text) with
  | some m =>
    simp only [runQuery, hm] at h
    exact .inl ⟨m, rfl, runMeta_ok h⟩
  | none =>
    simp only [runQuery, hm] at h
    split at h
    · cases h
    · obtain ⟨p, hp, h⟩ := runStatement_ok h
      obtain ⟨hr, hc, ho⟩ := runPrepared_ok h
      have rows : rowsOf s p = brought s text := by rw [brought, hm, hp]
      rw [rows] at hr hc
      exact .inr ⟨rfl, hr, hc, p.readOnly, ho⟩

end Run

end LogConsole
