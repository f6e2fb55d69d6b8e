import LogConsole.Proofs.Dict
import LogConsole.Proofs.Expansion.Grammar
import LogConsole.Proofs.Query.Binding
import LogConsole.Proofs.Session.Frames
import LogConsole.Proofs.Session.Results

/-!
# LogConsole.Proofs.Session.FirstRow

The variables that a query sets.

* `ResultSet.firstCells` — the cells of the first row, each with the header of its column;
* `ResultSet.Shows`      — the value that the first row has for a name: that of the last column of the
  name in which there is one;
* `get?_setLocals`       — the local variables after the first row has been stored;
* `expand_reference`     — a plain name after a `$` is a reference;
* `first_row_becomes_variables` — the result.
-/

namespace LogConsole

namespace ResultSet

/-- The cells of the first row under the headers of their columns. -/
def firstCells (r : ResultSet) : List (ColumnHeader × Cell) :=
  match r.rows with
  | [] => []
  | row :: _ => r.headers.zip row

/-- The first row has a value for a name: the name is a plain identifier, and this is the value in the
last of the columns of that name that have one. -/
structure Shows (r : ResultSet) (name value : String) : Prop where
  plain : isPlainIdentifier name = true
  last : ∃ before h after, r.firstCells = before ++ (h, some value) :: after ∧ h.name = name ∧
    ∀ e ∈ after, e.1.name = name → e.2 = none

variable {r : ResultSet} {name value : String}

/-- A value for a name, in a column of that name. -/
def cellFor (name : String) (e : ColumnHeader × Cell) : Option String :=
  if e.1.name = name then e.2 else none

theorem cellFor_eq_none {e : ColumnHeader × Cell} :
    cellFor name e = none ↔ (e.1.name = name → e.2 = none) := by
  simp [cellFor]

theorem cellFor_eq_some {e : ColumnHeader × Cell} :
    cellFor name e = some value ↔ e.1.name = name ∧ e.2 = some value := by
  simp [cellFor]

theorem firstRowVariables_eq (r : ResultSet) :
    Query.firstRowVariables r = r.firstCells.filterMap fun e =>
      if isPlainIdentifier e.1.name then e.2.map fun v => (e.1.name, v) else none := by
  unfold Query.firstRowVariables firstCells
  cases r.rows <;> rfl

theorem cellFor_of_plain (name : String) (e : ColumnHeader × Cell) :
    ((if isPlainIdentifier e.1.name then e.2.map fun v => (e.1.name, v) else none).filter
      (·.1 == name)).map (·.2) = if isPlainIdentifier name then cellFor name e else none := by
  obtain ⟨h, cell⟩ := e
  by_cases same : h.name = name
  · subst same
    cases isPlainIdentifier h.name <;> cases cell <;> simp [cellFor]
  · cases isPlainIdentifier h.name <;> cases cell <;> simp [cellFor, same]

theorem get?_firstRowVariables (r : ResultSet) (name : String) :
    (Dict.ofList (Query.firstRowVariables r)).get? name
      = if isPlainIdentifier name then (r.firstCells.filterMap (cellFor name)).getLast? else none := by
  rw [Dict.get?_ofList, firstRowVariables_eq, List.filter_filterMap, ← List.getLast?_map,
    List.map_filterMap, List.filterMap_congr fun e _ => cellFor_of_plain name e]
  cases isPlainIdentifier name with
  | true => rfl
  | false => simp

/-- A variable is set to what the first row has for its name. -/
theorem get?_firstRowVariables_eq_some :
    (Dict.ofList (Query.firstRowVariables r)).get? name = some value ↔ r.Shows name value := by
  rw [get?_firstRowVariables, List.getLast?_filterMap, Option.ite_none_right_eq_some,
    List.findSome?_eq_some_iff]
  constructor
  · rintro ⟨plain, later, ⟨h, cell⟩, before, parts, here, silent⟩
    obtain ⟨same, rfl⟩ := cellFor_eq_some.1 here
    refine ⟨plain, before.reverse, h, later.reverse, ?_, same, fun e he => ?_⟩
    · simpa using congrArg List.reverse parts
    · exact cellFor_eq_none.1 (silent e (List.mem_reverse.1 he))
  · rintro ⟨plain, before, h, after, parts, same, silent⟩
    refine ⟨plain, after.reverse, (h, some value), before.reverse, by simp [parts],
      cellFor_eq_some.2 ⟨same, rfl⟩, fun e he => ?_⟩
    exact cellFor_eq_none.2 (silent e (List.mem_reverse.1 he))

/-- The first row has a value for a plain identifier if one of the columns of the name has one. -/
theorem exists_shows_iff : (∃ v, r.Shows name v) ↔
    isPlainIdentifier name = true ∧ ∃ h v, (h, some v) ∈ r.firstCells ∧ h.name = name := by
  constructor
  · rintro ⟨v, plain, before, h, after, parts, same, -⟩
    exact ⟨plain, h, v, by simp [parts], same⟩
  · rintro ⟨plain, h, v, member, same⟩
    have found : v ∈ r.firstCells.filterMap (cellFor name) :=
      List.mem_filterMap.2 ⟨_, member, cellFor_eq_some.2 ⟨same, rfl⟩⟩
    cases last : (r.firstCells.filterMap (cellFor name)).getLast? with
    | none =>
      rw [List.getLast?_eq_none_iff.1 last] at found
      cases found
    | some w =>
      refine ⟨w, get?_firstRowVariables_eq_some.1 ?_⟩
      rw [get?_firstRowVariables, if_pos plain, last]

theorem forall_not_shows_iff : (∀ v, ¬ r.Shows name v) ↔
    (Dict.ofList (Query.firstRowVariables r)).get? name = none := by
  simp only [← get?_firstRowVariables_eq_some, Option.eq_none_iff_forall_ne_some, ne_eq]

end ResultSet

namespace Query

theorem eq_of_setLocals {vars : List (String × String)} {c d : Context} (h : d = setLocals vars c) :
    d = { c with scopes := c.scopes.setTop d.locals } := by
  subst h
  rw [setLocals_eq]
  rfl

theorem get?_setLocals (vars : List (String × String)) (c : Context) (name : String) :
    (setLocals vars c).locals.get? name
      = ((Dict.ofList vars).get? name).or (c.locals.get? name) := by
  rw [setLocals_eq]
  exact Dict.foldl_insert_get? vars name c.locals

/-- Variables that are set are found before all others. -/
theorem lookup_setLocals {vars : List (String × String)} {k l : Console} (world : l.world = k.world)
    (context : l.context = setLocals vars k.context) (name : String) :
    l.lookup name = ((Dict.ofList vars).get? name).or (k.lookup name) := by
  have globals : l.context.globals = k.context.globals := by rw [context, setLocals_eq]
  rw [lookup_eq, lookup_eq, context, get?_setLocals, ← context, globals, world, Option.or_assoc]

end Query

/-! ## References -/

theorem isPlainIdentifier_word {name : String} (plain : isPlainIdentifier name = true) :
    name.toList ≠ [] ∧ ∀ c ∈ name.toList, Text.isAsciiWord c = true := by
  unfold isPlainIdentifier at plain
  split at plain
  case h_1 => cases plain
  case h_2 c rest parts =>
    obtain ⟨first, others⟩ := Bool.and_eq_true _ _ ▸ plain
    have word : Text.isAsciiWord c = true := by
      unfold Text.isAsciiWord
      rcases Bool.or_eq_true _ _ ▸ first with letter | underscore
      · simp [letter]
      · simp [underscore]
    rw [parts]
    exact ⟨List.cons_ne_nil _ _, List.forall_mem_cons.2 ⟨word, List.all_eq_true.1 others⟩⟩

/-- A plain name after a `$` is a reference. -/
theorem expand_reference (lookup : String → Option String) {name : String}
    (plain : isPlainIdentifier name = true) :
    expand lookup ("$" ++ name) = .ok ((lookup name).getD "") := by
  obtain ⟨nonempty, word⟩ := isPlainIdentifier_word plain
  have spelled : ("$" ++ name).toList = '$' :: (name.toList ++ []) := by simp
  have quotes : Expansion.Quotes.none = Expansion.quotesOf false := rfl
  rw [expand, spelled, quotes, Expansion.expandFrom_named lookup nonempty word (by simp)]
  simp [Expansion.expandFrom_nil, Except.map]

namespace Query

/-- A parameter of the name of a variable has its value, unless something comes before it. -/
theorem parameterValue_reference (k : Console) (terminal : Option (Nat × Nat)) (name : String) :
    parameterValue k terminal (some ("$" ++ name))
      = (((k.context.overrides.get? ("$" ++ name)).or
          ((terminalValue? terminal name).or (k.lookup name))).map .text).getD .null := by
  cases plain : k.context.overrides.get? ("$" ++ name) with
  | some s => simp [parameterValue, plain]
  | none =>
    have marked : after? '$' ("$" ++ name) = some name := after?_eq_some.2 (by simp)
    rw [parameterValue_variable plain marked, variableValue_eq]
    rfl

end Query

namespace Session

open Run Query

variable {s t : Session} {text : String} {out : Output}

theorem runQuery_stores (wet : s.context.dryRun = false) (ran : runQuery text s = some (.ok out, t)) :
    t.world = s.world ∧ t.context = setLocals (firstRowVariables (brought s text)) s.context := by
  rcases runQuery_ok ran with ⟨m, isMeta, -, rfl⟩ | ⟨-, -, stored, -⟩
  · -- a statement about the database brings no rows
    have nothing : firstRowVariables (brought t text) = [] := by
      rw [brought, isMeta]
      rfl
    rw [nothing]
    exact ⟨rfl, rfl⟩
  · refine ⟨by rw [world, stored, storing_world, world], ?_⟩
    change t.console.context = setLocals _ s.console.context
    rw [stored, storing_context wet]

/-- **The first row of a query becomes variables.** After a query that succeeds outside of dry run,
whatever the context was before:

* a name that the first row has a value for is a local variable with this value (`Shows`): the name is a
  plain identifier, and the value is that of the last column of the name that has one;
* every other name, be it that all its values in the first row are null, that it is no plain
  identifier or that there is no row, is what it was, or is still missing;
* nothing else changes in the context and in the world: no other scope, nor the global variables;
* so a reference to the variable gives the value of the first row, and so does a parameter of the name
  unless there is an override or the terminal has one; all others give what they gave before.

The rows are those that the query has left as the results; a statement about the database brings none. -/
theorem first_row_becomes_variables (wet : s.context.dryRun = false)
    (ran : runQuery text s = some (.ok out, t)) :
    (metaStatement? (Text.trim text) = none ∧ t.results = brought s text ∨
      (metaStatement? (Text.trim text)).isSome ∧ (brought s text).rows = []) ∧
    (∀ x, (∃ v, (brought s text).Shows x v) ↔ isPlainIdentifier x = true ∧
      ∃ h v, (h, some v) ∈ (brought s text).firstCells ∧ h.name = x) ∧
    (∀ x v, (brought s text).Shows x v →
      t.context.locals.get? x = some v ∧ expand t.console.lookup ("$" ++ x) = .ok v ∧
      ∀ terminal, s.context.overrides.get? ("$" ++ x) = none → terminalValue? terminal x = none →
        parameterValue t.console terminal (some ("$" ++ x)) = .text v) ∧
    (∀ x, (∀ v, ¬ (brought s text).Shows x v) →
      t.context.locals.get? x = s.context.locals.get? x ∧ t.console.lookup x = s.console.lookup x ∧
      ∀ terminal, parameterValue t.console terminal (some ("$" ++ x))
        = parameterValue s.console terminal (some ("$" ++ x))) ∧
    t.context = { s.context with scopes := s.context.scopes.setTop t.context.locals } ∧
    t.world = s.world := by
  obtain ⟨world, stored⟩ := runQuery_stores wet ran
  have found (x : String) := lookup_setLocals world stored x
  have overrides : t.console.context.overrides = s.context.overrides :=
    (congrArg Context.overrides stored).trans (by rw [setLocals_eq])
  refine ⟨?_, fun x => ResultSet.exists_shows_iff, fun x v shows => ?_, fun x silent => ?_, ?_, world⟩
  · rcases runQuery_ok ran with ⟨m, isMeta, -⟩ | ⟨noMeta, results, -⟩
    · exact .inr ⟨by rw [isMeta]; rfl, by rw [brought, isMeta]; rfl⟩
    · exact .inl ⟨noMeta, results⟩
  · have own := ResultSet.get?_firstRowVariables_eq_some.2 shows
    have value : t.console.lookup x = some v := by rw [found, own, Option.some_or]
    refine ⟨?_, ?_, fun terminal plain untold => ?_⟩
    · rw [stored, get?_setLocals, own, Option.some_or]
    · rw [expand_reference _ shows.plain, value]
      rfl
    · rw [parameterValue_reference, overrides, plain, untold, value]
      rfl
  · have none := ResultSet.forall_not_shows_iff.1 silent
    have same : t.console.lookup x = s.console.lookup x := by rw [found, none, Option.none_or]
    refine ⟨?_, same, fun terminal => ?_⟩
    · rw [stored, get?_setLocals, none, Option.none_or]
    · rw [parameterValue_reference, parameterValue_reference, overrides, same]
      rfl
  · exact eq_of_setLocals stored

/-- A session with a variable from before. -/
def withOldVariable : Session where
  console := { context := { scopes := ⟨Dict.ofList [("gone", "old")], []⟩ } }

set_option maxRecDepth 8000 in
/-- Of two columns of a name the later one counts if it has a value, and the earlier one if it does not.
A name with nothing but null keeps its old value, and a name with a blank is not set. -/
theorem last_value_of_a_name_counts :
    let text := "SELECT 1 AS a, 2 AS a, 3 AS b, NULL AS b, NULL AS gone, 4 AS \"two words\""
    withOldVariable.context.dryRun = false ∧
    ∃ out t, runQuery text withOldVariable = some (.ok out, t) ∧
      t.context.locals.get? "a" = some "2" ∧ t.context.locals.get? "b" = some "3" ∧
      t.context.locals.get? "gone" = some "old" ∧ t.context.locals.get? "two words" = none ∧
      expand t.console.lookup "$a" = .ok "2" := by
  intro text
  have wet : withOldVariable.context.dryRun = false := rfl
  have succeeds : (runQuery text withOldVariable).map (fun e => e.1.toOption.isSome) = some true := by
    decide +kernel
  obtain ⟨⟨r, t⟩, ran, ok⟩ := Option.map_eq_some_iff.1 succeeds
  cases r with
  | error m => cases ok
  | ok out =>
    have first : firstRowVariables (brought withOldVariable text)
        = [("a", "1"), ("a", "2"), ("b", "3")] := by decide +kernel
    obtain ⟨-, -, shown, silent, -⟩ := first_row_becomes_variables wet ran
    simp only [← ResultSet.get?_firstRowVariables_eq_some, first] at shown
    simp only [ResultSet.forall_not_shows_iff, first] at silent
    obtain ⟨localA, readA, -⟩ := shown "a" "2" (by decide)
    obtain ⟨localB, -⟩ := shown "b" "3" (by decide)
    obtain ⟨keptGone, -⟩ := silent "gone" (by decide)
    obtain ⟨keptWords, -⟩ := silent "two words" (by decide)
    exact ⟨wet, out, t, ran, localA, localB, keptGone.trans (by decide), keptWords.trans (by decide),
      readA⟩

end Session

end LogConsole
