import LogConsole.Proofs.Session.Faults

/-!
# LogConsole.Proofs.Query.Binding

What the parameters of a statement are given.

* `Source`, `Source.offer` — where a value may come from, from the highest on, and what a source has
  for a name;
* `Sourced`      — the value of a parameter: that of the highest source that has one for its name, or
  null;
* `Binds`        — the calls that give the parameters their values, one index after the other, up to
  the first value that the engine does not take;
* `BindsAll.runQuery` — a statement is run with the values of these calls;
* `parameters_bound_by_precedence` — the result.
-/

namespace LogConsole

namespace Query

/-! ## Sources -/

/-- What the value of a parameter may come from. -/
inductive Source where
  | overrides | terminal | locals | globals | environment | lineValues
  deriving DecidableEq, Repr

namespace Source

/-- How many sources come before it. -/
def rank : Source → Nat
  | overrides => 0
  | terminal => 1
  | locals => 2
  | globals => 3
  | environment => 4
  | lineValues => 5

def all : List Source := [overrides, terminal, locals, globals, environment, lineValues]

theorem mem_all (a : Source) : a ∈ all := by cases a <;> decide

theorem sorted_all : all.Pairwise fun a b => a.rank < b.rank := by decide

theorem findSome?_all {α : Type} (f : Source → Option α) :
    all.findSome? f = (f overrides).or ((f terminal).or ((f locals).or ((f globals).or
      ((f environment).or (f lineValues))))) := by
  have step (a : Source) (rest : List Source) :
      (a :: rest).findSome? f = (f a).or (rest.findSome? f) := by
    rw [List.findSome?_cons]
    cases f a <;> rfl
  simp only [all, step, List.findSome?_nil, Option.or_none]

theorem eq_of_rank {a b : Source} (h : a.rank = b.rank) : a = b := by
  cases a <;> cases b <;> first | rfl | cases h

end Source

/-- The rest of a name that has this mark. -/
def after? (mark : Char) (name : String) : Option String :=
  match name.toList with
  | c :: rest => if c = mark then some (String.ofList rest) else none
  | [] => none

/-- What a source has for the name of a parameter. Variables have the mark `$`, line values have
`:`, and an override is for the name with its mark. -/
def Source.offer (k : Console) (terminal : Option (Nat × Nat)) (name : String) :
    Source → Option Sql.Value
  | overrides => (k.context.overrides.get? name).map .text
  | .terminal =>
    (after? '$' name).bind fun field => terminal.bind fun (lines, columns) =>
      if field = "LINES" then some (.text (toString lines))
      else if field = "COLS" then some (.text (toString columns))
      else none
  | locals => ((after? '$' name).bind k.context.locals.get?).map .text
  | globals => ((after? '$' name).bind k.context.globals.get?).map .text
  | environment => ((after? '$' name).bind k.world.environment.get?).map .text
  | lineValues =>
    ((after? ':' name).bind fun field => k.context.lineValues.find? (·.name == field)).map
      (·.value.toSql)

/-- The value of a parameter: that of the first source that has one for its name. -/
inductive Sourced (k : Console) (terminal : Option (Nat × Nat)) : Option String → Sql.Value → Prop where
  | anonymous : Sourced k terminal none .null
  | offered {name : String} {v : Sql.Value} (a : Source) (offers : a.offer k terminal name = some v)
      (first : ∀ b : Source, b.rank < a.rank → b.offer k terminal name = none) :
      Sourced k terminal (some name) v
  | unknown {name : String} (silent : ∀ a : Source, a.offer k terminal name = none) :
      Sourced k terminal (some name) .null

variable {k : Console} {terminal : Option (Nat × Nat)} {name : Option String} {v w : Sql.Value}

theorem Sourced.unique (h : Sourced k terminal name v) (h' : Sourced k terminal name w) : v = w := by
  cases h with
  | anonymous => cases h'; rfl
  | offered a offers first =>
    cases h' with
    | offered b offers' first' =>
      rcases Nat.lt_trichotomy a.rank b.rank with before | same | before
      · rw [first' a before] at offers
        cases offers
      · rw [Source.eq_of_rank same, offers'] at offers
        exact (Option.some.inj offers).symm
      · rw [first b before] at offers'
        cases offers'
    | unknown silent =>
      rw [silent a] at offers
      cases offers
  | unknown silent =>
    cases h' with
    | offered b offers' =>
      rw [silent b] at offers'
      cases offers'
    | unknown => rfl

theorem sourced_first (k : Console) (terminal : Option (Nat × Nat)) (name : String) :
    Sourced k terminal (some name)
      ((Source.all.findSome? fun a => a.offer k terminal name).getD .null) := by
  cases found : Source.all.findSome? fun a => a.offer k terminal name with
  | none => exact .unknown fun a => List.findSome?_eq_none_iff.1 found a a.mem_all
  | some v =>
    obtain ⟨before, a, after, parts, offers, silent⟩ := List.findSome?_eq_some_iff.1 found
    refine .offered a offers fun b hb => ?_
    have sorted := Source.sorted_all
    rw [parts, List.pairwise_append, List.pairwise_cons] at sorted
    have position := b.mem_all
    rw [parts, List.mem_append, List.mem_cons] at position
    rcases position with first | rfl | later
    · exact silent b first
    · exact absurd hb (lt_irrefl _)
    · exact absurd hb (sorted.2.1.1 b later).asymm

theorem after?_eq_some {mark : Char} {name rest : String} :
    after? mark name = some rest ↔ name.toList = mark :: rest.toList := by
  unfold after?
  split
  case h_1 c cs marked =>
    rw [marked, List.cons.injEq]
    split
    case isTrue same => simp [same, String.ext_iff]
    case isFalse other => simp [other]
  case h_2 empty => simp [empty]

theorem after?_other {mark other : Char} {name rest : String} (h : after? mark name = some rest)
    (differ : mark ≠ other) : after? other name = none := by
  by_contra more
  obtain ⟨rest', h'⟩ := Option.ne_none_iff_exists'.1 more
  rw [after?_eq_some, after?_eq_some.1 h] at h'
  exact differ (List.cons.inj h').1

theorem offer_terminal {name field : String} (marked : after? '$' name = some field) :
    Source.terminal.offer k terminal name = (terminalValue? terminal field).map .text := by
  simp only [Source.offer, marked, Option.bind_some, terminalValue?]
  cases terminal with
  | none => rfl
  | some size =>
    by_cases lines : field = "LINES"
    · simp [lines]
    · by_cases columns : field = "COLS" <;> simp [lines, columns]

theorem lookup_eq (k : Console) (field : String) :
    k.lookup field = (k.context.locals.get? field).or
      ((k.context.globals.get? field).or (k.world.environment.get? field)) := by
  unfold Console.lookup Context.lookup
  cases k.context.locals.get? field with
  | some s => rfl
  | none => cases k.context.globals.get? field <;> rfl

theorem variableValue_eq (k : Console) (terminal : Option (Nat × Nat)) (field : String) :
    variableValue k terminal field
      = (((terminalValue? terminal field).or (k.lookup field)).map .text).getD .null := by
  unfold variableValue
  cases terminalValue? terminal field with
  | some s => rfl
  | none => cases k.lookup field <;> rfl

theorem lineValue_eq (values : List LineValue) (field : String) :
    lineValue values field = ((values.find? (·.name == field)).map (·.value.toSql)).getD .null := by
  unfold lineValue
  cases values.find? (·.name == field) <;> rfl

section Plain

variable {name : String} (plain : k.context.overrides.get? name = none)

include plain

theorem parameterValue_variable {field : String} (marked : after? '$' name = some field) :
    parameterValue k terminal (some name) = variableValue k terminal field := by
  simp [parameterValue, plain, after?_eq_some.1 marked]

theorem parameterValue_lineValue {field : String} (marked : after? ':' name = some field) :
    parameterValue k terminal (some name) = lineValue k.context.lineValues field := by
  simp [parameterValue, plain, after?_eq_some.1 marked]

theorem parameterValue_other (noVariable : after? '$' name = none)
    (noField : after? ':' name = none) : parameterValue k terminal (some name) = .null := by
  unfold parameterValue
  simp only [plain]
  split
  case h_1 rest marked =>
    have field : after? '$' name = some (String.ofList rest) :=
      after?_eq_some.2 (by simpa using marked)
    rw [field] at noVariable
    cases noVariable
  case h_2 rest marked =>
    have field : after? ':' name = some (String.ofList rest) :=
      after?_eq_some.2 (by simpa using marked)
    rw [field] at noField
    cases noField
  case h_3 => rfl

end Plain

/-- The first offer is the value. -/
theorem parameterValue_eq_first (k : Console) (terminal : Option (Nat × Nat)) (name : String) :
    parameterValue k terminal (some name)
      = (Source.all.findSome? fun a => a.offer k terminal name).getD .null := by
  rw [Source.findSome?_all]
  cases plain : k.context.overrides.get? name with
  | some s => simp [parameterValue, Source.offer, plain]
  | none =>
    have noOverride : Source.overrides.offer k terminal name = none := by simp [Source.offer, plain]
    cases marked : after? '$' name with
    | some field =>
      have noField : after? ':' name = none := after?_other marked (by decide)
      rw [parameterValue_variable plain marked, variableValue_eq, lookup_eq, noOverride,
        offer_terminal marked]
      simp [Source.offer, marked, noField, Option.map_or]
    | none =>
      cases marked' : after? ':' name with
      | some field =>
        rw [parameterValue_lineValue plain marked', lineValue_eq, noOverride]
        simp [Source.offer, marked, marked']
      | none =>
        rw [parameterValue_other plain marked marked', noOverride]
        simp [Source.offer, marked, marked']

theorem sourced_parameterValue (k : Console) (terminal : Option (Nat × Nat)) (name : Option String) :
    Sourced k terminal name (parameterValue k terminal name) := by
  cases name with
  | none => exact .anonymous
  | some name =>
    rw [parameterValue_eq_first]
    exact sourced_first k terminal name

theorem sourced_iff : Sourced k terminal name v ↔ v = parameterValue k terminal name := by
  refine ⟨fun h => h.unique (sourced_parameterValue k terminal name), ?_⟩
  rintro rfl
  exact sourced_parameterValue k terminal name

/-- What is lower in order than the source of a value does not matter for it. -/
theorem Sourced.unaffected {k' : Console} {terminal' : Option (Nat × Nat)} {name : String} {a : Source}
    (offers : a.offer k terminal name = some v)
    (first : ∀ b : Source, b.rank < a.rank → b.offer k terminal name = none)
    (same : ∀ b : Source, b.rank ≤ a.rank → b.offer k' terminal' name = b.offer k terminal name) :
    Sourced k' terminal' (some name) v :=
  .offered a ((same a le_rfl).trans offers) fun b before =>
    (same b before.le).trans (first b before)

/-! ## Calls -/

/-- The calls that give parameters their values, from an index on, and what the engine says to the
last one if it does not take the value. -/
inductive Binds (k : Console) (terminal : Option (Nat × Nat)) :
    Nat → List (Option String) → List (Nat × Sql.Value) → Option String → Prop where
  | done {i : Nat} : Binds k terminal i [] [] none
  | refused {i : Nat} {name : Option String} {rest : List (Option String)} {v : Sql.Value} {e : String}
      (value : Sourced k terminal name v) (refuses : valueFailure? v = some e) :
      Binds k terminal i (name :: rest) [(i, v)] (some e)
  | bound {i : Nat} {name : Option String} {rest : List (Option String)} {v : Sql.Value}
      {calls : List (Nat × Sql.Value)} {failure : Option String}
      (value : Sourced k terminal name v) (takes : valueFailure? v = none)
      (more : Binds k terminal (i + 1) rest calls failure) :
      Binds k terminal i (name :: rest) ((i, v) :: calls) failure

namespace Binds

variable {i : Nat} {names : List (Option String)} {calls : List (Nat × Sql.Value)}
  {failure : Option String}

/-- No index is left out, and none comes twice. -/
theorem indices (h : Binds k terminal i names calls failure) :
    calls.map (·.1) = List.range' i calls.length := by
  induction h with
  | done => rfl
  | refused => rfl
  | bound _ _ _ ih => rw [List.map_cons, ih, List.length_cons, List.range'_succ]

/-- A call is at the place of its index. -/
theorem getElem?_calls (h : Binds k terminal i names calls failure) {j : Nat} {v : Sql.Value}
    (call : (j, v) ∈ calls) : calls[j - i]? = some (j, v) := by
  obtain ⟨n, there⟩ := List.mem_iff_getElem?.1 call
  have index : (List.range' i calls.length)[n]? = some j := by
    rw [← h.indices, List.getElem?_map, there]
    rfl
  obtain ⟨bound, rfl⟩ := List.getElem?_eq_some_iff.1 index
  simpa using there

/-- Each call gives the parameter at its index what its name stands for. -/
theorem sourced (h : Binds k terminal i names calls failure) {j : Nat} {v : Sql.Value}
    (call : (j, v) ∈ calls) :
    i ≤ j ∧ ∃ name, names[j - i]? = some name ∧ Sourced k terminal name v := by
  induction h with
  | done => cases call
  | @refused i name rest w e value =>
    cases List.mem_singleton.1 call
    exact ⟨le_rfl, name, by simp, value⟩
  | @bound i name rest w calls failure value _ _ ih =>
    rcases List.mem_cons.1 call with same | later
    · cases same
      exact ⟨le_rfl, name, by simp, value⟩
    · obtain ⟨after, name', there, value'⟩ := ih later
      refine ⟨by omega, name', ?_, value'⟩
      rwa [show j - i = (j - (i + 1)) + 1 by omega, List.getElem?_cons_succ]

/-- Without a failure, all parameters have got their values. -/
theorem values (h : Binds k terminal i names calls failure) (complete : failure = none) :
    calls.map (·.2) = names.map (parameterValue k terminal) := by
  induction h with
  | done => rfl
  | refused => cases complete
  | bound value _ _ ih => rw [List.map_cons, List.map_cons, ih complete, sourced_iff.1 value]

theorem failure_eq (h : Binds k terminal i names calls failure) :
    failure = bindFailure? (names.map (parameterValue k terminal)) := by
  induction h with
  | done => rfl
  | refused value refuses => simp [bindFailure?, ← sourced_iff.1 value, refuses]
  | bound value takes _ ih => simpa [bindFailure?, ← sourced_iff.1 value, takes] using ih

/-- A failure is what the engine says to the last call. -/
theorem last {e : String} (h : Binds k terminal i names calls failure) (failed : failure = some e) :
    ∃ before j v, calls = before ++ [(j, v)] ∧ valueFailure? v = some e := by
  induction h with
  | done => cases failed
  | @refused i _ _ v _ _ refuses =>
    cases failed
    exact ⟨[], i, v, rfl, refuses⟩
  | @bound i _ _ w _ _ _ _ _ ih =>
    obtain ⟨before, j, v, rfl, refuses⟩ := ih failed
    exact ⟨(i, w) :: before, j, v, rfl, refuses⟩

end Binds

theorem exists_binds (k : Console) (terminal : Option (Nat × Nat)) (names : List (Option String)) :
    ∀ i, ∃ calls, Binds k terminal i names calls
      (bindFailure? (names.map (parameterValue k terminal))) := by
  induction names with
  | nil => exact fun i => ⟨[], .done⟩
  | cons name rest ih =>
    intro i
    have value := sourced_parameterValue k terminal name
    cases refuses : valueFailure? (parameterValue k terminal name) with
    | some e => exact ⟨_, by simpa [bindFailure?, refuses] using .refused value refuses⟩
    | none =>
      obtain ⟨calls, more⟩ := ih (i + 1)
      exact ⟨_, by simpa [bindFailure?, refuses] using .bound value refuses more⟩

/-- The engine does not take a text that is too long, and takes all else. -/
theorem valueFailure?_eq_some {e : String} (h : valueFailure? v = some e) :
    ∃ text, v = .text text ∧ maxTextSize < Text.Utf8.size text.toList := by
  unfold valueFailure? at h
  split at h
  case h_1 text =>
    refine ⟨text, rfl, ?_⟩
    dsimp only at h
    split at h
    case isTrue untold => exact lt_of_lt_of_le (by decide) untold
    case isFalse =>
      split at h
      case isTrue long => exact long
      case isFalse => cases h
  case h_2 => cases h

end Query

namespace Session

open Run Query

/-- The calls for the parameters of a statement, and what the engine says to the last one. -/
def BindsAll (s : Session) (p : Sql.Prepared) : List (Nat × Sql.Value) → Option String → Prop :=
  Binds s.console (s.host.terminalSize s.world) 1 p.parameters

/-- What becomes of a statement with these calls for its parameters. -/
def afterCalls (p : Sql.Prepared) (calls : List (Nat × Sql.Value)) : Option String → Run Output
  | some e => failEngine e
  | none => do
    clearResults
    collectRows p (calls.map (·.2))
    storeFirstRow
    get fun s => summarize p.readOnly s.world.queryTime s.results

/-- A statement that may run is run with the values that its parameters have got. -/
theorem BindsAll.runQuery {s : Session} {p : Sql.Prepared} {calls : List (Nat × Sql.Value)}
    {failure : Option String} (h : s.BindsAll p calls failure) {text : String}
    (submitted : Submitted s text (some p)) :
    Run.runQuery text s = afterCalls p calls failure s := by
  have told : binding s p = failure := (Binds.failure_eq h).symm
  rw [runQuery_submitted submitted]
  dsimp only
  rw [runPrepared_submitted submitted, bind_def]
  cases failure with
  | some e =>
    rw [bindParameters_fails told]
    rfl
  | none =>
    have given : calls.map (·.2) = parameterValues s p := Binds.values h rfl
    rw [bindParameters_bound told, afterCalls, given]

/-- **Each parameter gets its value once, from the highest source that has one.** Whatever the context
and the terminal are, and whatever parameters a statement has, with or without names:

* the calls are for the indices from 1 on, each of them once, up to the number of parameters or to the
  first text that is longer than the engine takes;
* each call is for the parameter at its index and gives it what its name stands for (`Sourced`): null
  without a name, and else what the first of the sources has for it, or null if none has anything;
* the query fails with what the engine says to a text that is too long, before it clears the results,
  and otherwise runs with these values, which its parameters come to by their indices;
* sources that are lower than the one a value comes from have no influence on it. -/
theorem parameters_bound_by_precedence (s : Session) (p : Sql.Prepared) :
    (∃ calls failure, s.BindsAll p calls failure) ∧
    (∀ calls failure, s.BindsAll p calls failure →
      calls.map (·.1) = List.range' 1 calls.length ∧
      (failure = none → calls.length = p.parameters.length) ∧
      (∀ e, failure = some e → ∃ before i text, calls = before ++ [(i, .text text)] ∧
        maxTextSize < Text.Utf8.size text.toList) ∧
      (∀ i v, (i, v) ∈ calls → ∃ name, p.parameters[i - 1]? = some name ∧
        Sourced s.console (s.host.terminalSize s.world) name v ∧
        ∀ columns totals, (Sql.Term.parameter i).eval ⟨calls.map (·.2), columns, totals⟩ = .ok v) ∧
      ∀ text, Submitted s text (some p) → runQuery text s = afterCalls p calls failure s) ∧
    ∀ (k k' : Console) (terminal terminal' : Option (Nat × Nat)) (name : String) (a : Source)
        (v : Sql.Value),
      a.offer k terminal name = some v →
      (∀ b : Source, b.rank < a.rank → b.offer k terminal name = none) →
      (∀ b : Source, b.rank ≤ a.rank → b.offer k' terminal' name = b.offer k terminal name) →
      parameterValue k' terminal' (some name) = v := by
  refine ⟨?_, fun calls failure binds => ⟨Binds.indices binds, ?_, ?_, ?_, ?_⟩, ?_⟩
  · obtain ⟨calls, binds⟩ := exists_binds s.console (s.host.terminalSize s.world) p.parameters 1
    exact ⟨calls, _, binds⟩
  · intro complete
    simpa using congrArg List.length (Binds.values binds complete)
  · intro e failed
    obtain ⟨before, i, v, rfl, refuses⟩ := Binds.last binds failed
    obtain ⟨text, rfl, long⟩ := valueFailure?_eq_some refuses
    exact ⟨before, i, text, rfl, long⟩
  · intro i v call
    obtain ⟨-, name, there, value⟩ := Binds.sourced binds call
    refine ⟨name, there, value, fun columns totals => ?_⟩
    have stored : (calls.map (·.2))[i - 1]? = some v := by
      rw [List.getElem?_map, Binds.getElem?_calls binds call]
      rfl
    rw [Sql.Term.eval, List.getD_eq_getElem?_getD, stored]
    rfl
  · exact fun text submitted => binds.runQuery submitted
  · intro k k' terminal terminal' name a v offers first same
    exact (sourced_iff.1 (Sourced.unaffected offers first same)).symm

/-- A session with something in every source, some of it under names that a higher source has too. -/
def withEverySource : Session where
  console :=
    { context :=
        { scopes := ⟨Dict.ofList [("LINES", "local"), ("who", "local")], []⟩
          globals := Dict.ofList [("who", "global"), ("shell", "global")]
          overrides := Dict.ofList [("@who", "override")]
          lineValues := [⟨"ok", .boolean false⟩, ⟨"ok", .text "later"⟩] }
      world := { environment := Dict.ofList [("shell", "environment"), ("home", "environment")] } }
  host := { kind := .terminal (some (24, 80)) }

set_option maxRecDepth 8000 in
/-- Each source gives what no higher one has. A number in a name leaves the parameters before it without
names, and they are null, as is a variable that there is not. -/
theorem ten_parameters_bound :
    let s := withEverySource
    let text := "SELECT $LINES, $who, $shell, $home, :ok, @who, ?9, $x"
    ∃ p calls, Submitted s text (some p) ∧ s.BindsAll p calls none ∧
      calls.map (·.1) = [1, 2, 3, 4, 5, 6, 7, 8, 9, 10] ∧
      calls.map (·.2.cell?) = [some "24", some "local", some "global", some "environment", some "0",
        some "override", none, none, none, none] ∧
      runQuery text s = afterCalls p calls none s := by
  intro s text
  let names := ["$LINES", "$who", "$shell", "$home", ":ok", "@who"].map some ++
    [none, none, some "?9", some "$x"]
  have prepared : (Sql.prepare s.database (expandAlias (Text.trim text))).toOption.map
      (·.map (·.parameters)) = some (some names) := by decide +kernel
  obtain ⟨p, found, named⟩ : ∃ p, Sql.prepare s.database (expandAlias (Text.trim text)) = .ok (some p) ∧
      p.parameters = names := by
    rcases h : Sql.prepare s.database (expandAlias (Text.trim text)) with e | (_ | p)
    · rw [h] at prepared; cases prepared
    · rw [h] at prepared; cases prepared
    · rw [h] at prepared
      exact ⟨p, rfl, Option.some.inj (Option.some.inj prepared)⟩
  have submitted : Submitted s text (some p) :=
    ⟨by decide, by decide, found, fun _ _ readOnly => by cases readOnly⟩
  obtain ⟨⟨calls, failure, binds⟩, every, -⟩ := parameters_bound_by_precedence s p
  obtain ⟨indices, complete, -, -, runs⟩ := every calls failure binds
  have takes : failure = none := by
    rw [Binds.failure_eq binds, named]
    decide +kernel
  subst takes
  have values := Binds.values binds rfl
  rw [complete rfl, named] at indices
  rw [named] at values
  refine ⟨p, calls, submitted, binds, indices, ?_, runs text submitted⟩
  have cells := congrArg (List.map Sql.Value.cell?) values
  rw [List.map_map] at cells
  refine cells.trans ?_
  decide +kernel

end Session

end LogConsole
