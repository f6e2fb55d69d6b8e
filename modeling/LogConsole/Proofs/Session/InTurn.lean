import LogConsole.Proofs.Script.Index
import LogConsole.Proofs.Session.Frames

/-!
# LogConsole.Proofs.Session.InTurn

The scripts of one name, one after the other.

* `Run.InTurn`        — scripts that run in turn, each in the session that the one before it has left
  and all of them in one scope, up to the first failure; the answer is that of the last one;
* `executeAll_iff`    — this is how the candidates for a name are run;
* `executeFile_iff`   — an invocation by a name in the index runs what the index holds for it;
* `scripts_run_in_path_order` — the result, with the order of what the index holds;
* `stem_of_stdin_is_not_run`  — a script file may have the name of standard input, and is not run by it.
-/

namespace LogConsole

namespace Resolver

variable {d : Disk} {r : Resolver} {name p : String}

/-- A component of a name has no slash in it. -/
theorem slash_not_mem_components {c : String} (h : c ∈ Path.components p) : '/' ∉ c.toList := by
  have part : c ∈ Path.segments p := by
    unfold Path.components at h
    split at h
    case h_1 rest parts =>
      rw [parts]
      rcases List.mem_cons.1 h with rfl | h
      · exact List.mem_cons_self
      · exact List.mem_cons_of_mem _ (List.mem_of_mem_filter h)
    case h_2 => exact List.mem_of_mem_filter h
  exact Path.slash_not_mem_segmentsFrom List.not_mem_nil c part

/-- A name that a file has as a script has no slash in it. -/
theorem slash_not_mem_stem (h : Path.stem? p = some name) : '/' ∉ name.toList := by
  obtain ⟨s, hs, rfl⟩ := Option.map_eq_some_iff.1 h
  have single : '/' ∉ s.toList := by
    unfold Path.fileName? at hs
    split at hs
    case h_1 last final =>
      obtain ⟨-, h⟩ := Option.ite_none_left_eq_some.1 hs
      cases h
      exact slash_not_mem_components (List.mem_of_getLast? final)
    case h_2 => cases hs
  split
  case h_1 before after cut =>
    unfold Path.splitDot at cut
    dsimp only at cut
    split at cut
    case h_3 dot before' dropped =>
      cases cut
      intro slash
      refine single ?_
      have kept : '/' ∈ s.toList.reverse.dropWhile (· != '.') := by
        rw [dropped]
        exact List.mem_cons_of_mem _ (by simpa using slash)
      simpa using (List.dropWhile_sublist _).subset kept
    all_goals cases cut
  case h_2 => exact single

theorem resolve_listed {ctx : Context} {found : List Candidate} (script : isStdin name = false)
    (listed : Dict.find? name (r.index d) = some found) : r.resolve ctx d name = (.ok found, r) := by
  obtain ⟨nonempty, rfl⟩ := find?_index_eq_some listed
  exact resolve_indexed script nonempty

/-- Of the names of standard input, a script file can have one. -/
theorem isStdin_of_listed {found : List Candidate}
    (listed : Dict.find? name (r.index d) = some found) (dash : name ≠ "-") :
    isStdin name = false := by
  obtain ⟨nonempty, -⟩ := find?_index_eq_some listed
  obtain ⟨p, hp⟩ := List.exists_mem_of_ne_nil _ nonempty
  have named : scriptName? p = some name := by
    simpa using (List.mem_filter.1 hp).2
  have flat := slash_not_mem_stem (scriptName?_eq_some_iff.1 named).2
  have device : name ≠ "/dev/stdin" := by
    rintro rfl
    exact flat (by decide)
  simp [isStdin, dash, device]

end Resolver

namespace Run

open Session Script

/-- Scripts run one after the other, each in the session that the one before it has left, and all of
them in one scope, which stands on those of their `callers`. They end at the first failure, or with the
answer of the last one. -/
inductive InTurn (again : Mode → String → Run Output) (multiline : Bool)
    (callers : List (Dict String)) :
    String → List Candidate → Session → Except Message String → Session → Prop where
  | done {answer : String} {s : Session} (scope : s.context.scopes.below = callers) :
      InTurn again multiline callers answer [] s (.ok answer) s
  | stopped {answer : String} {c : Candidate} {rest : List Candidate} {s t : Session} {m : Message}
      (scope : s.context.scopes.below = callers)
      (failed : executeCandidate again multiline c s = some (.error m, t)) :
      InTurn again multiline callers answer (c :: rest) s (.error m) t
  | next {answer given : String} {c : Candidate} {rest : List Candidate} {s t u : Session}
      {r : Except Message String} (scope : s.context.scopes.below = callers)
      (ran : executeCandidate again multiline c s = some (.ok given, t))
      (more : InTurn again multiline callers given rest t r u) :
      InTurn again multiline callers answer (c :: rest) s r u

variable {again : Mode → String → Run Output} {multiline : Bool} {callers : List (Dict String)}
  {answer : String} {found : List Candidate} {s t : Session} {r : Except Message String}

/-- The answer is that of the last script. -/
theorem InTurn.last (h : InTurn again multiline callers answer found s r t) {given : String}
    (ok : r = .ok given) : found = [] ∧ given = answer ∨
      ∃ c u, found.getLast? = some c ∧ executeCandidate again multiline c u = some (.ok given, t) := by
  induction h with
  | done =>
    cases ok
    exact .inl ⟨rfl, rfl⟩
  | stopped => cases ok
  | @next _ given' c rest s t _ _ scope ran more ih =>
    right
    rcases ih ok with ⟨rfl, rfl⟩ | ⟨c', u, last, ran'⟩
    · cases more
      exact ⟨c, s, rfl, ran⟩
    · exact ⟨c', u, by rw [List.getLast?_cons, last]; rfl, ran'⟩

theorem executeAll_iff (fuel : Nat) :
    executeAll (dispatchMode fuel) multiline answer found s = some (r, t) ↔
      InTurn (dispatchMode fuel) multiline s.context.scopes.below answer found s r t := by
  induction found generalizing answer s with
  | nil =>
    constructor
    · intro h
      cases h
      exact .done rfl
    · intro h
      cases h
      rfl
  | cons c rest ih =>
    have below {given : Except Message String} {u : Session}
        (ran : executeCandidate (dispatchMode fuel) multiline c s = some (given, u)) :
        u.context.scopes.below = s.context.scopes.below :=
      (byActs_executeCandidate (dispatchMode_byActs fuel) multiline c given u ran).kept.scopes
    rw [executeAll, bind_def]
    constructor
    · intro h
      split at h
      case h_1 => cases h
      case h_2 u m failed =>
        cases h
        exact .stopped rfl failed
      case h_3 u given ran =>
        refine .next rfl ran ?_
        rw [← below ran]
        exact ih.1 h
    · intro h
      cases h with
      | stopped _ failed => rw [failed]
      | next _ ran more =>
        rw [ran]
        rw [← below ran] at more
        exact ih.2 more

theorem resolveScript_listed {name : String} (script : Resolver.isStdin name = false)
    (listed : Dict.find? name (s.resolver.index s.disk) = some found) :
    resolveScript name s = some (.ok found, s) := by
  rw [resolveScript, Resolver.resolve_listed script listed]

/-- An invocation by a name in the index runs what the index holds for it, in a scope of its own. -/
theorem executeFile_iff (fuel : Nat) {invocation name : String} {args : List String}
    (words : splitExpanded s.console.lookup invocation = .ok (name :: args))
    (listed : Dict.find? name (s.resolver.index s.disk) = some found) (dash : name ≠ "-") :
    executeFile (dispatchMode fuel) invocation multiline s = some (r, t) ↔
      ∃ u, InTurn (dispatchMode fuel) multiline s.context.scopes.toList "" found
          (s.changeContext (·.pushScope (scriptVariables (name :: args)))) r u ∧
        t = u.changeContext Context.leaveScope := by
  let inner := s.changeContext (·.pushScope (scriptVariables (name :: args)))
  have resolved : resolveScript name inner = some (.ok found, inner) :=
    resolveScript_listed (Resolver.isStdin_of_listed listed dash) listed
  have starts : executeFile (dispatchMode fuel) invocation multiline s
      = (executeAll (dispatchMode fuel) multiline "" found inner).map
          fun ended => (ended.1, ended.2.changeContext Context.leaveScope) := by
    have runs : executeFile (dispatchMode fuel) invocation multiline s
        = ensuring (resolveScript name >>= executeAll (dispatchMode fuel) multiline "")
            (Session.changeContext Context.leaveScope) inner := by
      simp only [executeFile, words]
      rfl
    rw [runs, ensuring, bind_def, resolved]
    dsimp only
    cases executeAll (dispatchMode fuel) multiline "" found inner <;> rfl
  rw [starts, Option.map_eq_some_iff]
  constructor
  · rintro ⟨⟨given, u⟩, ran, ended⟩
    cases ended
    exact ⟨u, (executeAll_iff fuel).1 ran, rfl⟩
  · rintro ⟨u, turns, rfl⟩
    exact ⟨(r, u), (executeAll_iff fuel).2 turns, rfl⟩

end Run

namespace Session

open Run Resolver Script

/-- However an invocation names them, these scripts are run for it: in this order, one after the other in
one scope, up to the first failure. The answer is that of the last one. -/
def RunsInTurn (s : Session) (name : String) (found : List Candidate) : Prop :=
  ∀ (fuel : Nat) (multiline : Bool) (invocation : String) (args : List String),
    splitExpanded s.console.lookup invocation = .ok (name :: args) →
    (∀ r t, executeScriptFile fuel invocation multiline s = some (r, t) ↔
      ∃ u, InTurn (dispatchMode fuel) multiline s.context.scopes.toList "" found
          (s.changeContext (·.pushScope (scriptVariables (name :: args)))) r u ∧
        t = u.changeContext Context.leaveScope) ∧
    ∀ answer t, executeScriptFile fuel invocation multiline s = some (.ok answer, t) →
      ∃ c before after, found.getLast? = some c ∧
        executeCandidate (dispatchMode fuel) multiline c before = some (.ok answer, after) ∧
        t = after.changeContext Context.leaveScope

theorem runsInTurn_of_listed {s : Session} {name : String} {found : List Candidate}
    (listed : Dict.find? name (s.resolver.index s.disk) = some found) (dash : name ≠ "-") :
    s.RunsInTurn name found := by
  intro fuel multiline invocation args words
  have runs (r : Except Message String) (t : Session) :
      executeScriptFile fuel invocation multiline s = some (r, t) ↔ _ :=
    executeFile_iff fuel words listed dash
  refine ⟨runs, fun answer t ran => ?_⟩
  obtain ⟨u, turns, left⟩ := (runs _ _).1 ran
  rcases turns.last rfl with ⟨rfl, -⟩ | ⟨c, before, last, ran⟩
  · obtain ⟨nonempty, empty⟩ := find?_index_eq_some listed
    exact absurd (List.map_eq_nil_iff.1 empty.symm) nonempty
  · exact ⟨c, before, u, last, ran, left⟩

/-- **A name stands for all scripts of that name, and they run in the order of their paths.** Whatever
directories are searched and whatever files there are (what is done to a disk keeps it a tree,
`Disk.tree_of_edits`), a visit to each directory, depth first and by the names of its entries, comes to
an end. For every name:

* the index holds what comes of one pass over the visits, in which each script that is reported goes
  to the end of those of its name;
* this is, for one search directory after the other, exactly the regular files below it, at any
  depth, with the extension of a script and that name before it, in strictly increasing order of their
  paths component by component (`Lists`), and nothing for a directory that does not exist;
* if the index holds anything for the name, and it is not `-`, the invocations of the name run just
  that, in this order. A script named `-` is hidden by standard input. -/
theorem scripts_run_in_path_order {s : Session} (tree : s.disk.Tree) (rooted : s.disk.Rooted) :
    (∃ visited : String → List String, ∀ dir, s.disk.VisitsFrom dir (visited dir)) ∧
    ∀ name,
      (∀ visited : String → List String,
        (∀ dir ∈ s.resolver.directories, s.disk.VisitsFrom dir (visited dir)) →
        Dict.find? name (s.resolver.index s.disk)
          = ((s.resolver.directories.flatMap visited).foldl (file s.disk) Dict.empty).get? name) ∧
      (∃ listed : String → List String, ∀ dir, Lists s.disk name dir (listed dir)) ∧
      (∀ listed : String → List String,
        (∀ dir ∈ s.resolver.directories, Lists s.disk name dir (listed dir)) →
        (∀ dir ∈ s.resolver.directories, s.disk.isDir dir = false → listed dir = []) ∧
        (Dict.find? name (s.resolver.index s.disk)).getD []
          = (s.resolver.directories.flatMap listed).map (Candidate.ofFile s.disk)) ∧
      ∀ found, Dict.find? name (s.resolver.index s.disk) = some found → name ≠ "-" →
        s.RunsInTurn name found := by
  refine ⟨⟨s.disk.walk, fun dir => (Disk.visitsFrom_iff tree rooted).2 rfl⟩, fun name =>
    ⟨fun visited visits => find?_index_of_visits tree rooted visits name,
      ⟨_, lists_walk tree name⟩, fun listed lists => ⟨fun dir hdir => (lists dir hdir).eq_nil, ?_⟩,
      fun found listed dash => runsInTurn_of_listed listed dash⟩⟩
  rw [find?_index, filesNamed_eq_flatMap tree lists]
  split
  case isTrue none => rw [none]; rfl
  case isFalse => rfl

/-- A search directory of each of these scripts, and below the second a text of the same name. -/
def reportsBelow : Session where
  console := { world := { disk := {
    nodes := [([], .dir), (["a"], .dir), (["a", "report.lsh"], .file 0), (["b"], .dir),
      (["b", "nested"], .dir), (["b", "nested", "report.lsh"], .file 1),
      (["b", "report.txt"], .file 1)]
    contents := [Text.Utf8.encode "/hit\n", Text.Utf8.encode "/miss\n"] } } }
  resolver := { directories := ["b", "a", "missing"] }

/-- Both are found at their depths, and are run in this order. -/
theorem nested_report_runs_first :
    let s := reportsBelow
    let found := ["b/nested/report.lsh", "a/report.lsh"].map (Candidate.ofFile s.disk)
    s.disk.Tree ∧ s.disk.Rooted ∧ Dict.find? "report" (s.resolver.index s.disk) = some found ∧
    s.RunsInTurn "report" found ∧
    (executeScriptFile 3 "report" true s).map (fun ended => ended.2.host.calls)
      = some [.search "miss", .search "hit"] := by
  intro s found
  have tree : s.disk.Tree := ⟨by decide, by decide, by decide⟩
  have rooted : s.disk.Rooted := ⟨by decide, by decide, by decide⟩
  have listed : Dict.find? "report" (s.resolver.index s.disk) = some found := by decide +kernel
  exact ⟨tree, rooted, listed,
    ((scripts_run_in_path_order tree rooted).2 "report").2.2.2 found listed (by decide),
    by decide +kernel⟩

/-- A script of the name of standard input, and something to read there. -/
def dashScript : Session where
  console := { world := {
    disk := { nodes := [([], .dir), (["s"], .dir), (["s", "-.lsh"], .file 0)]
              contents := [Text.Utf8.encode "/hit\n"] }
    stdin := Text.Utf8.encode "/miss\n" } }
  resolver := { directories := ["s"] }

/-- The index holds the script, but an invocation of its name runs standard input. -/
theorem stem_of_stdin_is_not_run :
    let s := dashScript
    let found := [Candidate.ofFile s.disk "s/-.lsh"]
    Dict.find? "-" (s.resolver.index s.disk) = some found ∧ ¬ s.RunsInTurn "-" found ∧
    (executeScriptFile 3 "-" true s).map (fun ended => ended.2.host.calls)
      = some [.search "miss"] := by
  intro s found
  have listed : Dict.find? "-" (s.resolver.index s.disk) = some found := by decide +kernel
  have ran : (executeScriptFile 3 "-" true s).map (fun ended => ended.2.host.calls)
      = some [.search "miss"] := by decide +kernel
  refine ⟨listed, fun runs => ?_, ran⟩
  obtain ⟨⟨r, t⟩, ended, calls⟩ := Option.map_eq_some_iff.1 ran
  obtain ⟨u, turns, rfl⟩ := ((runs 3 true "-" [] (by decide +kernel)).1 r t).1 ended
  have indexed : (executeAll (dispatchMode 3) true "" found
      (s.changeContext (·.pushScope (scriptVariables ["-"])))).map
        (fun ended => ended.2.host.calls) = some [.search "hit"] := by decide +kernel
  rw [(executeAll_iff 3).2 turns] at indexed
  have same : u.host.calls = [.search "hit"] := Option.some.inj indexed
  have other : u.host.calls = [.search "miss"] := calls
  rw [same] at other
  exact absurd other (by decide)

end Session

end LogConsole
