import LogConsole.Proofs.Session.Visits

/-!
# LogConsole.Proofs.Session.Stdin

Standard input is a script once.

* `Errand`     — what a session is asked for from outside: a line, a batch, a script, the scripts of
  a name; and whatever else happens to it that leaves the latch alone;
* `visitsOf`   — the names that are resolved and the scripts that are executed in errands, one after
  the other, whether or not they fail;
* `Ended`      — the visits are an account, and the latch is as they leave it;
* `stdin_executed_once` — the result.

A script that is standard input holds the latch while it runs: a name for standard input in it
fails, and so does every one after it. An errand that does not come to an end is the last, and its
visits count as far as it goes.
-/

namespace LogConsole

namespace Session

open Run
open Resolver (isStdin)

inductive Errand where
  | line (text : String)
  /-- A line without a refresh after it. -/
  | dispatched (text : String)
  | command (text : String)
  | query (text : String)
  | file (invocation : String) (multiline : Bool)
  | reader (source dir : String) (bytes : List UInt8) (multiline : Bool)
  | batch (deliver : BatchEntry → World → World) (commands : List String)
  /-- The candidates for a name are asked for, and none of them is executed. -/
  | lookup (name : String)
  | elsewhere (f : Session → Session)
      (latch : ∀ s, (f s).resolver.stdinTaken = s.resolver.stdinTaken)

/-- The session after an entry of a batch that has ended and has been delivered. -/
def afterEntry (fuel : Nat) (deliver : BatchEntry → World → World) (index : Nat)
    (command : String) (s : Session) : Option Session :=
  (executeEntry fuel index command s).map fun entry => entry.session.changeWorld (deliver entry)

/-- The visits of the entries of a batch, from one index on. -/
def batchVisits (fuel : Nat) (deliver : BatchEntry → World → World) (index : Nat) :
    List String → Session → List Visit
  | [], _ => []
  | command :: rest, s =>
    lineVisits (visits fuel) command (s.entryStart index command)
      ++ (afterEntry fuel deliver index command s).elim []
        (batchVisits fuel deliver (index + 1) rest)

namespace Errand

def run (fuel : Nat) (e : Errand) (s : Session) : Option Session :=
  match e with
  | .line text => (executeAny fuel text s).map (·.2)
  | .dispatched text => (dispatch fuel text s).map (·.2)
  | .command text => (executeCommand fuel text s).map (·.2)
  | .query text => (executeQuery text s).map (·.2)
  | .file invocation multiline => (executeScriptFile fuel invocation multiline s).map (·.2)
  | .reader source dir bytes multiline =>
    (executeReader fuel source dir bytes multiline s).map (·.2)
  | .batch deliver commands => (executeBatch fuel deliver commands s).map (·.2)
  | .lookup name => (resolveScript name s).map (·.2)
  | .elsewhere f _ => some (f s)

def visits (fuel : Nat) (e : Errand) (s : Session) : List Visit :=
  match e with
  | .line text => lineVisits (Run.visits fuel) text s
  | .dispatched text => lineVisits (Run.visits fuel) text s
  | .command text => commandVisits (dispatchMode fuel) (Run.visits fuel) text s
  | .query _ => []
  | .file invocation multiline =>
    fileVisits (dispatchMode fuel) (Run.visits fuel) invocation multiline s
  | .reader source dir bytes multiline =>
    scriptVisits (dispatchMode fuel) (Run.visits fuel) source bytes multiline (s.enterScript dir)
  | .batch deliver commands => batchVisits fuel deliver 0 commands s
  | .lookup name => [.resolved name s]
  | .elsewhere _ _ => []

end Errand

def runErrands (fuel : Nat) : List Errand → Session → Option Session
  | [], s => some s
  | e :: rest, s => (e.run fuel s).bind (runErrands fuel rest)

def visitsOf (fuel : Nat) : List Errand → Session → List Visit
  | [], _ => []
  | e :: rest, s => e.visits fuel s ++ (e.run fuel s).elim [] (visitsOf fuel rest)

/-! ## Accounts of errands -/

/-- The visits are an account from the latch of a session on, and the latch of the session that
comes out of them, if one does, is as they leave it. -/
def Ended (vs : List Visit) (out : Option Session) (s : Session) : Prop :=
  ∃ taken left, Account s.resolver.stdinTaken 0 vs taken left ∧
    ∀ t, out = some t → t.resolver.stdinTaken = taken

variable {s : Session} {fuel : Nat}

theorem Ended.of_tracks {α : Type} {x : Run α} {vs : List Visit} {m : Except Message α → Nat}
    (tracks : Tracks 0 x vs m s) : Ended vs ((x s).map (·.2)) s := by
  obtain ⟨taken, left, account, ended⟩ := tracks
  refine ⟨taken, left, account, fun t h => ?_⟩
  obtain ⟨⟨r, t⟩, ran, rfl⟩ := Option.map_eq_some_iff.1 h
  exact (ended r t ran).1

theorem Ended.seq {vs : List Visit} {out : Option Session} {next : Session → List Visit}
    {after : Session → Option Session} (first : Ended vs out s)
    (second : ∀ t, out = some t → Ended (next t) (after t) t) :
    Ended (vs ++ out.elim [] next) (out.bind after) s := by
  obtain ⟨taken, left, account, ended⟩ := first
  cases out with
  | none => exact ⟨taken, left, by rwa [Option.elim_none, List.append_nil], by simp⟩
  | some t =>
    obtain ⟨taken', left', account', ended'⟩ := second t rfl
    rw [ended t rfl] at account'
    have later := account'.frame left
    rw [Nat.zero_add] at later
    exact ⟨taken', _, account.append later, ended'⟩

theorem entryStart_resolver (index : Nat) (command : String) (s : Session) :
    (s.entryStart index command).resolver = s.resolver := by
  obtain ⟨w, hw⟩ := waitForCaptures_eq s
  rw [entryStart, hw]
  rfl

theorem ended_entry (fuel : Nat) (deliver : BatchEntry → World → World) (index : Nat)
    (command : String) (s : Session) :
    Ended (lineVisits (visits fuel) command (s.entryStart index command))
      (afterEntry fuel deliver index command s) s := by
  obtain ⟨taken, left, account, ended⟩ :=
    tracks_visits fuel (Mode.split command).1 (Mode.split command).2 (s.entryStart index command)
  rw [entryStart_resolver] at account
  refine ⟨taken, left, account, fun t h => ?_⟩
  obtain ⟨entry, run, rfl⟩ := Option.map_eq_some_iff.1 h
  obtain ⟨r, t, ran, -, -, last⟩ := executeEntry_ended run
  rw [last]
  exact (ended r t ran).1

theorem executeBatchFrom_cons (fuel : Nat) (deliver : BatchEntry → World → World) (index : Nat)
    (command : String) (rest : List String) (s : Session) :
    (executeBatchFrom fuel deliver index (command :: rest) s).map (·.2)
      = (afterEntry fuel deliver index command s).bind fun t =>
          (executeBatchFrom fuel deliver (index + 1) rest t).map (·.2) := by
  rw [executeBatchFrom, afterEntry]
  cases executeEntry fuel index command s with
  | none => rfl
  | some entry =>
    rw [Option.map_some, Option.bind_some]
    dsimp only
    split
    case h_1 none => rw [none]
    case h_2 entries t ran => rw [ran]; rfl

theorem ended_batch (fuel : Nat) (deliver : BatchEntry → World → World) (commands : List String) :
    ∀ index s, Ended (batchVisits fuel deliver index commands s)
      ((executeBatchFrom fuel deliver index commands s).map (·.2)) s := by
  induction commands with
  | nil =>
    intro index s
    exact ⟨_, _, .nil, fun t h => by cases h; rfl⟩
  | cons command rest ih =>
    intro index s
    rw [executeBatchFrom_cons]
    exact (ended_entry fuel deliver index command s).seq fun t _ => ih (index + 1) t

theorem ended_errand (fuel : Nat) (e : Errand) (s : Session) :
    Ended (e.visits fuel s) (e.run fuel s) s := by
  have again := tracks_visits fuel
  unfold Errand.visits Errand.run
  cases e with
  | line text => exact .of_tracks (x := executeAny fuel text) (tracks_executeWith again text s)
  | dispatched text => exact .of_tracks (x := dispatch fuel text) (tracks_dispatchWith again text s)
  | command text =>
    exact .of_tracks (x := executeCommand fuel text) (tracks_runCommand again text s)
  | query text =>
    have still : Ends SameResolver (runQuery text) s := ends_runQuery queries_sameResolver text
    have query : Tracks 0 (runQuery text) [] nothing s := .still still
    have run : Tracks 0 (executeQuery text) [] nothing s := query.map (f := Output.summary)
    exact .of_tracks (x := executeQuery text) run
  | file invocation multiline =>
    exact .of_tracks (x := executeScriptFile fuel invocation multiline)
      (tracks_executeFile again invocation multiline s)
  | reader source dir bytes multiline =>
    exact .of_tracks (x := executeReader fuel source dir bytes multiline)
      (tracks_executeScript again source dir bytes multiline s)
  | batch deliver commands => exact ended_batch fuel deliver commands 0 s
  | lookup name => exact .of_tracks (x := resolveScript name) (tracks_resolveScript name s)
  | elsewhere f latch => exact ⟨_, _, .nil, fun t h => by cases h; exact latch s⟩

theorem ended_errands (fuel : Nat) (errands : List Errand) :
    ∀ s, Ended (visitsOf fuel errands s) (runErrands fuel errands s) s := by
  induction errands with
  | nil => exact fun s => ⟨_, _, .nil, fun t h => by cases h; rfl⟩
  | cons e rest ih => exact fun s => (ended_errand fuel e s).seq fun t _ => ih t

theorem resolution_of_script {name : String} (script : isStdin name = false) :
    (s.resolution name).2 = s.resolver ∧ stdinsOf (s.resolution name).1 = 0 := by
  have latch := Resolver.latch_resolve s.resolver s.context s.disk name
  have given := Resolver.stdins_resolve s.resolver s.context s.disk name
  rw [script, Bool.or_false] at latch
  rw [script, Bool.false_and] at given
  exact ⟨latch, given⟩

/-! ## The result -/

/-- **Standard input is executed at most once.** Whatever a session is asked for, in whatever order,
however deep lines are nested in it and whether or not it fails: among all candidates that are given
out for names on the way standard input stands once at most, and it is executed no more often than
it is given out. A name is resolved with the latch set if it was set before or a name for standard
input has been resolved before; such a name is then refused, and else it stands for standard input.
After it every name for standard input is refused. Any other name leaves the resolver as it is and
stands for files only. -/
theorem stdin_executed_once (fuel : Nat) (errands : List Errand) (s : Session) :
    let vs := visitsOf fuel errands s
    (vs.map Visit.given).sum ≤ 1 ∧ vs.countP Visit.runsStdin ≤ (vs.map Visit.given).sum ∧
    (∀ t, runErrands fuel errands s = some t →
      t.resolver.stdinTaken = (s.resolver.stdinTaken || vs.any Visit.namesStdin)) ∧
    ∀ before name u after, vs = before ++ .resolved name u :: after →
      u.resolver.stdinTaken = (s.resolver.stdinTaken || before.any Visit.namesStdin) ∧
      (isStdin name = true → u.resolver.stdinTaken = false →
        (u.resolution name).1 = .ok [⟨.stdin, "", ""⟩]) ∧
      (isStdin name = true → ∀ other v, .resolved other v ∈ after → isStdin other = true →
        (v.resolution other).1
          = .error (v.context.error .stdinAlreadyConsumed "stdin has already been consumed")) ∧
      (isStdin name = false →
        (u.resolution name).2 = u.resolver ∧ stdinsOf (u.resolution name).1 = 0) := by
  intro vs
  obtain ⟨taken, left, (account : Account _ 0 vs taken left), ended⟩ :=
    ended_errands fuel errands s
  refine ⟨?_, ?_, ?_, ?_⟩
  · exact account.given_le.trans (by split <;> decide)
  · have runs := account.runs_le
    omega
  · intro t h
    rw [ended t h, account.taken_eq]
  · intro before name u after there
    refine ⟨account.finds there, ?_, ?_, resolution_of_script⟩
    · intro stdin free
      rw [resolution, Resolver.resolve_stdin_free stdin free]
    · intro stdin other v later stdin'
      rw [resolution, Resolver.resolve_stdin_taken stdin' (account.set_after there stdin later)]

set_option maxRecDepth 8000 in
/-- A script that is standard input asks for standard input: it is refused there, the script fails,
and it is refused again in the next line. -/
example :
    (visitsOf 4 [.line "|-", .line "|/dev/stdin"]
        { console := { world := { stdin := Text.Utf8.encode "|-\n" } } }).map
      (fun v => (v.namesStdin, v.given, v.runsStdin))
      = [(true, 1, false), (false, 0, true), (true, 0, false), (true, 0, false)] := by
  decide +kernel

end Session

end LogConsole
