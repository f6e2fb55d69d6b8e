import LogConsole.Proofs.Session.Events
import LogConsole.Proofs.Session.ReadOnly

/-!
# LogConsole.Proofs.Session.Refreshes

When the host is refreshed.

* `refreshCalls s`  — what the host is asked for after a line that has ended in `s`;
* `Logged`          — the calls that events add to those of before. They are one refresh for each
  line that ends, made right then, and what else the host is asked for;
* `carries_logged`  — scripts ask the host for nothing between their statements;
* `logged_events`   — the calls of a payload are those of its events, however deep lines are nested
  in it;
* `refreshes_follow_lines` — the result for lines.
-/

namespace LogConsole

namespace Session

open Run Script

variable {s t u : Session} {r : Except Message String}

/-! ## Refreshes -/

/-- The calls of the refresh that comes after a line, if one does. -/
def refreshCalls (s : Session) : List HostCall :=
  if refreshes s then [.rescan, .rebuild] else []

theorem refreshes_iff (s : Session) :
    refreshes s = true ↔
      s.context.readOnly = false ∧ (s.headless = true ∨ 1 < s.context.directories.depth) := by
  simp [refreshes]

theorem refreshHost_calls (s : Session) :
    s.refreshHost.host.calls = s.host.calls ++ [.rescan, .rebuild] := by
  have rescanned : (s.host.rescan s.world).calls = s.host.calls ++ [.rescan] := rfl
  have rebuilt (h : Host) (db : Sql.Database) : (h.rebuild db).1.calls = h.calls ++ [.rebuild] := by
    unfold Host.rebuild
    dsimp only
    split <;> rfl
  simp only [refreshHost, rebuilt, rescanned, List.append_assoc, List.singleton_append]

theorem refreshAfter_calls (s : Session) :
    (refreshAfter s).host.calls = s.host.calls ++ refreshCalls s := by
  unfold refreshAfter refreshCalls
  split
  · exact refreshHost_calls s
  · exact (List.append_nil _).symm

/-! ## Calls of events -/

inductive Logged : List HostCall → List Event → List HostCall → Prop where
  | nil {calls : List HostCall} : Logged calls [] calls
  | asked {calls after : List HostCall} {es : List Event} {call : HostCall}
      (notRescan : call ≠ .rescan) (notRebuild : call ≠ .rebuild)
      (rest : Logged (calls ++ [call]) es after) : Logged calls (.asked call :: es) after
  | ended {calls after : List HostCall} {es : List Event} {u : Session}
      (now : u.host.calls = calls) (rest : Logged (calls ++ refreshCalls u) es after) :
      Logged calls (.ended u :: es) after

theorem Logged.append {calls between after : List HostCall} {es fs : List Event}
    (h : Logged calls es between) (k : Logged between fs after) :
    Logged calls (es ++ fs) after := by
  induction h with
  | nil => exact k
  | asked notRescan notRebuild _ ih => exact .asked notRescan notRebuild (ih k)
  | ended now _ ih => exact .ended now (ih k)

theorem logged_asked {made : List HostCall} (notRescan : .rescan ∉ made)
    (notRebuild : .rebuild ∉ made) :
    ∀ calls, Logged calls (made.map .asked) (calls ++ made) := by
  induction made with
  | nil =>
    intro calls
    rw [List.append_nil]
    exact .nil
  | cons call rest ih =>
    intro calls
    rw [List.mem_cons, not_or] at notRescan notRebuild
    refine .asked (Ne.symm notRescan.1) (Ne.symm notRebuild.1) ?_
    rw [List.append_cons calls call rest]
    exact ih notRescan.2 notRebuild.2 _

/-- The calls that a session has made by its end are those of before, with those of the events. -/
def Logs (s : Session) (es : List Event) (t : Session) : Prop :=
  Logged s.host.calls es t.host.calls

theorem carries_logged : Carries Logs where
  refl _ := .nil
  trans h k := h.append k
  within _ h := h
  resolver _ _ := .nil
  stdin _ _ := .nil

/-! ## What asks for nothing, and what does not refresh -/

def SameHost (s t : Session) : Prop := t.host = s.host

theorem queries_sameHost : Queries SameHost where
  refl _ := rfl
  trans h k := Eq.trans k h
  clear _ := rfl
  collect _ _ _ _ := rfl
  store _ := rfl

theorem outputs_sameHost : Outputs SameHost where
  refl _ := rfl
  trans h k := Eq.trans k h
  print _ _ _ := rfl
  screen _ := rfl
  redirect _ opened := by obtain ⟨w, rfl⟩ := openTarget_ended opened; rfl
  «export» _ _ opened := by obtain ⟨w, rfl⟩ := openTarget_ended opened; rfl

end Session

namespace Run

open Session Script

variable {α : Type} {s t : Session}

theorem Does.quiet {x : Run α} (h : Ends SameHost x s) : Does Logs x [] s := by
  intro r t hx
  have same : t.host = s.host := h r t hx
  rw [Logs, same]
  exact .nil

theorem does_runShell (line : String) :
    Does Logs (runShell line) (askedBy (runShell line) s) s := by
  intro r u h
  have made : ∃ made, u.host.calls = s.host.calls ++ made ∧ .rescan ∉ made ∧ .rebuild ∉ made := by
    obtain rfl | ⟨-, bytes, t, started, rfl⟩ := runShell_ended h
    · exact (Spared.refl u).calls
    · obtain ⟨w, rfl⟩ := startShell_ended started
      exact (captured_spared _ _ _).calls
  obtain ⟨made, calls, notRescan, notRebuild⟩ := made
  rw [Logs, askedBy, afterwards, h, calls]
  dsimp only
  rw [calls, List.drop_left]
  exact logged_asked notRescan notRebuild _

theorem does_search (pattern : String) :
    Does Logs (search pattern) [.asked (.search pattern)] s := by
  intro r t h
  cases h
  refine .asked (by simp) (by simp) ?_
  have calls := search_calls s.host s.world pattern
  exact (congrArg (Logged _ []) calls.symm).mp .nil

/-! ## Lines that dispatch lines -/

/-- A computation whose success is turned into another answer ends where it did. -/
theorem map_ended {β : Type} {x : Run α} {f : α → β} {r : Except Message β}
    (h : (x >>= fun a => pure (f a)) s = some (r, t)) : ∃ r', x s = some (r', t) := by
  rw [bind_def] at h
  split at h <;> rename_i hx <;> cases h <;> exact ⟨_, hx⟩

section Again

variable {again : Mode → String → Run Output} {log : Mode → String → Session → List Event}
  (ih : ∀ mode payload s, Does Logs (again mode payload) (log mode payload s) s)

variable (log) in
/-- A line ends in a session, and is refreshed then. -/
theorem executeWith_ended {line : String} {r : Except Message String}
    (h : executeWith again line s = some (r, t)) :
    ∃ ended u, again (Mode.split line).1 (Mode.split line).2 s = some (ended, u) ∧
      t = refreshAfter u ∧ lineEvents again log line s
        = log (Mode.split line).1 (Mode.split line).2 s ++ [Event.ended u] := by
  unfold executeWith at h
  dsimp only at h
  rw [bind_def] at h
  unfold lineEvents afterwards
  cases ran : again (Mode.split line).1 (Mode.split line).2 s with
  | none => simp [ensuring, ran] at h
  | some ended =>
    obtain ⟨r', u⟩ := ended
    refine ⟨r', u, rfl, ?_, rfl⟩
    simp only [ensuring, ran] at h
    cases r' <;> cases h <;> rfl

include ih

theorem does_executeWith (line : String) :
    Does Logs (executeWith again line) (lineEvents again log line s) s := by
  intro r t h
  obtain ⟨ended, u, ran, rfl, events⟩ := executeWith_ended log h
  rw [events, Logs, refreshAfter_calls]
  exact (ih _ _ _ _ _ ran).append (.ended rfl .nil)

theorem does_dispatchWith (line : String) :
    Does Logs (dispatchWith again line) (log (Mode.split line).1 (Mode.split line).2 s) s := by
  rw [dispatchWith_eq]
  exact (ih _ _ s).map

theorem does_eval (line : String) :
    Does Logs (eval again line) (builtinEvents again log .eval line s) s := by
  unfold builtinEvents
  cases evaluated : s.evaluated? line with
  | some text =>
    rw [Does, eval_evaluates (evaluated?_eq_some.1 evaluated)]
    exact Does.within carries_logged (f := .source _) trivial (does_executeWith ih text)
  | none =>
    have alone : ∀ text, ¬ Evaluates s line text := by
      intro text h
      rw [evaluated?_eq_some.2 h] at evaluated
      cases evaluated
    rw [Does, eval_alone alone]
    refine Does.quiet fun r t h => ?_
    rw [eval_endless_still h]
    exact rfl

theorem does_runBuiltin (b : Builtin) (line : String) (words : List String) :
    Does Logs (runBuiltin again b line words) (builtinEvents again log b line s) s := by
  cases b with
  | echo => exact .quiet (ends_echo outputs_sameHost line words)
  | eval => exact does_eval ih line
  | redirectTo => exact .quiet (ends_redirectTo outputs_sameHost line)
  | writeCsv => exact .quiet (ends_writeResults outputs_sameHost csvText line)
  | writeJson => exact .quiet (ends_writeResults outputs_sameHost jsonText line)
  | shell => exact does_runShell line
  | help =>
    have still : Ends SameHost (showHelp line) s := ends_showHelp queries_sameHost.refl line
    exact .quiet still

theorem does_runRequest (q : Request) (s : Session) :
    Does Logs (runRequest again q) (requestEvents again log q s) s := by
  cases q with
  | line text => exact does_executeWith ih text
  | dispatch text => exact does_dispatchWith ih text
  | command line => exact (ih _ _ s).map
  | query text => exact (ih _ _ s).map
  | file invocation multiline => exact does_executeFile carries_logged ih invocation multiline s
  | reader source dir bytes multiline =>
    exact does_executeScript carries_logged ih source dir bytes multiline s

theorem does_runProcedure (p : Procedure) :
    ∀ s, Does Logs (runProcedure again p) (procedureEvents again log p s) s := by
  induction p with
  | answer result => intro s r t h; cases h; exact .nil
  | look next ihn => intro s; exact ihn s.context s
  | within f inner next ihi ihn =>
    intro s r u h
    simp only [runProcedure] at h
    simp only [procedureEvents, afterwards]
    split at h
    · cases h
    · rename_i r' t ht
      rw [ht]
      obtain ⟨v, hv, rfl⟩ := within_ended ht
      exact (ihi _ r' v hv).append (ihn r' _ r u h)
  | request q next ihn =>
    intro s r u h
    simp only [runProcedure] at h
    simp only [procedureEvents, afterwards]
    split at h
    · cases h
    · rename_i r' t ht
      rw [ht]
      exact (does_runRequest ih q s r' t ht).append (ihn r' t r u h)

theorem does_runCommand (line : String) :
    Does Logs (runCommand again line) (commandEvents again log line s) s := by
  unfold commandEvents
  cases called : s.command? line with
  | none =>
    refine .quiet fun r t h => ?_
    rw [runCommand_missing_still called h]
    exact rfl
  | some c =>
    rw [Does, runCommand_found called]
    dsimp only
    cases handler : c.handler with
    | builtin b =>
      exact Does.within carries_logged (f := .help _) trivial (does_runBuiltin ih b line _)
    | procedure start =>
      exact Does.within carries_logged (f := .help _) trivial (does_runProcedure ih _ _)

theorem does_step (mode : Mode) (payload : String) :
    Does Logs (step again mode payload) (stepEvents again log mode payload s) s := by
  cases mode with
  | command => exact (does_runCommand ih payload).map
  | search => exact does_search payload
  | query => exact .quiet (ends_runQuery queries_sameHost payload)
  | script => exact (does_executeFile carries_logged ih payload true s).map

end Again

/-- The induction is on how deep lines are nested. -/
theorem logged_events (fuel : Nat) : ∀ mode payload s,
    Does Logs (dispatchMode fuel mode payload) (events fuel mode payload s) s := by
  induction fuel with
  | zero => intro mode payload s r t h; cases h
  | succ fuel ih => intro mode payload s; exact does_step ih mode payload

end Run

namespace Session

open Run

variable {s t : Session}

/-! ## The result -/

theorem executeAny_ended {fuel : Nat} {line : String} {r : Except Message String}
    (h : executeAny fuel line s = some (r, t)) :
    ∃ ended u, dispatchMode fuel (Mode.split line).1 (Mode.split line).2 s = some (ended, u) ∧
      t = refreshAfter u ∧
      Logged s.host.calls (events fuel (Mode.split line).1 (Mode.split line).2 s ++ [Event.ended u])
        t.host.calls := by
  obtain ⟨ended, u, ran, rfl, told⟩ := executeWith_ended (events fuel) h
  refine ⟨ended, u, ran, rfl, ?_⟩
  rw [← told]
  exact does_executeWith (logged_events fuel) line _ _ h

/-- The line that `eval` dispatches ends as a line that is typed does. -/
theorem dispatchMode_eval {fuel : Nat} {line text : String} {c : Command}
    {r : Except Message Output} (called : s.command? line = some c)
    (builtin : c.handler = .builtin .eval) (evaluates : Evaluates (s.enterHelp c) line text)
    (h : dispatchMode (fuel + 1) .command line s = some (r, t)) :
    ∃ ended u, dispatchMode fuel (Mode.split text).1 (Mode.split text).2
        ((s.enterHelp c).enterEval text) = some (ended, u) ∧
      t.host = (refreshAfter u).host ∧
      events (fuel + 1) .command line s
        = events fuel (Mode.split text).1 (Mode.split text).2 ((s.enterHelp c).enterEval text)
          ++ [Event.ended u] := by
  obtain ⟨answer, h⟩ := map_ended h
  rw [runCommand_found called, builtin] at h
  obtain ⟨v, hv, rfl⟩ := within_ended h
  have hv : eval (dispatchMode fuel) line (s.enterHelp c) = some (answer, v) := hv
  rw [eval_evaluates evaluates] at hv
  obtain ⟨w, hw, rfl⟩ := within_ended hv
  obtain ⟨ended, u, ran, rfl, told⟩ := executeWith_ended (events fuel) hw
  refine ⟨ended, u, ran, rfl, ?_⟩
  rw [events, stepEvents, commandEvents, called]
  simp only [builtin, builtinEvents, evaluated?_eq_some.2 evaluates]
  exact told

/-- **The host is refreshed after lines, and at no other time.** Whatever a line does, with success
or not and however deep lines are nested in it, the calls to the host that it makes are those of
its events in order: what else it asks the host for, and for each line that ends, be it the line
itself or one that `eval` or a command from outside has run, right then a call to read the inputs
and one to bring the tables up to date, if the session may write and is headless or in a second
directory at that moment, and else none. -/
theorem refreshes_follow_lines (fuel : Nat) :
    (∀ line s r t, executeAny fuel line s = some (r, t) →
      ∃ ended u, dispatchMode fuel (Mode.split line).1 (Mode.split line).2 s = some (ended, u) ∧
        t = refreshAfter u ∧ t.host.calls = u.host.calls ++ refreshCalls u ∧
        Logged s.host.calls
          (events fuel (Mode.split line).1 (Mode.split line).2 s ++ [Event.ended u])
          t.host.calls) ∧
    (∀ line text (s : Session) c r t, s.command? line = some c → c.handler = .builtin .eval →
      Evaluates (s.enterHelp c) line text →
      dispatchMode (fuel + 1) .command line s = some (r, t) →
      ∃ ended u, dispatchMode fuel (Mode.split text).1 (Mode.split text).2
          ((s.enterHelp c).enterEval text) = some (ended, u) ∧
        t.host.calls = u.host.calls ++ refreshCalls u ∧
        events (fuel + 1) .command line s
          = events fuel (Mode.split text).1 (Mode.split text).2 ((s.enterHelp c).enterEval text)
            ++ [Event.ended u]) ∧
    (∀ u : Session, refreshCalls u =
      if u.context.readOnly = false ∧ (u.headless = true ∨ 1 < u.context.directories.depth)
      then [.rescan, .rebuild] else []) := by
  refine ⟨?_, ?_, ?_⟩
  · intro line s r t h
    obtain ⟨ended, u, ran, rfl, told⟩ := executeAny_ended h
    exact ⟨ended, u, ran, rfl, refreshAfter_calls u, told⟩
  · intro line text s c r t called builtin evaluates h
    obtain ⟨ended, u, ran, host, told⟩ := dispatchMode_eval called builtin evaluates h
    exact ⟨ended, u, ran, host ▸ refreshAfter_calls u, told⟩
  · intro u
    unfold refreshCalls
    simp only [refreshes_iff]

/-- A script that evaluates a line which succeeds, and one that fails. -/
def evaluatingScript : Session where
  console :=
    { world :=
      { disk :=
        { nodes := [([], .dir), (["outer"], .file 0)]
          contents := [Text.Utf8.encode ":eval /a\n:eval :bogus\n/never\n"] } } }

set_option maxRecDepth 8000 in
/-- There is no refresh after the script, but one after each line that it evaluates: its directory
is the second one. -/
theorem evaluated_lines_refresh :
    (∃ r t u, executeAny 4 "|outer" evaluatingScript = some (r, t) ∧
      t.host.calls = [.search "a", .rescan, .rebuild, .rescan, .rebuild] ∧ refreshCalls u = [] ∧
      Logged [] (events 4 .script "outer" evaluatingScript ++ [.ended u]) t.host.calls) ∧
    ∃ s c u, s.command? "eval /a" = some c ∧ refreshCalls u = [.rescan, .rebuild] ∧
      events 2 .command "eval /a" s
        = events 1 .search "a" ((s.enterHelp c).enterEval "/a") ++ [.ended u] := by
  obtain ⟨lines, -, -⟩ := refreshes_follow_lines 4
  obtain ⟨-, evaluated, -⟩ := refreshes_follow_lines 1
  have outer : Mode.split "|outer" = (.script, "outer") := by decide +kernel
  have inner : Mode.split "/a" = (.search, "a") := by decide +kernel
  refine ⟨?_, ?_⟩
  · have calls : (executeAny 4 "|outer" evaluatingScript).map (fun e => e.2.host.calls)
        = some [.search "a", .rescan, .rebuild, .rescan, .rebuild] := by decide +kernel
    obtain ⟨⟨r, t⟩, ran, made⟩ := Option.map_eq_some_iff.1 calls
    obtain ⟨ended, u, last, -, -, told⟩ := lines _ _ r t ran
    rw [outer] at last told
    have quiet : (dispatchMode 4 .script "outer" evaluatingScript).map
        (fun e => refreshCalls e.2) = some [] := by decide +kernel
    rw [last] at quiet
    exact ⟨r, t, u, ran, made, Option.some.inj quiet, told⟩
  · let s : Session := { headless := true }
    let c : Command := ⟨Builtin.eval.helpText, .builtin .eval⟩
    have called : s.command? "eval /a" = some c := rfl
    have text : (s.enterHelp c).evaluated? "eval /a" = some "/a" := by decide +kernel
    have ends : (dispatchMode 2 .command "eval /a" s).isSome = true := by decide +kernel
    obtain ⟨⟨r, t⟩, ran⟩ := Option.isSome_iff_exists.1 ends
    obtain ⟨ended, u, last, -, told⟩ :=
      evaluated "eval /a" "/a" s c r t called rfl (evaluated?_eq_some.1 text) ran
    rw [inner] at last told
    have search : (dispatchMode 1 .search "a" ((s.enterHelp c).enterEval "/a")).map
        (fun e => refreshCalls e.2) = some [.rescan, .rebuild] := by decide +kernel
    rw [last] at search
    exact ⟨s, c, u, called, Option.some.inj search, told⟩

end Session

end LogConsole
