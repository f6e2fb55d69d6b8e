import LogConsole.Proofs.Session.Frames

/-!
# LogConsole.Proofs.Session.Isolation

Nothing that runs depends on the local scopes below its own.

* `Context.atop`   — a context whose local scopes stand on others;
* `Callers`        — the local scopes of two callers, as many of the one as of the other;
* `Blind`          — commands from outside that look at no local scope but the innermost;
* `Alike w x s`    — `x` does the same on top of either: it has the same outcome, and leaves the
  same session but for the scopes below, or it does not end on either;
* `Isolated w x s` — it does so if the commands are blind.

The rules for `Isolated` follow the operations on computations. Only to leave a local scope needs
a reason: what is taken off must have been pushed, so the scopes of the callers stay where they
are. `dispatchMode_isolated` is the result for a payload in any mode, by induction on the fuel.
-/

namespace LogConsole

/-! ## Scopes below -/

/-- The context with more local scopes below its own. -/
def Context.atop (lower : List (Dict String)) (c : Context) : Context :=
  { c with scopes := ⟨c.scopes.top, c.scopes.below ++ lower⟩ }

/-- A local scope that is not the last one is left on top of others as without them. -/
theorem Context.leaveScope_atop {c : Context} {first : Dict String} {rest : List (Dict String)}
    (h : c.scopes.below = first :: rest) (lower : List (Dict String)) :
    (c.atop lower).leaveScope = c.leaveScope.atop lower := by
  have popped : c.scopes.pop = ⟨first, rest⟩ := Stack.pop_of_below h
  have above : (c.atop lower).scopes.pop = ⟨first, rest ++ lower⟩ := by
    refine Stack.pop_of_below ?_
    change c.scopes.below ++ lower = _
    rw [h]
    rfl
  rw [leaveScope, leaveScope, above, popped]
  rfl

namespace Console

def atop (lower : List (Dict String)) (k : Console) : Console :=
  { k with context := k.context.atop lower }

theorem sink_atop (k : Console) (lower : List (Dict String)) : (k.atop lower).sink? = k.sink? := rfl

theorem closeTop_atop (k : Console) (lower : List (Dict String)) :
    (k.atop lower).closeTop = k.closeTop.atop lower := by
  unfold closeTop
  rw [sink_atop]
  split <;> rfl

theorem clearOutput_atop (k : Console) (lower : List (Dict String)) :
    (k.atop lower).clearOutput = k.clearOutput.atop lower := by
  rw [clearOutput, closeTop_atop]
  rfl

theorem setOutput_atop (k : Console) (name : String) (sink : Nat) (lower : List (Dict String)) :
    (k.atop lower).setOutput name sink = (k.setOutput name sink).atop lower := by
  rw [setOutput, closeTop_atop]
  rfl

theorem writeOutput_atop (k : Console) (text : String) (newline : Bool)
    (lower : List (Dict String)) :
    (k.atop lower).writeOutput text newline
      = ((k.writeOutput text newline).1, (k.writeOutput text newline).2.atop lower) := by
  unfold writeOutput
  rw [sink_atop]
  split
  · rfl
  · rename_i id _
    have world : (k.atop lower).world = k.world := rfl
    rw [world]
    split <;> rfl

end Console

def Session.atop (lower : List (Dict String)) (s : Session) : Session :=
  s.changeConsole (Console.atop lower)

section

variable (s : Session) (lower : List (Dict String))

@[simp] theorem Session.collector_atop : (s.atop lower).collector = s.collector := rfl

@[simp] theorem Session.database_atop : (s.atop lower).database = s.database := rfl

@[simp] theorem Session.interrupted_atop : (s.atop lower).interrupted = s.interrupted := rfl

@[simp] theorem Session.refreshes_atop : Run.refreshes (s.atop lower) = Run.refreshes s := rfl

@[simp] theorem Session.dryRun_atop : (s.atop lower).context.dryRun = s.context.dryRun := rfl

@[simp] theorem Session.world_atop : (s.atop lower).world = s.world := rfl

@[simp] theorem Session.disk_atop : (s.atop lower).disk = s.disk := rfl

@[simp] theorem Session.lookup_atop : (s.atop lower).console.lookup = s.console.lookup := rfl

end

theorem pipe_atop (s : Session) (text : String) (reads : List PipeRead)
    (lower : List (Dict String)) :
    (s.atop lower).pipe text reads
      = ((s.pipe text reads).1, (s.pipe text reads).2.1, (s.pipe text reads).2.2.atop lower) := by
  have sink : (s.atop lower).console.sink? = s.console.sink? := s.console.sink_atop lower
  unfold Session.pipe
  rw [sink]
  split <;> rfl

/-- The local scopes of two callers. -/
structure Callers where
  one : List (Dict String)
  other : List (Dict String)
  height : other.length = one.length

/-- A procedure that looks at no local scope but the innermost, and at how many there are. -/
inductive Procedure.Blind : Procedure → Prop where
  | answer (result : Except Message String) : Blind (.answer result)
  | look {next : Context → Procedure}
      (same : ∀ (c : Context) (below : List (Dict String)),
        below.length = c.scopes.below.length →
          next { c with scopes := ⟨c.scopes.top, below⟩ } = next c)
      (rest : ∀ c, Blind (next c)) : Blind (.look next)
  | within (f : Frame) {inner : Procedure} {next : Except Message String → Procedure}
      (first : Blind inner) (rest : ∀ r, Blind (next r)) : Blind (.within f inner next)
  | request (q : Request) {next : Except Message String → Procedure}
      (rest : ∀ r, Blind (next r)) : Blind (.request q next)

/-- All commands from outside are such procedures. -/
def Commands.Blind (cs : Commands) : Prop :=
  ∀ name c start, cs.get? name = some c → c.handler = .procedure start →
    ∀ line words, (start line words).Blind

namespace Run

open Session Query Script

variable {α β : Type} {w : Callers} {s : Session} {x : Run α}

/-- On top of the scopes of either caller, `x` does the same. -/
inductive Alike (w : Callers) (x : Run α) (s : Session) : Prop where
  | diverges (one : x (s.atop w.one) = none) (other : x (s.atop w.other) = none)
  | ends (r : Except Message α) (t : Session)
      (below : t.context.scopes.below = s.context.scopes.below) (commands : t.commands = s.commands)
      (one : x (s.atop w.one) = some (r, t.atop w.one))
      (other : x (s.atop w.other) = some (r, t.atop w.other))

def Isolated (w : Callers) (x : Run α) (s : Session) : Prop := s.commands.Blind → Alike w x s

/-! ## Rules -/

/-- The outcome of `x` does not depend on the scopes below, nor does what it does. -/
theorem Isolated.commutes
    (h : ∀ lower, x (s.atop lower) = (x s).map fun e => (e.1, e.2.atop lower))
    (keeps : ∀ r t, x s = some (r, t) →
      t.context.scopes.below = s.context.scopes.below ∧ t.commands = s.commands) :
    Isolated w x s := by
  intro _
  cases hx : x s with
  | none => exact .diverges (by rw [h, hx]; rfl) (by rw [h, hx]; rfl)
  | some e =>
    obtain ⟨below, commands⟩ := keeps e.1 e.2 hx
    exact .ends e.1 e.2 below commands (by rw [h, hx]; rfl) (by rw [h, hx]; rfl)

theorem Isolated.still (r : Except Message α)
    (h : ∀ lower, x (s.atop lower) = some (r, s.atop lower)) : Isolated w x s :=
  fun _ => .ends r s rfl rfl (h _) (h _)

theorem Isolated.congr {y : Run α} (hy : Isolated w y s)
    (h : ∀ lower, x (s.atop lower) = y (s.atop lower)) : Isolated w x s := by
  intro blind
  cases hy blind with
  | diverges one other => exact .diverges ((h _).trans one) ((h _).trans other)
  | ends r t below commands one other =>
    exact .ends r t below commands ((h _).trans one) ((h _).trans other)

/-- Goes on after a computation, however it ended. -/
def attempt (x : Run α) (f : Except Message α → Run β) : Run β := fun s =>
  match x s with
  | none => none
  | some (r, t) => f r t

theorem Isolated.attempt {f : Except Message α → Run β} (hx : Isolated w x s)
    (hf : ∀ r t, Isolated w (f r) t) : Isolated w (attempt x f) s := by
  intro blind
  cases hx blind with
  | diverges one other => exact .diverges (by rw [Run.attempt, one]) (by rw [Run.attempt, other])
  | ends r t below commands one other =>
    have go (lower) (h : x (s.atop lower) = some (r, t.atop lower)) :
        Run.attempt x f (s.atop lower) = f r (t.atop lower) := by rw [Run.attempt, h]
    cases hf r t (commands ▸ blind) with
    | diverges one' other' => exact .diverges ((go _ one).trans one') ((go _ other).trans other')
    | ends q u below' commands' one' other' =>
      exact .ends q u (below'.trans below) (commands'.trans commands) ((go _ one).trans one')
        ((go _ other).trans other')

theorem isolated_pure (a : α) : Isolated w (pure a : Run α) s := .still (.ok a) fun _ => rfl

theorem isolated_throw (m : Message) : Isolated w (throw m : Run α) s :=
  .still (.error m) fun _ => rfl

theorem isolated_fail (kind : ErrorKind) (text : String) : Isolated w (fail kind text : Run α) s :=
  .still (.error (s.context.error kind text)) fun _ => rfl

theorem isolated_failFor (kind : ErrorKind) (text reason : String) :
    Isolated w (failFor kind text reason : Run α) s :=
  .still (.error ((s.context.error kind text).withReason reason)) fun _ => rfl

theorem isolated_failEngine (text : String) : Isolated w (failEngine text : Run α) s :=
  .still (.error (engineFailure s.context text)) fun _ => rfl

/-- What `f` does to a session neither depends on the scopes below nor changes them. -/
structure Above (f : Session → Session) (s : Session) : Prop where
  same : ∀ lower, f (s.atop lower) = (f s).atop lower
  below : (f s).context.scopes.below = s.context.scopes.below
  commands : (f s).commands = s.commands

theorem isolated_change {f : Session → Session} (h : Above f s) : Isolated w (change f) s := by
  refine .commutes (fun lower => ?_) fun r t ht => ?_
  · rw [change, h.same]
    rfl
  · cases ht
    exact ⟨h.below, h.commands⟩

theorem Isolated.ensuring {after : Session → Session} (hx : Isolated w x s)
    (h : ∀ t, Above after t) : Isolated w (Run.ensuring x after) s := by
  have goes (r : Except Message α) (t : Session) : Isolated w (fun t => some (r, after t)) t :=
    .commutes (fun lower => by rw [(h t).same]; rfl) fun q u hu => by
      cases hu
      exact ⟨(h t).below, (h t).commands⟩
  exact (hx.attempt goes).congr fun _ => rfl

/-- What comes after a computation that may have failed. -/
def onward (f : α → Run β) : Except Message α → Run β
  | .ok a => f a
  | .error e => throw e

theorem bind_eq_attempt (x : Run α) (f : α → Run β) : x >>= f = attempt x (onward f) := by
  funext s
  rw [bind_def, attempt]
  rcases x s with _ | ⟨_ | _, _⟩ <;> rfl

theorem Isolated.bind {f : α → Run β} (hx : Isolated w x s) (hf : ∀ a t, Isolated w (f a) t) :
    Isolated w (x >>= f) s := by
  rw [bind_eq_attempt]
  refine hx.attempt fun r t => ?_
  cases r with
  | ok a => exact hf a t
  | error e => exact isolated_throw e

theorem Isolated.map {f : α → β} (h : Isolated w x s) :
    Isolated w (x >>= fun a => pure (f a)) s := h.bind fun _ _ => isolated_pure _

/-- What is read from the session does not depend on the scopes below. -/
theorem isolated_get_bind {f : Session → α} {k : α → Run β} (h : ∀ lower, f (s.atop lower) = f s)
    (hk : Isolated w (k (f s)) s) : Isolated w (Run.get f >>= k) s :=
  hk.congr fun lower => by
    change k (f (s.atop lower)) _ = _
    rw [h]

theorem isolated_get {f : Session → α} (h : ∀ lower, f (s.atop lower) = f s) :
    Isolated w (Run.get f) s := isolated_get_bind h (isolated_pure _)

theorem changeConsole_atop {f : Console → Console} {lower : List (Dict String)}
    (h : f (s.console.atop lower) = (f s.console).atop lower) :
    (s.atop lower).changeConsole f = (s.changeConsole f).atop lower := by
  simp only [Session.atop, changeConsole, h]

theorem enter_atop (f : Frame) (lower : List (Dict String)) :
    (s.atop lower).changeConsole f.enter = (s.changeConsole f.enter).atop lower := by
  cases f <;> rfl

/-- A frame is left on top of the scopes below as it is without them, if its own scope is there. -/
theorem leave_atop {f : Frame} {t : Session}
    (below : t.context.scopes.below = (s.changeConsole f.enter).context.scopes.below)
    (lower : List (Dict String)) :
    (t.atop lower).changeConsole (f.leave (s.atop lower).context)
      = (t.changeConsole (f.leave s.context)).atop lower := by
  cases f with
  | source | directory | help => rfl
  | scope vars =>
    have left : (t.console.context.atop lower).leaveScope = t.console.context.leaveScope.atop lower :=
      Context.leaveScope_atop below lower
    simp only [Session.atop, Console.atop, changeConsole, Frame.leave, left]
  | output name sink =>
    have left := Console.clearOutput_atop t.console lower
    simp only [Session.atop, changeConsole, Frame.leave, Console.leaveOutput, left]
    rfl

theorem leave_below {f : Frame} {t : Session}
    (below : t.context.scopes.below = (s.changeConsole f.enter).context.scopes.below) :
    (t.changeConsole (f.leave s.context)).context.scopes.below = s.context.scopes.below := by
  cases f with
  | source | directory | help => exact below
  | scope vars => exact congrArg Stack.below (Stack.pop_of_below below)
  | output name sink =>
    refine Eq.trans ?_ below
    exact (Console.clearOutput_kept t.console).scopes

theorem Isolated.within {f : Frame} (h : Isolated w x (s.changeConsole f.enter)) :
    Isolated w (within f x) s := by
  intro blind
  have enters (lower) : Run.within f x (s.atop lower)
      = Run.ensuring x (changeConsole (f.leave (s.atop lower).context))
        ((s.changeConsole f.enter).atop lower) := by rw [← enter_atop]; rfl
  cases h blind with
  | diverges one other =>
    exact .diverges (by rw [enters, Run.ensuring, one]) (by rw [enters, Run.ensuring, other])
  | ends r t below commands one other =>
    exact .ends r (t.changeConsole (f.leave s.context)) (leave_below below) commands
      (by rw [enters, Run.ensuring, one]; exact congrArg (fun u => some (r, u)) (leave_atop below _))
      (by rw [enters, Run.ensuring, other]; exact congrArg (fun u => some (r, u)) (leave_atop below _))

/-! ## Queries -/

theorem isolated_clearResults : Isolated w clearResults s := by
  refine .commutes (fun lower => ?_) fun r t h => ?_
  · simp only [clearResults, collector_atop]
    split <;> rfl
  · unfold clearResults at h
    split at h <;> cases h <;> exact ⟨rfl, rfl⟩

theorem isolated_collectRows (p : Sql.Prepared) (values : List Sql.Value) :
    Isolated w (collectRows p values) s := by
  refine .commutes (fun lower => ?_) fun r t h => ?_
  · simp only [collectRows, collector_atop, database_atop]
    split
    · rfl
    · split <;> rfl
  · simp only [collectRows] at h
    split at h
    · cases h; exact ⟨rfl, rfl⟩
    · split at h <;> cases h <;> exact ⟨rfl, rfl⟩

theorem setLocals_atop (vars : List (String × String)) (lower : List (Dict String)) (c : Context) :
    setLocals vars (c.atop lower) = (setLocals vars c).atop lower := by
  rw [setLocals_eq, setLocals_eq]
  rfl

theorem isolated_storeFirstRow : Isolated w storeFirstRow s := by
  cases hd : s.context.dryRun with
  | true =>
    exact (isolated_pure ()).congr fun _ => by
      simp only [storeFirstRow, change, dryRun_atop, hd]
      rfl
  | false =>
    have set (lower) := setLocals_atop (firstRowVariables s.results) lower s.context
    have stores : Above (changeContext (setLocals (firstRowVariables s.results))) s :=
      ⟨fun lower => congrArg (fun c => s.changeContext fun _ => c) (set lower),
        (Context.Kept.setLocals _ s.context).scopes, rfl⟩
    exact (isolated_change stores).congr fun _ => by
      simp only [storeFirstRow, change, dryRun_atop, hd]
      rfl

theorem parameterValues_atop (p : Sql.Prepared) (lower : List (Dict String)) :
    parameterValues (s.atop lower) p = parameterValues s p := rfl

theorem isolated_bindParameters (p : Sql.Prepared) : Isolated w (bindParameters p) s := by
  refine .commutes (fun lower => ?_) fun r t h => ?_
  · simp only [bindParameters, parameterValues_atop]
    split <;> rfl
  · rw [bindParameters_still h]
    exact ⟨rfl, rfl⟩

theorem isolated_runPrepared (text : String) (p : Sql.Prepared) :
    Isolated w (runPrepared text p) s := by
  refine isolated_get_bind (fun _ => rfl) ?_
  split
  · exact isolated_fail _ _
  · refine (isolated_bindParameters p).bind fun _ _ => isolated_clearResults.bind fun _ _ => ?_
    refine (isolated_collectRows _ _).bind fun _ _ => ?_
    exact isolated_storeFirstRow.bind fun _ _ => isolated_get fun _ => rfl

theorem isolated_runStatement (text statement : String) :
    Isolated w (runStatement text statement) s := by
  refine isolated_get_bind (fun _ => rfl) ?_
  split
  · exact isolated_fail _ _
  · exact isolated_clearResults.bind fun _ _ => isolated_failEngine _
  · exact isolated_runPrepared _ _

theorem answer_atop (m : MetaStatement) (db : Sql.Database) (words : List String)
    (lower : List (Dict String)) :
    m.answer db (s.atop lower).context words = m.answer db s.context words := by
  rfl

theorem isolated_runMeta (m : MetaStatement) (words : List String) :
    Isolated w (runMeta m words) s := by
  unfold runMeta withHelp
  refine .within (.commutes (fun lower => ?_) fun r t h => ?_)
  · rw [database_atop, answer_atop]
    split <;> rfl
  · split at h <;> cases h <;> exact ⟨rfl, rfl⟩

theorem isolated_runQuery (text : String) : Isolated w (runQuery text) s := by
  simp only [runQuery]
  split
  · exact isolated_runMeta _ _
  · split
    · exact isolated_fail _ _
    · exact isolated_runStatement _ _

/-! ## Commands -/

theorem isolated_expandText (text : String) : Isolated w (expandText text) s := by
  refine .commutes (fun lower => ?_) fun r t h => ?_
  · simp only [expandText, lookup_atop]
    split <;> rfl
  · unfold expandText at h
    split at h <;> cases h <;> exact ⟨rfl, rfl⟩

theorem isolated_writeOutput (text : String) (newline : Bool) :
    Isolated w (writeOutput text newline) s := by
  refine .commutes (fun lower => ?_) fun r t h => ?_
  · have written : (s.atop lower).console.writeOutput text newline = _ :=
      Console.writeOutput_atop s.console text newline lower
    rcases hk : s.console.writeOutput text newline with ⟨_ | _, k⟩ <;>
      simp only [writeOutput, written, hk] <;> rfl
  · have kept := Console.writeOutput_context s.console text newline
    unfold writeOutput at h
    split at h <;> rename_i hk <;> cases h <;> rw [hk] at kept <;>
      exact ⟨congrArg (fun c => c.scopes.below) kept, rfl⟩

theorem isolated_echo (line : String) (words : List String) : Isolated w (echo line words) s := by
  unfold echo
  refine (isolated_expandText _).bind fun text _ => isolated_get_bind (fun _ => rfl) ?_
  split
  · exact isolated_pure _
  · refine (isolated_writeOutput _ _).bind fun written _ => ?_
    split <;> exact isolated_pure _

theorem isolated_openTarget (path : String) : Isolated w (openTarget path) s := by
  refine .commutes (fun lower => ?_) fun r t h => ?_
  · simp only [openTarget, world_atop, disk_atop]
    split
    · rfl
    · split <;> rfl
  · obtain ⟨w, rfl⟩ := openTarget_ended h
    exact ⟨rfl, rfl⟩

theorem isolated_clearOutput : Isolated w (change (changeConsole Console.clearOutput)) s :=
  isolated_change ⟨fun lower => changeConsole_atop (Console.clearOutput_atop s.console lower),
    (Console.clearOutput_kept s.console).scopes, rfl⟩

theorem isolated_setOutput (name : String) (sink : Nat) :
    Isolated w (change (changeConsole fun k => k.setOutput name sink)) s :=
  isolated_change ⟨fun lower => changeConsole_atop (Console.setOutput_atop s.console name sink lower),
    (Console.setOutput_kept s.console name sink).scopes, rfl⟩

theorem isolated_redirectTo (line : String) : Isolated w (redirectTo line) s := by
  unfold redirectTo
  refine (isolated_expandText _).bind fun text _ => isolated_get_bind (fun _ => rfl) ?_
  split
  · split
    · exact isolated_clearOutput.map
    · exact isolated_pure _
  · split
    · exact isolated_pure _
    · exact (isolated_openTarget _).bind fun sink _ => (isolated_setOutput _ _).map

theorem isolated_writeAll (path : String) (sink : Nat) (bytes : List UInt8) :
    Isolated w (writeAll path sink bytes) s := by
  refine .commutes (fun lower => ?_) fun r t h => ?_
  · simp only [writeAll, world_atop]
    split <;> rfl
  · rw [writeAll_state h]
    exact ⟨rfl, rfl⟩

theorem isolated_writeResults (form : ResultSet → String) (line : String) :
    Isolated w (writeResults form line) s := by
  unfold writeResults
  refine (isolated_expandText _).bind fun text _ => isolated_get_bind (fun _ => rfl) ?_
  split
  · exact isolated_fail _ _
  · split
    · exact isolated_fail _ _
    · refine isolated_get_bind (fun _ => rfl) ?_
      split
      · exact isolated_pure _
      · exact (isolated_openTarget _).bind fun sink _ => (isolated_writeAll _ _ _).map

theorem isolated_startShell (text : String) : Isolated w (startShell text) s := by
  refine .commutes (fun lower => ?_) fun r t h => ?_
  · simp only [startShell, world_atop, disk_atop]
    split <;> rfl
  · obtain ⟨w, rfl⟩ := startShell_ended h
    exact ⟨rfl, rfl⟩

theorem isolated_captureOutput (text : String) (bytes : List UInt8) :
    Isolated w (captureOutput text bytes) s := by
  refine isolated_change ⟨fun lower => ?_, ?_, ?_⟩
  · dsimp only
    rw [pipe_atop]
    rfl
  · exact congrArg (fun c => c.scopes.below) (context_pipe s text _)
  · exact pipe_commands s text _

theorem isolated_runShell (line : String) : Isolated w (runShell line) s := by
  simp only [runShell]
  split
  · exact isolated_fail _ _
  · refine isolated_get_bind (fun _ => rfl) ?_
    split
    · exact isolated_pure _
    · exact (isolated_startShell _).bind fun bytes _ => (isolated_captureOutput _ _).map

theorem isolated_showHelp (line : String) : Isolated w (showHelp line) s := by
  simp only [showHelp]
  split
  · exact isolated_get fun _ => rfl
  · refine isolated_get_bind (fun _ => rfl) ?_
    split
    · exact isolated_pure _
    · exact isolated_fail _ _

/-! ## Parts of a script -/

theorem isolated_checkInterrupt : Isolated w checkInterrupt s := by
  refine .commutes (fun lower => ?_) fun r t h => ?_
  · cases hi : s.interrupted <;> simp only [checkInterrupt, interrupted_atop, hi] <;> rfl
  · unfold checkInterrupt at h
    split at h <;> cases h <;> exact ⟨rfl, rfl⟩

theorem isolated_answerOf (answer : Except Message String) : Isolated w (answerOf answer) s := by
  cases answer with
  | ok a => exact isolated_pure a
  | error e => exact isolated_throw e

theorem isolated_resolveScript (name : String) : Isolated w (resolveScript name) s := by
  have found (lower) : (s.atop lower).resolver.resolve (s.atop lower).context (s.atop lower).disk name
      = s.resolver.resolve s.context s.disk name := rfl
  refine .commutes (fun lower => ?_) fun r t h => ?_
  · simp only [resolveScript, found]
    split <;> rfl
  · unfold resolveScript at h
    split at h <;> cases h <;> exact ⟨rfl, rfl⟩

/-- How a script goes on after a line: no more is read after one that fails. -/
def readNext (again : Mode → String → Run Output) (source : String) (multiline : Bool)
    (rest : List (List UInt8)) :
    Except Message Progress → Run (Except Message String × List (List UInt8))
  | .ok p => readScript again source multiline p rest
  | .error e => pure (.error e, rest)

/-! ## Parts of a procedure -/

theorem runProcedure_within (again : Mode → String → Run Output) (f : Frame) (inner : Procedure)
    (next : Except Message String → Procedure) :
    runProcedure again (.within f inner next)
      = attempt (within f (runProcedure again inner)) fun r => runProcedure again (next r) := by
  funext s
  simp only [runProcedure, attempt]
  cases within f (runProcedure again inner) s <;> rfl

theorem runProcedure_request (again : Mode → String → Run Output) (q : Request)
    (next : Except Message String → Procedure) :
    runProcedure again (.request q next)
      = attempt (runRequest again q) fun r => runProcedure again (next r) := by
  funext s
  simp only [runProcedure, attempt]
  cases runRequest again q s <;> rfl

/-! ## Lines that dispatch lines -/

section Again

variable {again : Mode → String → Run Output}
  (ih : ∀ mode payload t, Isolated w (again mode payload) t)

include ih

omit ih in
theorem above_refreshAfter (t : Session) : Above refreshAfter t where
  same lower := by
    unfold refreshAfter
    rw [refreshes_atop]
    split <;> rfl
  below := by
    unfold refreshAfter
    split <;> rfl
  commands := by
    unfold refreshAfter
    split <;> rfl

theorem isolated_executeWith (line : String) : Isolated w (executeWith again line) s :=
  Isolated.map ((ih _ _ s).ensuring above_refreshAfter)

theorem isolated_dispatchWith (line : String) : Isolated w (dispatchWith again line) s :=
  (ih _ _ s).map

theorem isolated_eval (line : String) : Isolated w (eval again line) s := by
  simp only [eval]
  split
  · exact isolated_fail _ _
  · refine (isolated_expandText _).bind fun text _ => isolated_get_bind (fun _ => rfl) ?_
    split
    · exact isolated_pure _
    · exact .within (isolated_executeWith ih _)

/-! ## Scripts -/

theorem isolated_runStatementAt (source : String) (line : Nat) (mode : Mode) (text : String) :
    Isolated w (runStatementAt again source line mode text) s :=
  isolated_checkInterrupt.bind fun _ _ => Isolated.map (.within (ih _ _ _))

theorem isolated_runPending (source : String) (p : Progress) :
    Isolated w (runPending again source p) s := by
  unfold runPending
  split
  · exact isolated_pure _
  · exact (isolated_runStatementAt ih _ _ _ _).map

theorem isolated_runLine (source : String) (multiline : Bool) (p : Progress)
    (bytes : List UInt8) : Isolated w (runLine again source multiline p bytes) s := by
  simp only [runLine]
  split
  · exact isolated_failFor _ _ _
  · split
    · exact isolated_pure _
    · exact (isolated_runPending ih _ _).map
    · split
      · exact isolated_pure _
      · exact (isolated_runStatementAt ih _ _ _ _).map

theorem isolated_readScript (source : String) (multiline : Bool) (lines : List (List UInt8)) :
    ∀ (p : Progress) (s : Session), Isolated w (readScript again source multiline p lines) s := by
  induction lines with
  | nil =>
    intro p s
    refine ((isolated_runPending ih source p).attempt fun r _ =>
      isolated_pure (r.map (·.answer), [])).congr fun lower => ?_
    simp only [readScript, attempt]
    rcases runPending again source p (s.atop lower) with _ | ⟨_ | _, _⟩ <;> rfl
  | cons raw rest ihl =>
    intro p s
    have goes (r : Except Message Progress) (t : Session) :
        Isolated w (readNext again source multiline rest r) t := by
      cases r with
      | ok p => exact ihl p t
      | error e => exact isolated_pure _
    refine ((isolated_runLine ih source multiline p (lineBytes raw)).attempt goes).congr
      fun lower => ?_
    simp only [readScript, attempt]
    rcases runLine again source multiline p (lineBytes raw) (s.atop lower) with
      _ | ⟨_ | _, _⟩ <;> rfl

theorem isolated_executeScript (source dir : String) (bytes : List UInt8) (multiline : Bool) :
    Isolated w (executeScript again source dir bytes multiline) s :=
  .within (.within ((isolated_readScript ih _ _ _ _ _).bind fun _ _ => isolated_answerOf _))

theorem isolated_executeStdin (multiline : Bool) :
    Isolated w (executeStdin again multiline) s := by
  refine .within (.within (.bind ?_ fun bytes t => ?_))
  · exact .commutes (fun _ => rfl) fun r t h => by cases h; exact ⟨rfl, rfl⟩
  · refine (isolated_readScript ih _ _ _ _ _).bind fun _ _ => ?_
    exact (isolated_change ⟨fun _ => rfl, rfl, rfl⟩).bind fun _ _ => isolated_answerOf _

theorem isolated_executeCandidate (multiline : Bool) (c : Candidate) :
    Isolated w (executeCandidate again multiline c) s := by
  unfold executeCandidate
  split
  · exact isolated_executeStdin ih multiline
  · refine isolated_get_bind (fun _ => rfl) ?_
    split
    · exact isolated_failFor _ _ _
    · exact .within (.within (isolated_failFor _ _ _))
    · exact isolated_executeScript ih _ _ _ _

theorem isolated_executeAll (multiline : Bool) (found : List Candidate) :
    ∀ (answer : String) (s : Session), Isolated w (executeAll again multiline answer found) s := by
  induction found with
  | nil => intro answer s; exact isolated_pure answer
  | cons c rest ihc =>
    intro answer s
    exact (isolated_executeCandidate ih multiline c).bind fun a t => ihc a t

theorem isolated_executeFile (invocation : String) (multiline : Bool) :
    Isolated w (executeFile again invocation multiline) s := by
  cases hs : splitExpanded s.console.lookup invocation with
  | error e =>
    exact (isolated_failFor .parseFailure "unable to parse path" e.message).congr fun _ => by
      simp only [executeFile, lookup_atop, hs]
  | ok words =>
    cases words with
    | nil =>
      exact (isolated_fail .noCommandGiven "no script specified").congr fun _ => by
        simp only [executeFile, lookup_atop, hs]
    | cons name args =>
      have runs : Isolated w (resolveScript name >>= executeAll again multiline "")
          (s.changeConsole (Frame.enter (.scope (scriptVariables (name :: args))))) :=
        (isolated_resolveScript name).bind fun _ _ => isolated_executeAll ih _ _ _ _
      exact runs.within.congr fun _ => by simp only [executeFile, lookup_atop, hs]; rfl

/-! ## Commands from outside, and dispatching -/

theorem isolated_runRequest (q : Request) : Isolated w (runRequest again q) s := by
  cases q with
  | line text => exact isolated_executeWith ih text
  | dispatch text => exact isolated_dispatchWith ih text
  | command line => exact (ih _ _ s).map
  | query text => exact (ih _ _ s).map
  | file invocation multiline => exact isolated_executeFile ih invocation multiline
  | reader source dir bytes multiline => exact isolated_executeScript ih source dir bytes multiline

theorem isolated_runProcedure {p : Procedure} (blind : p.Blind) :
    ∀ s : Session, Isolated w (runProcedure again p) s := by
  induction blind with
  | answer result => intro s; exact .still result fun _ => rfl
  | @look next same rest ihn =>
    intro s blind
    -- both look at as many scopes, and the innermost is the same
    have other : next (s.atop w.other).context = next (s.atop w.one).context :=
      same (s.atop w.one).context (s.context.scopes.below ++ w.other) <| by
        change (s.context.scopes.below ++ w.other).length = (s.context.scopes.below ++ w.one).length
        rw [List.length_append, List.length_append, w.height]
    have looks : runProcedure again (.look next) (s.atop w.other)
        = runProcedure again (next (s.atop w.one).context) (s.atop w.other) := by
      rw [← other]
      rfl
    cases ihn (s.atop w.one).context s blind with
    | diverges h h' => exact .diverges h (looks.trans h')
    | ends r t below commands h h' => exact .ends r t below commands h (looks.trans h')
  | within f first rest ihi ihn =>
    intro s
    rw [runProcedure_within]
    exact (ihi _).within.attempt ihn
  | request q rest ihn =>
    intro s
    rw [runProcedure_request]
    exact (isolated_runRequest ih q).attempt ihn

theorem isolated_runBuiltin (b : Builtin) (line : String) (words : List String) :
    Isolated w (runBuiltin again b line words) s := by
  cases b with
  | echo => exact isolated_echo line words
  | eval => exact isolated_eval ih line
  | redirectTo => exact isolated_redirectTo line
  | writeCsv => exact isolated_writeResults csvText line
  | writeJson => exact isolated_writeResults jsonText line
  | shell => exact isolated_runShell line
  | help => exact isolated_showHelp line

theorem isolated_runCommand (line : String) : Isolated w (runCommand again line) s := by
  unfold runCommand
  split
  · exact isolated_fail _ _
  · refine isolated_get_bind (fun _ => rfl) ?_
    split
    · exact isolated_fail _ _
    · rename_i c hc
      intro blind
      refine Isolated.within ?_ blind
      cases hh : c.handler with
      | builtin b => exact isolated_runBuiltin ih b line _
      | procedure start => exact isolated_runProcedure ih (blind _ c start hc hh line _) _

end Again

end Run

namespace Session

open Run

variable {w : Callers} {s : Session}

theorem isolated_step {again : Mode → String → Run Output}
    (ih : ∀ mode payload t, Isolated w (again mode payload) t) (mode : Mode) (payload : String) :
    Isolated w (step again mode payload) s := by
  cases mode with
  | command => exact (isolated_runCommand ih payload).map
  | search => exact .commutes (fun _ => rfl) fun r t h => by cases h; exact ⟨rfl, rfl⟩
  | query => exact isolated_runQuery payload
  | script => exact (isolated_executeFile ih payload true).map

/-- Every payload in every mode, however deep lines are nested in it. -/
theorem dispatchMode_isolated (fuel : Nat) :
    ∀ (mode : Mode) (payload : String) (s : Session),
      Isolated w (dispatchMode fuel mode payload) s := by
  induction fuel with
  | zero => intro mode payload s _; exact .diverges rfl rfl
  | succ fuel ih => intro mode payload s; exact isolated_step ih mode payload

end Session

end LogConsole
