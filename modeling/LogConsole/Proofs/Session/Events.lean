import LogConsole.Proofs.Session.Descent

/-!
# LogConsole.Proofs.Session.Events

What a run does that is seen from outside of the session, in order.

* `Event`          — the host is asked for something, or the run of a line ends;
* `events`         — the events of a payload in its mode. They are told along its run, one function
  for each part of it: `lineEvents`, `fileEvents`, `scriptEvents`, `procedureEvents`, …;
* `Does R x es s`  — wherever `x` ends when it starts from `s`, that is related to `s` by `R`, with
  the events `es`;
* `Carries R`      — `R` goes over frames, and over what is done around the statements of scripts;
* `does_executeFile` — what holds of all payloads by themselves holds then of the scripts that a
  name stands for, with the events of their statements one after the other.

What lines do is left open: `again` is any function from modes and payloads, and `log` tells their
events.
-/

namespace LogConsole

inductive Event where
  | asked (call : HostCall)
  /-- A line has been run, and this is the session before the refresh that may come after it. -/
  | ended (s : Session)

namespace Session

/-- The text that `eval` comes to dispatch. -/
def evaluated? (s : Session) (line : String) : Option String :=
  if (argumentText line).isEmpty || s.context.dryRun then none
  else (expand s.console.lookup (argumentText line)).toOption

theorem evaluated?_eq_some {s : Session} {line text : String} :
    s.evaluated? line = some text ↔ Evaluates s line text := by
  unfold evaluated?
  constructor
  · intro h
    split at h
    · cases h
    · rename_i condition
      simp only [Bool.or_eq_true, not_or, Bool.not_eq_true] at condition
      refine ⟨condition.1, ?_, condition.2⟩
      cases expanded : expand s.console.lookup (argumentText line) with
      | ok text => rw [expanded] at h; cases h; rfl
      | error e => rw [expanded] at h; cases h
  · rintro ⟨given, expanded, wet⟩
    simp [given, expanded, wet, Except.toOption]

end Session

namespace Run

open Session Script

variable {α β : Type}

/-! ## Events -/

/-- The events of what comes after a computation. -/
def afterwards (x : Run α) (next : Except Message α → Session → List Event) (s : Session) :
    List Event :=
  match x s with
  | none => []
  | some (r, t) => next r t

/-- The events of what comes after a computation that succeeds. -/
def afterSuccess (x : Run α) (next : α → Session → List Event) : Session → List Event :=
  afterwards x fun r t =>
    match r with
    | .ok a => next a t
    | .error _ => []

def loopEvents (one : β → Run String) (each : β → Session → List Event) :
    List β → Session → List Event
  | [], _ => []
  | x :: rest, s => each x s ++ afterSuccess (one x) (fun _ => loopEvents one each rest) s

/-- The host is asked for what a computation asks it for. -/
def askedBy (x : Run α) (s : Session) : List Event :=
  afterwards x (fun _ t => (t.host.calls.drop s.host.calls.length).map .asked) s

section Along

variable (again : Mode → String → Run Output) (log : Mode → String → Session → List Event)

def lineEvents (line : String) (s : Session) : List Event :=
  log (Mode.split line).1 (Mode.split line).2 s
    ++ afterwards (again (Mode.split line).1 (Mode.split line).2) (fun _ t => [.ended t]) s

/-- An interrupt keeps a statement from running. -/
def statementEvents (source : String) (st : Statement) (s : Session) : List Event :=
  if s.interrupted then [] else log st.mode st.payload (s.enterStatement source st)

def scriptEvents (source : String) (bytes : List UInt8) (multiline : Bool) :
    Session → List Event :=
  loopEvents (runOne again source) (statementEvents log source) (parts multiline bytes)

def candidateEvents (multiline : Bool) (c : Candidate) (s : Session) : List Event :=
  match c.source with
  | .stdin =>
    scriptEvents again log "-" s.world.stdin multiline
      ((s.enterScript ".").changeWorld fun w => { w with stdin := [] })
  | .file path =>
    match s.disk.read path with
    | .error _ => []
    | .ok bytes =>
      scriptEvents again log path bytes multiline (s.enterScript (directoryOf path))

def fileEvents (invocation : String) (multiline : Bool) (s : Session) : List Event :=
  match splitExpanded s.console.lookup invocation with
  | .ok (name :: args) =>
    afterSuccess (resolveScript name)
      (loopEvents (executeCandidate again multiline) (candidateEvents again log multiline))
      (s.enterArguments (name :: args))
  | _ => []

def requestEvents (q : Request) (s : Session) : List Event :=
  match q with
  | .line text => lineEvents again log text s
  | .dispatch text => log (Mode.split text).1 (Mode.split text).2 s
  | .command line => log .command line s
  | .query text => log .query text s
  | .file invocation multiline => fileEvents again log invocation multiline s
  | .reader source dir bytes multiline =>
    scriptEvents again log source bytes multiline (s.enterScript dir)

def procedureEvents : Procedure → Session → List Event
  | .answer _, _ => []
  | .look next, s => procedureEvents (next s.context) s
  | .within f inner next, s =>
    procedureEvents inner (s.changeConsole f.enter)
      ++ afterwards (within f (runProcedure again inner)) (fun r t => procedureEvents (next r) t) s
  | .request q next, s =>
    requestEvents again log q s
      ++ afterwards (runRequest again q) (fun r t => procedureEvents (next r) t) s

/-- Of the commands that are built in, `eval` dispatches a line, and `sh` may add an input. -/
def builtinEvents (b : Builtin) (line : String) (s : Session) : List Event :=
  match b with
  | .eval =>
    match s.evaluated? line with
    | some text => lineEvents again log text (s.enterEval text)
    | none => []
  | .shell => askedBy (runShell line) s
  | _ => []

def commandEvents (line : String) (s : Session) : List Event :=
  match s.command? line with
  | none => []
  | some c =>
    match c.handler with
    | .builtin b => builtinEvents again log b line (s.enterHelp c)
    | .procedure start =>
      procedureEvents again log (start line (Text.words line)) (s.enterHelp c)

def stepEvents (mode : Mode) (payload : String) (s : Session) : List Event :=
  match mode with
  | .command => commandEvents again log payload s
  | .search => [.asked (.search payload)]
  | .query => []
  | .script => fileEvents again log payload true s

end Along

/-- The events of a payload. -/
def events : Nat → Mode → String → Session → List Event
  | 0, _, _, _ => []
  | fuel + 1, mode, payload, s =>
    stepEvents (dispatchMode fuel) (events fuel) mode payload s

end Run

/-- Whatever happens inside of the frame, to leave it closes no sink that came with it. -/
def Frame.Sinkless : Frame → Prop
  | .output _ (some _) => False
  | _ => True

namespace Run

open Session Script

variable {α β : Type} {R : Session → List Event → Session → Prop} {s t : Session}
  {es : List Event}

/-! ## Rules -/

structure Carries (R : Session → List Event → Session → Prop) : Prop where
  refl (s : Session) : R s [] s
  trans {s t u : Session} {es fs : List Event} : R s es t → R t fs u → R s (es ++ fs) u
  within {s t : Session} {es : List Event} {f : Frame} (sinkless : f.Sinkless) :
    R (s.changeConsole f.enter) es t → R s es (t.changeConsole (f.leave s.context))
  resolver (s : Session) (resolver : Resolver) : R s [] { s with resolver }
  stdin (s : Session) (f : List UInt8 → List UInt8) :
    R s [] (s.changeWorld fun w => { w with stdin := f w.stdin })

/-- Wherever `x` ends when it starts from `s`, the two are related, with these events. -/
def Does (R : Session → List Event → Session → Prop) (x : Run α) (es : List Event)
    (s : Session) : Prop :=
  ∀ r t, x s = some (r, t) → R s es t

theorem Does.bind (carries : Carries R) {x : Run α} {f : α → Run β}
    {next : α → Session → List Event} (first : Does R x es s)
    (second : ∀ a t, x s = some (.ok a, t) → Does R (f a) (next a t) t) :
    Does R (x >>= f) (es ++ afterSuccess x next s) s := by
  intro r u h
  rw [bind_def] at h
  simp only [afterSuccess, afterwards]
  split at h
  · cases h
  · rename_i e t ht
    cases h
    rw [ht, List.append_nil]
    exact first _ _ ht
  · rename_i a t ht
    rw [ht]
    exact carries.trans (first _ _ ht) (second a t ht r u h)

/-- The end of a computation may change no more than its answer. -/
theorem Does.bind_still {x : Run α} {f : α → Run β} (first : Does R x es s)
    (still : ∀ a t r u, f a t = some (r, u) → u = t) : Does R (x >>= f) es s := by
  intro r u h
  rw [bind_def] at h
  split at h
  · cases h
  · rename_i ht; cases h; exact first _ _ ht
  · rename_i ht; rw [still _ _ _ _ h]; exact first _ _ ht

theorem Does.map {x : Run α} {f : α → β} (first : Does R x es s) :
    Does R (x >>= fun a => pure (f a)) es s :=
  first.bind_still fun _ _ _ _ h => by cases h; rfl

theorem dispatchWith_eq (again : Mode → String → Run Output) (line : String) :
    dispatchWith again line = again (Mode.split line).1 (Mode.split line).2 >>= fun output =>
      pure output.summary := rfl

theorem Does.within (carries : Carries R) {f : Frame} (sinkless : f.Sinkless) {x : Run α}
    (inner : Does R x es (s.changeConsole f.enter)) : Does R (Run.within f x) es s := by
  intro r t h
  obtain ⟨u, hx, rfl⟩ := within_ended h
  exact carries.within sinkless (inner r u hx)

theorem Does.inScript (carries : Carries R) {dir : String} {x : Run α}
    (inner : Does R x es (s.enterScript dir)) :
    Does R (withDirectory dir (withOutput "default" x)) es s :=
  have output : Does R (withOutput "default" x) es (s.changeConsole (Frame.directory dir).enter) :=
    .within carries (f := .output _ none) trivial inner
  .within carries (f := .directory _) trivial output

theorem Does.still (carries : Carries R) {x : Run α} (still : ∀ r t, x s = some (r, t) → t = s) :
    Does R x [] s := by
  intro r t h
  rw [still r t h]
  exact carries.refl s

theorem does_loop (carries : Carries R) {one : β → Run String} (loop : String → List β → Run String)
    (nil : ∀ answer, loop answer [] = pure answer)
    (cons : ∀ answer x rest, loop answer (x :: rest) = one x >>= fun answer => loop answer rest)
    {each : β → Session → List Event} (does : ∀ x s, Does R (one x) (each x s) s)
    (xs : List β) : ∀ answer s, Does R (loop answer xs) (loopEvents one each xs s) s := by
  induction xs with
  | nil =>
    intro answer s
    rw [nil]
    exact .still carries fun _ _ h => by cases h; rfl
  | cons x rest ih =>
    intro answer s
    rw [cons]
    exact (does x s).bind carries fun a t _ => ih a t

/-! ## Scripts -/

/-- What `executeStdin` does in its directory and output. -/
def readStdin (again : Mode → String → Run Output) (multiline : Bool) : Run String := do
  let bytes ← act fun s => (s.world.stdin, s.changeWorld fun w => { w with stdin := [] })
  let (answer, unread) ← readScript again "-" multiline {} (rawLines bytes)
  change (Session.changeWorld fun w => { w with stdin := unread.flatten ++ w.stdin })
  answerOf answer

theorem executeStdin_eq (again : Mode → String → Run Output) (multiline : Bool) :
    executeStdin again multiline
      = withDirectory "." (withOutput "default" (readStdin again multiline)) := rfl

/-- What has been left unread is put back after the last statement. -/
theorem readStdin_ended {again : Mode → String → Run Output} {multiline : Bool}
    {r : Except Message String} (h : readStdin again multiline s = some (r, t)) :
    ∃ u unread, runParts again "-" s.world.stdin multiline
        (s.changeWorld fun w => { w with stdin := [] }) = some (r, u) ∧
      t = u.changeWorld fun w => { w with stdin := unread ++ w.stdin } := by
  have taken : readStdin again multiline s
      = (readScript again "-" multiline {} (rawLines s.world.stdin) >>= fun read => do
          change (Session.changeWorld fun w => { w with stdin := read.2.flatten ++ w.stdin })
          answerOf read.1) (s.changeWorld fun w => { w with stdin := [] }) := rfl
  rw [taken, bind_def] at h
  rw [← readScript_eq_runParts, bind_def]
  split at h
  · cases h
  · rename_i e u hu
    cases h
    exact ⟨t, [], rfl, rfl⟩
  · rename_i read u hu
    obtain ⟨answer, unread⟩ := read
    cases answer <;> cases h <;> exact ⟨u, unread.flatten, rfl, rfl⟩

section Scripts

variable {again : Mode → String → Run Output} {log : Mode → String → Session → List Event}
  (carries : Carries R) (ih : ∀ mode payload s, Does R (again mode payload) (log mode payload s) s)

include carries ih

theorem does_runOne (source : String) (st : Statement) (s : Session) :
    Does R (runOne again source st) (statementEvents log source st s) s := by
  unfold runOne statementEvents
  cases interrupted : s.interrupted with
  | true =>
    refine .still carries fun r t h => ?_
    simp only [bind_def, checkInterrupt, interrupted, if_true] at h
    cases h
    rfl
  | false =>
    have quiet : checkInterrupt s = some (.ok (), s) := by simp [checkInterrupt, interrupted]
    intro r t h
    rw [bind_def, quiet] at h
    exact Does.map (Does.within carries (f := .source _) trivial (ih _ _ _)) r t h

theorem does_runParts (source : String) (bytes : List UInt8) (multiline : Bool) (s : Session) :
    Does R (runParts again source bytes multiline)
      (scriptEvents again log source bytes multiline s) s := by
  have loop := does_loop carries (runStatements again source) (fun _ => rfl)
    (fun _ _ _ => rfl) (does_runOne carries ih source) (parts multiline bytes) "" s
  refine loop.bind_still fun a t r u h => ?_
  unfold finish at h
  split at h <;> cases h <;> rfl

theorem does_executeScript (source dir : String) (bytes : List UInt8) (multiline : Bool)
    (s : Session) :
    Does R (executeScript again source dir bytes multiline)
      (scriptEvents again log source bytes multiline (s.enterScript dir)) s := by
  rw [executeScript_eq_runParts]
  exact .inScript carries (does_runParts carries ih source bytes multiline _)

theorem does_readStdin (multiline : Bool) (s : Session) :
    Does R (readStdin again multiline)
      (scriptEvents again log "-" s.world.stdin multiline
        (s.changeWorld fun w => { w with stdin := [] })) s := by
  intro r t h
  obtain ⟨u, unread, ran, rfl⟩ := readStdin_ended h
  have taken := carries.stdin s fun _ => []
  have left := carries.stdin u fun bytes => unread ++ bytes
  have run := does_runParts carries ih "-" s.world.stdin multiline _ r u ran
  simpa using carries.trans (carries.trans taken run) left

theorem does_executeCandidate (multiline : Bool) (c : Candidate) (s : Session) :
    Does R (executeCandidate again multiline c) (candidateEvents again log multiline c s) s := by
  unfold candidateEvents
  cases hc : c.source with
  | stdin =>
    have named : executeCandidate again multiline c = executeStdin again multiline := by
      simp only [executeCandidate, hc]
    rw [named, executeStdin_eq]
    exact .inScript carries (does_readStdin carries ih multiline _)
  | file path =>
    dsimp only
    rcases read : s.disk.read path with e | bytes
    · rcases find : s.disk.find path with e' | found
      · rw [Does, executeCandidate_missing hc find]
        exact Does.still carries fun r t h => by cases h; rfl
      · rw [Does, executeCandidate_unreadable hc find read]
        exact Does.inScript carries (.still carries fun r t h => by cases h; rfl)
    · rw [Does, executeCandidate_read hc read]
      exact does_executeScript carries ih path (directoryOf path) bytes multiline s

theorem does_executeFile (invocation : String) (multiline : Bool) (s : Session) :
    Does R (executeFile again invocation multiline) (fileEvents again log invocation multiline s)
      s := by
  unfold fileEvents
  split
  · rename_i name args named
    rw [Does, executeFile_named named]
    refine Does.within carries (f := .scope _) trivial ?_
    have resolved : Does R (resolveScript name) [] (s.enterArguments (name :: args)) := by
      intro r t h
      unfold resolveScript at h
      split at h <;> cases h <;> exact carries.resolver _ _
    have run := resolved.bind carries fun found t _ =>
      does_loop carries (executeAll again multiline) (fun _ => rfl) (fun _ _ _ => rfl)
        (does_executeCandidate carries ih multiline) found "" t
    rwa [List.nil_append] at run
  · rename_i unnamed
    refine .still carries fun r t h => ?_
    unfold executeFile at h
    split at h
    · cases h; rfl
    · cases h; rfl
    · exact absurd ‹_› (unnamed _ _)

end Scripts

end Run

end LogConsole
