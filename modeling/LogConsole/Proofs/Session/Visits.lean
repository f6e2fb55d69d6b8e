import LogConsole.Proofs.Script.Resolution
import LogConsole.Proofs.Session.Refreshes

/-!
# LogConsole.Proofs.Session.Visits

The names that are resolved in a run, and the scripts that are executed, in order.

* `Visit`    — a name is resolved in a session, or a candidate is executed;
* `Account`  — a list of visits in which every resolution finds the latch as the one before has left
  it, and standard input is executed only as long as it is at hand;
* `visits`   — the visits of a payload in its mode, told along its run as `Run.events` tells the events:
  `fileVisits`, `scriptVisits`, `procedureVisits`, …;
* `Tracks n x vs m s` — the visits `vs` of `x` from `s` are an account, from the latch of `s` to that
  of the session in which `x` ends, if it does. Standard input is at hand `n` times before, and
  `m` of the answer times after it;
* `Tracks.seq`, `Tracks.frame`, `Tracks.of_ended` — the rules: one computation after another, what is
  at hand for later, and what changes no more than the answer or the frames;
* `tracks_visits` — what a payload visits is an account, however deep lines are nested in it and
  whether or not it comes to an end.
-/

namespace LogConsole

/-- What a name stands for in a session. -/
def Session.resolution (s : Session) (name : String) :
    Except Message (List Candidate) × Resolver :=
  s.resolver.resolve s.context s.disk name

inductive Visit where
  | resolved (name : String) (s : Session)
  | executed (c : Candidate)

namespace Visit

/-- How many times standard input is given out. -/
def given : Visit → Nat
  | .resolved name s => stdinsOf (s.resolution name).1
  | .executed _ => 0

/-- Standard input is executed. -/
def runsStdin : Visit → Bool
  | .resolved _ _ => false
  | .executed c => c.isStdin

/-- A name for standard input is resolved. -/
def namesStdin : Visit → Bool
  | .resolved name _ => Resolver.isStdin name
  | .executed _ => false

end Visit

open Resolver (isStdin)

/-- The latch and how many times standard input is at hand, before and after visits. -/
inductive Account : Bool → Nat → List Visit → Bool → Nat → Prop where
  | nil {taken : Bool} {hand : Nat} : Account taken hand [] taken hand
  | resolved {name : String} {s : Session} {hand left : Nat} {vs : List Visit} {taken : Bool}
      (rest : Account (s.resolver.stdinTaken || isStdin name)
        (hand + stdinsOf (s.resolution name).1) vs taken left) :
      Account s.resolver.stdinTaken hand (.resolved name s :: vs) taken left
  | executed {c : Candidate} {hand left : Nat} {vs : List Visit} {before taken : Bool}
      (rest : Account before hand vs taken left) :
      Account before (hand + if c.isStdin then 1 else 0) (.executed c :: vs) taken left

namespace Account

variable {b c d : Bool} {h k l : Nat} {vs ws : List Visit}

theorem append (first : Account b h vs c k) (second : Account c k ws d l) :
    Account b h (vs ++ ws) d l := by
  induction first with
  | nil => exact second
  | resolved _ ih => exact .resolved (ih second)
  | executed _ ih => exact .executed (ih second)

/-- What else is at hand makes no difference. -/
theorem frame (more : Nat) (account : Account b h vs c k) :
    Account b (h + more) vs c (k + more) := by
  induction account with
  | nil => exact .nil
  | resolved _ ih =>
    refine .resolved ?_
    rwa [Nat.add_right_comm]
  | executed _ ih =>
    rw [Nat.add_right_comm]
    exact .executed ih

/-- The latch is set in the end if it was before, or a name for standard input is among those that
have been resolved. -/
theorem taken_eq (account : Account b h vs c k) : c = (b || vs.any Visit.namesStdin) := by
  induction account with
  | nil => simp
  | resolved _ ih => rw [ih, List.any_cons, Bool.or_assoc]; rfl
  | executed _ ih => rw [ih, List.any_cons]; rfl

/-- Each resolution finds the latch set exactly if it was set before the visits, or a name for
standard input has been resolved before. -/
theorem finds (account : Account b h vs c k) {before after : List Visit} {name : String}
    {s : Session} (there : vs = before ++ .resolved name s :: after) :
    s.resolver.stdinTaken = (b || before.any Visit.namesStdin) := by
  induction account generalizing before with
  | nil => simp at there
  | resolved _ ih =>
    cases before with
    | nil =>
      cases there
      simp
    | cons first rest =>
      cases there
      rw [ih rfl, List.any_cons, Bool.or_assoc]
      rfl
  | executed _ ih =>
    cases before with
    | nil => cases there
    | cons first rest =>
      cases there
      rw [ih rfl, List.any_cons]
      rfl

/-- A name for standard input that is resolved leaves the latch set for all that come after it. -/
theorem set_after (account : Account b h vs c k) {before after : List Visit} {name other : String}
    {s t : Session} (there : vs = before ++ .resolved name s :: after)
    (stdin : isStdin name = true) (later : .resolved other t ∈ after) :
    t.resolver.stdinTaken = true := by
  obtain ⟨between, more, rfl⟩ := List.append_of_mem later
  have split : vs = (before ++ .resolved name s :: between) ++ .resolved other t :: more :=
    there.trans (by simp)
  rw [account.finds split]
  simp [Visit.namesStdin, stdin]

/-- Standard input is executed no more often than it is at hand or given out. -/
theorem runs_le (account : Account b h vs c k) :
    vs.countP Visit.runsStdin + k ≤ h + (vs.map Visit.given).sum := by
  induction account with
  | nil => simp
  | resolved _ ih =>
    rw [List.countP_cons_of_neg (by simp [Visit.runsStdin]), List.map_cons, List.sum_cons]
    simp only [Visit.given]
    omega
  | @executed c _ _ _ _ _ _ ih =>
    have given : (Visit.executed c).given = 0 := rfl
    have runs : (Visit.executed c).runsStdin = c.isStdin := rfl
    rw [List.countP_cons, List.map_cons, List.sum_cons, given, runs]
    omega

/-- Standard input is given out once at most, and not at all if it had been before. -/
theorem given_le (account : Account b h vs c k) :
    (vs.map Visit.given).sum ≤ if b then 0 else 1 := by
  induction account with
  | nil => simp
  | @resolved name s _ _ _ _ _ ih =>
    rw [List.map_cons, List.sum_cons]
    simp only [Visit.given, Session.resolution, Resolver.stdins_resolve]
    cases taken : s.resolver.stdinTaken <;> cases stdin : isStdin name <;>
      simp [taken, stdin] at ih ⊢ <;> omega
  | executed _ ih => simpa [Visit.given] using ih

end Account

namespace Run

open Session Script

variable {α β : Type}

/-! ## Visits -/

/-- The visits of what comes after a computation. -/
def visitsAfter (x : Run α) (next : Except Message α → Session → List Visit) (s : Session) :
    List Visit :=
  match x s with
  | none => []
  | some (r, t) => next r t

/-- The visits of what comes after a computation that succeeds. -/
def visitsAfterSuccess (x : Run α) (next : α → Session → List Visit) : Session → List Visit :=
  visitsAfter x fun r t =>
    match r with
    | .ok a => next a t
    | .error _ => []

def loopVisits (one : β → Run String) (each : β → Session → List Visit) :
    List β → Session → List Visit
  | [], _ => []
  | x :: rest, s =>
    each x s ++ visitsAfterSuccess (one x) (fun _ => loopVisits one each rest) s

section Along

variable (again : Mode → String → Run Output) (log : Mode → String → Session → List Visit)

def lineVisits (line : String) (s : Session) : List Visit :=
  log (Mode.split line).1 (Mode.split line).2 s

/-- An interrupt keeps a statement from running. -/
def statementVisits (source : String) (st : Statement) (s : Session) : List Visit :=
  if s.interrupted then [] else log st.mode st.payload (s.enterStatement source st)

def scriptVisits (source : String) (bytes : List UInt8) (multiline : Bool) :
    Session → List Visit :=
  loopVisits (runOne again source) (statementVisits log source) (parts multiline bytes)

/-- Where the text of a candidate is at hand, its statements are run. -/
def textVisits (multiline : Bool) (c : Candidate) (s : Session) : List Visit :=
  match c.source with
  | .stdin =>
    scriptVisits again log "-" s.world.stdin multiline
      ((s.enterScript ".").changeWorld fun w => { w with stdin := [] })
  | .file path =>
    match s.disk.read path with
    | .error _ => []
    | .ok bytes =>
      scriptVisits again log path bytes multiline (s.enterScript (directoryOf path))

def candidateVisits (multiline : Bool) (c : Candidate) (s : Session) : List Visit :=
  .executed c :: textVisits again log multiline c s

def fileVisits (invocation : String) (multiline : Bool) (s : Session) : List Visit :=
  match splitExpanded s.console.lookup invocation with
  | .ok (name :: args) =>
    .resolved name (s.enterArguments (name :: args)) ::
      visitsAfterSuccess (resolveScript name)
        (loopVisits (executeCandidate again multiline) (candidateVisits again log multiline))
        (s.enterArguments (name :: args))
  | _ => []

def requestVisits (q : Request) (s : Session) : List Visit :=
  match q with
  | .line text => lineVisits log text s
  | .dispatch text => lineVisits log text s
  | .command line => log .command line s
  | .query text => log .query text s
  | .file invocation multiline => fileVisits again log invocation multiline s
  | .reader source dir bytes multiline =>
    scriptVisits again log source bytes multiline (s.enterScript dir)

def procedureVisits : Procedure → Session → List Visit
  | .answer _, _ => []
  | .look next, s => procedureVisits (next s.context) s
  | .within f inner next, s =>
    procedureVisits inner (s.changeConsole f.enter)
      ++ visitsAfter (within f (runProcedure again inner)) (fun r t => procedureVisits (next r) t) s
  | .request q next, s =>
    requestVisits again log q s
      ++ visitsAfter (runRequest again q) (fun r t => procedureVisits (next r) t) s

/-- Of the commands that are built in, `eval` dispatches a line. -/
def builtinVisits (b : Builtin) (line : String) (s : Session) : List Visit :=
  match b with
  | .eval =>
    match s.evaluated? line with
    | some text => lineVisits log text (s.enterEval text)
    | none => []
  | _ => []

def commandVisits (line : String) (s : Session) : List Visit :=
  match s.command? line with
  | none => []
  | some c =>
    match c.handler with
    | .builtin b => builtinVisits log b line (s.enterHelp c)
    | .procedure start =>
      procedureVisits again log (start line (Text.words line)) (s.enterHelp c)

def stepVisits (mode : Mode) (payload : String) (s : Session) : List Visit :=
  match mode with
  | .command => commandVisits again log payload s
  | .search => []
  | .query => []
  | .script => fileVisits again log payload true s

end Along

/-- The visits of a payload. -/
def visits : Nat → Mode → String → Session → List Visit
  | 0, _, _, _ => []
  | fuel + 1, mode, payload, s => stepVisits (dispatchMode fuel) (visits fuel) mode payload s

/-! ## Rules -/

/-- The answer to nothing that is at hand. -/
def nothing : Except Message α → Nat := fun _ => 0

/-- The visits are an account, also if the run does not end. -/
def Tracks (n : Nat) (x : Run α) (vs : List Visit) (m : Except Message α → Nat) (s : Session) :
    Prop :=
  ∃ taken left, Account s.resolver.stdinTaken n vs taken left ∧
    ∀ r t, x s = some (r, t) → t.resolver.stdinTaken = taken ∧ m r ≤ left

section Rules

variable {n : Nat} {x : Run α} {vs : List Visit} {m : Except Message α → Nat} {s u : Session}

theorem Tracks.congr {y : Run α} (tracks : Tracks n x vs m s) (same : y s = x s) :
    Tracks n y vs m s := by
  rw [Tracks, same]
  exact tracks

/-- What is at hand for later stays at hand. -/
theorem Tracks.frame (more : Nat) (tracks : Tracks n x vs m s) :
    Tracks (n + more) x vs (fun r => m r + more) s := by
  obtain ⟨taken, left, account, ended⟩ := tracks
  refine ⟨taken, left + more, account.frame more, fun r t h => ?_⟩
  obtain ⟨latch, enough⟩ := ended r t h
  exact ⟨latch, Nat.add_le_add_right enough more⟩

theorem Tracks.seq {y : Except Message α → Run β} {z : Run β} {k : Except Message β → Nat}
    {next : Except Message α → Session → List Visit} (first : Tracks n x vs m s)
    (stops : x s = none → z s = none) (goes : ∀ r t, x s = some (r, t) → z s = y r t)
    (second : ∀ r t, x s = some (r, t) → Tracks (m r) (y r) (next r t) k t) :
    Tracks n z (vs ++ visitsAfter x next s) k s := by
  obtain ⟨taken, left, account, ended⟩ := first
  rw [Tracks, visitsAfter]
  rcases hx : x s with _ | ⟨r, t⟩
  · refine ⟨taken, left, by rwa [List.append_nil], fun r t h => ?_⟩
    rw [stops hx] at h
    cases h
  · obtain ⟨latch, enough⟩ := ended r t hx
    obtain ⟨taken', left', account', ended'⟩ := second r t hx
    rw [goes r t hx]
    have later := account'.frame (left - m r)
    rw [latch, Nat.add_sub_cancel' enough] at later
    refine ⟨taken', _, account.append later, fun r' u h => ?_⟩
    obtain ⟨latch', enough'⟩ := ended' r' u h
    exact ⟨latch', Nat.le_add_right_of_le enough'⟩

theorem Tracks.still (same : ∀ r t, x s = some (r, t) → t.resolver = s.resolver) :
    Tracks n x [] nothing s :=
  ⟨_, n, .nil, fun r t h => ⟨by rw [same r t h], Nat.zero_le n⟩⟩

theorem Tracks.bind {f : α → Run β} {next : α → Session → List Visit}
    (first : Tracks n x vs m s)
    (second : ∀ a t, x s = some (.ok a, t) → Tracks (m (.ok a)) (f a) (next a t) nothing t) :
    Tracks n (x >>= f) (vs ++ visitsAfterSuccess x next s) nothing s := by
  let y : Except Message α → Run β := fun r =>
    match r with
    | .ok a => f a
    | .error e => throw e
  refine first.seq (y := y) (fun h => by rw [bind_def, h]) ?_ ?_
  · intro r t h
    rw [bind_def, h]
    cases r <;> rfl
  · intro r t h
    cases r with
    | ok a => exact second a t h
    | error e => exact .still fun _ _ thrown => by cases thrown; rfl

/-- Frames, and what changes the answer only, leave the latch alone. -/
theorem Tracks.of_ended {y : Run β} (inner : Tracks n x vs m u)
    (before : u.resolver = s.resolver)
    (ended : ∀ r t, y s = some (r, t) → ∃ r' v, x u = some (r', v) ∧ t.resolver = v.resolver) :
    Tracks n y vs nothing s := by
  obtain ⟨taken, left, account, last⟩ := inner
  rw [before] at account
  refine ⟨taken, left, account, fun r t h => ?_⟩
  obtain ⟨r', v, hx, same⟩ := ended r t h
  rw [same]
  exact ⟨(last r' v hx).1, Nat.zero_le left⟩

theorem Tracks.bind_still {f : α → Run β} (inner : Tracks n x vs m s)
    (still : ∀ a t r u, f a t = some (r, u) → u = t) : Tracks n (x >>= f) vs nothing s :=
  inner.of_ended rfl fun r t h => by
    rw [bind_def] at h
    split at h <;> rename_i hx
    · cases h
    · cases h; exact ⟨_, t, hx, rfl⟩
    · exact ⟨_, _, hx, by rw [still _ _ _ _ h]⟩

theorem Tracks.map {f : α → β} (inner : Tracks n x vs m s) :
    Tracks n (x >>= fun a => pure (f a)) vs nothing s :=
  inner.bind_still fun _ _ _ _ h => by cases h; rfl

theorem Tracks.within {f : Frame} (inner : Tracks n x vs m (s.changeConsole f.enter)) :
    Tracks n (Run.within f x) vs nothing s :=
  inner.of_ended rfl fun r t h => by
    obtain ⟨v, hx, rfl⟩ := within_ended h
    exact ⟨r, v, hx, rfl⟩

theorem Tracks.inScript {dir : String} (inner : Tracks n x vs m (s.enterScript dir)) :
    Tracks n (withDirectory dir (withOutput "default" x)) vs nothing s :=
  Tracks.within (f := .directory dir) (Tracks.within (f := .output "default" none) inner)

theorem Tracks.executed {c : Candidate} (inner : Tracks 0 x vs m s) :
    Tracks (if c.isStdin then 1 else 0) x (.executed c :: vs) m s := by
  obtain ⟨taken, left, account, ended⟩ := inner
  have first := account.executed (c := c)
  rw [Nat.zero_add] at first
  exact ⟨taken, left, first, ended⟩

/-- One after another, with those at hand that are still to come. -/
theorem tracks_loop {one : β → Run String} (loop : String → List β → Run String)
    (nil : ∀ answer, loop answer [] = pure answer)
    (cons : ∀ answer x rest, loop answer (x :: rest) = one x >>= fun answer => loop answer rest)
    {each : β → Session → List Visit} {p : β → Bool}
    (tracks : ∀ x s, Tracks (if p x then 1 else 0) (one x) (each x s) nothing s) (xs : List β) :
    ∀ answer s, Tracks (xs.countP p) (loop answer xs) (loopVisits one each xs s) nothing s := by
  induction xs with
  | nil =>
    intro answer s
    rw [nil]
    exact .still fun _ _ h => by cases h; rfl
  | cons x rest ih =>
    intro answer s
    rw [cons, List.countP_cons, Nat.add_comm]
    refine ((tracks x s).frame (rest.countP p)).bind fun a t _ => ?_
    rw [nothing, Nat.zero_add]
    exact ih a t

end Rules

/-! ## What resolves nothing -/

def SameResolver (s t : Session) : Prop := t.resolver = s.resolver

theorem queries_sameResolver : Queries SameResolver where
  refl _ := rfl
  trans h k := Eq.trans k h
  clear _ := rfl
  collect _ _ _ _ := rfl
  store _ := rfl

theorem outputs_sameResolver : Outputs SameResolver where
  refl _ := rfl
  trans h k := Eq.trans k h
  print _ _ _ := rfl
  screen _ := rfl
  redirect _ opened := by obtain ⟨w, rfl⟩ := openTarget_ended opened; rfl
  «export» _ _ opened := by obtain ⟨w, rfl⟩ := openTarget_ended opened; rfl

theorem captured_resolver (s : Session) (text : String) (bytes : List UInt8) :
    (s.captured text bytes).resolver = s.resolver := by
  simp only [captured, pipe]
  split <;> rfl

theorem ends_runShell (line : String) {s : Session} : Ends SameResolver (runShell line) s := by
  intro r u h
  obtain rfl | ⟨-, bytes, t, started, rfl⟩ := runShell_ended h
  · rfl
  · obtain ⟨w, rfl⟩ := startShell_ended started
    exact captured_resolver _ _ _

theorem refreshAfter_resolver (s : Session) : (refreshAfter s).resolver = s.resolver := by
  unfold refreshAfter
  split <;> rfl

/-! ## Runs -/

theorem tracks_resolveScript (name : String) (s : Session) :
    Tracks 0 (resolveScript name) [.resolved name s] stdinsOf s := by
  refine ⟨_, _, .resolved .nil, fun r t h => ?_⟩
  have latch := Resolver.latch_resolve s.resolver s.context s.disk name
  rw [Nat.zero_add, Session.resolution]
  unfold resolveScript at h
  split at h <;> rename_i answer <;> rw [answer] at latch ⊢ <;> cases h <;>
    exact ⟨congrArg Resolver.stdinTaken latch, Nat.le_refl _⟩

section Again

variable {again : Mode → String → Run Output} {log : Mode → String → Session → List Visit}
  (ih : ∀ mode payload s, Tracks 0 (again mode payload) (log mode payload s) nothing s)

include ih

theorem tracks_runOne (source : String) (st : Statement) (s : Session) :
    Tracks 0 (runOne again source st) (statementVisits log source st s) nothing s := by
  unfold runOne statementVisits
  cases interrupted : s.interrupted with
  | true =>
    refine .still fun r t h => ?_
    simp only [bind_def, checkInterrupt, interrupted, if_true] at h
    cases h
    rfl
  | false =>
    have quiet : checkInterrupt s = some (.ok (), s) := by simp [checkInterrupt, interrupted]
    refine Tracks.congr (x := withSource (statementSource source st.line st.mode st.payload)
      (again st.mode st.payload) >>= fun output => pure output.summary) ?_ ?_
    · exact Tracks.map (Tracks.within (f := .source _) (ih _ _ _))
    · rw [bind_def, quiet]
      rfl

theorem tracks_runParts (source : String) (bytes : List UInt8) (multiline : Bool) (s : Session) :
    Tracks 0 (runParts again source bytes multiline)
      (scriptVisits again log source bytes multiline s) nothing s := by
  have loop := tracks_loop (runStatements again source) (fun _ => rfl) (fun _ _ _ => rfl)
    (p := fun _ => false) (tracks_runOne ih source) (parts multiline bytes) "" s
  rw [List.countP_false] at loop
  refine loop.bind_still fun a t r u h => ?_
  unfold finish at h
  split at h <;> cases h <;> rfl

theorem tracks_executeScript (source dir : String) (bytes : List UInt8) (multiline : Bool)
    (s : Session) :
    Tracks 0 (executeScript again source dir bytes multiline)
      (scriptVisits again log source bytes multiline (s.enterScript dir)) nothing s := by
  rw [executeScript_eq_runParts]
  exact .inScript (tracks_runParts ih source bytes multiline _)

theorem tracks_readStdin (multiline : Bool) (s : Session) :
    Tracks 0 (readStdin again multiline)
      (scriptVisits again log "-" s.world.stdin multiline
        (s.changeWorld fun w => { w with stdin := [] })) nothing s := by
  refine (tracks_runParts ih "-" s.world.stdin multiline _).of_ended rfl fun r t h => ?_
  obtain ⟨u, unread, ran, rfl⟩ := readStdin_ended h
  exact ⟨r, u, ran, rfl⟩

/-- A candidate whose text is not at hand resolves nothing. -/
theorem tracks_executeCandidate (multiline : Bool) (c : Candidate) (s : Session) :
    Tracks (if c.isStdin then 1 else 0) (executeCandidate again multiline c)
      (candidateVisits again log multiline c s) nothing s := by
  refine Tracks.executed ?_
  unfold textVisits
  cases hc : c.source with
  | stdin =>
    have named : executeCandidate again multiline c = executeStdin again multiline := by
      simp only [executeCandidate, hc]
    rw [named, executeStdin_eq]
    exact .inScript (tracks_readStdin ih multiline _)
  | file path =>
    dsimp only
    rcases read : s.disk.read path with e | bytes
    · rcases find : s.disk.find path with e' | found
      · refine Tracks.congr ?_ (executeCandidate_missing hc find)
        exact .still fun r t h => by cases h; rfl
      · refine Tracks.congr ?_ (executeCandidate_unreadable hc find read)
        exact .inScript (.still fun r t h => by cases h; rfl)
    · exact (tracks_executeScript ih path (directoryOf path) bytes multiline s).congr
        (executeCandidate_read hc read)

/-- What is resolved is at hand for what is executed. -/
theorem tracks_executeFile (invocation : String) (multiline : Bool) (s : Session) :
    Tracks 0 (executeFile again invocation multiline) (fileVisits again log invocation multiline s)
      nothing s := by
  unfold fileVisits
  split
  case h_1 name args named =>
    refine Tracks.congr ?_ (executeFile_named named)
    refine Tracks.within (f := .scope _) (m := nothing) ?_
    exact (tracks_resolveScript name (s.enterArguments (name :: args))).bind fun found t _ =>
      tracks_loop (executeAll again multiline) (fun _ => rfl) (fun _ _ _ => rfl)
        (tracks_executeCandidate ih multiline) found "" t
  case h_2 unnamed =>
    refine .still fun r t h => ?_
    unfold executeFile at h
    split at h
    · cases h; rfl
    · cases h; rfl
    · exact absurd ‹_› (unnamed _ _)

/-! ## Commands -/

theorem tracks_executeWith (line : String) (s : Session) :
    Tracks 0 (executeWith again line) (lineVisits log line s) nothing s := by
  refine (ih (Mode.split line).1 (Mode.split line).2 s).of_ended rfl fun r t h => ?_
  obtain ⟨ended, u, ran, rfl, -⟩ := executeWith_ended (fun _ _ _ => []) h
  exact ⟨ended, u, ran, refreshAfter_resolver u⟩

theorem tracks_dispatchWith (line : String) (s : Session) :
    Tracks 0 (dispatchWith again line) (lineVisits log line s) nothing s := by
  rw [dispatchWith_eq]
  exact (ih _ _ s).map

theorem tracks_eval (line : String) (s : Session) :
    Tracks 0 (eval again line) (builtinVisits log .eval line s) nothing s := by
  unfold builtinVisits
  cases evaluated : s.evaluated? line with
  | some text =>
    refine Tracks.congr ?_ (eval_evaluates (evaluated?_eq_some.1 evaluated))
    exact Tracks.within (f := .source _) (tracks_executeWith ih text _)
  | none =>
    have alone : ∀ text, ¬ Evaluates s line text := by
      intro text h
      rw [evaluated?_eq_some.2 h] at evaluated
      cases evaluated
    refine Tracks.congr (.still fun r t h => ?_) (eval_alone alone)
    rw [eval_endless_still h]

theorem tracks_runBuiltin (b : Builtin) (line : String) (words : List String) (s : Session) :
    Tracks 0 (runBuiltin again b line words) (builtinVisits log b line s) nothing s := by
  cases b with
  | echo => exact .still (ends_echo outputs_sameResolver line words)
  | eval => exact tracks_eval ih line s
  | redirectTo => exact .still (ends_redirectTo outputs_sameResolver line)
  | writeCsv => exact .still (ends_writeResults outputs_sameResolver csvText line)
  | writeJson => exact .still (ends_writeResults outputs_sameResolver jsonText line)
  | shell => exact .still (ends_runShell line)
  | help =>
    have still : Ends SameResolver (showHelp line) s :=
      ends_showHelp queries_sameResolver.refl line
    exact .still still

theorem tracks_runRequest (q : Request) (s : Session) :
    Tracks 0 (runRequest again q) (requestVisits again log q s) nothing s := by
  cases q with
  | line text => exact tracks_executeWith ih text s
  | dispatch text => exact tracks_dispatchWith ih text s
  | command line => exact (ih _ _ s).map
  | query text => exact (ih _ _ s).map
  | file invocation multiline => exact tracks_executeFile ih invocation multiline s
  | reader source dir bytes multiline =>
    exact tracks_executeScript ih source dir bytes multiline s

theorem tracks_runProcedure (p : Procedure) :
    ∀ s, Tracks 0 (runProcedure again p) (procedureVisits again log p s) nothing s := by
  induction p with
  | answer result => exact fun s => .still fun r t h => by cases h; rfl
  | look next ihn => exact fun s => ihn s.context s
  | within f inner next ihi ihn =>
    intro s
    have inside : Tracks 0 (within f (runProcedure again inner))
        (procedureVisits again log inner (s.changeConsole f.enter)) nothing s := .within (ihi _)
    refine inside.seq (y := fun r => runProcedure again (next r)) (fun h => ?_) (fun r t h => ?_)
      fun r t _ => ihn r t
    all_goals simp only [runProcedure, h]
  | request q next ihn =>
    intro s
    refine (tracks_runRequest ih q s).seq (y := fun r => runProcedure again (next r))
      (fun h => ?_) (fun r t h => ?_) fun r t _ => ihn r t
    all_goals simp only [runProcedure, h]

theorem tracks_runCommand (line : String) (s : Session) :
    Tracks 0 (runCommand again line) (commandVisits again log line s) nothing s := by
  unfold commandVisits
  cases called : s.command? line with
  | none => exact .still fun r t h => by rw [runCommand_missing_still called h]
  | some c =>
    refine Tracks.congr ?_ (runCommand_found called)
    dsimp only
    cases handler : c.handler with
    | builtin b => exact Tracks.within (f := .help _) (tracks_runBuiltin ih b line _ _)
    | procedure start => exact Tracks.within (f := .help _) (tracks_runProcedure ih _ _)

theorem tracks_step (mode : Mode) (payload : String) (s : Session) :
    Tracks 0 (step again mode payload) (stepVisits again log mode payload s) nothing s := by
  unfold step stepVisits
  cases mode with
  | command => exact (tracks_runCommand ih payload s).map
  | search => exact .still fun r t h => by cases h; rfl
  | query =>
    have still : Ends SameResolver (runQuery payload) s := ends_runQuery queries_sameResolver payload
    exact .still still
  | script => exact (tracks_executeFile ih payload true s).map

end Again

/-- The induction is on how deep lines are nested. -/
theorem tracks_visits (fuel : Nat) : ∀ mode payload s,
    Tracks 0 (dispatchMode fuel mode payload) (visits fuel mode payload s) nothing s := by
  induction fuel with
  | zero =>
    intro mode payload s
    exact .still fun r t h => by rw [dispatchMode] at h; cases h
  | succ fuel ih =>
    intro mode payload s
    exact tracks_step ih mode payload s

end Run

end LogConsole
