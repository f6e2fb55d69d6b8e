import LogConsole.Program
import LogConsole.Proofs.Session.Descent

/-!
# LogConsole.Proofs.Session.Provenance

Every failure says what failed and where, and comes out as it was told.

* `Job`                 — what can be run: a payload in its mode, the scripts that a name stands
  for, the text of a script;
* `Arises m fuel j s opened u` — the job `j` is run from `s` and comes to something that fails by
  itself with `m` in the session `u`, inside of the frames `opened`, innermost first;
* `fails_iff_arises`    — a job fails with `m` exactly if that is so, by induction on the fuel;
* `Arises.around`       — the frames that are open in `u` are `opened`, and those of `s` below;
* `Arises.told`         — the message points to the innermost of them;
* `start_atRest`        — a session starts with the frame `command:1` and no other;
* `every_failure_is_located` — all of it, for all ways to run a line.
-/

namespace LogConsole

namespace Run

open Session Script

variable {s : Session} {fuel : Nat}

/-! ## Acts on the way -/

theorem byActs_runOne {source : String} {st : Statement} :
    ByActs (runOne (dispatchMode fuel) source st) s :=
  byActs_checkInterrupt.bind fun _ _ _ => ByActs.map (.within (dispatchMode_byActs fuel _ _ _))

theorem byActs_runStatements {source : String} (sts : List Statement) (answer : String) :
    ByActs (runStatements (dispatchMode fuel) source answer sts) s := by
  induction sts generalizing answer s with
  | nil => exact byActs_pure answer
  | cons st rest ih => exact byActs_runOne.bind fun a _ _ => ih a

end Run

namespace Session

open Run Script

variable {s t u v : Session} {m : Message} {fuel : Nat}

/-- The same sources are open, and there are the same commands. -/
def SameAround (s t : Session) : Prop :=
  t.context.sources = s.context.sources ∧ t.commands = s.commands

theorem Acts.sameAround (acts : Acts s t) : SameAround s t := ⟨acts.kept.sources, acts.commands⟩

theorem ComesToFile.sameAround {invocation : String} {multiline : Bool} {c : Candidate}
    (h : ComesToFile (dispatchMode fuel) invocation multiline s c v) : SameAround s v := by
  obtain ⟨-, resolved, ran⟩ := h
  have found := byActs_resolveScript _ _ _ resolved
  have before := byActs_executeAll (dispatchMode_byActs fuel) multiline _ _ _ _ _ ran
  exact (Acts.trans found before).sameAround

theorem Opens.sameAround {c : Candidate} {source dir : String} {bytes : List UInt8}
    (h : Opens s c source dir bytes t) : SameAround s t := by
  cases h <;> exact ⟨rfl, rfl⟩

theorem ComesTo.sameAround {source dir : String} {bytes : List UInt8} {multiline : Bool}
    {st : Statement} (h : ComesTo (dispatchMode fuel) source dir bytes multiline s st v) :
    SameAround s v := by
  obtain ⟨-, ran⟩ := h
  exact (byActs_runStatements _ _ _ _ ran).sameAround

/-! ## The way to a failure -/

/-- What can be run. -/
inductive Job where
  | payload (mode : Mode) (text : String)
  | file (invocation : String) (multiline : Bool)
  | reader (source dir : String) (bytes : List UInt8) (multiline : Bool)

def Job.Fails (fuel : Nat) (j : Job) (s : Session) (m : Message) : Prop :=
  match j with
  | .payload mode text => FailsWith (dispatchMode fuel mode text) s m
  | .file invocation multiline => FailsWith (executeScriptFile fuel invocation multiline) s m
  | .reader source dir bytes multiline => FailsWith (executeReader fuel source dir bytes multiline) s m

/-- Something that is run in the course of a job fails by itself with `m`, in the session `u`.
`opened` are the frames that the job has opened then: one for each line that `eval` dispatches and
for each statement of a script, innermost first. -/
inductive Arises (m : Message) : Nat → Job → Session → List Snippet → Session → Prop where
  | query {fuel : Nat} {s : Session} {text : String} (h : FailsWith (runQuery text) s m) :
      Arises m (fuel + 1) (.payload .query text) s [] s
  | missing {fuel : Nat} {s : Session} {line : String} (missing : s.command? line = none)
      (h : FailsWith (runCommand endless line) s m) :
      Arises m (fuel + 1) (.payload .command line) s [] s
  | builtin {fuel : Nat} {s : Session} {line : String} {c : Command} {b : Builtin}
      (called : s.command? line = some c) (builtin : c.handler = .builtin b)
      (h : FailsWith (runBuiltin endless b line (Text.words line)) (s.enterHelp c) m) :
      Arises m (fuel + 1) (.payload .command line) s [] (s.enterHelp c)
  | outside {fuel : Nat} {s : Session} {line : String} {c : Command}
      {start : String → List String → Procedure} (called : s.command? line = some c)
      (outside : c.handler = .procedure start)
      (h : FailsWith (runProcedure (dispatchMode fuel) (start line (Text.words line)))
        (s.enterHelp c) m) :
      Arises m (fuel + 1) (.payload .command line) s [] (s.enterHelp c)
  | eval {fuel : Nat} {s u : Session} {line text : String} {c : Command} {opened : List Snippet}
      (called : s.command? line = some c) (builtin : c.handler = .builtin .eval)
      (comes : Evaluates (s.enterHelp c) line text)
      (inner : Arises m fuel (.payload (Mode.split text).1 (Mode.split text).2)
        ((s.enterHelp c).enterEval text) opened u) :
      Arises m (fuel + 1) (.payload .command line) s (opened ++ [evalSource text]) u
  | script {fuel : Nat} {s u : Session} {invocation : String} {opened : List Snippet}
      (inner : Arises m fuel (.file invocation true) s opened u) :
      Arises m (fuel + 1) (.payload .script invocation) s opened u
  | unnamed {fuel : Nat} {s : Session} {invocation : String} {multiline : Bool}
      (h : Unnamed s invocation m) : Arises m fuel (.file invocation multiline) s [] s
  | unresolved {fuel : Nat} {s u : Session} {invocation : String} {multiline : Bool}
      (h : Unresolved s invocation u m) : Arises m fuel (.file invocation multiline) s [] u
  | unopened {fuel : Nat} {s v : Session} {invocation : String} {multiline : Bool} {c : Candidate}
      (comes : ComesToFile (dispatchMode fuel) invocation multiline s c v) (h : Unopened v c m) :
      Arises m fuel (.file invocation multiline) s [] v
  | reads {fuel : Nat} {s t u v : Session} {invocation source dir : String}
      {bytes : List UInt8} {multiline : Bool} {c : Candidate} {opened : List Snippet}
      (comes : ComesToFile (dispatchMode fuel) invocation multiline s c v)
      (opens : Opens v c source dir bytes t)
      (inner : Arises m fuel (.reader source dir bytes multiline) t opened u) :
      Arises m fuel (.file invocation multiline) s opened u
  | stops {fuel : Nat} {s v : Session} {source dir : String} {bytes : List UInt8}
      {multiline : Bool} (h : Stops (dispatchMode fuel) source dir bytes multiline s v m) :
      Arises m fuel (.reader source dir bytes multiline) s [] v
  | statement {fuel : Nat} {s u v : Session} {source dir : String} {bytes : List UInt8}
      {multiline : Bool} {st : Statement} {opened : List Snippet}
      (comes : ComesTo (dispatchMode fuel) source dir bytes multiline s st v)
      (quiet : v.interrupted = false)
      (inner : Arises m fuel (.payload st.mode st.payload) (v.enterStatement source st) opened u) :
      Arises m fuel (.reader source dir bytes multiline) s
        (opened ++ [statementSource source st.line st.mode st.payload]) u

/-- Whatever encloses what fails fails with the same message. -/
theorem Arises.fails {j : Job} {opened : List Snippet} (h : Arises m fuel j s opened u) :
    j.Fails fuel s m := by
  induction h with
  | query h => exact h
  | missing missing h =>
    refine failsWith_map.2 ?_
    rwa [FailsWith, runCommand_missing missing]
  | builtin called builtin h =>
    exact failsWith_map.2 ((failsWith_runCommand_builtin called builtin).2
      (failsWith_runBuiltin.2 (.inl h)))
  | outside called outside h =>
    exact failsWith_map.2 ((failsWith_runCommand_procedure called outside).2 h)
  | eval called builtin comes _ ih =>
    exact failsWith_map.2 ((failsWith_runCommand_builtin called builtin).2
      (failsWith_runBuiltin.2 (.inr ⟨rfl, _, comes, ih⟩)))
  | script _ ih => exact failsWith_map.2 ih
  | unnamed h => exact failsWith_executeFile.2 (.inl h)
  | unresolved h => exact failsWith_executeFile.2 (.inr (.inl ⟨_, h⟩))
  | unopened comes h =>
    exact failsWith_executeFile.2 (.inr (.inr ⟨_, _, comes, failsWith_executeCandidate.2 (.inl h)⟩))
  | reads comes opens _ ih =>
    exact failsWith_executeFile.2 (.inr (.inr ⟨_, _, comes,
      failsWith_executeCandidate.2 (.inr ⟨_, _, _, _, opens, ih⟩)⟩))
  | stops h => exact failsWith_executeScript.2 (.inl ⟨_, h⟩)
  | statement comes quiet _ ih => exact failsWith_executeScript.2 (.inr ⟨_, _, comes, quiet, ih⟩)

section Search

variable (payloads : ∀ {mode : Mode} {text : String} {s : Session},
  Job.Fails fuel (.payload mode text) s m → ∃ opened u, Arises m fuel (.payload mode text) s opened u)

include payloads

theorem arises_of_reader {source dir : String} {bytes : List UInt8} {multiline : Bool}
    (h : Job.Fails fuel (.reader source dir bytes multiline) s m) :
    ∃ opened u, Arises m fuel (.reader source dir bytes multiline) s opened u := by
  obtain ⟨v, h⟩ | ⟨st, v, comes, quiet, h⟩ := failsWith_executeScript.1 h
  · exact ⟨_, v, .stops h⟩
  · obtain ⟨opened, u, inner⟩ := payloads h
    exact ⟨_, u, .statement comes quiet inner⟩

theorem arises_of_file {invocation : String} {multiline : Bool}
    (h : Job.Fails fuel (.file invocation multiline) s m) :
    ∃ opened u, Arises m fuel (.file invocation multiline) s opened u := by
  obtain h | ⟨u, h⟩ | ⟨c, v, comes, h⟩ := failsWith_executeFile.1 h
  · exact ⟨_, s, .unnamed h⟩
  · exact ⟨_, u, .unresolved h⟩
  · obtain h | ⟨source, dir, bytes, t, opens, h⟩ := failsWith_executeCandidate.1 h
    · exact ⟨_, v, .unopened comes h⟩
    · obtain ⟨opened, u, inner⟩ := arises_of_reader payloads h
      exact ⟨_, u, .reads comes opens inner⟩

theorem arises_of_command {line : String} (h : FailsWith (runCommand (dispatchMode fuel) line) s m) :
    ∃ opened u, Arises m (fuel + 1) (.payload .command line) s opened u := by
  cases called : s.command? line with
  | none =>
    rw [FailsWith, runCommand_missing called] at h
    exact ⟨_, s, .missing called h⟩
  | some c =>
    cases handler : c.handler with
    | procedure start =>
      exact ⟨_, _, .outside called handler ((failsWith_runCommand_procedure called handler).1 h)⟩
    | builtin b =>
      obtain h | ⟨rfl, text, comes, h⟩ :=
        failsWith_runBuiltin.1 ((failsWith_runCommand_builtin called handler).1 h)
      · exact ⟨_, _, .builtin called handler h⟩
      · obtain ⟨opened, u, inner⟩ := payloads h
        exact ⟨_, u, .eval called handler comes inner⟩

end Search

theorem arises_of_payload (fuel : Nat) :
    ∀ {mode : Mode} {text : String} {s : Session}, Job.Fails fuel (.payload mode text) s m →
      ∃ opened u, Arises m fuel (.payload mode text) s opened u := by
  induction fuel with
  | zero =>
    intro mode text s ⟨t, h⟩
    cases h
  | succ fuel ih =>
    intro mode text s h
    cases mode with
    | command => exact arises_of_command ih (failsWith_map.1 h)
    | search =>
      obtain ⟨t, h⟩ := h
      cases h
    | query => exact ⟨_, s, .query h⟩
    | script =>
      obtain ⟨opened, u, inner⟩ := arises_of_file ih (failsWith_map.1 h)
      exact ⟨_, u, .script inner⟩

/-- Every failure comes from something that fails by itself, and passes unchanged all that runs
around that. -/
theorem fails_iff_arises {j : Job} :
    j.Fails fuel s m ↔ ∃ opened u, Arises m fuel j s opened u := by
  refine ⟨fun h => ?_, fun ⟨opened, u, h⟩ => h.fails⟩
  cases j with
  | payload mode text => exact arises_of_payload fuel h
  | file invocation multiline => exact arises_of_file (arises_of_payload fuel) h
  | reader source dir bytes multiline => exact arises_of_reader (arises_of_payload fuel) h

/-! ## What a failure says -/

theorem Stops.sameAround {source dir : String} {bytes : List UInt8} {multiline : Bool}
    (h : Stops (dispatchMode fuel) source dir bytes multiline s v m) : SameAround s v := by
  cases h with
  | interrupted comes => exact comes.sameAround
  | cut ran => exact (byActs_runStatements _ _ _ _ ran).sameAround

/-- The frames that are open where something fails are those that were opened on the way to it,
and below them those that were open before. -/
theorem Arises.around {j : Job} {opened : List Snippet} (h : Arises m fuel j s opened u) :
    u.context.sources.toList = opened ++ s.context.sources.toList ∧ u.commands = s.commands := by
  induction h with
  | query | missing | builtin | outside | unnamed => exact ⟨rfl, rfl⟩
  | eval _ _ _ _ ih => exact ⟨by rw [ih.1, List.append_assoc]; rfl, ih.2⟩
  | script _ ih => exact ih
  | unresolved h => cases h; exact ⟨rfl, rfl⟩
  | unopened comes _ => exact ⟨by rw [comes.sameAround.1, List.nil_append], comes.sameAround.2⟩
  | reads comes opens _ ih =>
    exact ⟨by rw [ih.1, opens.sameAround.1, comes.sameAround.1],
      by rw [ih.2, opens.sameAround.2, comes.sameAround.2]⟩
  | stops h => exact ⟨by rw [h.sameAround.1, List.nil_append], h.sameAround.2⟩
  | statement comes _ _ ih =>
    refine ⟨?_, ih.2.trans comes.sameAround.2⟩
    rw [ih.1, List.append_assoc, ← comes.sameAround.1]
    rfl

/-- The frame of a line that `eval` dispatches, or that of a statement of a script. -/
inductive IsFrame : Snippet → Prop where
  | eval (text : String) : IsFrame (evalSource text)
  | statement (source : String) {bytes : List UInt8} {multiline : Bool} {st : Statement}
      (part : st ∈ parts multiline bytes) :
      IsFrame (statementSource source st.line st.mode st.payload)

theorem Arises.frames {j : Job} {opened : List Snippet} (h : Arises m fuel j s opened u) :
    ∀ f ∈ opened, IsFrame f := by
  induction h with
  | query | missing | builtin | outside | unnamed | unresolved | unopened | stops => simp
  | script _ ih => exact ih
  | reads _ _ _ ih => exact ih
  | eval _ _ _ _ ih =>
    intro f hf
    rcases List.mem_append.1 hf with hf | hf
    · exact ih f hf
    · exact List.mem_singleton.1 hf ▸ .eval _
  | statement comes _ _ ih =>
    obtain ⟨there, -⟩ := comes
    intro f hf
    rcases List.mem_append.1 hf with hf | hf
    · exact ih f hf
    · exact List.mem_singleton.1 hf ▸ .statement _ (by rw [there]; simp)

/-- A command from outside answers with a failure. -/
def OutsideFails (u : Session) (m : Message) : Prop :=
  ∃ fuel line c start, u.command? line = some c ∧ c.handler = .procedure start ∧
    FailsWith (runProcedure (dispatchMode fuel) (start line (Text.words line))) u m

theorem Unnamed.pointsTo {invocation : String} (h : Unnamed s invocation m) :
    PointsTo s.context.source m := by
  cases h
  · exact pointsTo_withReason _ _ _ _
  · exact pointsTo_error _ _ _

theorem Unresolved.pointsTo {invocation : String} (h : Unresolved s invocation u m) :
    PointsTo u.context.source m := by
  obtain ⟨-, t, h⟩ := h
  unfold resolveScript Resolver.resolve at h
  split at h
  · cases h
  · rename_i hr
    cases h
    split at hr
    · split at hr <;> cases hr
      exact pointsTo_error _ _ _
    · split at hr
      · split at hr <;> cases hr
        exact pointsTo_error _ _ _
      · cases hr

theorem Unopened.pointsTo {c : Candidate} (h : Unopened s c m) : PointsTo s.context.source m := by
  cases h <;> exact pointsTo_withReason _ _ _ _

theorem Stops.pointsTo {again : Mode → String → Run Output} {source dir : String}
    {bytes : List UInt8} {multiline : Bool} (h : Stops again source dir bytes multiline s v m) :
    PointsTo v.context.source m := by
  cases h
  · exact pointsTo_error _ _ _
  · exact pointsTo_withReason _ _ _ _

/-- A failure is told of the session that it arises in. -/
theorem Arises.told {j : Job} {opened : List Snippet} (h : Arises m fuel j s opened u) :
    Told u m ∨ OutsideFails u m := by
  induction h with
  | query h => exact .inl (runQuery_told h)
  | missing missing h => exact .inl (tells_runCommand_missing missing m h).told
  | builtin _ _ h => exact .inl (tells_runBuiltin _ _ _ m h).told
  | outside called outside h => exact .inr ⟨_, _, _, _, called, outside, h⟩
  | unnamed h => exact .inl h.pointsTo.told
  | unresolved h => exact .inl h.pointsTo.told
  | unopened _ h => exact .inl h.pointsTo.told
  | stops h => exact .inl h.pointsTo.told
  | eval _ _ _ _ ih => exact ih
  | script _ ih => exact ih
  | reads _ _ _ ih => exact ih
  | statement _ _ _ ih => exact ih

theorem not_outsideFails (only : OnlyBuiltins u.commands) : ¬ OutsideFails u m := by
  rintro ⟨fuel, line, c, start, called, outside, -⟩
  obtain ⟨name, -, called⟩ := Option.bind_eq_some_iff.1 called
  obtain ⟨b, builtin⟩ := only name c called
  rw [builtin] at outside
  cases outside

/-! ## Batches, and the start of a session -/

/-- A line as a payload in its mode. -/
def Job.line (text : String) : Job := .payload (Mode.split text).1 (Mode.split text).2

/-- An entry of a batch fails with what its payload fails with. -/
theorem executeEntry_fails {index : Nat} {command : String} :
    (∃ entry, executeEntry fuel index command s = some entry ∧ entry.result = .error m) ↔
      (Job.line command).Fails fuel (s.entryStart index command) m := by
  constructor
  · rintro ⟨entry, h, failed⟩
    obtain ⟨r, t, ht, -, hr, -⟩ := executeEntry_ended h
    cases r with
    | ok output => rw [hr] at failed; cases failed
    | error e =>
      rw [hr] at failed
      cases failed
      exact ⟨t, ht⟩
  · intro h
    obtain ⟨t, h⟩ : FailsWith (withSource (batchSource index command)
        (ensuring (dispatchMode fuel (Mode.split command).1 (Mode.split command).2) refreshHost))
        s.waitForCaptures m := failsWith_within.2 (failsWith_ensuring.2 h)
    exact ⟨⟨command, .error m, "", t⟩, by simp only [executeEntry, h]; rfl, rfl⟩

theorem entryStart_sources (index : Nat) (command : String) (s : Session) :
    (s.entryStart index command).context.sources.toList
      = batchSource index command :: s.context.sources.toList := by
  rw [← waitForCaptures_context s]
  rfl

/-- Nothing is open but the frame of a line that is typed. -/
def AtRest (s : Session) : Prop := s.context.sources = ⟨⟨"command", 1, 0, ""⟩, []⟩

theorem configure_sources (c : Config) (dataDir : String) (s : Session) :
    (s.configure c dataDir).context.sources = s.context.sources := by
  unfold configure
  dsimp only
  split <;> rfl

theorem start_atRest {c : CommandLine} {w : World} (h : Program.start c w = .ok s) : s.AtRest := by
  -- what the tables are does not matter, and they take long to make
  obtain ⟨tables, made⟩ : ∃ tables, Program.emptyTables = tables := ⟨_, rfl⟩
  unfold Program.start at h
  rw [made] at h
  dsimp only at h
  split at h
  · cases h
  · rename_i config _
    split at h
    · cases h
    · split at h
      · cases h
      · rw [← Except.ok.inj h]
        split <;>
          exact configure_sources config (dataDirectory w.environment c.dataDirectory) _

/-! ## The result -/

/-- **Every failure is located, and passed on unchanged.** A line fails with a message exactly if
it comes to something that fails by itself with that message: `eval`, scripts and batches neither
make failures of their own around it nor change it. The frames that are open there are those that
were opened on the way, each that of a line given to `eval` or of a statement of a script, and below
them those of the session: that of the entry in a batch, and that of the line itself when nothing
else is open. The message has a kind and at least one snippet. Unless the engine has failed there
with snippets of its own, there is one snippet: the innermost of these frames. Only a command from
outside may answer otherwise. -/
theorem every_failure_is_located (fuel : Nat) :
    (∀ j s m, Job.Fails fuel j s m ↔ ∃ opened u, Arises m fuel j s opened u) ∧
    (∀ j s m opened u, Arises m fuel j s opened u →
      u.context.sources.toList = opened ++ s.context.sources.toList ∧
      (∀ f ∈ opened, IsFrame f) ∧
      (Told u m ∨ OutsideFails u m) ∧ (OnlyBuiltins s.commands → Told u m)) ∧
    (∀ line s m, FailsWith (executeAny fuel line) s m ↔ (Job.line line).Fails fuel s m) ∧
    (∀ line s m, FailsWith (dispatch fuel line) s m ↔ (Job.line line).Fails fuel s m) ∧
    (∀ line s m, FailsWith (executeCommand fuel line) s m ↔
      Job.Fails (fuel + 1) (.payload .command line) s m) ∧
    (∀ text s m, FailsWith (executeQuery text) s m ↔
      Job.Fails (fuel + 1) (.payload .query text) s m) ∧
    (∀ index command (s : Session) m,
      (∃ entry, executeEntry fuel index command s = some entry ∧ entry.result = .error m) ↔
        (Job.line command).Fails fuel (s.entryStart index command) m) ∧
    (∀ index command (s : Session), (s.entryStart index command).context.sources.toList
      = batchSource index command :: s.context.sources.toList) ∧
    (∀ c w s, Program.start c w = .ok s → s.AtRest) := by
  refine ⟨fun j s m => fails_iff_arises, ?_, ?_, ?_, ?_, ?_, ?_, entryStart_sources,
    fun c w s => start_atRest⟩
  · intro j s m opened u h
    refine ⟨h.around.1, h.frames, h.told, fun only => ?_⟩
    exact h.told.resolve_right (not_outsideFails (h.around.2 ▸ only))
  · intro line s m; exact failsWith_executeWith
  · intro line s m; exact failsWith_map
  · intro line s m; exact failsWith_map.symm
  · intro text s m; exact failsWith_map
  · intro index command s m; exact executeEntry_fails

/-- A script whose first statement is a script, whose second statement is no command. -/
def nestedScripts : Session where
  console :=
    { world :=
      { disk :=
        { nodes := [([], .dir), (["inner"], .file 0), (["outer"], .file 1)]
          contents := [Text.Utf8.encode ";SELECT 1\n\n:bogus\n",
            Text.Utf8.encode "|inner\n:echo unreachable\n"] } } }

/-- The message of a failure. -/
def failureOf? {α : Type} : Except Message α → Option Message
  | .ok _ => none
  | .error m => some m

theorem failureOf?_eq_some {α : Type} {r : Except Message α} (h : failureOf? r = some m) :
    r = .error m := by
  cases r with
  | ok a => cases h
  | error e => cases h; rfl

set_option maxRecDepth 8000 in
/-- The failure of the nested script is told at its third line, as the outcome of the line and as
that of the second entry of a batch. -/
theorem nested_failure_is_located :
    let m : Message :=
      { level := .error, text := "unknown command - bogus", snippets := [⟨"inner", 3, 0, ":bogus"⟩],
        kind := some .unknownCommand }
    FailsWith (executeAny 5 "|outer") nestedScripts m ∧
    (∃ opened u, Arises m 5 (.line "|outer") nestedScripts opened u ∧ Told u m) ∧
    (∃ entry, executeEntry 5 1 "|outer" nestedScripts = some entry ∧ entry.result = .error m) ∧
    ∃ opened u, Arises m 5 (.line "|outer") (nestedScripts.entryStart 1 "|outer") opened u ∧
      Told u m := by
  intro m
  have line : (executeAny 5 "|outer" nestedScripts).map (fun r => failureOf? r.1) = some (some m) := by
    decide +kernel
  have batch : (executeEntry 5 1 "|outer" nestedScripts).map (fun e => failureOf? e.result)
      = some (some m) := by decide +kernel
  obtain ⟨⟨r, t⟩, run, failed⟩ := Option.map_eq_some_iff.1 line
  obtain ⟨entry, ran, refused⟩ := Option.map_eq_some_iff.1 batch
  obtain rfl := failureOf?_eq_some failed
  have refused := failureOf?_eq_some refused
  obtain ⟨arises, located, lines, -, -, -, entries, -⟩ := every_failure_is_located 5
  have ofLine := (lines "|outer" nestedScripts m).1 ⟨t, run⟩
  have ofEntry := (entries 1 "|outer" nestedScripts m).1 ⟨entry, ran, refused⟩
  obtain ⟨opened, u, way⟩ := (arises _ _ m).1 ofLine
  obtain ⟨openedInEntry, v, wayInEntry⟩ := (arises _ _ m).1 ofEntry
  exact ⟨⟨t, run⟩, ⟨opened, u, way, (located _ _ m _ u way).2.2.2 onlyBuiltins_builtins⟩,
    ⟨entry, ran, refused⟩, openedInEntry, v, wayInEntry,
    (located _ _ m _ v wayInEntry).2.2.2 onlyBuiltins_builtins⟩

end Session

end LogConsole
