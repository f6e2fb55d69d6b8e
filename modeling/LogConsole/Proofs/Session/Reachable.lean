import LogConsole.Program
import LogConsole.Proofs.Query.Aligned
import LogConsole.Proofs.Session.Acts
import LogConsole.Proofs.Sql.Regular

/-!
# LogConsole.Proofs.Session.Reachable

What holds of a session at all times.

* `Regular s`   — its database is sound and its results are aligned;
* `Act.regular` — nothing that is done in the course of a line breaks that. Clearing comes before
  collecting, and the rows of a statement are as wide as it has columns;
* `Step s t`    — something happens to a session: a line is run by one of the ways there are, or
  something else changes;
* `Lasting P`   — what is to be shown of a property of the results and the database for
  `Lasting.step`: a step keeps it;
* `Reachable s` — a session without results comes to `s` by finitely many steps;
* `results_stay_aligned` — the result, with what it means for those who read the results;
* `Program.start_reachable`, `Program.runSession_reachable` — the program is in such a session
  from its start to its end.
-/

namespace LogConsole

/-! ## The tables of the logs -/

namespace LogStore

open Sql (Database Prepared)

variable {db : Database}

theorem prepareText_regular (sound : db.Sound) {text : String} {p : Prepared}
    (h : prepareText db text = .ok p) : p.Regular := by
  unfold prepareText at h
  split at h
  · cases h
  · rename_i found hfound
    cases h
    cases found with
    | none => exact Sql.Action.regular_nothing
    | some p => exact Sql.prepare_regular sound hfound

theorem execute_sound (sound : db.Sound) {p : Prepared} (hp : p.Regular) {values : List Sql.Value}
    {after : Database} (h : execute db p values = .ok after) : after.Sound := by
  simp only [execute] at h
  split at h
  · cases h
  · cases h
    exact hp.sound db values sound

theorem copyLines_sound {isVirtual : String → Bool} {file line : Prepared} (hfile : file.Regular)
    (hline : line.Regular) {lines : List LogLine} {after : Database} (sound : db.Sound)
    (h : copyLines isVirtual file line db lines = .ok after) : after.Sound := by
  induction lines generalizing db with
  | nil => cases h; exact sound
  | cons l rest ih =>
    simp only [copyLines] at h
    split at h
    · cases h
    · rename_i afterFile executed
      have soundFile := execute_sound sound hfile executed
      split at h
      · cases h
      · rename_i afterLine executedLine
        exact ih (execute_sound soundFile hline executedLine) h

theorem copyPending_sound (store : LogStore) (sound : db.Sound) :
    Sql.Yields Database.Sound (store.copyPending db) := by
  have regular (text : String) : Sql.Yields Prepared.Regular (prepareText db text) :=
    fun p h => prepareText_regular sound h
  refine (regular fileText).bind_of fun file hfile => ?_
  refine (regular lineText).bind_of fun line hline => ?_
  exact fun after h => copyLines_sound hfile hline sound h

theorem rebuilt_sound (store : LogStore) (sound : db.Sound) : (store.rebuilt db).2.Sound := by
  unfold rebuilt rebuild
  split
  · rename_i count after store' h
    split at h
    · cases h; exact sound
    · split at h
      · cases h
      · rename_i copied hcopied
        cases h
        exact copyPending_sound store sound _ hcopied
  · exact sound

theorem runText_sound (sound : db.Sound) (text : String) : (runText db text).2.Sound := by
  have after := Sql.runAll_sound sound text
  unfold runText
  split
  · rename_i made; rw [made] at after; exact after
  · rename_i made; rw [made] at after; exact after

theorem removeOld_sound (sound : db.Sound) : (removeOld db).2.Sound := by
  unfold removeOld
  split
  · exact sound
  · exact runText_sound sound removalText

theorem initSchema_sound (sound : db.Sound) : (initSchema db).2.Sound := by
  have removed := removeOld_sound sound
  -- which tables are made does not matter, and the text for them takes long to read
  obtain ⟨text, named⟩ : ∃ text, tableText = text := ⟨_, rfl⟩
  rw [initSchema, named]
  split
  · rename_i made; rw [made] at removed; exact removed
  · rename_i made
    rw [made] at removed
    have tables := runText_sound removed text
    split
    · rename_i made; rw [made] at tables; exact tables
    · rename_i made; rw [made] at tables; exact tables

end LogStore

namespace Session

open Run

variable {s t : Session}

/-! ## What one act does -/

structure Regular (s : Session) : Prop where
  database : s.database.Sound
  results : s.results.Aligned

theorem Regular.of_same (h : s.Regular) (results : t.results = s.results)
    (database : t.database = s.database) : t.Regular := by
  constructor
  · rw [database]; exact h.database
  · rw [results]; exact h.results

theorem Regular.refreshHost (h : s.Regular) : s.refreshHost.Regular := by
  refine ⟨?_, h.results⟩
  unfold Session.refreshHost Host.rebuild
  dsimp only
  split
  · exact LogStore.rebuilt_sound _ h.database
  · exact h.database

/-- The rows of a statement that is prepared for a sound database are as wide as it has columns. -/
theorem Regular.collected (h : s.Regular) {text : String} {p : Sql.Prepared}
    (values : List Sql.Value) (prepared : Sql.prepare s.database text = .ok (some p))
    (headers : s.results.headers = []) : (s.collected p values).Regular := by
  have regular := Sql.prepare_regular h.database prepared
  refine ⟨regular.sound s.database values h.database, ?_⟩
  by_cases named : p.columns = []
  · have silent : (p.run s.database values).rows.rows = [] :=
      regular.silent (List.length_eq_zero_iff.2 named) s.database values
    change (s.collector.recordAll p.columns (p.run s.database values).rows.rows).2.results.Aligned
    rw [silent]
    exact h.results
  · exact Collector.recordAll_aligned named (regular.wide s.database values) s.collector h.results
      (.inl headers)

theorem captured_same (s : Session) (text : String) (bytes : List UInt8) :
    (s.captured text bytes).results = s.results ∧
      (s.captured text bytes).database = s.database := by
  unfold captured pipe
  split
  · rename_i hp
    split at hp <;> cases hp <;> exact ⟨rfl, rfl⟩

theorem Act.regular (h : Act s t) (k : s.Regular) : t.Regular := by
  cases h with
  | clearResults => exact ⟨k.database, Collector.clear_aligned k.results⟩
  | collectRows values prepared allowed cleared => exact k.collected values prepared cleared.1
  | storeFirstRow wet => exact k.of_same rfl rfl
  | search pattern => exact k.of_same rfl rfl
  | print text newline wet => exact k.of_same rfl rfl
  | showScreen wet => exact k.of_same rfl rfl
  | redirect wet opened =>
    obtain ⟨w, rfl⟩ := openTarget_ended opened
    exact k.of_same rfl rfl
  | «export» bytes wet opened =>
    obtain ⟨w, rfl⟩ := openTarget_ended opened
    exact k.of_same rfl rfl
  | shell wet started =>
    obtain ⟨w, rfl⟩ := startShell_ended started
    obtain ⟨results, database⟩ := captured_same (s.changeWorld fun _ => w) _ _
    exact k.of_same results database
  | resolve name => exact k.of_same rfl rfl
  | takeInput => exact k.of_same rfl rfl
  | leaveInput bytes => exact k.of_same rfl rfl
  | refresh needed => exact k.refreshHost

/-! ## What happens to a session -/

/-- A line is run, with success or not; or something is done in the middle of a line; or something
else happens between lines. Which calls are refused while rows are collected may be another thing
each time. -/
inductive Step (s : Session) : Session → Prop where
  | line {fuel : Nat} {line : String} {r : Except Message String} {t : Session}
      (run : executeAny fuel line s = some (r, t)) : Step s t
  | dispatched {fuel : Nat} {line : String} {r : Except Message String} {t : Session}
      (run : dispatch fuel line s = some (r, t)) : Step s t
  | command {fuel : Nat} {line : String} {r : Except Message String} {t : Session}
      (run : executeCommand fuel line s = some (r, t)) : Step s t
  | query {text : String} {r : Except Message String} {t : Session}
      (run : executeQuery text s = some (r, t)) : Step s t
  | file {fuel : Nat} {invocation : String} {multiline : Bool} {r : Except Message String}
      {t : Session} (run : executeScriptFile fuel invocation multiline s = some (r, t)) : Step s t
  | reader {fuel : Nat} {source dir : String} {bytes : List UInt8} {multiline : Bool}
      {r : Except Message String} {t : Session}
      (run : executeReader fuel source dir bytes multiline s = some (r, t)) : Step s t
  | entry {fuel index : Nat} {command : String} {entry : BatchEntry}
      (run : executeEntry fuel index command s = some entry) : Step s entry.session
  | midway {t : Session} (act : Act s t) : Step s t
  | refreshed : Step s s.refreshHost
  | configured (c : Config) (dataDir : String) : Step s (s.configure c dataDir)
  | observed (refuse : Nat → Option String) (calls : Nat) :
      Step s { s with collector := { s.collector with refuse, calls } }
  | elsewhere {t : Session} (collector : t.collector = s.collector)
      (database : t.database = s.database) : Step s t

/-- A session has started without results, on tables that have columns and on views that ask for
some, and has come here step by step. -/
inductive Reachable : Session → Prop where
  | start {s : Session} (sound : s.database.Sound) (headers : s.results.headers = [])
      (rows : s.results.rows = []) : Reachable s
  | step {s t : Session} : Reachable s → Step s t → Reachable t

theorem configure_database (c : Config) (dataDir : String) (s : Session) :
    (s.configure c dataDir).database = s.database := by
  unfold configure
  dsimp only
  split <;> rfl

theorem waitForCaptures_same (s : Session) :
    s.waitForCaptures.collector = s.collector ∧ s.waitForCaptures.database = s.database := by
  obtain ⟨w, hw⟩ := waitForCaptures_eq s
  rw [hw]
  exact ⟨rfl, rfl⟩

/-- A property of the results and the database that is kept by each thing that is done in the course
of a line, by a refresh and where the session is configured. -/
structure Lasting (P : Session → Prop) : Prop where
  of_same {s t : Session} : P s → t.results = s.results → t.database = s.database → P t
  act {s t : Session} : Act s t → P s → P t
  refresh {s : Session} : P s → P s.refreshHost
  configured {s : Session} (c : Config) (dataDir : String) : P s → P (s.configure c dataDir)

section Lasting

variable {P : Session → Prop} (lasts : Lasting P)

include lasts

theorem Lasting.acts (h : Acts s t) : P s → P t := by
  induction h with
  | refl => intro k; exact k
  | act h => exact lasts.act h
  | trans _ _ ih₁ ih₂ => intro k; exact ih₂ (ih₁ k)
  | within f _ ih => intro k; exact lasts.of_same (ih (lasts.of_same k rfl rfl)) rfl rfl

theorem Lasting.entry {fuel index : Nat} {command : String} {entry : BatchEntry}
    (h : executeEntry fuel index command s = some entry) (k : P s) : P entry.session := by
  obtain ⟨r, t, ran, -, -, ended⟩ := executeEntry_ended h
  obtain ⟨collector, database⟩ := waitForCaptures_same s
  have started : P (s.entryStart index command) :=
    lasts.of_same k (congrArg Collector.results collector) database
  have inner := lasts.refresh (lasts.acts (dispatchMode_byActs _ _ _ _ _ _ ran) started)
  rw [ended]
  exact lasts.of_same inner rfl rfl

theorem Lasting.step (h : Step s t) (k : P s) : P t := by
  cases h with
  | line run => exact lasts.acts (byActs_executeWith (dispatchMode_byActs _) _ _ _ run) k
  | dispatched run => exact lasts.acts (byActs_dispatchWith (dispatchMode_byActs _) _ _ _ run) k
  | command run => exact lasts.acts (byActs_runCommand (dispatchMode_byActs _) _ _ _ run) k
  | query run => exact lasts.acts ((byActs_runQuery _).map _ _ run) k
  | file run => exact lasts.acts (byActs_executeFile (dispatchMode_byActs _) _ _ _ _ run) k
  | reader run => exact lasts.acts (byActs_executeScript (dispatchMode_byActs _) _ _ _ _ _ _ run) k
  | entry run => exact lasts.entry run k
  | midway act => exact lasts.act act k
  | refreshed => exact lasts.refresh k
  | configured c dataDir => exact lasts.configured c dataDir k
  | observed refuse calls => exact lasts.of_same k rfl rfl
  | elsewhere collector database =>
    exact lasts.of_same k (congrArg Collector.results collector) database

end Lasting

theorem lasting_regular : Lasting Regular where
  of_same := Regular.of_same
  act := Act.regular
  refresh := Regular.refreshHost
  configured c dataDir k := by
    refine ⟨?_, ResultSet.aligned_of_empty rfl rfl⟩
    rw [configure_database]
    exact k.database

theorem Reachable.regular (h : Reachable s) : s.Regular := by
  induction h with
  | start sound headers rows => exact ⟨sound, ResultSet.aligned_of_empty headers rows⟩
  | step _ h ih => exact lasting_regular.step h ih

theorem Reachable.changeWorld (h : Reachable s) (f : World → World) :
    Reachable (s.changeWorld f) := h.step (.elsewhere rfl rfl)

theorem Reachable.changeContext (h : Reachable s) (f : Context → Context) :
    Reachable (s.changeContext f) := h.step (.elsewhere rfl rfl)

theorem Reachable.waitForCaptures (h : Reachable s) : Reachable s.waitForCaptures := by
  obtain ⟨collector, database⟩ := waitForCaptures_same s
  exact h.step (.elsewhere collector database)

/-! ## The result -/

/-- **Every cell stands under its header.** Whatever lines have been run in a session, and wherever
they have failed — before clearing, at clearing, at a row that the statement cannot make or that is
refused — each row of its results has as many cells as there are headers, and there are headers
exactly if there are rows. So the answer to a query that leaves one cell finds that cell; the
answer to a query that leaves a row, the variables that the first row sets and the exported objects
are made of all the cells, each with its own header; and a writer that refuses records of unequal
length writes all of them. -/
theorem results_stay_aligned (h : Reachable s) :
    s.results.Aligned ∧
    (∀ row header, s.results.rows = [row] → s.results.headers = [header] →
      ∃ cell, row = [cell] ∧ ∀ readOnly time,
        Query.summarize readOnly time s.results = ⟨cell.getD "", ""⟩) ∧
    (∀ row ∈ s.results.rows, s.results.Paired row (s.results.headers.zip row)) ∧
    Csv.write (s.results.headers.map (·.name) :: s.results.rows.map fun row => row.map (·.getD ""))
      = .ok s.results.toCsv := by
  have aligned := h.regular.results
  refine ⟨aligned, ?_, ?_, aligned.writes⟩
  · intro row header hrow hheader
    exact aligned.single hrow hheader
  · intro row hrow
    exact aligned.paired hrow

/-- A session in which the second row of each query is refused. -/
def refusingSecond : Session where
  collector := { refuse := fun call => if call = 2 then some "no more rows" else none }

/-- What the first of two rows leaves, whose second one is refused. -/
def firstOfTwo : ResultSet where
  headers := [⟨"column1", .integer, true⟩, ⟨"column2", .null, false⟩]
  rows := [[some "1", none]]

set_option maxRecDepth 8000 in
/-- A query that fails at its second row leaves the first with both its headers, and that one can
be summed up and written. -/
theorem row_before_refusal_is_aligned :
    ∃ m t, executeAny 1 ";VALUES (1, NULL), (2, 'b')" refusingSecond = some (.error m, t) ∧
      Reachable t ∧ t.results = firstOfTwo ∧ t.results.Aligned ∧
      (∀ readOnly time, Query.summarize readOnly time t.results = ⟨"column1=1; column2=", ""⟩) ∧
      Csv.write [["column1", "column2"], ["1", ""]] = .ok "column1,column2\n1,\n" := by
  have outcome : (executeAny 1 ";VALUES (1, NULL), (2, 'b')" refusingSecond).map
      (fun e => (e.1.toOption, e.2.results)) = some (none, firstOfTwo) := by decide +kernel
  obtain ⟨⟨r, t⟩, run, seen⟩ := Option.map_eq_some_iff.1 outcome
  obtain ⟨failed, left⟩ := Prod.mk.inj seen
  cases r with
  | ok answer => cases failed
  | error m =>
    have reached : Reachable t :=
      .step (.start Sql.Database.sound_empty rfl rfl) (.line run)
    obtain ⟨aligned, -, paired, written⟩ := results_stay_aligned reached
    have left : t.results = firstOfTwo := left
    have row := paired [some "1", none] (by rw [left]; exact List.mem_singleton_self _)
    refine ⟨m, t, run, reached, left, aligned, fun readOnly time => ?_, ?_⟩
    · rw [row.summary (by rw [left]; rfl) (by rw [left]; decide) readOnly time, left]
      decide +kernel
    · rw [left] at written
      have text : firstOfTwo.toCsv = "column1,column2\n1,\n" := by decide +kernel
      rw [text] at written
      exact written

end Session

/-! ## The program -/

namespace Program

open Session

variable {s t : Session}

theorem madeTables_sound {made : Except StoreError Unit × Sql.Database} (sound : made.2.Sound)
    {db : Sql.Database} (h : madeTables made = .ok db) : db.Sound := by
  unfold madeTables at h
  split at h
  · cases h; exact sound
  · cases h

theorem start_reachable {c : CommandLine} {w : World} (h : start c w = .ok s) : Reachable s := by
  -- that the tables are sound is all that matters, and they take long to make
  have sound : ∀ db, emptyTables = .ok db → db.Sound := fun _ =>
    madeTables_sound (LogStore.initSchema_sound Sql.Database.sound_empty)
  obtain ⟨tables, made⟩ : ∃ tables, emptyTables = tables := ⟨_, rfl⟩
  unfold start at h
  rw [made] at h sound
  dsimp only at h
  split at h
  · cases h
  · rename_i config _
    split at h
    · cases h
    · rename_i store _
      split at h
      · cases h
      · rename_i database
        have started : Reachable
            { console := { world := w }, database, host := { kind := .logs store },
              headless := c.headless || w.terminal.isNone } :=
          .start (sound database rfl) rfl rfl
        have configured := started.step
          (.configured config (dataDirectory w.environment c.dataDirectory))
        rw [← Except.ok.inj h]
        split
        · exact (configured.changeContext _).step .refreshed
        · exact configured.step .refreshed

theorem executeBatchFrom_reachable {fuel : Nat} {deliver : BatchEntry → World → World}
    (commands : List String) :
    ∀ {index : Nat} {s : Session} {entries : List BatchEntry}, Reachable s →
      executeBatchFrom fuel deliver index commands s = some (entries, t) →
      (∀ entry ∈ entries, Reachable entry.session) ∧ Reachable t := by
  induction commands with
  | nil =>
    intro index s entries k h
    cases h
    exact ⟨by simp, k⟩
  | cons command rest ih =>
    intro index s entries k h
    simp only [executeBatchFrom] at h
    split at h
    · cases h
    · rename_i entry run
      have ended := k.step (.entry run)
      split at h
      · cases h
      · rename_i more u hmore
        cases h
        obtain ⟨later, last⟩ := ih (ended.changeWorld (deliver entry)) hmore
        refine ⟨fun e he => ?_, last⟩
        rcases List.mem_cons.1 he with rfl | he
        · exact ended
        · exact later e he

theorem runTyped_reachable {format : OutputFormat} {line : String} {ok : Bool} (k : Reachable s)
    (h : runTyped format line s = some (ok, t)) : Reachable t := by
  have calm : Reachable { s with interrupted := false } := k.step (.elsewhere rfl rfl)
  have before := calm.step .refreshed
  simp only [runTyped] at h
  split at h
  · cases h
  · rename_i run; cases h; exact ((before.step (.line run)).changeWorld _).waitForCaptures
  · rename_i run; cases h; exact ((before.step (.line run)).changeWorld _).waitForCaptures

theorem enter_reachable {format : OutputFormat} {bytes : List UInt8}
    {e : Except ProgramError Bool} (k : Reachable s) (h : enter format bytes s = (e, t)) :
    Reachable t := by
  simp only [enter] at h
  split at h
  · cases h; exact k
  · split at h
    · cases h; exact k
    · split at h
      · cases h; exact k
      · rename_i run; cases h; exact runTyped_reachable k run

/-- By induction on the number of lines that are typed. -/
theorem interact_reachable {format : OutputFormat} (fuel : Nat) :
    ∀ {succeeded : Bool} {s : Session} {e : Except ProgramError Bool}, Reachable s →
      interact format fuel succeeded s = (e, t) → Reachable t := by
  induction fuel with
  | zero =>
    intro succeeded s e k h
    cases h
    exact k
  | succ fuel ih =>
    intro succeeded s e k h
    simp only [interact] at h
    split at h
    · cases h
      exact (k.changeWorld _).changeWorld _
    · rename_i bytes rest _
      have prompted := (k.changeWorld fun w => w.printError prompt).changeWorld fun w =>
        { w with stdin := rest }
      split at h
      · rename_i failed; cases h; exact enter_reachable prompted failed
      · rename_i entered; exact ih (enter_reachable prompted entered) h

/-- Whatever the program does after its start: it stays among the sessions that can be reached. -/
theorem runSession_reachable {c : CommandLine} {e : Except ProgramError Bool} (k : Reachable s)
    (h : runSession c s = (e, t)) : Reachable t := by
  simp only [runSession] at h
  split at h
  · split at h
    · cases h; exact k
    · exact interact_reachable _ k h
  · split at h
    · cases h; exact k
    · rename_i run
      simp only [runBatch] at run
      split at run
      · cases run
      · rename_i batch
        cases run
        cases h
        exact (executeBatchFrom_reachable _ k batch).2

end Program

end LogConsole
