import LogConsole.Program
import LogConsole.Proofs.Session.Results

/-!
# LogConsole.Proofs.Program.Batch

What is printed of the entries of a batch.

* `Session.sessionAt`  — the session between two entries, after what is printed of the first;
* `executeBatchFrom_at` — every entry runs in the session at its position;
* `OwnTable`, `OldTable` — an entry whose statement yields more than one row, and a statement
  about the database that finds more than one row of an earlier entry;
* `batch_entry_prints` — what is printed of an entry that succeeds. It depends on the entry
  alone but for the second kind, where the old rows are printed again.
-/

namespace LogConsole

namespace Session

open Run Query

variable {fuel index : Nat} {deliver : BatchEntry → World → World} {s t : Session}

/-- The session in which the entry at a position starts; at the end, the one after the batch. -/
def sessionAt (deliver : BatchEntry → World → World) :
    Session → List BatchEntry → Nat → Session
  | s, _, 0 => s
  | s, [], _ + 1 => s
  | _, entry :: rest, i + 1 =>
    sessionAt deliver (entry.session.changeWorld (deliver entry)) rest i

@[simp] theorem sessionAt_zero (s : Session) (entries : List BatchEntry) :
    sessionAt deliver s entries 0 = s := by
  cases entries <;> rfl

theorem sessionAt_succ {entry : BatchEntry} (i : Nat) :
    ∀ {s : Session} {entries : List BatchEntry}, entries[i]? = some entry →
      sessionAt deliver s entries (i + 1) = entry.session.changeWorld (deliver entry) := by
  induction i with
  | zero =>
    intro s entries h
    cases entries with
    | nil => cases h
    | cons first rest => cases h; exact sessionAt_zero _ rest
  | succ i ih =>
    intro s entries h
    cases entries with
    | nil => cases h
    | cons first rest => exact ih h

theorem executeBatchFrom_at (commands : List String) :
    ∀ {index : Nat} {s t : Session} {entries : List BatchEntry},
      executeBatchFrom fuel deliver index commands s = some (entries, t) →
      sessionAt deliver s entries commands.length = t ∧
      ∀ i command, commands[i]? = some command → ∃ entry, entries[i]? = some entry ∧
        executeEntry fuel (index + i) command (sessionAt deliver s entries i) = some entry := by
  induction commands with
  | nil =>
    intro index s t entries h
    cases h
    exact ⟨rfl, fun i command hi => by cases hi⟩
  | cons first rest ih =>
    intro index s t entries h
    simp only [executeBatchFrom] at h
    split at h
    · cases h
    · rename_i entry hentry
      split at h
      · cases h
      · rename_i later u hlater
        cases h
        obtain ⟨hend, hrest⟩ := ih hlater
        refine ⟨hend, ?_⟩
        intro i command hi
        -- the later positions are those of the rest, which starts after the first is printed
        cases i with
        | zero => cases hi; exact ⟨entry, rfl, hentry⟩
        | succ i =>
          obtain ⟨e, he, hrun⟩ := hrest i command hi
          refine ⟨e, he, ?_⟩
          rwa [Nat.add_right_comm] at hrun

/-! ## One entry -/

@[simp] theorem entryStart_results (index : Nat) (command : String) (s : Session) :
    (s.entryStart index command).results = s.results := by
  obtain ⟨w, hw⟩ := waitForCaptures_eq s
  rw [entryStart, hw]
  rfl

@[simp] theorem entryStart_database (index : Nat) (command : String) (s : Session) :
    (s.entryStart index command).database = s.database := by
  obtain ⟨w, hw⟩ := waitForCaptures_eq s
  rw [entryStart, hw]
  rfl

/-- The rows that are held after an entry that is a query, and what it answers. -/
theorem executeEntry_query {command answer : String} {entry : BatchEntry}
    (h : executeEntry fuel index command s = some entry) (succeeds : entry.result = .ok answer)
    (query : (Mode.split command).1 = .query) :
    (∃ m, metaStatement? (Text.trim (Mode.split command).2) = some m ∧
      m.answer s.database s.context (Text.words (Text.trim (Mode.split command).2)) = .ok answer ∧
      entry.session.results = s.results) ∨
    (metaStatement? (Text.trim (Mode.split command).2) = none ∧
      entry.session.results = brought (s.entryStart index command) (Mode.split command).2) := by
  obtain ⟨r, t, ht, -, hresult, hsession⟩ := executeEntry_ended h
  have held : entry.session.results = t.results := by rw [hsession]; rfl
  cases fuel with
  | zero => cases ht
  | succ fuel =>
    rw [query, dispatchMode, step] at ht
    cases r with
    | error e => rw [hresult] at succeeds; cases succeeds
    | ok out =>
      have said : out.summary = answer := by rw [hresult] at succeeds; cases succeeds; rfl
      rw [held, ← said]
      obtain ⟨m, hm, ha, still⟩ | ⟨hm, hr, -⟩ := runQuery_ok ht
      · rw [entryStart_database] at ha
        exact .inl ⟨m, hm, MetaStatement.answer_ok ha s.context, by rw [still, entryStart_results]⟩
      · exact .inr ⟨hm, hr⟩

end Session

namespace Program

open Session Run Query

variable {format : OutputFormat} {fuel index : Nat} {before : Session} {command answer : String}
  {entry : BatchEntry}

/-- The statement about the database that an entry is, if it is one. -/
def metaOf? (command : String) : Option MetaStatement :=
  if (Mode.split command).1 = .query then metaStatement? (Text.trim (Mode.split command).2)
  else none

/-- The entry is a statement that yields more than one row. -/
def OwnTable (before : Session) (index : Nat) (command : String) : Prop :=
  (Mode.split command).1 = .query ∧
    BringsMany (before.entryStart index command) (Mode.split command).2

def ownResults (before : Session) (index : Nat) (command : String) : ResultSet :=
  brought (before.entryStart index command) (Mode.split command).2

/-- The entry is a statement about the database, and more than one row is held from before. -/
def OldTable (before : Session) (command : String) : Prop :=
  (metaOf? command).isSome ∧ 1 < before.results.rows.length

structure Printed (format : OutputFormat) (before : Session) (index : Nat)
    (command answer : String) (entry : BatchEntry) : Prop where
  own : OwnTable before index command → ∀ w,
    printEntry format entry w = Report.printTable format (ownResults before index command) w
  old : OldTable before command → ∀ w,
    printEntry format entry w = Report.printTable format before.results w
  text : ¬ OwnTable before index command → ¬ OldTable before command → ∀ w,
    printEntry format entry w = Report.printMessage format command answer w
  /-- A statement about the database answers from the database alone. -/
  answers : ∀ m, metaOf? command = some m →
    m.answer before.database before.context
      (Text.words (Text.trim (Mode.split command).2)) = .ok answer
  /-- The table is the entry's own, unless it is an old one. -/
  table : (showsTable entry = true ↔ OwnTable before index command) ↔ ¬ OldTable before command

theorem OwnTable.not_old (h : OwnTable before index command) : ¬ OldTable before command := by
  obtain ⟨query, notMeta, -⟩ := h
  simp [OldTable, metaOf?, query, notMeta]

theorem showsTable_eq (h : before.executeEntry fuel index command = some entry) :
    showsTable entry =
      ((Mode.split command).1 == .query && 1 < entry.session.results.rows.length) := by
  obtain ⟨_, _, -, hc, -, -⟩ := executeEntry_ended h
  rw [showsTable, hc]

/-- Which table there is to show after an entry that succeeds. -/
theorem entry_table (h : before.executeEntry fuel index command = some entry)
    (succeeds : entry.result = .ok answer) :
    (showsTable entry = true ↔ OwnTable before index command ∨ OldTable before command) ∧
    (OwnTable before index command → entry.session.results = ownResults before index command) ∧
    (OldTable before command → entry.session.results = before.results) := by
  rw [showsTable_eq h]
  by_cases query : (Mode.split command).1 = .query
  · obtain ⟨m, hm, -, held⟩ | ⟨hm, held⟩ := executeEntry_query h succeeds query
    -- a statement about the database: the rows are those of before
    · have notOwn : ¬ OwnTable before index command := by
        rintro ⟨-, hn, -⟩
        rw [hm] at hn
        cases hn
      refine ⟨?_, fun own => absurd own notOwn, fun _ => held⟩
      simp [query, notOwn, OldTable, metaOf?, hm, held]
    -- any other statement: they are its own
    · have notOld : ¬ OldTable before command := by simp [OldTable, metaOf?, query, hm]
      refine ⟨?_, fun _ => held, fun old => absurd old notOld⟩
      simp [query, notOld, OwnTable, bringsMany_iff, held]
  · have notOwn : ¬ OwnTable before index command := fun own => query own.1
    have notOld : ¬ OldTable before command := by simp [OldTable, metaOf?, query]
    refine ⟨?_, fun own => absurd own notOwn, fun old => absurd old notOld⟩
    simp [query, notOwn, notOld]

theorem entry_answers (h : before.executeEntry fuel index command = some entry)
    (succeeds : entry.result = .ok answer) {m : MetaStatement} (hm : metaOf? command = some m) :
    m.answer before.database before.context
      (Text.words (Text.trim (Mode.split command).2)) = .ok answer := by
  unfold metaOf? at hm
  split at hm
  · rename_i query
    obtain ⟨n, hn, ha, -⟩ | ⟨hn, -⟩ := executeEntry_query h succeeds query
    · rw [hn] at hm
      cases hm
      exact ha
    · rw [hn] at hm
      cases hm
  · cases hm

theorem printEntry_eq (h : before.executeEntry fuel index command = some entry)
    (succeeds : entry.result = .ok answer) (w : World) :
    printEntry format entry w =
      if showsTable entry then Report.printTable format entry.session.results w
      else Report.printMessage format command answer w := by
  obtain ⟨_, _, -, hc, -, -⟩ := executeEntry_ended h
  rw [printEntry, succeeds, hc]

theorem printed_of_executeEntry (h : before.executeEntry fuel index command = some entry)
    (succeeds : entry.result = .ok answer) :
    Printed format before index command answer entry := by
  obtain ⟨shows, ownHeld, oldHeld⟩ := entry_table h succeeds
  refine ⟨?_, ?_, ?_, ?_, ?_⟩
  · intro own w
    rw [printEntry_eq h succeeds, if_pos (shows.2 (.inl own)), ownHeld own]
  · intro old w
    rw [printEntry_eq h succeeds, if_pos (shows.2 (.inr old)), oldHeld old]
  · intro notOwn notOld w
    rw [printEntry_eq h succeeds, if_neg]
    intro hs
    exact (shows.1 hs).elim notOwn notOld
  · intro m hm
    exact entry_answers h succeeds hm
  · rw [shows]
    constructor
    · intro rule old
      exact (rule.1 (.inr old)).not_old old
    · intro notOld
      exact or_iff_left notOld

/-- What a run of a batch comes to at one entry that succeeds. -/
theorem entry_of_outcome (fuel i : Nat) (commands : List String) (s : Session)
    (answer : String) (shown : Bool) (stdout : List UInt8)
    (outcome : ((s.executeBatch fuel (printEntry .plain) commands).map fun b =>
      (b.1[i]?.map fun e => (e.result.toOption, showsTable e), b.2.world.stdout))
      = some (some (some answer, shown), stdout)) :
    ∃ entries t entry, s.executeBatch fuel (printEntry .plain) commands = some (entries, t) ∧
      entries[i]? = some entry ∧ entry.result = .ok answer ∧ showsTable entry = shown ∧
      t.world.stdout = stdout := by
  obtain ⟨⟨entries, t⟩, run, seen⟩ := Option.map_eq_some_iff.1 outcome
  obtain ⟨seen, printed⟩ := Prod.mk.inj seen
  obtain ⟨entry, found, seen⟩ := Option.map_eq_some_iff.1 seen
  obtain ⟨result, shows⟩ := Prod.mk.inj seen
  refine ⟨entries, t, entry, run, found, ?_, shows, printed⟩
  cases hr : entry.result with
  | ok a => rw [hr] at result; cases result; rfl
  | error e => rw [hr] at result; cases result

/-- **What a batch prints of an entry that succeeds.** Every entry runs in the session that the
one before it has left, and is followed by what is printed of it. That is a table where its
statement yields more than one row, and else its answer. The exceptions are the statements about
the database after an entry with more than one row: they leave the old rows where they are, and
these are printed once more in place of the answer. -/
theorem batch_entry_prints {commands : List String} {s t : Session} {entries : List BatchEntry}
    (h : s.executeBatch fuel (printEntry format) commands = some (entries, t)) :
    sessionAt (printEntry format) s entries commands.length = t ∧
    ∀ i command, commands[i]? = some command → ∃ entry, entries[i]? = some entry ∧
      sessionAt (printEntry format) s entries (i + 1)
        = entry.session.changeWorld (printEntry format entry) ∧
      ∀ answer, entry.result = .ok answer →
        Printed format (sessionAt (printEntry format) s entries i) i command answer entry := by
  obtain ⟨hend, hentries⟩ := executeBatchFrom_at commands h
  refine ⟨hend, ?_⟩
  intro i command hi
  obtain ⟨entry, he, hrun⟩ := hentries i command hi
  refine ⟨entry, he, sessionAt_succ i he, ?_⟩
  intro answer succeeds
  rw [Nat.zero_add] at hrun
  exact printed_of_executeEntry hrun succeeds

set_option maxRecDepth 8000 in
/-- A query with two rows of its own. -/
theorem two_rows_print :
    let query := ";SELECT 1 AS n UNION ALL SELECT 2"
    let answer := "2 rows matched in 0.001 seconds"
    ∃ entries t entry,
      Session.executeBatch 1 (printEntry .plain) [query] {} = some (entries, t) ∧
      entries[0]? = some entry ∧ entry.result = .ok answer ∧
      Printed .plain {} 0 query answer entry ∧ OwnTable {} 0 query ∧
      t.world.stdout = Text.Utf8.encode "n\n1\n2\n" := by
  intro query answer
  obtain ⟨entries, t, entry, run, found, result, -, stdout⟩ :=
    entry_of_outcome 1 0 [query] {} answer true (Text.Utf8.encode "n\n1\n2\n")
      (by decide +kernel)
  obtain ⟨entry', found', -, printed⟩ := (batch_entry_prints run).2 0 query rfl
  obtain rfl : entry = entry' := Option.some.inj (found.symm.trans found')
  have own : OwnTable {} 0 query :=
    ⟨by decide +kernel, (bringsMany_iff _ _).2 (by decide +kernel)⟩
  refine ⟨entries, t, entry, run, found, result, ?_, own, stdout⟩
  simpa using printed answer result

set_option maxRecDepth 8000 in
/-- The statement `.tables` succeeds and yields no rows, and what is printed of it is not its
answer `logs` but the table of the query before it, a second time. -/
theorem old_rows_print_again :
    let commands := [";CREATE TABLE logs (body)", ";SELECT 1 AS n UNION ALL SELECT 2", ";.tables"]
    ∃ entries t entry,
      Session.executeBatch 1 (printEntry .plain) commands {} = some (entries, t) ∧
      entries[2]? = some entry ∧ entry.result = .ok "logs" ∧ showsTable entry = true ∧
      ¬ OwnTable (sessionAt (printEntry .plain) {} entries 2) 2 ";.tables" ∧
      t.world.stdout = Text.Utf8.encode "n\n1\n2\nn\n1\n2\n" := by
  intro commands
  obtain ⟨entries, t, entry, run, found, result, shows, stdout⟩ :=
    entry_of_outcome 1 2 commands {} "logs" true
      (Text.Utf8.encode "n\n1\n2\nn\n1\n2\n") (by decide +kernel)
  refine ⟨entries, t, entry, run, found, result, shows, ?_, stdout⟩
  rintro ⟨-, notMeta, -⟩
  revert notMeta
  decide +kernel

end Program

end LogConsole
