import LogConsole.Proofs.Program.Batch
import LogConsole.Proofs.Session.Provenance
import LogConsole.Proofs.Session.Refreshes

/-!
# LogConsole.Proofs.Program.Completeness

No entry of a batch keeps another from being run.

* `executeBatchFrom_none_iff` — a batch does not end exactly if the payload of one of its entries
  does not;
* `executeBatchFrom_commands` — there is one outcome for each command, in their order;
* `sessionAt_kept`           — no entry changes the frames that the next one starts in;
* `Delivered`                — what holds of an entry when its outcome is delivered;
* `batch_is_complete`        — the result, with the answer of the program.
-/

namespace LogConsole

namespace Session

open Run Context

variable {fuel index : Nat} {deliver : BatchEntry → World → World} {s t : Session}

/-! ## One entry -/

structure Delivered (fuel : Nat) (start before : Session) (index : Nat) (command : String)
    (entry : BatchEntry) : Prop where
  /-- The payload has run in one frame more than there were at the start, and nothing but the
  refresh has come after it. -/
  dispatched : ∃ r t, dispatchMode fuel (Mode.split command).1 (Mode.split command).2
      (before.entryStart index command) = some (r, t) ∧
    (before.entryStart index command).context.sources.toList
      = ⟨"command-option", Int32.ofNat (index + 1), 0, command⟩ :: start.context.sources.toList ∧
    entry = ⟨command, (resultOf r).1, (resultOf r).2, before.entryEnd index command t⟩ ∧
    entry.session.host.calls = t.host.calls ++ [.rescan, .rebuild]
  sources : entry.session.context.sources = start.context.sources
  directories : entry.session.context.directories = start.context.directories
  outputs : entry.session.context.outputs.depth = start.context.outputs.depth
  help : entry.session.context.help = start.context.help

theorem delivered_of_executeEntry {start : Session} {command : String} {entry : BatchEntry}
    (kept : Kept start.context s.context) (h : executeEntry fuel index command s = some entry) :
    Delivered fuel start s index command entry := by
  have after := kept.trans (executeEntry_kept h)
  rw [executeEntry_eq] at h
  obtain ⟨⟨r, t⟩, ran, rfl⟩ := Option.map_eq_some_iff.1 h
  refine ⟨⟨r, t, ran, ?_, rfl, refreshHost_calls t⟩, after.sources, after.directories,
    after.sameFrames.2.2, after.help⟩
  rw [entryStart_sources, kept.sources]
  rfl

/-! ## All entries -/

theorem executeBatchFrom_none_iff (commands : List String) :
    ∀ {index : Nat} {s : Session}, executeBatchFrom fuel deliver index commands s = none ↔
      ∃ i command entries u, commands[i]? = some command ∧
        executeBatchFrom fuel deliver index (commands.take i) s = some (entries, u) ∧
        executeEntry fuel (index + i) command u = none := by
  induction commands with
  | nil => intro index s; simp [executeBatchFrom]
  | cons first rest ih =>
    intro index s
    cases ran : executeEntry fuel index first s with
    | none =>
      simp only [executeBatchFrom, ran, true_iff]
      exact ⟨0, first, [], s, rfl, rfl, ran⟩
    | some entry =>
      have later : executeBatchFrom fuel deliver index (first :: rest) s = none ↔
          executeBatchFrom fuel deliver (index + 1) rest
            (entry.session.changeWorld (deliver entry)) = none := by
        simp only [executeBatchFrom, ran]
        split <;> simp_all
      rw [later, ih]
      constructor
      · rintro ⟨i, command, entries, u, there, before, fails⟩
        refine ⟨i + 1, command, entry :: entries, u, there, ?_, ?_⟩
        · simp only [List.take_succ_cons, executeBatchFrom, ran, before]
        · rwa [Nat.add_right_comm] at fails
      · rintro ⟨i, command, entries, u, there, before, fails⟩
        cases i with
        | zero =>
          cases there
          cases before
          rw [Nat.add_zero, ran] at fails
          cases fails
        | succ i =>
          simp only [List.take_succ_cons, executeBatchFrom, ran] at before
          split at before
          · cases before
          · rename_i more v before'
            cases before
            exact ⟨i, command, more, u, there, before', by rwa [Nat.add_right_comm]⟩

theorem executeBatchFrom_commands (commands : List String) :
    ∀ {index : Nat} {s t : Session} {entries : List BatchEntry},
      executeBatchFrom fuel deliver index commands s = some (entries, t) →
      entries.map (·.command) = commands := by
  induction commands with
  | nil => intro index s t entries h; cases h; rfl
  | cons first rest ih =>
    intro index s t entries h
    simp only [executeBatchFrom] at h
    split at h
    · cases h
    · rename_i entry ran
      split at h
      · cases h
      · rename_i later u hlater
        cases h
        obtain ⟨r, t, -, named, -, -⟩ := executeEntry_ended ran
        rw [List.map_cons, named, ih hlater]

/-- Every entry starts in the frames of the batch. -/
theorem sessionAt_kept {commands : List String} {entries : List BatchEntry}
    (h : executeBatch fuel deliver commands s = some (entries, t)) (i : Nat) :
    i ≤ commands.length → Kept s.context (sessionAt deliver s entries i).context := by
  induction i with
  | zero => intro _; rw [sessionAt_zero]; exact .refl _
  | succ i ih =>
    intro bound
    obtain ⟨entry, there, ran⟩ :=
      (executeBatchFrom_at commands h).2 i commands[i] (List.getElem?_eq_getElem bound)
    rw [sessionAt_succ i there]
    exact (ih (Nat.le_of_succ_le bound)).trans (executeEntry_kept ran)

end Session

namespace Program

open Session Run

variable {s t : Session}

theorem succeeded_iff (entry : BatchEntry) :
    succeeded entry = true ↔ ∃ answer, entry.result = .ok answer := by
  obtain ⟨command, result, hint, session⟩ := entry
  cases result <;> simp [succeeded]

theorem runBatch_ended {format : OutputFormat} {commands : List String} {ok : Bool}
    (h : runBatch format commands s = some (ok, t)) :
    ∃ entries, s.executeBatch depthLimit (printEntry format) commands = some (entries, t) ∧
      (ok = true ↔ ∀ entry ∈ entries, ∃ answer, entry.result = .ok answer) := by
  unfold runBatch at h
  split at h
  · cases h
  · rename_i entries u ran
    cases h
    refine ⟨entries, ran, ?_⟩
    rw [List.all_eq_true]
    simp only [succeeded_iff]

/-- **A batch is run to its end.** It has no outcome only if the payload of one of its entries does
not end, after all entries before that have been run. Else there is one outcome for each command,
in their order, whether or not they succeed. The payload of each runs under one more frame, which
has the command as its content and its number as its line; the host is refreshed when it has ended;
and then the outcome is delivered, once, in the frames that the batch was started in. What has been
delivered is where the next entry starts. The program tells success exactly if every entry
succeeds. -/
theorem batch_is_complete (fuel : Nat) (deliver : BatchEntry → World → World)
    (commands : List String) (s : Session) :
    (executeBatch fuel deliver commands s = none ↔
      ∃ i command entries u, commands[i]? = some command ∧
        executeBatch fuel deliver (commands.take i) s = some (entries, u) ∧
        dispatchMode fuel (Mode.split command).1 (Mode.split command).2
          (u.entryStart i command) = none) ∧
    (∀ entries t, executeBatch fuel deliver commands s = some (entries, t) →
      entries.map (·.command) = commands ∧
      sessionAt deliver s entries commands.length = t ∧
      ∀ i command, commands[i]? = some command → ∃ entry, entries[i]? = some entry ∧
        Delivered fuel s (sessionAt deliver s entries i) i command entry ∧
        sessionAt deliver s entries (i + 1) = entry.session.changeWorld (deliver entry)) ∧
    (∀ format ok t, runBatch format commands s = some (ok, t) →
      ∃ entries, executeBatch depthLimit (printEntry format) commands s = some (entries, t) ∧
        (ok = true ↔ ∀ entry ∈ entries, ∃ answer, entry.result = .ok answer)) := by
  refine ⟨?_, ?_, fun format ok t => runBatch_ended⟩
  · simp only [executeBatch, executeBatchFrom_none_iff, executeEntry_eq, Option.map_eq_none_iff,
      Nat.zero_add]
  · intro entries t h
    obtain ⟨last, each⟩ := executeBatchFrom_at commands h
    refine ⟨executeBatchFrom_commands commands h, last, ?_⟩
    intro i command there
    obtain ⟨entry, found, ran⟩ := each i command there
    rw [Nat.zero_add] at ran
    obtain ⟨bound, -⟩ := List.getElem?_eq_some_iff.1 there
    have kept := sessionAt_kept h i (Nat.le_of_lt bound)
    exact ⟨entry, found, delivered_of_executeEntry kept ran, sessionAt_succ i found⟩

set_option maxRecDepth 8000 in
/-- A failure is no reason to stop, but the program tells it. -/
theorem batch_goes_on_after_failure :
    let commands := [":bogus", ";SELECT 1 AS n UNION ALL SELECT 2", ":echo x"]
    (∃ entries t entry, executeBatch 2 (printEntry .plain) commands {} = some (entries, t) ∧
      entries.map (·.command) = commands ∧ entries[2]? = some entry ∧ entry.result = .ok "x" ∧
      Delivered 2 {} (sessionAt (printEntry .plain) {} entries 2) 2 ":echo x" entry ∧
      t.world.stdout = Text.Utf8.encode "n\n1\n2\nx\n") ∧
    ∃ entries t, runBatch .plain commands {} = some (false, t) ∧
      executeBatch depthLimit (printEntry .plain) commands {} = some (entries, t) ∧
      ¬ ∀ entry ∈ entries, ∃ answer, entry.result = .ok answer := by
  intro commands
  obtain ⟨-, whole, told⟩ := batch_is_complete 2 (printEntry .plain) commands {}
  refine ⟨?_, ?_⟩
  · obtain ⟨entries, t, entry, run, found, result, -, stdout⟩ :=
      entry_of_outcome 2 2 commands {} "x" false (Text.Utf8.encode "n\n1\n2\nx\n")
        (by decide +kernel)
    obtain ⟨names, -, each⟩ := whole entries t run
    obtain ⟨entry', found', delivered, -⟩ := each 2 ":echo x" rfl
    obtain rfl : entry = entry' := Option.some.inj (found.symm.trans found')
    exact ⟨entries, t, entry, run, names, found, result, delivered, stdout⟩
  · have outcome : (runBatch .plain commands {}).map (·.1) = some false := by decide +kernel
    obtain ⟨⟨ok, t⟩, run, rfl⟩ := Option.map_eq_some_iff.1 outcome
    obtain ⟨entries, ran, all⟩ := told .plain _ t run
    exact ⟨entries, t, run, ran, fun h => Bool.false_ne_true (all.2 h)⟩

end Program

end LogConsole
