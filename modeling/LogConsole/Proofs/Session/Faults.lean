import LogConsole.Proofs.Query.Failure
import LogConsole.Proofs.Session.Frames

/-!
# LogConsole.Proofs.Session.Faults

What fails by itself, and what it says of the place where it fails.

* `Run.FailsWith x s m` — the computation `x` fails with `m` when it starts from `s`. The rules for
  it follow the operations on computations: each says exactly when one that is made of others fails;
* `PointsTo source m`  — a message has a kind, and that source as its only snippet;
* `Told u m`           — it has a kind and snippets, and points to the source of `u` unless the
  engine has failed in `u` with snippets of its own;
* `Run.Tells x s`      — what `x` fails with points to the source that it starts in. The messages
  of the console do, one lemma for each function that makes them;
* `runQuery_told`, `tells_runBuiltin` — so are the failures of queries, and those of the commands
  that are built in where they are not those of a line that they dispatch.
-/

namespace LogConsole

namespace Run

open Session

variable {α β : Type} {s : Session} {m : Message}

def FailsWith (x : Run α) (s : Session) (m : Message) : Prop := ∃ t, x s = some (.error m, t)

/-! ## Rules -/

/-- Two computations fail with what the first fails with, or with what the second does. -/
theorem failsWith_bind {x : Run α} {f : α → Run β} :
    FailsWith (x >>= f) s m ↔
      FailsWith x s m ∨ ∃ a t, x s = some (.ok a, t) ∧ FailsWith (f a) t m := by
  unfold FailsWith
  rw [bind_def]
  rcases x s with _ | ⟨_ | _, _⟩ <;> simp

@[simp] theorem not_failsWith_pure (a : α) : ¬ FailsWith (pure a : Run α) s m := by
  rintro ⟨t, h⟩
  cases h

theorem failsWith_map {x : Run α} {f : α → β} :
    FailsWith (x >>= fun a => pure (f a)) s m ↔ FailsWith x s m := by
  simp [failsWith_bind]

theorem failsWith_ensuring {x : Run α} {after : Session → Session} :
    FailsWith (ensuring x after) s m ↔ FailsWith x s m := by
  unfold FailsWith ensuring
  rcases x s with _ | ⟨_ | _, _⟩ <;> simp

/-- A frame adds nothing to a failure, and takes nothing from it. -/
theorem failsWith_within {f : Frame} {x : Run α} :
    FailsWith (within f x) s m ↔ FailsWith x (s.changeConsole f.enter) m :=
  failsWith_ensuring

theorem failsWith_get_bind {f : Session → α} {k : α → Run β} :
    FailsWith (Run.get f >>= k) s m ↔ FailsWith (k (f s)) s m := .rfl

theorem failsWith_change_bind {f : Session → Session} {k : Run β} :
    FailsWith (change f >>= fun _ => k) s m ↔ FailsWith k (f s) m := .rfl

theorem failsWith_fail {kind : ErrorKind} {text : String} :
    FailsWith (fail kind text : Run α) s m ↔ s.context.error kind text = m := by
  simp [FailsWith, fail]

theorem failsWith_failFor {kind : ErrorKind} {text reason : String} :
    FailsWith (failFor kind text reason : Run α) s m ↔
      (s.context.error kind text).withReason reason = m := by
  simp [FailsWith, failFor]

end Run

namespace Session

/-- A message with a kind, and with one snippet, which is this one. -/
def PointsTo (source : Snippet) (m : Message) : Prop :=
  m.kind.isSome = true ∧ m.snippets = [source]

theorem pointsTo_error (c : Context) (kind : ErrorKind) (text : String) :
    PointsTo c.source (c.error kind text) := by
  rw [Query.error_eq]
  exact ⟨rfl, rfl⟩

theorem pointsTo_withReason (c : Context) (kind : ErrorKind) (text reason : String) :
    PointsTo c.source ((c.error kind text).withReason reason) := by
  rw [Query.error_eq]
  exact ⟨rfl, rfl⟩

/-- The engine fails with a message that has snippets of its own, which it keeps. -/
def OwnSnippets (u : Session) (m : Message) : Prop :=
  ∃ query e own, Query.EngineFails u query e ∧ Query.markedMessage? e = some own ∧
    own.snippets ≠ [] ∧ m.snippets = own.snippets

/-- A message of something that has failed in a session. -/
def Told (u : Session) (m : Message) : Prop :=
  m.kind.isSome = true ∧ m.snippets ≠ [] ∧ (m.snippets = [u.context.source] ∨ OwnSnippets u m)

theorem PointsTo.told {u : Session} {m : Message} (h : PointsTo u.context.source m) : Told u m :=
  ⟨h.1, by simp [h.2], .inl h.2⟩

end Session

namespace Run

open Session Query

variable {α β : Type} {s t : Session} {m : Message}

/-! ## Queries -/

theorem engineFailure_told {query e : String} (fails : EngineFails s query e) :
    Told s (engineFailure s.context e) := by
  unfold engineFailure
  split
  · rename_i own marked
    rw [completed_eq]
    cases given : own.snippets with
    | nil => exact ⟨rfl, by simp, .inl rfl⟩
    | cons first rest =>
      exact ⟨rfl, by simp, .inr ⟨query, e, own, fails, marked, by simp [given], by simp [given]⟩⟩
  · exact (pointsTo_error _ _ _).told

theorem bindParameters_error {p : Sql.Prepared} (h : FailsWith (bindParameters p) s m) :
    ∃ e, binding s p = some e ∧ m = engineFailure s.context e := by
  obtain ⟨t, h⟩ := h
  unfold bindParameters at h
  dsimp only at h
  split at h
  · rename_i e he
    cases h
    exact ⟨e, he, rfl⟩
  · cases h

theorem bindParameters_done {p : Sql.Prepared} {values : List Sql.Value}
    (h : bindParameters p s = some (.ok values, t)) :
    binding s p = none ∧ values = parameterValues s p ∧ t = s := by
  unfold bindParameters at h
  dsimp only at h
  split at h
  · cases h
  · rename_i bound
    cases h
    exact ⟨bound, rfl, rfl⟩

theorem clearResults_error (h : FailsWith clearResults s m) :
    ∃ e, s.collector.clear.1 = .error e ∧ m = engineFailure s.context e := by
  obtain ⟨t, h⟩ := h
  unfold clearResults at h
  split at h
  · cases h
  · rename_i e c hc
    cases h
    exact ⟨e, by rw [hc], rfl⟩

theorem clearResults_done (h : clearResults s = some (.ok (), t)) :
    s.collector.clear.1 = .ok () ∧ t = { s with collector := s.collector.clear.2 } := by
  unfold clearResults at h
  split at h
  · rename_i c hc
    cases h
    exact ⟨by rw [hc], by rw [hc]⟩
  · cases h

/-- The rows are collected after the results have been cleared. -/
theorem collectRows_error {p : Sql.Prepared}
    (h : FailsWith (collectRows p (parameterValues s p))
      { s with collector := s.collector.clear.2 } m) :
    ∃ e, m = engineFailure s.context e ∧
      (collecting s p = .error e ∨ collecting s p = .ok () ∧ (outcome s p).rows.failure = some e) := by
  obtain ⟨t, h⟩ := h
  unfold collecting outcome
  simp only [collectRows] at h
  split at h
  · rename_i e c hc
    cases h
    exact ⟨e, rfl, .inl (by rw [hc])⟩
  · rename_i c hc
    split at h
    · rename_i e he
      cases h
      exact ⟨e, rfl, .inr ⟨by rw [hc], he⟩⟩
    · cases h

theorem runQuery_submitted_told {text : String} {found : Option Sql.Prepared}
    (submitted : Submitted s text found) (h : FailsWith (runQuery text) s m) : Told s m := by
  unfold FailsWith at h
  rw [runQuery_submitted submitted] at h
  cases found with
  | none =>
    obtain h | ⟨_, u, hc, h⟩ := failsWith_bind.1 h
    · obtain ⟨e, he, rfl⟩ := clearResults_error h
      exact engineFailure_told (.clearing submitted nofun he)
    · obtain ⟨t, h⟩ := h
      cases h
      obtain ⟨he, rfl⟩ := clearResults_done hc
      exact engineFailure_told (.nothing submitted he)
  | some p =>
    dsimp only at h
    rw [runPrepared_submitted submitted] at h
    obtain h | ⟨values, u, hb, h⟩ := failsWith_bind.1 h
    · obtain ⟨e, he, rfl⟩ := bindParameters_error h
      exact engineFailure_told (.binding submitted he)
    obtain ⟨bound, rfl, rfl⟩ := bindParameters_done hb
    obtain h | ⟨_, u, hc, h⟩ := failsWith_bind.1 h
    · obtain ⟨e, he, rfl⟩ := clearResults_error h
      exact engineFailure_told (.clearing submitted (by rintro _ ⟨⟩; exact bound) he)
    · obtain ⟨cleared, rfl⟩ := clearResults_done hc
      obtain h | ⟨_, _, _, h⟩ := failsWith_bind.1 h
      · obtain ⟨e, rfl, refused | ⟨collected, failed⟩⟩ := collectRows_error h
        · exact engineFailure_told (.row submitted bound cleared refused)
        · exact engineFailure_told (.run submitted bound cleared collected failed)
      -- the rows are there, and nothing that comes after them fails
      · obtain ⟨t, h⟩ := h
        cases h

theorem runMeta_told {k : MetaStatement} {words : List String} (h : FailsWith (runMeta k words) s m) :
    Told s m := by
  unfold runMeta withHelp at h
  obtain ⟨t, h⟩ := failsWith_within.1 h
  dsimp only at h
  split at h
  · cases h
  · rename_i ha
    cases h
    unfold MetaStatement.answer at ha
    split at ha
    · cases ha
    · split at ha
      · cases ha
        exact PointsTo.told (pointsTo_error _ _ _)
      · cases ha
    · cases ha

/-- A query that has failed tells so in the session that it was given to. -/
theorem runQuery_told {text : String} (h : FailsWith (runQuery text) s m) : Told s m := by
  cases noMeta : metaStatement? (Text.trim text) with
  | some k =>
    simp only [runQuery, noMeta] at h
    exact runMeta_told h
  | none =>
    cases given : (Text.trim text).isEmpty with
    | true =>
      simp only [runQuery, noMeta, given, if_true] at h
      rw [← failsWith_fail.1 h]
      exact (pointsTo_error _ _ _).told
    | false =>
      cases prepared : Sql.prepare s.database (expandAlias (Text.trim text)) with
      | error e =>
        simp only [runQuery, noMeta, given, Bool.false_eq_true, if_false, runStatement] at h
        have h := failsWith_get_bind.1 h
        rw [prepared] at h
        rw [← failsWith_fail.1 h]
        exact (pointsTo_error _ _ _).told
      | ok found =>
        by_cases allowed : ∀ p, found = some p → s.context.readOnly = true → p.readOnly = true
        · exact runQuery_submitted_told ⟨noMeta, given, prepared, allowed⟩ h
        · simp only [not_forall] at allowed
          obtain ⟨p, rfl, readOnly, writes⟩ := allowed
          simp only [runQuery, noMeta, given, Bool.false_eq_true, if_false, runStatement] at h
          have h := failsWith_get_bind.1 h
          rw [prepared] at h
          have h := failsWith_get_bind.1 h
          rw [if_pos (by simpa [readOnly] using writes)] at h
          rw [← failsWith_fail.1 h]
          exact (pointsTo_error _ _ _).told

/-! ## Messages of the console -/

def Tells (x : Run α) (s : Session) : Prop := ∀ m, FailsWith x s m → PointsTo s.context.source m

/-- The second computation starts where the first has ended, in the same source. -/
theorem Tells.bind {x : Run α} {f : α → Run β} (hx : Tells x s)
    (hf : ∀ a t, x s = some (.ok a, t) → t.context.source = s.context.source ∧ Tells (f a) t) :
    Tells (x >>= f) s := by
  intro m h
  obtain h | ⟨a, t, ht, h⟩ := failsWith_bind.1 h
  · exact hx m h
  · obtain ⟨source, tells⟩ := hf a t ht
    exact source ▸ tells m h

/-- A computation that does not fail. -/
theorem Tells.never {x : Run α} (h : ∀ m t, x s ≠ some (.error m, t)) : Tells x s :=
  fun m ⟨t, ht⟩ => absurd ht (h m t)

theorem tells_pure (a : α) : Tells (pure a : Run α) s := fun _ h => absurd h (not_failsWith_pure a)

theorem tells_fail (kind : ErrorKind) (text : String) : Tells (fail kind text : Run α) s :=
  fun _ h => failsWith_fail.1 h ▸ pointsTo_error _ _ _

theorem tells_failFor (kind : ErrorKind) (text reason : String) :
    Tells (failFor kind text reason : Run α) s :=
  fun _ h => failsWith_failFor.1 h ▸ pointsTo_withReason _ _ _ _

theorem tells_get_bind {f : Session → α} {k : α → Run β} (h : Tells (k (f s)) s) :
    Tells (Run.get f >>= k) s := h

theorem tells_expandText_bind {text : String} {f : String → Run α} (h : ∀ a, Tells (f a) s) :
    Tells (expandText text >>= f) s := by
  refine .bind ?_ fun a t ht => ?_
  · rintro m ⟨t, h⟩
    unfold expandText at h
    split at h
    · cases h
    · exact tells_failFor _ _ _ m ⟨t, h⟩
  · rw [expandText_state ht]
    exact ⟨rfl, h a⟩

theorem tells_writeOutput (text : String) (newline : Bool) : Tells (writeOutput text newline) s := by
  rintro m ⟨t, h⟩
  have kept := Console.writeOutput_context s.console text newline
  unfold writeOutput at h
  split at h
  · cases h
  · rename_i hw
    cases h
    rw [hw] at kept
    rw [Session.context, ← kept]
    exact pointsTo_withReason _ _ _ _

theorem tells_echo (line : String) (words : List String) : Tells (echo line words) s := by
  unfold echo
  refine tells_expandText_bind fun text => tells_get_bind ?_
  split
  · exact tells_pure _
  · rename_i wet
    refine .bind (tells_writeOutput _ _) fun written t ht => ⟨?_, ?_⟩
    · have acts := byActs_writeOutput text (echoArguments line words).2 (by simpa using wet) _ _ ht
      rw [Context.source, acts.kept.sources, Context.source]
    · split <;> exact tells_pure _

theorem tells_openTarget (path : String) : Tells (openTarget path) s := by
  rintro m ⟨t, h⟩
  unfold openTarget at h
  split at h
  · cases h
  · split at h
    · cases h
      exact pointsTo_withReason _ _ _ _
    · cases h

theorem tells_openTarget_bind {path : String} {f : Nat → Run α} (h : ∀ sink t, Tells (f sink) t) :
    Tells (openTarget path >>= f) s :=
  .bind (tells_openTarget path) fun sink t ht => ⟨by rw [openTarget_context ht], h sink t⟩

theorem tells_redirectTo (line : String) : Tells (redirectTo line) s := by
  unfold redirectTo
  refine tells_expandText_bind fun text => tells_get_bind ?_
  split
  · split
    · exact .never fun m t h => by cases h
    · exact tells_pure _
  · split
    · exact tells_pure _
    · exact tells_openTarget_bind fun sink t => .never fun m t h => by cases h

theorem tells_writeAll (path : String) (sink : Nat) (bytes : List UInt8) :
    Tells (writeAll path sink bytes) s := by
  rintro m ⟨t, h⟩
  simp only [writeAll] at h
  split at h
  · cases h
  · cases h
    exact pointsTo_withReason _ _ _ _

theorem tells_writeResults (form : ResultSet → String) (line : String) :
    Tells (writeResults form line) s := by
  unfold writeResults
  refine tells_expandText_bind fun text => tells_get_bind ?_
  split
  · exact tells_fail _ _
  · split
    · exact tells_fail _ _
    · refine tells_get_bind ?_
      split
      · exact tells_pure _
      · refine tells_openTarget_bind fun sink t m h => ?_
        exact tells_writeAll _ _ _ m (failsWith_map.1 h)

theorem tells_runShell (line : String) : Tells (runShell line) s := by
  simp only [runShell]
  split
  · exact tells_fail _ _
  · refine tells_get_bind ?_
    split
    · exact tells_pure _
    · rintro m h
      obtain ⟨t, h⟩ | ⟨_, _, _, t, h⟩ := failsWith_bind.1 h
      · unfold startShell at h
        split at h
        · exact tells_failFor _ _ _ m ⟨t, h⟩
        · cases h
      · cases h

theorem tells_showHelp (line : String) : Tells (showHelp line) s := by
  simp only [showHelp]
  split
  · exact .never fun m t h => by cases h
  · refine tells_get_bind ?_
    split
    · exact tells_pure _
    · exact tells_fail _ _

/-! ## Commands -/

/-- What a line dispatches does not come to an end. -/
def endless : Mode → String → Run Output := fun _ _ _ => none

theorem failsWith_executeWith {again : Mode → String → Run Output} {line : String} :
    FailsWith (executeWith again line) s m ↔
      FailsWith (again (Mode.split line).1 (Mode.split line).2) s m :=
  failsWith_map.trans failsWith_ensuring

theorem tells_eval (line : String) : Tells (eval endless line) s := by
  simp only [eval]
  split
  · exact tells_fail _ _
  · refine tells_expandText_bind fun text => tells_get_bind ?_
    split
    · exact tells_pure _
    · rintro m h
      obtain ⟨t, h⟩ := failsWith_executeWith.1 (failsWith_within.1 h)
      cases h

/-- What a command that is built in fails with by itself. -/
theorem tells_runBuiltin (b : Builtin) (line : String) (words : List String) :
    Tells (runBuiltin endless b line words) s := by
  cases b with
  | echo => exact tells_echo line words
  | eval => exact tells_eval line
  | redirectTo => exact tells_redirectTo line
  | writeCsv => exact tells_writeResults csvText line
  | writeJson => exact tells_writeResults jsonText line
  | shell => exact tells_runShell line
  | help => exact tells_showHelp line

end Run

end LogConsole
