import LogConsole.Session.Dispatch

/-!
# LogConsole.Proofs.Session.Acts

What running a line can do to a session, said once.

* `Act s t`  — one change that a command, a query or a script makes, with what was checked
  before it;
* `Acts s t` — finitely many changes, also inside of frames;
* `Ends R x s` — wherever `x` ends when it starts from `s`, that is related to `s` by `R`;
* `Queries R`, `Outputs R` — `R` goes over each change that a query makes, or a command to the
  outputs. Then `Ends R` holds of all queries, and of all such commands;
* `ByActs x s` — it gets there by acts. The rules for it follow the operations on computations;
* `Enclosed x` — `x` does so in a directory and an output of its own.

`dispatchMode_byActs`: a payload in any mode runs by acts, whatever its nesting, and also if it
fails. An invariant of sessions is then proved by induction on `Acts`. `executeEntry_eq` says what
an entry of a batch puts around its payload.
-/

namespace LogConsole

namespace Session

/-- The session after a statement's rows have been collected. -/
def collected (s : Session) (p : Sql.Prepared) (values : List Sql.Value) : Session :=
  let outcome := p.run s.database values
  { s with
    collector := (s.collector.recordAll p.columns outcome.rows.rows).2
    database := outcome.database }

/-- The session after bytes have been written to a sink and the sink has been closed. -/
def exported (s : Session) (sink : Nat) (bytes : List UInt8) : Session :=
  s.changeWorld fun w => (Console.writeFlushed w sink [bytes]).2.closeSink sink

/-- The session after the output of a child process has been handed on. -/
def captured (s : Session) (text : String) (bytes : List UInt8) : Session :=
  let (_, capture, t) := s.pipe text (PipeRead.ofBytes bytes)
  { t with captures := t.captures ++ capture.toList }

inductive Act : Session → Session → Prop where
  | clearResults {s : Session} : Act s { s with collector := s.collector.clear.2 }
  | collectRows {s : Session} {text : String} {p : Sql.Prepared} (values : List Sql.Value)
      (prepared : Sql.prepare s.database text = .ok (some p))
      (allowed : s.context.readOnly = true → p.readOnly = true)
      (cleared : s.results.headers = [] ∧ s.results.rows = []) : Act s (s.collected p values)
  | storeFirstRow {s : Session} (wet : s.context.dryRun = false) :
      Act s (s.changeContext (Query.setLocals (Query.firstRowVariables s.results)))
  | search {s : Session} (pattern : String) :
      Act s { s with
        host := (s.host.search s.world pattern).1
        console := { s.console with world := (s.host.search s.world pattern).2 } }
  | print {s : Session} (text : String) (newline : Bool) (wet : s.context.dryRun = false) :
      Act s { s with console := (s.console.writeOutput text newline).2 }
  | showScreen {s : Session} (wet : s.context.dryRun = false) :
      Act s (s.changeConsole Console.clearOutput)
  | redirect {s t : Session} {path : String} {sink : Nat} (wet : s.context.dryRun = false)
      (opened : Run.openTarget path s = some (.ok sink, t)) :
      Act s (t.changeConsole fun k => k.setOutput (Run.targetName path) sink)
  | «export» {s t : Session} {path : String} {sink : Nat} (bytes : List UInt8)
      (wet : s.context.dryRun = false) (opened : Run.openTarget path s = some (.ok sink, t)) :
      Act s (t.exported sink bytes)
  | shell {s t : Session} {text : String} {bytes : List UInt8} (wet : s.context.dryRun = false)
      (started : Run.startShell text s = some (.ok bytes, t)) : Act s (t.captured text bytes)
  | resolve {s : Session} (name : String) :
      Act s { s with resolver := (s.resolver.resolve s.context s.disk name).2 }
  | takeInput {s : Session} : Act s (s.changeWorld fun w => { w with stdin := [] })
  | leaveInput {s : Session} (bytes : List UInt8) :
      Act s (s.changeWorld fun w => { w with stdin := bytes ++ w.stdin })
  | refresh {s : Session} (needed : Run.refreshes s = true) : Act s s.refreshHost

inductive Acts : Session → Session → Prop where
  | refl {s : Session} : Acts s s
  | act {s t : Session} : Act s t → Acts s t
  | trans {s t u : Session} : Acts s t → Acts t u → Acts s u
  | within {s t : Session} (f : Frame) :
      Acts (s.changeConsole f.enter) t → Acts s (t.changeConsole (f.leave s.context))

end Session

/-- Clearing that is not refused leaves nothing of earlier results. -/
theorem Collector.clear_ok {c d : Collector} (h : c.clear = (.ok (), d)) :
    d.results = c.results.clear := by
  simp only [clear] at h
  split at h <;> cases h
  rfl

namespace Run

open Session Query

variable {α β : Type} {s : Session}

def ByActs (x : Run α) (s : Session) : Prop := ∀ r t, x s = some (r, t) → Acts s t

/-! ## Rules -/

theorem bind_def (x : Run α) (f : α → Run β) (s : Session) :
    (x >>= f) s = match x s with
      | none => none
      | some (.error e, t) => some (.error e, t)
      | some (.ok a, t) => f a t := rfl

theorem ok_of_toOption {ε α : Type} {r : Except ε α} {a : α} (h : r.toOption = some a) :
    r = .ok a := by
  cases r with
  | ok b => cases h; rfl
  | error e => cases h

/-- A failure, or an end of fuel, is passed on by all that comes after. -/
instance : LawfulMonad Run := LawfulMonad.mk' Run
  (fun x => by
    funext s
    change (x >>= pure) s = x s
    rw [bind_def]
    rcases x s with _ | ⟨_ | _, _⟩ <;> rfl)
  (fun _ _ => rfl)
  (fun x f g => by
    funext s
    simp only [bind_def]
    rcases x s with _ | ⟨_ | _, _⟩ <;> rfl)

/-- Wherever `x` ends when it starts from `s`, the two are related. -/
def Ends (R : Session → Session → Prop) (x : Run α) (s : Session) : Prop :=
  ∀ r t, x s = some (r, t) → R s t

theorem Ends.still {R : Session → Session → Prop} {x : Run α} (refl : ∀ s, R s s)
    (h : ∀ r t, x s = some (r, t) → t = s) : Ends R x s := by
  intro r t hx
  rw [h r t hx]
  exact refl s

theorem Ends.bind {R : Session → Session → Prop} {x : Run α} {f : α → Run β}
    (trans : ∀ {s t u}, R s t → R t u → R s u) (hx : Ends R x s)
    (hf : ∀ a t, x s = some (.ok a, t) → Ends R (f a) t) : Ends R (x >>= f) s := by
  intro r u h
  rw [bind_def] at h
  split at h
  · cases h
  · rename_i e t ht; cases h; exact hx _ _ ht
  · rename_i a t ht; exact trans (hx _ _ ht) (hf a t ht r u h)

theorem Ends.pure {R : Session → Session → Prop} {a : α} (refl : ∀ s, R s s) :
    Ends R (Pure.pure a : Run α) s := .still refl fun _ _ h => by cases h; rfl

theorem Ends.fail {R : Session → Session → Prop} {kind : ErrorKind} {text : String}
    (refl : ∀ s, R s s) : Ends R (Run.fail kind text : Run α) s :=
  .still refl fun _ _ h => by cases h; rfl

theorem Ends.get {R : Session → Session → Prop} {f : Session → α} (refl : ∀ s, R s s) :
    Ends R (Run.get f) s := .still refl fun _ _ h => by cases h; rfl

/-- What is read from the session is known in what follows. -/
theorem Ends.get_bind {R : Session → Session → Prop} {f : Session → α} {k : α → Run β}
    (h : Ends R (k (f s)) s) : Ends R (Run.get f >>= k) s := h

theorem ByActs.still {x : Run α} (h : ∀ r t, x s = some (r, t) → t = s) : ByActs x s :=
  Ends.still (fun _ => .refl) h

theorem ByActs.bind {x : Run α} {f : α → Run β} (hx : ByActs x s)
    (hf : ∀ a t, x s = some (.ok a, t) → ByActs (f a) t) : ByActs (x >>= f) s :=
  Ends.bind .trans hx hf

theorem byActs_pure (a : α) : ByActs (pure a : Run α) s :=
  .still fun _ _ h => by cases h; rfl

theorem byActs_throw (m : Message) : ByActs (throw m : Run α) s :=
  .still fun _ _ h => by cases h; rfl

theorem byActs_fail (kind : ErrorKind) (text : String) : ByActs (fail kind text : Run α) s :=
  .still fun _ _ h => by cases h; rfl

theorem byActs_failFor (kind : ErrorKind) (text reason : String) :
    ByActs (failFor kind text reason : Run α) s :=
  .still fun _ _ h => by cases h; rfl

theorem byActs_get_bind {f : Session → α} {k : α → Run β} (h : ByActs (k (f s)) s) :
    ByActs (Run.get f >>= k) s := h

theorem byActs_change {f : Session → Session} (h : Act s (f s)) : ByActs (change f) s := by
  intro r t ht
  cases ht
  exact .act h

/-- Where a computation inside of a frame ends. -/
theorem within_ended {f : Frame} {x : Run α} {r : Except Message α} {t : Session}
    (h : within f x s = some (r, t)) :
    ∃ u, x (s.changeConsole f.enter) = some (r, u) ∧ t = u.changeConsole (f.leave s.context) := by
  simp only [Run.within, ensuring] at h
  split at h
  · cases h
  · rename_i r' u hx; cases h; exact ⟨u, hx, rfl⟩

theorem ByActs.within {f : Frame} {x : Run α} (h : ByActs x (s.changeConsole f.enter)) :
    ByActs (within f x) s := by
  intro r t ht
  obtain ⟨u, hx, rfl⟩ := within_ended ht
  exact .within f (h r u hx)

/-- `x` runs in a directory and an output of its own. -/
def Enclosed (x : Run α) : Prop :=
  ∃ dir y, x = withDirectory dir (withOutput "default" y) ∧ ∀ s, ByActs y s

theorem Enclosed.byActs {x : Run α} (h : Enclosed x) : ByActs x s := by
  obtain ⟨dir, y, rfl, hy⟩ := h
  exact .within (.within (hy _))

/-- A computation whose success is turned into another answer. -/
theorem ByActs.map {x : Run α} {f : α → β} (h : ByActs x s) :
    ByActs (x >>= fun a => pure (f a)) s := h.bind fun _ _ _ => byActs_pure _

/-! ## Queries -/

/-- A relation that goes over each change that a query makes. -/
structure Queries (R : Session → Session → Prop) : Prop where
  refl (s : Session) : R s s
  trans {s t u : Session} : R s t → R t u → R s u
  clear (s : Session) : R s { s with collector := s.collector.clear.2 }
  collect {s : Session} {text : String} {p : Sql.Prepared} (values : List Sql.Value)
    (prepared : Sql.prepare s.database text = .ok (some p))
    (allowed : s.context.readOnly = true → p.readOnly = true)
    (cleared : s.results.headers = [] ∧ s.results.rows = []) : R s (s.collected p values)
  store {s : Session} (wet : s.context.dryRun = false) :
    R s (s.changeContext (setLocals (firstRowVariables s.results)))

theorem queries_acts : Queries Acts where
  refl _ := .refl
  trans := .trans
  clear _ := .act .clearResults
  collect values prepared allowed cleared := .act (.collectRows values prepared allowed cleared)
  store wet := .act (.storeFirstRow wet)

/-- Clearing that is not refused changes the results only. -/
theorem clearResults_ok {t : Session} (h : clearResults s = some (.ok (), t)) :
    t.results = s.results.clear ∧ t.database = s.database ∧ t.console = s.console := by
  unfold clearResults at h
  split at h <;> cases h
  rename_i hc
  exact ⟨Collector.clear_ok hc, rfl, rfl⟩

theorem bindParameters_still {p : Sql.Prepared} {r : Except Message (List Sql.Value)} {t : Session}
    (h : bindParameters p s = some (r, t)) : t = s := by
  unfold bindParameters at h
  dsimp only at h
  split at h <;> cases h <;> rfl

theorem bindParameters_ok {p : Sql.Prepared} {values : List Sql.Value} {t : Session}
    (h : bindParameters p s = some (.ok values, t)) : values = parameterValues s p ∧ t = s := by
  unfold bindParameters at h
  dsimp only at h
  split at h <;> cases h
  exact ⟨rfl, rfl⟩

/-- A statement about the database changes nothing: its help text is put away again. -/
theorem runMeta_still {m : MetaStatement} {words : List String} {r : Except Message Output}
    {t : Session} (h : runMeta m words s = some (r, t)) : t = s := by
  unfold runMeta withHelp at h
  obtain ⟨u, hu, rfl⟩ := within_ended h
  split at hu <;> cases hu <;> rfl

section Queries

variable {R : Session → Session → Prop} (queries : Queries R)

include queries

theorem ends_clearResults : Ends R clearResults s := by
  have key := queries.clear s
  intro r t h
  unfold clearResults at h
  split at h <;> rename_i hc <;> cases h <;> simpa [hc] using key

theorem ends_collectRows {text : String} {p : Sql.Prepared} (values : List Sql.Value)
    (prepared : Sql.prepare s.database text = .ok (some p))
    (allowed : s.context.readOnly = true → p.readOnly = true)
    (cleared : s.results.headers = [] ∧ s.results.rows = []) :
    Ends R (collectRows p values) s := by
  have key := queries.collect values prepared allowed cleared
  intro r t h
  simp only [collectRows] at h
  split at h
  · rename_i e c hc; cases h; simpa [collected, hc] using key
  · rename_i c hc
    split at h <;> cases h <;> simpa [collected, hc] using key

theorem ends_storeFirstRow : Ends R storeFirstRow s := by
  intro r t h
  cases h
  dsimp only
  split
  · exact queries.refl _
  · rename_i hd; exact queries.store (by simpa using hd)

theorem ends_runPrepared {statement : String} {p : Sql.Prepared} (text : String)
    (prepared : Sql.prepare s.database statement = .ok (some p)) :
    Ends R (runPrepared text p) s := by
  refine Ends.get_bind ?_
  split
  · exact .fail queries.refl
  · rename_i hro
    refine .bind queries.trans (.still queries.refl fun _ _ h => bindParameters_still h) ?_
    intro values u hu
    obtain ⟨-, rfl⟩ := bindParameters_ok hu
    refine .bind queries.trans (ends_clearResults queries) fun _ t ht => ?_
    obtain ⟨hr, hd, hc⟩ := clearResults_ok ht
    have allowed : t.context.readOnly = true → p.readOnly = true := by
      simpa [Session.context, hc] using hro
    have cleared : t.results.headers = [] ∧ t.results.rows = [] := by rw [hr]; exact ⟨rfl, rfl⟩
    have rows := ends_collectRows queries values (hd ▸ prepared) allowed cleared
    refine .bind queries.trans rows fun _ _ _ => ?_
    exact .bind queries.trans (ends_storeFirstRow queries) fun _ _ _ => .get queries.refl

theorem ends_runStatement (text statement : String) : Ends R (runStatement text statement) s := by
  refine Ends.get_bind ?_
  split
  · exact .fail queries.refl
  · refine .bind queries.trans (ends_clearResults queries) fun _ _ _ => ?_
    exact .still queries.refl fun _ _ h => by cases h; rfl
  · rename_i p hp; exact ends_runPrepared queries text hp

theorem ends_runQuery (text : String) : Ends R (runQuery text) s := by
  simp only [runQuery]
  split
  · exact .still queries.refl fun _ _ h => runMeta_still h
  · split
    · exact .fail queries.refl
    · exact ends_runStatement queries _ _

end Queries

theorem byActs_runQuery (text : String) : ByActs (runQuery text) s :=
  ends_runQuery queries_acts text

/-! ## Commands -/

theorem expandText_state {text : String} {r : Except Message String} {t : Session}
    (h : expandText text s = some (r, t)) : t = s := by
  unfold expandText at h
  split at h <;> cases h <;> rfl

/-- To open a target changes the world only. -/
theorem openTarget_ended {path : String} {r : Except Message Nat} {t : Session}
    (h : openTarget path s = some (r, t)) : ∃ w, t = s.changeWorld fun _ => w := by
  unfold openTarget at h
  split at h
  · cases h; exact ⟨_, rfl⟩
  · split at h <;> cases h
    · exact ⟨s.world, rfl⟩
    · exact ⟨_, rfl⟩

theorem openTarget_error {path : String} {e : Message} {t : Session}
    (h : openTarget path s = some (.error e, t)) : t = s := by
  unfold openTarget at h
  split at h
  · cases h
  · split at h <;> cases h
    rfl

theorem writeAll_state {path : String} {sink : Nat} {bytes : List UInt8} {r : Except Message Unit}
    {t : Session} (h : writeAll path sink bytes s = some (r, t)) : t = s.exported sink bytes := by
  simp only [writeAll] at h
  split at h <;> cases h <;> rfl

/-- A relation that goes over each change of the outputs that a command makes. -/
structure Outputs (R : Session → Session → Prop) : Prop where
  refl (s : Session) : R s s
  trans {s t u : Session} : R s t → R t u → R s u
  print {s : Session} (text : String) (newline : Bool) (wet : s.context.dryRun = false) :
    R s { s with console := (s.console.writeOutput text newline).2 }
  screen {s : Session} (wet : s.context.dryRun = false) : R s (s.changeConsole Console.clearOutput)
  redirect {s t : Session} {path : String} {sink : Nat} (wet : s.context.dryRun = false)
    (opened : openTarget path s = some (.ok sink, t)) :
    R s (t.changeConsole fun k => k.setOutput (targetName path) sink)
  «export» {s t : Session} {path : String} {sink : Nat} (bytes : List UInt8)
    (wet : s.context.dryRun = false) (opened : openTarget path s = some (.ok sink, t)) :
    R s (t.exported sink bytes)

theorem outputs_acts : Outputs Acts where
  refl _ := .refl
  trans := .trans
  print text newline wet := .act (.print text newline wet)
  screen wet := .act (.showScreen wet)
  redirect wet opened := .act (.redirect wet opened)
  «export» bytes wet opened := .act (.export bytes wet opened)

section Outputs

variable {R : Session → Session → Prop} (outputs : Outputs R)

include outputs

/-- A text is expanded first, and nothing else happens until that is done. -/
theorem ends_expandText_bind {text : String} {f : String → Run α} (h : ∀ a, Ends R (f a) s) :
    Ends R (expandText text >>= f) s :=
  .bind outputs.trans (.still outputs.refl fun _ _ hx => expandText_state hx)
    fun a _ ht => expandText_state ht ▸ h a

/-- What is done with a target that has been opened is one change with the opening. -/
theorem ends_openTarget_bind {path : String} {f : Nat → Run α}
    (h : ∀ sink t, openTarget path s = some (.ok sink, t) →
      ∀ r u, f sink t = some (r, u) → R s u) :
    Ends R (openTarget path >>= f) s := by
  intro r u hu
  rw [bind_def] at hu
  split at hu
  · cases hu
  · rename_i e t ht; cases hu; rw [openTarget_error ht]; exact outputs.refl _
  · rename_i sink t ht; exact h sink t ht r u hu

theorem ends_writeOutput (text : String) (newline : Bool) (wet : s.context.dryRun = false) :
    Ends R (writeOutput text newline) s := by
  have key := outputs.print text newline wet
  intro r t h
  unfold writeOutput at h
  split at h <;> rename_i hk <;> cases h <;> simpa [hk] using key

theorem ends_echo (line : String) (words : List String) : Ends R (echo line words) s := by
  unfold echo
  refine ends_expandText_bind outputs fun text => Ends.get_bind ?_
  split
  · exact .pure outputs.refl
  · rename_i wet
    refine .bind outputs.trans (ends_writeOutput outputs _ _ (by simpa using wet)) fun _ _ _ => ?_
    split <;> exact .pure outputs.refl

theorem ends_redirectTo (line : String) : Ends R (redirectTo line) s := by
  unfold redirectTo
  refine ends_expandText_bind outputs fun text => Ends.get_bind ?_
  split
  · split
    · rename_i wet
      intro r u hu
      cases hu
      exact outputs.screen (by simpa using wet)
    · exact .pure outputs.refl
  · split
    · exact .pure outputs.refl
    · rename_i wet
      refine ends_openTarget_bind outputs fun sink _ ht r u hu => ?_
      cases hu
      exact outputs.redirect (by simpa using wet) ht

theorem ends_writeResults (form : ResultSet → String) (line : String) :
    Ends R (writeResults form line) s := by
  unfold writeResults
  refine ends_expandText_bind outputs fun text => Ends.get_bind ?_
  split
  · exact .fail outputs.refl
  · split
    · exact .fail outputs.refl
    · refine Ends.get_bind ?_
      split
      · exact .pure outputs.refl
      · rename_i wet
        refine ends_openTarget_bind outputs fun sink _ ht r u hu => ?_
        rw [bind_def] at hu
        split at hu <;> rename_i hw <;> cases hu <;> rw [writeAll_state hw]
        all_goals exact outputs.export _ (by simpa using wet) ht

end Outputs

theorem byActs_expandText_bind {text : String} {f : String → Run α} (h : ∀ a, ByActs (f a) s) :
    ByActs (expandText text >>= f) s := ends_expandText_bind outputs_acts h

theorem byActs_writeOutput (text : String) (newline : Bool) (wet : s.context.dryRun = false) :
    ByActs (writeOutput text newline) s := ends_writeOutput outputs_acts text newline wet

/-- To start a child process changes the world only. -/
theorem startShell_ended {text : String} {r : Except Message (List UInt8)} {t : Session}
    (h : startShell text s = some (r, t)) : ∃ w, t = s.changeWorld fun _ => w := by
  unfold startShell at h
  split at h <;> cases h
  · exact ⟨s.world, rfl⟩
  · exact ⟨_, rfl⟩

theorem startShell_error {text : String} {e : Message} {t : Session}
    (h : startShell text s = some (.error e, t)) : t = s := by
  unfold startShell at h
  split at h <;> cases h
  rfl

/-- A command line that is run is one change with what becomes of its output. -/
theorem runShell_ended {line : String} {r : Except Message String} {u : Session}
    (h : runShell line s = some (r, u)) :
    u = s ∨ s.context.dryRun = false ∧ ∃ bytes t,
      startShell (argumentText line) s = some (.ok bytes, t) ∧
        u = t.captured (argumentText line) bytes := by
  simp only [runShell] at h
  split at h
  · cases h; exact .inl rfl
  · rw [bind_def, Run.get] at h
    dsimp only at h
    split at h
    · cases h; exact .inl rfl
    · rename_i wet
      rw [bind_def] at h
      split at h
      · cases h
      · rename_i ht; cases h; exact .inl (startShell_error ht)
      · rename_i bytes t ht
        cases h
        exact .inr ⟨by simpa using wet, bytes, t, ht, rfl⟩

theorem byActs_runShell (line : String) : ByActs (runShell line) s := by
  intro r u h
  obtain rfl | ⟨wet, bytes, t, started, rfl⟩ := runShell_ended h
  · exact .refl
  · exact .act (.shell wet started)

theorem ends_showHelp {R : Session → Session → Prop} (refl : ∀ s, R s s) (line : String) :
    Ends R (showHelp line) s := by
  simp only [showHelp]
  split
  · exact .get refl
  · refine Ends.get_bind ?_
    split
    · exact .pure refl
    · exact .fail refl

theorem byActs_showHelp (line : String) : ByActs (showHelp line) s :=
  ends_showHelp (fun _ => Acts.refl) line

/-! ## Parts of a script -/

theorem byActs_checkInterrupt : ByActs checkInterrupt s := by
  refine .still fun r t h => ?_
  unfold checkInterrupt at h
  split at h <;> cases h <;> rfl

theorem byActs_answerOf (answer : Except Message String) : ByActs (answerOf answer) s := by
  cases answer with
  | ok a => exact byActs_pure a
  | error e => exact byActs_throw e

theorem byActs_resolveScript (name : String) : ByActs (resolveScript name) s := by
  have key := Acts.act (Act.resolve (s := s) name)
  intro r t h
  unfold resolveScript at h
  split at h <;> rename_i hr <;> cases h <;> simpa [hr] using key

/-! ## Lines that dispatch lines -/

section Again

variable {again : Mode → String → Run Output}
  (ih : ∀ mode payload t, ByActs (again mode payload) t)

include ih

theorem byActs_executeWith (line : String) : ByActs (executeWith again line) s := by
  unfold executeWith
  refine ByActs.map fun r u h => ?_
  unfold ensuring at h
  split at h
  · cases h
  · rename_i r' t ht
    cases h
    refine (ih _ _ s r t ht).trans ?_
    unfold refreshAfter
    split
    · rename_i needed; exact .act (.refresh needed)
    · exact .refl

theorem byActs_dispatchWith (line : String) : ByActs (dispatchWith again line) s := (ih _ _ s).map

theorem byActs_eval (line : String) : ByActs (eval again line) s := by
  simp only [eval]
  split
  · exact byActs_fail _ _
  · refine byActs_expandText_bind fun text => byActs_get_bind ?_
    split
    · exact byActs_pure _
    · exact .within (byActs_executeWith ih _)

/-! ## Scripts -/

theorem byActs_runStatementAt (source : String) (line : Nat) (mode : Mode) (text : String) :
    ByActs (runStatementAt again source line mode text) s :=
  byActs_checkInterrupt.bind fun _ _ _ => ByActs.map (.within (ih _ _ _))

theorem byActs_runPending (source : String) (p : Script.Progress) :
    ByActs (runPending again source p) s := by
  unfold runPending
  split
  · exact byActs_pure _
  · exact (byActs_runStatementAt ih _ _ _ _).map

theorem byActs_runLine (source : String) (multiline : Bool) (p : Script.Progress)
    (bytes : List UInt8) :
    ByActs (runLine again source multiline p bytes) s := by
  simp only [runLine]
  split
  · exact byActs_failFor _ _ _
  · split
    · exact byActs_pure _
    · exact (byActs_runPending ih _ _).map
    · split
      · exact byActs_pure _
      · exact (byActs_runStatementAt ih _ _ _ _).map

theorem byActs_readScript (source : String) (multiline : Bool) (lines : List (List UInt8)) :
    ∀ (p : Script.Progress) (s : Session), ByActs (readScript again source multiline p lines) s := by
  induction lines with
  | nil =>
    intro p s r t h
    simp only [readScript] at h
    split at h
    · cases h
    · rename_i ht; cases h; exact byActs_runPending ih source p _ _ ht
    · rename_i ht; cases h; exact byActs_runPending ih source p _ _ ht
  | cons raw rest ihl =>
    intro p s r t h
    simp only [readScript] at h
    split at h
    · cases h
    · rename_i hu; cases h; exact byActs_runLine ih source multiline p _ _ _ hu
    · rename_i hu
      exact (byActs_runLine ih source multiline p _ _ _ hu).trans (ihl _ _ _ _ h)

theorem enclosed_executeScript (source dir : String) (bytes : List UInt8) (multiline : Bool) :
    Enclosed (executeScript again source dir bytes multiline) :=
  ⟨dir, _, rfl, fun _ => (byActs_readScript ih _ _ _ _ _).bind fun _ _ _ => byActs_answerOf _⟩

theorem enclosed_executeStdin (multiline : Bool) : Enclosed (executeStdin again multiline) := by
  refine ⟨".", _, rfl, fun s => ?_⟩
  refine ByActs.bind (fun r t h => by cases h; exact .act .takeInput) fun bytes t _ => ?_
  refine (byActs_readScript ih _ _ _ _ _).bind fun _ _ _ => ?_
  exact (byActs_change (.leaveInput _)).bind fun _ _ _ => byActs_answerOf _

theorem byActs_executeScript (source dir : String) (bytes : List UInt8) (multiline : Bool) :
    ByActs (executeScript again source dir bytes multiline) s :=
  (enclosed_executeScript ih source dir bytes multiline).byActs

theorem byActs_executeCandidate (multiline : Bool) (c : Candidate) :
    ByActs (executeCandidate again multiline c) s := by
  unfold executeCandidate
  split
  · exact (enclosed_executeStdin ih multiline).byActs
  · refine byActs_get_bind ?_
    split
    · exact byActs_failFor _ _ _
    · exact .within (.within (byActs_failFor _ _ _))
    · exact byActs_executeScript ih _ _ _ _

theorem byActs_executeAll (multiline : Bool) (found : List Candidate) :
    ∀ (answer : String) (s : Session), ByActs (executeAll again multiline answer found) s := by
  induction found with
  | nil => intro answer s; exact byActs_pure answer
  | cons c rest ihc =>
    intro answer s
    exact (byActs_executeCandidate ih multiline c).bind fun a t _ => ihc a t

theorem byActs_executeFile (invocation : String) (multiline : Bool) :
    ByActs (executeFile again invocation multiline) s := by
  intro r t h
  simp only [executeFile] at h
  split at h
  · cases h; exact .refl
  · cases h; exact .refl
  · refine ByActs.within ?_ r t h
    exact (byActs_resolveScript _).bind fun _ _ _ => byActs_executeAll ih _ _ _ _

/-! ## Commands from outside, and dispatching -/

theorem byActs_runRequest (q : Request) : ByActs (runRequest again q) s := by
  cases q with
  | line text => exact byActs_executeWith ih text
  | dispatch text => exact byActs_dispatchWith ih text
  | command line => exact (ih _ _ s).map
  | query text => exact (ih _ _ s).map
  | file invocation multiline => exact byActs_executeFile ih invocation multiline
  | reader source dir bytes multiline => exact byActs_executeScript ih source dir bytes multiline

theorem byActs_runProcedure (p : Procedure) : ∀ s : Session, ByActs (runProcedure again p) s := by
  induction p with
  | answer result => intro s; exact .still fun _ _ h => by cases h; rfl
  | look next ihn => intro s; exact ihn s.context s
  | within f inner next ihi ihn =>
    intro s r u h
    simp only [runProcedure] at h
    split at h
    · cases h
    · rename_i r' t ht
      exact (ByActs.within (ihi _) _ _ ht).trans (ihn r' t r u h)
  | request q next ihn =>
    intro s r u h
    simp only [runProcedure] at h
    split at h
    · cases h
    · rename_i r' t ht
      exact (byActs_runRequest ih q _ _ ht).trans (ihn r' t r u h)

theorem byActs_runHandler (h : Handler) (line : String) (words : List String) :
    ByActs (runHandler again h line words) s := by
  cases h with
  | procedure start => exact byActs_runProcedure ih _ s
  | builtin b =>
    cases b with
    | echo => exact ends_echo outputs_acts line words
    | eval => exact byActs_eval ih line
    | redirectTo => exact ends_redirectTo outputs_acts line
    | writeCsv => exact ends_writeResults outputs_acts csvText line
    | writeJson => exact ends_writeResults outputs_acts jsonText line
    | shell => exact byActs_runShell line
    | help => exact byActs_showHelp line

theorem byActs_runCommand (line : String) : ByActs (runCommand again line) s := by
  unfold runCommand
  split
  · exact byActs_fail _ _
  · refine byActs_get_bind ?_
    split
    · exact byActs_fail _ _
    · exact .within (byActs_runHandler ih _ _ _)

end Again

end Run

namespace Session

open Run

variable {s : Session}

theorem byActs_step {again : Mode → String → Run Output}
    (ih : ∀ mode payload t, ByActs (again mode payload) t) (mode : Mode) (payload : String) :
    ByActs (step again mode payload) s := by
  cases mode with
  | command => exact (byActs_runCommand ih payload).map
  | search => intro r t h; cases h; exact .act (.search payload)
  | query => exact byActs_runQuery payload
  | script => exact (byActs_executeFile ih payload true).map

/-- A payload in any mode runs by acts, however deep lines are nested in it. -/
theorem dispatchMode_byActs (fuel : Nat) :
    ∀ (mode : Mode) (payload : String) (s : Session), ByActs (dispatchMode fuel mode payload) s := by
  induction fuel with
  | zero => intro mode payload s r t h; cases h
  | succ fuel ih => intro mode payload s; exact byActs_step ih mode payload

/-! ## Entries of a batch -/

/-- Captures that finish change the world only. -/
theorem waitForCaptures_eq (s : Session) :
    ∃ w, s.waitForCaptures = { s.changeWorld (fun _ => w) with captures := [] } := by
  have key : ∀ (cs : List Capture) (s : Session),
      ∃ w, cs.foldl finishCapture s = s.changeWorld fun _ => w := by
    intro cs
    induction cs with
    | nil => intro s; exact ⟨s.world, rfl⟩
    | cons c rest ih => intro s; exact ih (s.finishCapture c)
  obtain ⟨w, hw⟩ := key s.captures s
  exact ⟨w, by rw [waitForCaptures, hw]⟩

/-- The session in which the payload of an entry runs. -/
def entryStart (index : Nat) (command : String) (s : Session) : Session :=
  s.waitForCaptures.changeConsole (Frame.enter (.source (batchSource index command)))

/-- The session after an entry whose payload has ended in `t`: the host is refreshed before the
frame is left. -/
def entryEnd (index : Nat) (command : String) (s t : Session) : Session :=
  t.refreshHost.changeConsole
    (Frame.leave (.source (batchSource index command)) s.waitForCaptures.context)

theorem executeEntry_eq (fuel index : Nat) (command : String) (s : Session) :
    executeEntry fuel index command s =
      (dispatchMode fuel (Mode.split command).1 (Mode.split command).2
        (s.entryStart index command)).map fun ended =>
          ⟨command, (resultOf ended.1).1, (resultOf ended.1).2,
            s.entryEnd index command ended.2⟩ := by
  have inside : s.waitForCaptures.changeConsole (Frame.enter (.source (batchSource index command)))
      = s.entryStart index command := rfl
  simp only [executeEntry, withSource, Run.within, ensuring, inside]
  cases dispatchMode fuel (Mode.split command).1 (Mode.split command).2
    (s.entryStart index command) <;> rfl

/-- The payload runs in its mode, and the host is refreshed before the frame is left. -/
theorem executeEntry_ended {fuel index : Nat} {command : String} {entry : BatchEntry}
    (h : executeEntry fuel index command s = some entry) :
    ∃ r t, dispatchMode fuel (Mode.split command).1 (Mode.split command).2
        (s.entryStart index command) = some (r, t) ∧
      entry.command = command ∧
      entry.result = (resultOf r).1 ∧
      entry.session = t.refreshHost.changeConsole
        (Frame.leave (.source (batchSource index command)) s.waitForCaptures.context) := by
  rw [executeEntry_eq] at h
  obtain ⟨⟨r, t⟩, ran, rfl⟩ := Option.map_eq_some_iff.1 h
  exact ⟨r, t, ran, rfl, rfl, rfl⟩

end Session

end LogConsole
