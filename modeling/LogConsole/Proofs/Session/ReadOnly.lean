import LogConsole.Proofs.Session.Frames
import LogConsole.Proofs.Sql.ReadOnly

/-!
# LogConsole.Proofs.Session.ReadOnly

What a session that may only read cannot do.

* `Spared s t`  — from `s` to `t` the database is left as it is and the host is asked neither to
  read its inputs again nor to bring its tables up to date;
* `Acts.spared` — whatever a line does in a session that may only read;
* `Refused`, `refusal` — a statement that such a session may not run, and what is said of it;
* `runQuery_refused`   — it is refused before anything happens;
* `read_only_lines_change_nothing` — the result for lines.
-/

namespace LogConsole

namespace Session

structure Spared (s t : Session) : Prop where
  database : t.database = s.database
  calls : ∃ made, t.host.calls = s.host.calls ++ made ∧
    HostCall.rescan ∉ made ∧ HostCall.rebuild ∉ made

namespace Spared

variable {s t u : Session}

theorem of_eq (hd : t.database = s.database) (hh : t.host = s.host) : Spared s t :=
  ⟨hd, [], by rw [hh, List.append_nil], List.not_mem_nil, List.not_mem_nil⟩

theorem refl (s : Session) : Spared s s := of_eq rfl rfl

theorem trans (h : Spared s t) (k : Spared t u) : Spared s u := by
  obtain ⟨made, hm, hscan, hbuild⟩ := h.calls
  obtain ⟨more, hn, kscan, kbuild⟩ := k.calls
  refine ⟨k.database.trans h.database, made ++ more, ?_, ?_, ?_⟩
  · rw [hn, hm, List.append_assoc]
  · simp only [List.mem_append, hscan, kscan, or_self, not_false_eq_true]
  · simp only [List.mem_append, hbuild, kbuild, or_self, not_false_eq_true]

/-- The host is asked for one other thing. -/
theorem of_call {call : HostCall} (hd : t.database = s.database)
    (hc : t.host.calls = s.host.calls ++ [call]) (hscan : call ≠ .rescan)
    (hbuild : call ≠ .rebuild) : Spared s t := by
  refine ⟨hd, [call], hc, ?_, ?_⟩
  · simpa using hscan.symm
  · simpa using hbuild.symm

end Spared

open Run Query

variable {s t : Session}

/-! ## Acts -/

theorem search_calls (h : Host) (w : World) (pattern : String) :
    (h.search w pattern).1.calls = h.calls ++ [.search pattern] := by
  unfold Host.search
  dsimp only
  split <;> rfl

theorem addInput_calls (h : Host) (name : String) (bytes : List UInt8) :
    (h.addInput name bytes).calls = h.calls ++ [.addInput name bytes] := by
  unfold Host.addInput
  dsimp only
  split <;> rfl

theorem captured_spared (s : Session) (text : String) (bytes : List UInt8) :
    Spared s (s.captured text bytes) := by
  unfold captured pipe
  split
  · rename_i hp
    split at hp <;> cases hp
    · exact .of_eq rfl rfl
    · exact .of_call rfl (addInput_calls _ _ _) (by simp) (by simp)

theorem Act.spared (h : Act s t) (readOnly : s.context.readOnly = true) : Spared s t := by
  cases h with
  | clearResults => exact .of_eq rfl rfl
  | collectRows values prepared allowed _ =>
    exact .of_eq (Sql.run_readOnly prepared (allowed readOnly) s.database values) rfl
  | storeFirstRow => exact .of_eq rfl rfl
  | search pattern => exact .of_call rfl (search_calls _ _ _) (by simp) (by simp)
  | print => exact .of_eq rfl rfl
  | showScreen => exact .of_eq rfl rfl
  | redirect wet opened =>
    obtain ⟨w, rfl⟩ := openTarget_ended opened
    exact .of_eq rfl rfl
  | «export» bytes wet opened =>
    obtain ⟨w, rfl⟩ := openTarget_ended opened
    exact .of_eq rfl rfl
  | shell wet started =>
    obtain ⟨w, rfl⟩ := startShell_ended started
    have started : Spared s (s.changeWorld fun _ => w) := .of_eq rfl rfl
    exact started.trans (captured_spared _ _ _)
  | resolve => exact .of_eq rfl rfl
  | takeInput => exact .of_eq rfl rfl
  | leaveInput => exact .of_eq rfl rfl
  | refresh needed => simp [Run.refreshes, readOnly] at needed

/-- Frames may be put around it: they matter to the console only. -/
theorem Acts.spared (h : Acts s t) (readOnly : s.context.readOnly = true) : Spared s t := by
  induction h with
  | refl => exact .refl _
  | act h => exact h.spared readOnly
  | trans h _ ih₁ ih₂ => exact (ih₁ readOnly).trans (ih₂ (h.kept.readOnly.trans readOnly))
  | @within s t f _ ih =>
    have entered : (s.changeConsole f.enter).context.readOnly = true := by
      cases f <;> exact readOnly
    have inner := ih entered
    exact ⟨inner.database, inner.calls⟩

/-! ## Refused statements -/

/-- The permission of a session does not allow the statement of a text. -/
def Refused (s : Session) (text : String) : Prop :=
  s.context.readOnly = true ∧ metaStatement? (Text.trim text) = none ∧
    ∃ p, Sql.prepare s.database (expandAlias (Text.trim text)) = .ok (some p) ∧
      p.readOnly = false

def refusal (s : Session) (text : String) : Message :=
  s.context.error .readOnlyViolation
    ("modifying statements are not allowed in this context: " ++ text)

theorem prepare_nothing (db : Sql.Database) : Sql.prepare db "" = .ok none := rfl

/-- Nothing has been bound, cleared or run by then: the session is the same. -/
theorem runQuery_refused {text : String} (h : Refused s text) :
    runQuery text s = some (.error (s.refusal text), s) := by
  obtain ⟨readOnly, notMeta, p, prepared, writes⟩ := h
  have notEmpty : (Text.trim text).isEmpty = false := by
    rw [Bool.eq_false_iff]
    intro he
    rw [String.isEmpty_iff.1 he] at prepared
    rw [show expandAlias "" = "" from rfl, prepare_nothing] at prepared
    cases prepared
  simp only [runQuery, notMeta, notEmpty, Bool.false_eq_true, if_false]
  simp only [runStatement, bind_def, Run.get, prepared]
  simp only [runPrepared, bind_def, Run.get, readOnly, writes, Bool.not_false, Bool.and_self,
    if_true]
  rfl

theorem refreshAfter_readOnly (readOnly : s.context.readOnly = true) : refreshAfter s = s := by
  simp [refreshAfter, refreshes, readOnly]

theorem line_refused {line text : String} (hl : Mode.split line = (.query, text))
    (h : Refused s text) (fuel : Nat) :
    executeAny (fuel + 1) line s = some (.error (s.refusal text), s) ∧
      dispatch (fuel + 1) line s = some (.error (s.refusal text), s) := by
  have query : dispatchMode (fuel + 1) .query text s = some (.error (s.refusal text), s) := by
    rw [dispatchMode, step, runQuery_refused h]
  constructor
  · simp only [executeAny, executeWith, hl, bind_def, ensuring, query]
    rw [refreshAfter_readOnly h.1]
  · simp only [dispatch, dispatchWith, hl, bind_def, query]

/-! ## Lines -/

/-- **A session that may only read is safe.** Whatever a line does, with success or not and however
deep lines are nested in it, the database and the permission are as before, and the host has been
asked neither to read its inputs nor to bring its tables up to date. A statement that would write
is refused, and the session is then the same in every respect, its results and variables
included. -/
theorem read_only_lines_change_nothing {s : Session} (readOnly : s.context.readOnly = true)
    (fuel : Nat) :
    (∀ line r t, executeAny fuel line s = some (r, t) →
      Spared s t ∧ t.context.readOnly = true) ∧
    (∀ line r t, dispatch fuel line s = some (r, t) →
      Spared s t ∧ t.context.readOnly = true) ∧
    (∀ text, Refused s text → runQuery text s = some (.error (s.refusal text), s) ∧
      (s.refusal text).kind = some .readOnlyViolation) ∧
    (∀ line text, Mode.split line = (.query, text) → Refused s text →
      executeAny (fuel + 1) line s = some (.error (s.refusal text), s) ∧
      dispatch (fuel + 1) line s = some (.error (s.refusal text), s)) := by
  have safe : ∀ t, Acts s t → Spared s t ∧ t.context.readOnly = true :=
    fun t h => ⟨h.spared readOnly, h.kept.readOnly.trans readOnly⟩
  refine ⟨?_, ?_, ?_, ?_⟩
  · intro line r t h
    exact safe t (byActs_executeWith (dispatchMode_byActs fuel) line r t h)
  · intro line r t h
    exact safe t (byActs_dispatchWith (dispatchMode_byActs fuel) line r t h)
  · intro text h
    exact ⟨runQuery_refused h, Context.error_kind _ _ _⟩
  · intro line text hl h
    exact line_refused hl h fuel

/-- A search in a session that would refresh its host if it might write, and a statement that is
refused there. -/
theorem read_only_search_and_write :
    let s : Session := { console := { context := { readOnly := true } }, headless := true }
    let line := ";PRAGMA user_version = 7"
    let text := "PRAGMA user_version = 7"
    s.context.readOnly = true
      ∧ (∃ r t, executeAny 1 "/x" s = some (r, t) ∧ Spared s t ∧ t.context.readOnly = true)
      ∧ Mode.split line = (.query, text) ∧ Refused s text
      ∧ executeAny 1 line s = some (.error (s.refusal text), s) := by
  intro s line text
  have readOnly : s.context.readOnly = true := rfl
  have safe := read_only_lines_change_nothing readOnly
  have hl : Mode.split line = (.query, text) := by decide +kernel
  have writes : (Sql.prepare s.database (expandAlias (Text.trim text))).toOption.map
      (fun found => found.map (·.readOnly)) = some (some false) := by decide +kernel
  have refused : Refused s text := by
    refine ⟨rfl, by decide +kernel, ?_⟩
    cases hp : Sql.prepare s.database (expandAlias (Text.trim text)) with
    | error e => rw [hp] at writes; cases writes
    | ok found =>
      rw [hp] at writes
      obtain ⟨p, rfl, flag⟩ := Option.map_eq_some_iff.1 (Option.some.inj writes)
      exact ⟨p, rfl, flag⟩
  have searched : (executeAny 1 "/x" s).isSome = true := by decide +kernel
  obtain ⟨⟨r, t⟩, ran⟩ := Option.isSome_iff_exists.1 searched
  refine ⟨readOnly, ⟨r, t, ran, ?_⟩, hl, refused, ?_⟩
  · exact (safe 1).1 "/x" _ _ ran
  · exact ((safe 0).2.2.2 line text hl refused).1

end Session

end LogConsole
