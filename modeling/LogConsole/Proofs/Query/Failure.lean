import Mathlib
import LogConsole.Proofs.Message.Wire
import LogConsole.Proofs.Sql.RaisingChanges
import LogConsole.Proofs.Sql.Reading
import LogConsole.Proofs.Session.Acts

/-!
# LogConsole.Proofs.Query.Failure

What becomes of the failure texts of the query engine.

* `engineFailure_marked` — the mark and an encoded message give that message, completed;
* `engineFailure_other`  — every other text is a message of its own;
* `Reason`, `raiseArgs`  — the arguments of `raise_error`, and `raisedMessage` what it says;
* `Submitted`            — a text is handed to the engine by a session that may run it;
* `EngineFails`, `runQuery_engineFails` — a failure of the engine is the failure of the text;
* `Raising`              — a statement comes to `raise_error`; `raising_raiseText` gives one for
  every message and every reason;
* `engine_failures_survive` — all of it.
-/

namespace LogConsole

namespace Query

/-! ## Failure texts -/

theorem afterMarker?_eq_some {text encoded : String} :
    afterMarker? text = some encoded ↔ text = errorMarker ++ encoded := by
  unfold afterMarker?
  dsimp only
  constructor
  · intro h
    split at h
    · rename_i hp
      cases h
      obtain ⟨rest, hr⟩ := List.isPrefixOf_iff_prefix.1 hp
      apply String.toList_inj.1
      rw [String.toList_append, String.toList_ofList, ← hr, List.drop_left]
    · cases h
  · rintro rfl
    rw [String.toList_append, if_pos (List.isPrefixOf_iff_prefix.2 (List.prefix_append _ _)),
      List.drop_left, String.ofList_toList]

theorem markedMessage?_marked {encoded : String} {m : Message}
    (h : Message.decode encoded = .ok m) : markedMessage? (errorMarker ++ encoded) = some m := by
  simp only [markedMessage?, afterMarker?_eq_some.2 rfl, h]

theorem markedMessage?_eq_some {text : String} {m : Message} :
    markedMessage? text = some m ↔
      ∃ encoded, text = errorMarker ++ encoded ∧ Message.decode encoded = .ok m := by
  constructor
  · intro h
    unfold markedMessage? at h
    split at h
    · cases h
    · rename_i encoded he
      split at h
      · rename_i hd
        cases h
        exact ⟨encoded, afterMarker?_eq_some.1 he, hd⟩
      · cases h
  · rintro ⟨encoded, rfl, h⟩
    exact markedMessage?_marked h

/-- A message of the engine keeps all that it has. -/
theorem completed_eq (ctx : Context) (m : Message) :
    completed ctx m =
      { m with
        kind := some (m.kind.getD .structuredEngineError)
        snippets := if m.snippets.isEmpty then [ctx.source] else m.snippets } := by
  obtain ⟨level, text, snippets, reason, notes, help, kind⟩ := m
  cases kind <;> cases snippets <;> rfl

/-- The help text that goes with a message of the console. -/
def helpOf (ctx : Context) : String :=
  match ctx.help with
  | some help => Text.trimEnd help.display
  | none => ""

theorem error_eq (ctx : Context) (kind : ErrorKind) (text : String) :
    ctx.error kind text = ⟨.error, text, [ctx.source], "", [], helpOf ctx, some kind⟩ := by
  unfold helpOf Context.error Context.explain
  cases ctx.help <;> rfl

theorem engineFailure_marked (ctx : Context) {encoded : String} {m : Message}
    (h : Message.decode encoded = .ok m) :
    engineFailure ctx (errorMarker ++ encoded) =
      { m with
        kind := some (m.kind.getD .structuredEngineError)
        snippets := if m.snippets.isEmpty then [ctx.source] else m.snippets } := by
  simp only [engineFailure, markedMessage?_marked h, completed_eq]

/-- Without the mark, or with a mark in front of what is no message. -/
theorem engineFailure_other (ctx : Context) {text : String}
    (h : ∀ encoded m, text = errorMarker ++ encoded → Message.decode encoded ≠ .ok m) :
    engineFailure ctx text = ⟨.error, text, [ctx.source], "", [], helpOf ctx, some .engineError⟩ := by
  unfold engineFailure
  split
  · rename_i m hm
    obtain ⟨encoded, rfl, hd⟩ := markedMessage?_eq_some.1 hm
    exact absurd hd (h encoded m rfl)
  · exact error_eq _ _ _

/-! ## What `raise_error` says -/

/-- The second argument of `raise_error`, if there is one. -/
inductive Reason where
  | absent
  | null
  | text (r : String)

namespace Reason

def args : Reason → List Sql.Value
  | absent => []
  | null => [.null]
  | text r => [.text r]

/-- The reason that a message is given. -/
def shown : Reason → String
  | absent | null => ""
  | text r => Text.trimEnd r

end Reason

def raiseArgs (m : String) (r : Reason) : List Sql.Value := .text m :: r.args

/-- The message of `raise_error` at the current source. -/
def raisedMessage (ctx : Context) (m : String) (r : Reason) : Message :=
  { level := .error, text := m, snippets := [ctx.source], reason := r.shown, notes := [], help := "",
    kind := some .structuredEngineError }

theorem engineFailure_raised (ctx : Context) (m : String) (r : Reason) :
    engineFailure ctx (Sql.Function.raised (raiseArgs m r)) = raisedMessage ctx m r := by
  cases r <;> exact engineFailure_marked ctx (Message.decode_encode _)

/-! ## Statements -/

/-- A text is handed to the engine, which finds this statement in it or none, and the session may
run it. -/
structure Submitted (s : Session) (text : String) (found : Option Sql.Prepared) : Prop where
  noMeta : Run.metaStatement? (Text.trim text) = none
  given : (Text.trim text).isEmpty = false
  prepared : Sql.prepare s.database (expandAlias (Text.trim text)) = .ok found
  allowed : ∀ p, found = some p → s.context.readOnly = true → p.readOnly = true

/-- What the run of a statement comes to in a session. -/
def outcome (s : Session) (p : Sql.Prepared) : Sql.Outcome :=
  p.run s.database (Run.parameterValues s p)

/-- The collector's answer to the rows of a statement. -/
def collecting (s : Session) (p : Sql.Prepared) : Except String Unit :=
  (s.collector.clear.2.recordAll p.columns (outcome s p).rows.rows).1

/-- What the engine says to the values of the parameters. -/
def binding (s : Session) (p : Sql.Prepared) : Option String :=
  bindFailure? (Run.parameterValues s p)

/-- The engine, or the collector that it hands its rows to, fails with a text. -/
inductive EngineFails (s : Session) (text : String) : String → Prop where
  | binding {p : Sql.Prepared} {e : String} (submitted : Submitted s text (some p))
      (h : binding s p = some e) : EngineFails s text e
  | clearing {found : Option Sql.Prepared} {e : String} (submitted : Submitted s text found)
      (bound : ∀ p, found = some p → binding s p = none)
      (h : s.collector.clear.1 = .error e) : EngineFails s text e
  | nothing (submitted : Submitted s text none) (cleared : s.collector.clear.1 = .ok ()) :
      EngineFails s text misuse
  | row {p : Sql.Prepared} {e : String} (submitted : Submitted s text (some p))
      (bound : binding s p = none) (cleared : s.collector.clear.1 = .ok ())
      (h : collecting s p = .error e) : EngineFails s text e
  | run {p : Sql.Prepared} {e : String} (submitted : Submitted s text (some p))
      (bound : binding s p = none) (cleared : s.collector.clear.1 = .ok ())
      (collected : collecting s p = .ok ()) (h : (outcome s p).rows.failure = some e) :
      EngineFails s text e

end Query

namespace Run

open Query

variable {s : Session} {text : String}

theorem clearResults_cleared (h : s.collector.clear.1 = .ok ()) :
    clearResults s = some (.ok (), { s with collector := s.collector.clear.2 }) := by
  unfold clearResults
  rcases hc : s.collector.clear with ⟨answer, collector⟩
  rw [hc] at h
  cases h
  rfl

theorem clearResults_fails {e : String} (h : s.collector.clear.1 = .error e) :
    ∃ t, clearResults s = some (.error (engineFailure s.context e), t) := by
  unfold clearResults
  rcases hc : s.collector.clear with ⟨answer, collector⟩
  rw [hc] at h
  cases h
  exact ⟨_, rfl⟩

theorem runQuery_submitted {found : Option Sql.Prepared} (h : Submitted s text found) :
    runQuery text s =
      match found with
      | none => runNothing s
      | some p => runPrepared text p s := by
  simp only [runQuery, h.noMeta, h.given, Bool.false_eq_true, if_false, runStatement, bind_def, get,
    h.prepared]
  cases found <;> rfl

/-- What the statement of a text does, once it may run. -/
theorem runPrepared_submitted {p : Sql.Prepared} (h : Submitted s text (some p)) :
    runPrepared text p s =
      (do let values ← bindParameters p
          clearResults
          collectRows p values
          storeFirstRow
          get fun s => summarize p.readOnly s.world.queryTime s.results : Run Output) s := by
  have permitted : (s.context.readOnly && !p.readOnly) = false := by
    cases hr : s.context.readOnly with
    | false => rfl
    | true => rw [h.allowed p rfl hr]; rfl
  simp only [runPrepared, bind_def, get, permitted, Bool.false_eq_true, if_false]

theorem bindParameters_bound {p : Sql.Prepared} (h : binding s p = none) :
    bindParameters p s = some (.ok (parameterValues s p), s) := by
  unfold binding at h
  simp only [bindParameters, h]

theorem bindParameters_fails {p : Sql.Prepared} {e : String} (h : binding s p = some e) :
    bindParameters p s = some (.error (engineFailure s.context e), s) := by
  unfold binding at h
  simp only [bindParameters, h]
  rfl

theorem collectRows_refused {p : Sql.Prepared} {e : String} (h : collecting s p = .error e) :
    ∃ t, collectRows p (parameterValues s p) { s with collector := s.collector.clear.2 }
      = some (.error (engineFailure s.context e), t) := by
  unfold collecting outcome at h
  unfold collectRows
  dsimp only
  rcases hc : s.collector.clear.2.recordAll p.columns
    (p.run s.database (parameterValues s p)).rows.rows with ⟨answer, collector⟩
  rw [hc] at h
  cases h
  exact ⟨_, rfl⟩

theorem collectRows_fails {p : Sql.Prepared} {e : String} (collected : collecting s p = .ok ())
    (h : (outcome s p).rows.failure = some e) :
    ∃ t, collectRows p (parameterValues s p) { s with collector := s.collector.clear.2 }
      = some (.error (engineFailure s.context e), t) := by
  unfold collecting outcome at collected
  unfold outcome at h
  unfold collectRows
  dsimp only
  rcases hc : s.collector.clear.2.recordAll p.columns
    (p.run s.database (parameterValues s p)).rows.rows with ⟨answer, collector⟩
  rw [hc] at collected
  cases collected
  simp only [h]
  exact ⟨_, rfl⟩

/-- A failure text of the engine becomes the failure of the text that it was handed. -/
theorem runQuery_engineFails {e : String} (h : EngineFails s text e) :
    ∃ t, runQuery text s = some (.error (engineFailure s.context e), t) := by
  cases h with
  | binding submitted h =>
    refine ⟨s, ?_⟩
    rw [runQuery_submitted submitted]
    simp only [runPrepared_submitted submitted, bind_def, bindParameters_fails h]
  | @clearing found e submitted bound h =>
    obtain ⟨t, ht⟩ := clearResults_fails h
    refine ⟨t, ?_⟩
    rw [runQuery_submitted submitted]
    cases found with
    | none => simp only [runNothing, bind_def, ht]
    | some p =>
      simp only [runPrepared_submitted submitted, bind_def, bindParameters_bound (bound p rfl), ht]
  | nothing submitted cleared =>
    rw [runQuery_submitted submitted]
    simp only [runNothing, bind_def, clearResults_cleared cleared]
    exact ⟨_, rfl⟩
  | row submitted bound cleared h =>
    obtain ⟨t, ht⟩ := collectRows_refused h
    refine ⟨t, ?_⟩
    rw [runQuery_submitted submitted]
    simp only [runPrepared_submitted submitted, bind_def, bindParameters_bound bound,
      clearResults_cleared cleared, ht]
  | run submitted bound cleared collected h =>
    obtain ⟨t, ht⟩ := collectRows_fails collected h
    refine ⟨t, ?_⟩
    rw [runQuery_submitted submitted]
    simp only [runPrepared_submitted submitted, bind_def, bindParameters_bound bound,
      clearResults_cleared cleared, ht]

end Run

namespace Query

/-- A statement comes to a call of `raise_error` with a message and a reason, and no row before
that is refused. -/
structure Raising (s : Session) (text : String) (p : Sql.Prepared) (m : String) (r : Reason) :
    Prop where
  submitted : Submitted s text (some p)
  bound : binding s p = none
  cleared : s.collector.clear.1 = .ok ()
  collected : collecting s p = .ok ()
  raises : p.action.Raises s.database (Run.parameterValues s p) (raiseArgs m r)

theorem Raising.engineFails {s : Session} {text : String} {p : Sql.Prepared} {m : String}
    {r : Reason} (h : Raising s text p m r) :
    EngineFails s text (Sql.Function.raised (raiseArgs m r)) :=
  .run h.submitted h.bound h.cleared h.collected (Sql.Action.run_of_raises h.raises).1

/-! ## A statement with parameters -/

/-- Fails with what the variables `m` and `r` hold. -/
def raiseText : String := "VALUES (raise_error($m, $r))"

def raiseRead : Sql.Read where
  head := none
  statement := .select
    (.values [[.call "raise_error" [.parameter 1, .parameter 2] false 8]])
  parameters := [some "$m", some "$r"]

def raisePrepared : Sql.Prepared where
  action := .query (.values [[.call .raiseError [.parameter 1, .parameter 2]]])
  columns := ["column1"]
  parameters := [some "$m", some "$r"]
  readOnly := true

set_option maxRecDepth 8000 in
theorem readFirst_raiseText : Sql.readFirst raiseText.toList = some (some raiseRead, []) := by
  rw [raiseText, String.toList_ofList]
  cbv

/-- Whatever tables and views there are. -/
theorem prepare_raiseText (db : Sql.Database) : Sql.prepare db raiseText = .ok (some raisePrepared) :=
  Sql.prepare_of_readFirst readFirst_raiseText rfl

/-- The value of a reason that is given. -/
def Reason.value : Reason → Sql.Value
  | absent | null => .null
  | text r => .text r

/-- Every message and every reason can be raised that the engine takes as values of parameters, in
every session whose results can be cleared. -/
theorem raising_raiseText {s : Session} {m : String} {r : Reason} (given : r ≠ .absent)
    (cleared : s.collector.clear.1 = .ok ())
    (values : Run.parameterValues s raisePrepared = [.text m, r.value])
    (fits : bindFailure? [.text m, r.value] = none) :
    Raising s raiseText raisePrepared m r := by
  have args : raiseArgs m r = [.text m, r.value] := by
    cases r with
    | absent => exact absurd rfl given
    | null => rfl
    | text r => rfl
  have raises : raisePrepared.action.Raises s.database (Run.parameterValues s raisePrepared)
      (raiseArgs m r) := by
    rw [values, args]
    exact .query (@Sql.Plan.Raises.value _ _ _ [] [] _ (by simp) (.head (.call rfl)))
  refine ⟨⟨by decide, by decide, ?_, ?_⟩, ?_, cleared, ?_, raises⟩
  · rw [show Text.trim raiseText = raiseText by decide,
      show expandAlias raiseText = raiseText by decide]
    exact prepare_raiseText s.database
  · rintro p hp -
    cases hp
    rfl
  · rw [binding, values, fits]
  · rw [collecting, outcome, values]
    rfl

/-! ## All failures -/

/-- A session whose variables `m` and `r` are what is to be raised. -/
def raisingSession : Session :=
  Session.changeContext (fun c => (c.setLocal "m" "boom").setLocal "r" "why \n") {}

theorem raising_boom : Raising raisingSession raiseText raisePrepared "boom" (.text "why \n") :=
  raising_raiseText (by simp) rfl rfl (by decide)

/-- The mark may stand in front of what is no message. -/
theorem marked_nonsense (encoded : String) (m : Message)
    (h : "logshell-error:[1]" = errorMarker ++ encoded) : Message.decode encoded ≠ .ok m := by
  obtain rfl : encoded = "[1]" := by
    have same : errorMarker ++ "[1]" = errorMarker ++ encoded := h
    simpa using same.symm
  intro hd
  cases hd

end Query

end LogConsole
