import LogConsole.Proofs.Context.Outputs

/-!
# LogConsole.Proofs.Context.Delivery

What has come to a sink when writing to it has succeeded, and when it has not.

* `World.callAll`       — calls one after the other up to the first that is refused;
* `Conveys calls bytes` — calls that write some bytes, however they are cut, and flush at the end;
* `Delivery`            — what calls have come to, with success exactly if all were accepted;
* `delivery_callAll`    — this is what becomes of any calls on any sink;
* `Accepting`           — a sink that refuses nothing, and `Takes`, what happens to it.
-/

namespace LogConsole

/-! ## Calls -/

/-- What a sink has received by one event. -/
def SinkEvent.bytes : SinkEvent → List UInt8
  | .wrote bytes => bytes
  | _ => []

theorem Sink.received_eq (s : Sink) : s.received = s.events.flatMap (·.bytes) := by
  refine congrArg (s.events.flatMap ·) (funext fun e => ?_)
  cases e <;> rfl

namespace SinkCall

def bytes : SinkCall → List UInt8
  | .write bytes => bytes
  | .flush => []

@[simp] theorem bytes_accepted (call : SinkCall) : call.accepted.bytes = call.bytes := by
  cases call <;> rfl

end SinkCall

/-- Calls that write some bytes, each of them once and in order, and flush in the end. -/
structure Conveys (calls : List SinkCall) (bytes : List UInt8) : Prop where
  whole : calls.flatMap (·.bytes) = bytes
  flushed : calls.getLast? = some .flush

theorem Conveys.of_pieces (pieces : List (List UInt8)) :
    Conveys (pieces.map .write ++ [.flush]) pieces.flatten := by
  refine ⟨?_, by simp⟩
  rw [List.flatMap_append, List.flatMap_map]
  simp [SinkCall.bytes, List.flatMap_id']

/-- What a sink has become by taking some bytes, with nothing refused and a flush after them. In the
end `last` has happened to it. -/
structure Sink.Took (before after : Sink) (bytes : List UInt8) (last : List SinkEvent) : Prop where
  received : after.received = before.received ++ bytes
  flushed : ∃ writes, after.events = before.events ++ (writes ++ .flushed :: last) ∧
    ∀ e ∈ writes, e ≠ .writeRefused ∧ e ≠ .flushRefused

namespace World

/-- Makes calls one after the other up to the first that is refused. -/
def callAll (w : World) (id : Nat) : List SinkCall → Except String Unit × World
  | [] => (.ok (), w)
  | call :: rest =>
    match w.call id call with
    | (.ok (), w) => w.callAll id rest
    | (.error e, w) => (.error e, w)

variable {w v : World} {id : Nat}

/-! ## Delivery -/

/-- What has come of calls on a sink: all of them have been accepted, or those before one that was
refused. -/
inductive Delivery (w v : World) (id : Nat) (calls : List SinkCall) :
    Except String Unit → Prop where
  | complete (made : Adds w v id (calls.map (·.accepted))) : Delivery w v id calls (.ok ())
  | refused {done rest : List SinkCall} {call : SinkCall} {mid : World} {text : String}
      (cut : calls = done ++ call :: rest) (made : Adds w mid id (done.map (·.accepted)))
      (why : mid.refusal? id call = some text) (noted : Adds mid v id [call.refused]) :
      Delivery w v id calls (.error text)

theorem Delivery.cons {call : SinkCall} {rest : List SinkCall} {r : Except String Unit}
    {u : World} (first : Adds w u id [call.accepted]) (h : Delivery u v id rest r) :
    Delivery w v id (call :: rest) r := by
  cases h with
  | complete made => exact .complete (first.trans made)
  | @refused done after next _ _ cut made why noted =>
    have whole : call :: rest = (call :: done) ++ next :: after := congrArg (call :: ·) cut
    exact .refused whole (first.trans made) why noted

/-- By induction on the calls, of which each finds the sink as the one before has left it. -/
theorem delivery_callAll (calls : List SinkCall) (there : (w.sinks[id]?).isSome) :
    Delivery w (w.callAll id calls).2 id calls (w.callAll id calls).1 := by
  induction calls generalizing w with
  | nil => exact .complete (.refl w id)
  | cons call rest ih =>
    obtain ⟨s, there⟩ := Option.isSome_iff_exists.1 there
    have short : id < w.sinks.length := (List.getElem?_eq_some_iff.1 there).1
    have called := called there call
    rw [callAll]
    generalize w.call id call = result at called ⊢
    cases called with
    | refused why sinks =>
      have whole : call :: rest = [] ++ call :: rest := rfl
      exact .refused whole (.refl w id) ((refusal?_of_sink there call).trans why)
        (.of_set there sinks)
    | accepted free sinks =>
      refine .cons (.of_set there sinks) (ih ?_)
      rw [sinks, List.getElem?_set_self short]
      rfl

/-- A sink that has accepted calls has taken what they convey. -/
theorem Adds.took {calls : List SinkCall} {bytes : List UInt8} {last : List SinkEvent}
    {before : Sink} (h : Adds w v id (calls.map (·.accepted) ++ last))
    (conveys : Conveys calls bytes) (silent : last.flatMap (·.bytes) = [])
    (there : w.sinks[id]? = some before) :
    ∃ after, v.sinks[id]? = some after ∧ before.Took after bytes last := by
  obtain ⟨device, left⟩ := h.same before there
  obtain ⟨writes, cut⟩ := List.getLast?_eq_some_iff.1 conveys.flushed
  refine ⟨_, left, ?_, writes.map (·.accepted), ?_, ?_⟩
  · rw [Sink.received_eq, Sink.received_eq, List.flatMap_append, List.flatMap_append, silent,
      List.append_nil, List.flatMap_map, ← conveys.whole]
    simp only [SinkCall.bytes_accepted]
  · rw [cut, List.map_append]
    simp [SinkCall.accepted]
  · intro e he
    obtain ⟨call, -, rfl⟩ := List.mem_map.1 he
    cases call <;> simp [SinkCall.accepted]

/-! ## Environment -/

theorem callAll_environment (w : World) (id : Nat) (calls : List SinkCall) :
    (w.callAll id calls).2.environment = w.environment := by
  induction calls generalizing w with
  | nil => rfl
  | cons call rest ih =>
    have first := w.call_environment id call
    rw [callAll]
    split <;> rename_i called <;> rw [called] at first
    · exact (ih _).trans first
    · exact first

theorem closeSink_environment (w : World) (id : Nat) :
    (w.closeSink id).environment = w.environment := by
  have flushed := w.call_environment id .flush
  unfold closeSink
  dsimp only
  split <;> exact flushed

/-! ## Sinks that refuse nothing -/

def Accepting (w : World) (id : Nat) : Prop := ∃ s, w.sinks[id]? = some s ∧ s.device.Accepting

/-- From `w` to `v`, `events` have happened to a sink if it refuses nothing, and it goes on to
refuse nothing. -/
def Takes (w v : World) (id : Nat) (events : List SinkEvent) : Prop :=
  ∀ s, w.sinks[id]? = some s → s.device.Accepting →
    ∃ device, v.sinks[id]? = some ⟨device, s.events ++ events⟩ ∧ device.Accepting

namespace Takes

variable {u : World}

theorem of_same (h : v.sinks[id]? = w.sinks[id]?) : Takes w v id [] := by
  intro s there accepts
  exact ⟨s.device, by rw [h, there, List.append_nil], accepts⟩

theorem trans {first more : List SinkEvent} (h : Takes w v id first) (k : Takes v u id more) :
    Takes w u id (first ++ more) := by
  intro s there accepts
  obtain ⟨device, there, accepts⟩ := h s there accepts
  obtain ⟨device, there, accepts⟩ := k _ there accepts
  exact ⟨device, by rw [there, List.append_assoc], accepts⟩

theorem accepting {events : List SinkEvent} (h : Takes w v id events) (a : w.Accepting id) :
    v.Accepting id := by
  obtain ⟨s, there, accepts⟩ := a
  obtain ⟨device, there, accepts⟩ := h s there accepts
  exact ⟨_, there, accepts⟩

end Takes

theorem Accepting.call (h : w.Accepting id) (call : SinkCall) :
    ∃ v, w.call id call = (.ok (), v) ∧ Takes w v id [call.accepted] := by
  obtain ⟨s, there, accepts⟩ := h
  have short : id < w.sinks.length := (List.getElem?_eq_some_iff.1 there).1
  have called := called there call
  generalize w.call id call = result at called ⊢
  cases called with
  | refused why =>
    rw [Sink.refusal?, accepts] at why
    cases why
  | @accepted v device free sinks environment kept =>
    refine ⟨v, rfl, fun found again accepts => ?_⟩
    obtain rfl := Option.some.inj (there.symm.trans again)
    exact ⟨device, by rw [sinks, List.getElem?_set_self short], kept accepts⟩

theorem Accepting.callAll (h : w.Accepting id) (calls : List SinkCall) :
    ∃ v, w.callAll id calls = (.ok (), v) ∧ Takes w v id (calls.map (·.accepted)) := by
  induction calls generalizing w with
  | nil => exact ⟨w, rfl, .of_same rfl⟩
  | cons call rest ih =>
    obtain ⟨v, called, first⟩ := h.call call
    obtain ⟨u, written, later⟩ := ih (first.accepting h)
    exact ⟨u, by simp only [World.callAll, called, written], first.trans later⟩

theorem Accepting.closeSink (h : w.Accepting id) :
    Takes w (w.closeSink id) id [.flushed, .closed] := by
  obtain ⟨v, called, flushed⟩ := h.call .flush
  intro s there accepts
  obtain ⟨device, there, accepts⟩ := flushed s there accepts
  have short : id < v.sinks.length := (List.getElem?_eq_some_iff.1 there).1
  have last : (w.flushSink id).2 = v := congrArg Prod.snd called
  refine ⟨device, ?_, accepts⟩
  simp only [World.closeSink, last, there, setSink, List.getElem?_set_self short,
    List.append_assoc]
  rfl

/-- A sink that refuses nothing has taken what calls convey when they are over. -/
theorem Accepting.conveyed (h : w.Accepting id) {calls : List SinkCall} {bytes : List UInt8}
    (conveys : Conveys calls bytes) :
    ∃ v before after, w.callAll id calls = (.ok (), v) ∧ w.sinks[id]? = some before ∧
      v.sinks[id]? = some after ∧ before.Took after bytes [] := by
  obtain ⟨v, written, -⟩ := h.callAll calls
  obtain ⟨before, there, -⟩ := h
  have delivery := delivery_callAll calls (Option.isSome_iff_exists.2 ⟨before, there⟩)
  rw [written] at delivery
  obtain ⟨made⟩ := delivery
  rw [← List.append_nil (calls.map _)] at made
  obtain ⟨after, left, took⟩ := made.took conveys rfl there
  exact ⟨v, before, after, written, there, left, took⟩

end World

/-! ## Writing and flushing -/

namespace Console

open World (callAll)

theorem writeFlushed_eq (w : World) (sink : Nat) (pieces : List (List UInt8)) :
    writeFlushed w sink pieces = w.callAll sink (pieces.map .write ++ [.flush]) := by
  induction pieces generalizing w with
  | nil =>
    simp only [writeFlushed, writePieces, List.map_nil, List.nil_append, World.callAll, World.call]
    split <;> rename_i flushed <;> rw [flushed]
  | cons piece rest ih =>
    rw [List.map_cons, List.cons_append, World.callAll, World.call, writeFlushed, writePieces]
    cases written : w.writeSink sink piece with
    | mk r v =>
      cases r with
      | error e => rfl
      | ok u => exact ih v

end Console

end LogConsole
