import LogConsole.World
import Mathlib.Tactic.Common

/-!
# LogConsole.Proofs.Context.Calls

What one write or one flush does to a sink.

* `Device.refusal?` — why a device refuses a call, if it does;
* `World.call`      — a call on the sink of a number;
* `Called`          — what may come of it: it is refused or accepted, and noted as that. Whatever
  is shown of the calls on sinks is shown by these two cases (`called`);
* `call_missing`    — nothing happens where there is no sink.
-/

namespace LogConsole

namespace SinkCall

/-- What is noted of a call that is accepted. -/
def accepted : SinkCall → SinkEvent
  | .write bytes => .wrote bytes
  | .flush => .flushed

/-- What is noted of a call that is refused. -/
def refused : SinkCall → SinkEvent
  | .write _ => .writeRefused
  | .flush => .flushRefused

end SinkCall

/-- Why a call is refused by a device, given what has happened to its sink. -/
def Device.refusal? (events : List SinkEvent) (call : SinkCall) : Device → Option String
  | .memory _ refuse => refuse events call
  | .full held =>
    match call with
    | .write bytes =>
      if held.length + bytes.length < World.heldLimit then none else some IoError.noSpace.message
    | .flush => if held.isEmpty then none else some IoError.noSpace.message
  | _ => none

/-- A device that refuses nothing. -/
def Device.Accepting (d : Device) : Prop := ∀ events call, d.refusal? events call = none

theorem Device.not_accepting_full (held : List UInt8) : ¬ (Device.full held).Accepting := by
  intro h
  have refused := h [] (.write (List.replicate World.heldLimit 0))
  simp [Device.refusal?] at refused

def Sink.refusal? (s : Sink) (call : SinkCall) : Option String := s.device.refusal? s.events call

namespace World

def refusal? (w : World) (id : Nat) (call : SinkCall) : Option String :=
  (w.sinks[id]?).bind (·.refusal? call)

def call (w : World) (id : Nat) : SinkCall → Except String Unit × World
  | .write bytes => w.writeSink id bytes
  | .flush => w.flushSink id

/-- What may come of a call on a sink. No other sink is changed, and a device that refuses nothing
goes on to do so. -/
inductive Called (w : World) (id : Nat) (s : Sink) (call : SinkCall) :
    Except String Unit × World → Prop where
  | refused {v : World} {text : String} (why : s.refusal? call = some text)
      (sinks : v.sinks = w.sinks.set id ⟨s.device, s.events ++ [call.refused]⟩)
      (environment : v.environment = w.environment) : Called w id s call (.error text, v)
  | accepted {v : World} {device : Device} (free : s.refusal? call = none)
      (sinks : v.sinks = w.sinks.set id ⟨device, s.events ++ [call.accepted]⟩)
      (environment : v.environment = w.environment)
      (kept : s.device.Accepting → device.Accepting) : Called w id s call (.ok (), v)

variable {w v : World} {id : Nat}

theorem refusal?_of_sink {s : Sink} (there : w.sinks[id]? = some s) (call : SinkCall) :
    w.refusal? id call = s.refusal? call := by
  rw [refusal?, there, Option.bind_some]

theorem call_missing (missing : w.sinks[id]? = none) (call : SinkCall) :
    w.call id call = (.ok (), w) := by
  cases call <;> simp only [World.call, writeSink, flushSink, missing]

theorem called {s : Sink} (there : w.sinks[id]? = some s) (call : SinkCall) :
    Called w id s call (w.call id call) := by
  obtain ⟨device, events⟩ := s
  cases device with
  | memory name refuse =>
    cases why : refuse events call with
    | some text =>
      cases call <;> simp only [World.call, writeSink, flushSink, there, why] <;>
        exact .refused why rfl rfl
    | none =>
      cases call <;> simp only [World.call, writeSink, flushSink, there, why] <;>
        exact .accepted why rfl rfl fun h => h
  | full held =>
    have never (h : (Device.full held).Accepting) (device : Device) : device.Accepting :=
      absurd h (Device.not_accepting_full held)
    cases call with
    | write bytes =>
      simp only [World.call, writeSink, there]
      split
      case isTrue room => exact .accepted (if_pos room) rfl rfl fun h => never h _
      case isFalse full => exact .refused (if_neg full) rfl rfl
    | flush =>
      simp only [World.call, flushSink, there]
      split
      case isTrue empty => exact .accepted (if_pos empty) rfl rfl fun h => never h _
      case isFalse held => exact .refused (if_neg held) rfl rfl
  | file file offset held =>
    cases call with
    | write bytes =>
      simp only [World.call, writeSink, there]
      split <;> exact .accepted rfl rfl rfl fun _ _ _ => rfl
    | flush =>
      simp only [World.call, flushSink, there]
      exact .accepted rfl rfl rfl fun _ _ _ => rfl
  | void | stdout =>
    cases call <;> simp only [World.call, writeSink, flushSink, there] <;>
      exact .accepted rfl rfl rfl fun h => h

theorem call_environment (w : World) (id : Nat) (call : SinkCall) :
    (w.call id call).2.environment = w.environment := by
  cases there : w.sinks[id]? with
  | none => rw [call_missing there]
  | some s =>
    have called := called there call
    generalize w.call id call = result at called
    cases called with
    | refused why sinks environment => exact environment
    | accepted free sinks environment kept => exact environment

end World

end LogConsole
