import LogConsole.Proofs.Session.Delivery

/-!
# LogConsole.Proofs.Session.Sharing

A worker copies what a child process prints into a sink that the console goes on writing to.

* `Interleaving xs ys zs` — `zs` has the elements of `xs` and of `ys`, each in their order;
* `CriticalSection` — what is done to the sink by one party while it holds the lock of it;
* `Alternation`     — a console with the steps that it has still to make, and a worker beside it,
  that go through one critical section in each turn;
* `History`         — what has come of some turns: each party has gone through some of its sections
  in their order, and what has happened to the sink is an interleaving of them (`history_run`);
* `Sharing`         — both with a lock between them, and turns with at most one write or flush.
  While the console is inside of a text, the worker waits if it needs the lock;
* `settled_run`     — with the lock, any schedule of such turns comes to one of whole sections;
* `exists_end`      — and there is always a way on to the end;
* `captured_output_is_whole` — the result for all schedules.
-/

namespace LogConsole

open Text.Utf8 (encode)
open Run (echoed outputCalls conveys_outputCalls)

/-! ## Interleavings -/

/-- The elements of two lists in one list, each in the order of its own list. -/
inductive Interleaving {α : Type} : List α → List α → List α → Prop where
  | nil : Interleaving [] [] []
  | left {xs ys zs : List α} (x : α) (h : Interleaving xs ys zs) :
      Interleaving (x :: xs) ys (x :: zs)
  | right {xs ys zs : List α} (y : α) (h : Interleaving xs ys zs) :
      Interleaving xs (y :: ys) (y :: zs)

namespace Interleaving

variable {α β : Type} {xs ys zs : List α}

theorem only_left (xs : List α) : Interleaving xs [] xs := by
  induction xs with
  | nil => exact .nil
  | cons x xs ih => exact .left x ih

theorem only_right (ys : List α) : Interleaving [] ys ys := by
  induction ys with
  | nil => exact .nil
  | cons y ys ih => exact .right y ih

theorem append {xs' ys' zs' : List α} (h : Interleaving xs ys zs) (k : Interleaving xs' ys' zs') :
    Interleaving (xs ++ xs') (ys ++ ys') (zs ++ zs') := by
  induction h with
  | nil => exact k
  | left x h ih => exact .left x ih
  | right y h ih => exact .right y ih

theorem filterMap (f : α → Option β) (h : Interleaving xs ys zs) :
    Interleaving (xs.filterMap f) (ys.filterMap f) (zs.filterMap f) := by
  induction h with
  | nil => exact .nil
  | left x h ih =>
    cases value : f x with
    | none => simpa only [List.filterMap_cons, value] using ih
    | some b => simpa only [List.filterMap_cons, value] using ih.left b
  | right y h ih =>
    cases value : f y with
    | none => simpa only [List.filterMap_cons, value] using ih
    | some b => simpa only [List.filterMap_cons, value] using ih.right b

end Interleaving

/-! ## Critical sections -/

/-- What one party does to a sink while it holds the lock. -/
inductive CriticalSection where
  /-- The worker writes a chunk that it has read. -/
  | copied (chunk : List UInt8)
  /-- The worker flushes when it has no more to read. -/
  | drained
  /-- The console writes a text and flushes. -/
  | echoed (text : String) (newline : Bool)
  /-- The console flushes and is done with the sink. -/
  | closed
  deriving DecidableEq, Repr

namespace CriticalSection

def events : CriticalSection → List SinkEvent
  | .copied chunk => [.wrote chunk]
  | .drained => [.flushed]
  | .echoed text newline => (outputCalls text newline).map (·.accepted)
  | .closed => [.flushed, .closed]

/-- The bytes that come to the sink in one piece. -/
def piece? : CriticalSection → Option (List UInt8)
  | .copied chunk => some chunk
  | .echoed text newline => some (encode (Run.echoed text newline))
  | .drained => none
  | .closed => none

theorem bytes_events (c : CriticalSection) :
    c.events.flatMap (·.bytes) = c.piece?.getD [] := by
  cases c with
  | copied chunk => simp [events, piece?, SinkEvent.bytes]
  | drained => rfl
  | echoed text newline =>
    have whole := (conveys_outputCalls text newline).whole
    simp only [events, List.flatMap_map, SinkCall.bytes_accepted, whole]
    rfl
  | closed => rfl

theorem bytes_flatMap_events (sections : List CriticalSection) :
    (sections.flatMap (·.events)).flatMap (·.bytes) = (sections.filterMap (·.piece?)).flatten := by
  induction sections with
  | nil => rfl
  | cons c rest ih =>
    rw [List.flatMap_cons, List.flatMap_append, bytes_events, ih, List.filterMap_cons]
    cases c.piece? <;> rfl

end CriticalSection

/-! ## The worker -/

/-- The chunks that are read before the input ends or fails. -/
def PipeRead.chunks : List PipeRead → List (List UInt8)
  | .chunk bytes :: rest => bytes :: chunks rest
  | .interrupted :: rest => chunks rest
  | .ended :: _ => []
  | .failed :: _ => []
  | [] => []

theorem PipeRead.flatten_chunks (reads : List PipeRead) :
    (PipeRead.chunks reads).flatten = PipeRead.received reads := by
  induction reads with
  | nil => rfl
  | cons read rest ih =>
    cases read with
    | chunk bytes => rw [chunks, received, List.flatten_cons, ih]
    | interrupted => exact ih
    | ended => rfl
    | failed => rfl

namespace Worker

/-- What a worker has still to do if nothing is refused. -/
def left : Worker → List CriticalSection
  | .copying reads => (PipeRead.chunks reads).map .copied ++ [.drained]
  | .flushing => [.drained]
  | .finished => []

theorem pieces_left_copying (reads : List PipeRead) :
    (copying reads).left.filterMap (·.piece?) = PipeRead.chunks reads := by
  have copied : (fun chunk => (CriticalSection.copied chunk).piece?) = some := rfl
  rw [left, List.filterMap_append, List.filterMap_map, Function.comp_def, copied,
    List.filterMap_some]
  exact List.append_nil _

variable {w : World} {sink : Nat}

theorem step_left (h : w.Accepting sink) (worker : Worker) :
    ∃ made, worker.left = made ++ (worker.step sink w).1.left ∧
      World.Takes w (worker.step sink w).2 sink (made.flatMap (·.events)) := by
  match worker with
  | .copying (.chunk bytes :: rest) =>
    obtain ⟨v, written, takes⟩ := h.call (.write bytes)
    have step : step sink w (.copying (.chunk bytes :: rest)) = (.copying rest, v) := by
      rw [World.call] at written
      rw [Worker.step, written]
    rw [step]
    exact ⟨[.copied bytes], rfl, takes⟩
  | .copying (.interrupted :: rest) => exact ⟨[], rfl, .of_same rfl⟩
  | .copying (.ended :: rest) => exact ⟨[], rfl, .of_same rfl⟩
  | .copying (.failed :: rest) => exact ⟨[], rfl, .of_same rfl⟩
  | .copying [] => exact ⟨[], rfl, .of_same rfl⟩
  | .flushing =>
    obtain ⟨v, flushed, takes⟩ := h.call .flush
    have last : (w.flushSink sink).2 = v := congrArg Prod.snd flushed
    refine ⟨[.drained], rfl, ?_⟩
    rw [Worker.step, last]
    exact takes
  | .finished => exact ⟨[], rfl, .of_same rfl⟩

/-- Each turn takes the worker closer to its end. -/
theorem turns_step (sink : Nat) (w : World) (worker : Worker) :
    (worker.step sink w).1.turns ≤ worker.turns - 1 := by
  match worker with
  | .copying (.chunk bytes :: rest) =>
    rw [Worker.step]
    split <;> simp [turns]
  | .copying (.interrupted :: rest) => simp [Worker.step, turns]
  | .copying (.ended :: rest) => simp [Worker.step, turns]
  | .copying (.failed :: rest) => simp [Worker.step, turns]
  | .copying [] => simp [Worker.step, turns]
  | .flushing => simp [Worker.step, turns]
  | .finished => simp [Worker.step, turns]

theorem eq_finished {worker : Worker} (h : worker.turns = 0) : worker = .finished := by
  cases worker with
  | copying reads => cases h
  | flushing => cases h
  | finished => rfl

end Worker

/-! ## The console -/

namespace OutputStep

/-- The outputs after a step. -/
def outputsAfter (outputs : Stack OutputFrame) : OutputStep → Stack OutputFrame
  | .enter name sink => outputs.push ⟨name, sink⟩
  | .set name sink => outputs.setTop ⟨name, some sink⟩
  | .clear => outputs.setTop ⟨"default", none⟩
  | .write _ _ => outputs
  | .leave => (outputs.setTop ⟨"default", none⟩).pop

theorem apply_outputs (k : Console) (step : OutputStep) :
    (step.apply k).context.outputs = step.outputsAfter k.context.outputs := by
  cases step with
  | enter name sink => rfl
  | set name sink => exact Console.setOutput_outputs k name sink
  | clear => exact Console.clearOutput_outputs k
  | write text newline => simp only [apply, Console.writeOutput_context, outputsAfter]
  | leave => simp only [apply, Console.leaveOutput, Console.clearOutput_outputs, outputsAfter]

/-- What a step does to the sink of the current output. -/
def section? : OutputStep → Option CriticalSection
  | .enter _ _ => none
  | .set _ _ => some .closed
  | .clear => some .closed
  | .write text newline => some (.echoed text newline)
  | .leave => some .closed

/-- What a step does to a sink. -/
def sectionOn (id : Nat) (outputs : Stack OutputFrame) (step : OutputStep) :
    Option CriticalSection :=
  if outputs.top.sink = some id then step.section? else none

/-- What steps do to a sink, one after the other. -/
def sectionsOn (id : Nat) (outputs : Stack OutputFrame) : List OutputStep → List CriticalSection
  | [] => []
  | step :: rest =>
    (step.sectionOn id outputs).toList ++ sectionsOn id (step.outputsAfter outputs) rest

/-- The texts that steps write to a sink, each with its line feed. -/
def echoesOn (id : Nat) (outputs : Stack OutputFrame) (steps : List OutputStep) :
    List (List UInt8) :=
  (sectionsOn id outputs steps).filterMap (·.piece?)

/-- Steps that only write write to the sink of the current output. -/
theorem echoesOn_writes {id : Nat} {outputs : Stack OutputFrame} (top : outputs.top.sink = some id)
    (calls : List (String × Bool)) :
    echoesOn id outputs (calls.map fun e => .write e.1 e.2)
      = calls.map fun e => encode (echoed e.1 e.2) := by
  induction calls with
  | nil => rfl
  | cons call rest ih =>
    have first : sectionOn id outputs (.write call.1 call.2) = some (.echoed call.1 call.2) :=
      if_pos top
    have piece : (CriticalSection.echoed call.1 call.2).piece?
        = some (encode (echoed call.1 call.2)) := rfl
    rw [List.map_cons, List.map_cons, ← ih, echoesOn, sectionsOn, first, Option.toList_some,
      List.singleton_append, List.filterMap_cons, piece]
    rfl

variable {k : Console} {id : Nat}

theorem closeTop_takes (h : k.world.Accepting id) (top : k.sink? = some id) :
    World.Takes k.world k.closeTop.world id [.flushed, .closed] := by
  simp only [Console.closeTop, top]
  exact h.closeSink

theorem apply_write (top : k.sink? = some id) (text : String) (newline : Bool) :
    apply k (.write text newline)
      = { k with world := (k.world.callAll id (outputCalls text newline)).2 } := by
  simp only [apply, Console.writeOutput, top, Console.writeFlushed_eq, outputCalls]
  rcases k.world.callAll id _ with ⟨_ | _, w⟩ <;> rfl

theorem apply_takes (h : k.world.Accepting id) (step : OutputStep) :
    World.Takes k.world (step.apply k).world id
      ((step.sectionOn id k.context.outputs).toList.flatMap (·.events)) := by
  by_cases top : k.sink? = some id
  case neg =>
    have nothing : step.sectionOn id k.context.outputs = none := if_neg top
    rw [nothing]
    exact .of_same (step.apply_untouched top)
  case pos =>
    have current : step.sectionOn id k.context.outputs = step.section? := if_pos top
    rw [current]
    cases step with
    | enter name sink => exact .of_same rfl
    | set name sink => exact closeTop_takes h top
    | clear => exact closeTop_takes h top
    | leave => exact closeTop_takes h top
    | write text newline =>
      obtain ⟨w, called, takes⟩ := h.callAll (outputCalls text newline)
      rw [apply_write top, called]
      simpa [section?, CriticalSection.events] using takes

end OutputStep

/-! ## One section in a turn -/

inductive Party where
  | console
  | worker
  deriving DecidableEq, Repr

/-- A console with the steps that it has still to make, and a worker beside it. -/
structure Alternation where
  console : Console
  steps : List OutputStep
  worker : Worker

namespace Alternation

open OutputStep (sectionsOn)

def world (d : Alternation) : World := d.console.world

/-- One step of one party, with all that it does while it holds the lock. A party that has come to
its end does nothing. -/
def turn (sink : Nat) (d : Alternation) : Party → Alternation
  | .console =>
    match d.steps with
    | [] => d
    | step :: rest => { d with console := step.apply d.console, steps := rest }
  | .worker =>
    let (worker, w) := d.worker.step sink d.console.world
    { d with console := { d.console with world := w }, worker }

def run (sink : Nat) (d : Alternation) (schedule : List Party) : Alternation :=
  schedule.foldl (turn sink) d

/-- The critical sections of a party that are still to come. -/
def left (sink : Nat) (d : Alternation) : Party → List CriticalSection
  | .console => sectionsOn sink d.console.context.outputs d.steps
  | .worker => d.worker.left

/-- What has come of a run from `d` to `e`. -/
structure History (sink : Nat) (d e : Alternation)
    (byWorker byConsole all : List CriticalSection) : Prop where
  order : Interleaving byWorker byConsole all
  worker : d.left sink .worker = byWorker ++ e.left sink .worker
  console : d.left sink .console = byConsole ++ e.left sink .console
  takes : World.Takes d.world e.world sink (all.flatMap (·.events))

variable {sink : Nat} {d e f : Alternation}

theorem History.refl (sink : Nat) (d : Alternation) : History sink d d [] [] [] :=
  ⟨.nil, rfl, rfl, .of_same rfl⟩

theorem History.trans {worker console all worker' console' all' : List CriticalSection}
    (h : History sink d e worker console all) (k : History sink e f worker' console' all') :
    History sink d f (worker ++ worker') (console ++ console') (all ++ all') where
  order := h.order.append k.order
  worker := by rw [h.worker, k.worker, List.append_assoc]
  console := by rw [h.console, k.console, List.append_assoc]
  takes := by
    rw [List.flatMap_append]
    exact h.takes.trans k.takes

theorem history_turn (h : d.world.Accepting sink) (party : Party) :
    ∃ worker console all, History sink d (d.turn sink party) worker console all := by
  cases party with
  | worker =>
    obtain ⟨made, left, takes⟩ := d.worker.step_left h
    exact ⟨made, [], made, .only_left made, left, rfl, takes⟩
  | console =>
    obtain ⟨k, steps, worker⟩ := d
    cases steps with
    | nil => exact ⟨[], [], [], .refl sink _⟩
    | cons step rest =>
      refine ⟨[], _, _, .only_right _, rfl, ?_, step.apply_takes h⟩
      simp only [left, turn, sectionsOn, OutputStep.apply_outputs]

/-- The induction is on the schedule: the sink goes on to refuse nothing after each turn. -/
theorem history_run (h : d.world.Accepting sink) (schedule : List Party) :
    ∃ worker console all, History sink d (d.run sink schedule) worker console all := by
  induction schedule generalizing d with
  | nil => exact ⟨[], [], [], .refl sink d⟩
  | cons party rest ih =>
    obtain ⟨worker, console, all, first⟩ := history_turn h party
    obtain ⟨worker', console', all', later⟩ := ih (first.takes.accepting h)
    exact ⟨_, _, _, first.trans later⟩

/-- When both have come to their end, each has gone through all its sections. -/
theorem whole_history {schedule : List Party} (h : d.world.Accepting sink)
    (finished : (d.run sink schedule).worker = .finished)
    (made : (d.run sink schedule).steps = []) :
    ∃ sections,
      Interleaving (d.left sink .worker) (d.left sink .console) sections ∧
      World.Takes d.world (d.run sink schedule).world sink (sections.flatMap (·.events)) := by
  obtain ⟨worker, console, sections, history⟩ := history_run h schedule
  have byWorker : d.left sink .worker = worker := by
    rw [history.worker, left, finished]
    exact List.append_nil worker
  have byConsole : d.left sink .console = console := by
    rw [history.console, left, made]
    exact List.append_nil console
  rw [byWorker, byConsole]
  exact ⟨sections, history.order, history.takes⟩

theorem run_worker (sink : Nat) (k : Console) (steps : List OutputStep) (worker : Worker)
    (n : Nat) :
    run sink ⟨k, steps, worker⟩ (List.replicate n .worker)
      = ⟨{ k with world := (worker.advance sink n k.world).2 }, steps,
          (worker.advance sink n k.world).1⟩ := by
  induction n generalizing k worker with
  | zero => rfl
  | succ n ih =>
    rw [List.replicate_succ]
    exact ih _ _

/-- To wait for a capture is the schedule in which the console does nothing. -/
theorem run_finish (c : Capture) (k : Console) (steps : List OutputStep) :
    (run c.sink ⟨k, steps, c.worker⟩ (List.replicate c.worker.turns .worker)).world
      = c.finish k.world := by
  rw [run_worker]
  rfl

end Alternation

/-! ## One write or flush in a turn -/

namespace Worker

/-- Whether a worker is about to do something to its sink. -/
def needsLock : Worker → Bool
  | .copying (.chunk _ :: _) => true
  | .flushing => true
  | _ => false

/-- What is done without the lock does not depend on the world and leaves it as it is. -/
theorem step_unlocked {worker : Worker} (h : worker.needsLock = false) (sink : Nat) :
    ∃ next, ∀ w, worker.step sink w = (next, w) := by
  match worker with
  | .copying (.chunk bytes :: rest) => cases h
  | .copying (.interrupted :: rest) => exact ⟨.copying rest, fun _ => rfl⟩
  | .copying (.ended :: rest) => exact ⟨.flushing, fun _ => rfl⟩
  | .copying (.failed :: rest) => exact ⟨.flushing, fun _ => rfl⟩
  | .copying [] => exact ⟨.flushing, fun _ => rfl⟩
  | .flushing => cases h
  | .finished => exact ⟨.finished, fun _ => rfl⟩

end Worker

/-- Captured output is copied to the sink of the current output, if it has one. -/
theorem Session.capture_of_pipe {s : Session} {commandLine : String} {reads : List PipeRead}
    {c : Capture} (started : (s.pipe commandLine reads).2.1 = some c) :
    s.console.sink? = some c.sink ∧ c.worker = .copying reads := by
  unfold pipe at started
  split at started
  case h_1 id top =>
    obtain rfl := Option.some.inj started
    exact ⟨top, rfl⟩
  case h_2 => cases started

/-- How often at most the console has to get a turn to make a step. -/
def OutputStep.turns : OutputStep → Nat
  | .write text newline => (outputCalls text newline).length + 1
  | _ => 1

theorem OutputStep.turns_pos (step : OutputStep) : 0 < step.turns := by
  cases step <;> exact Nat.succ_pos _

def OutputStep.turnsOfAll : List OutputStep → Nat
  | [] => 0
  | step :: rest => step.turns + turnsOfAll rest

/-- A console and a worker with a lock between them. `held` is what the console has still to do to
the sink before it gives the lock back. -/
structure Sharing extends Alternation where
  held : List SinkCall := []

namespace Sharing

open OutputStep (sectionsOn echoesOn)

/-- A turn with at most one write to the sink or flush of it. To write a text to the sink the
console takes the lock, makes its calls up to the first that is refused, and gives the lock back.
All other sections are over in one turn. A worker that needs the lock waits while the console has
it. -/
def turn (sink : Nat) (d : Sharing) : Party → Sharing
  | .console =>
    match d.held with
    | call :: rest =>
      match d.world.call sink call with
      | (.ok (), w) => { d with console := { d.console with world := w }, held := rest }
      | (.error _, w) => { d with console := { d.console with world := w }, held := [] }
    | [] =>
      match d.steps with
      | .write text newline :: rest =>
        if d.console.sink? = some sink then
          { d with steps := rest, held := outputCalls text newline }
        else { d with toAlternation := d.toAlternation.turn sink .console }
      | _ => { d with toAlternation := d.toAlternation.turn sink .console }
  | .worker =>
    if d.worker.needsLock && !d.held.isEmpty then d
    else { d with toAlternation := d.toAlternation.turn sink .worker }

def run (sink : Nat) (d : Sharing) (schedule : List Party) : Sharing := schedule.foldl (turn sink) d

theorem run_cons (sink : Nat) (d : Sharing) (party : Party) (rest : List Party) :
    d.run sink (party :: rest) = (d.turn sink party).run sink rest := rfl

theorem run_append (sink : Nat) (d : Sharing) (first later : List Party) :
    d.run sink (first ++ later) = (d.run sink first).run sink later := List.foldl_append

/-- Both have come to their end. -/
structure Ended (d : Sharing) : Prop where
  worker : d.worker = .finished
  steps : d.steps = []
  held : d.held = []

/-- What there is when the console has given the lock back. -/
def settled (sink : Nat) (d : Sharing) : Alternation :=
  { d.toAlternation with
    console := { d.console with world := (d.world.callAll sink d.held).2 } }

variable {sink : Nat} {d : Sharing}

theorem settled_of_free (h : d.held = []) : d.settled sink = d.toAlternation := by
  rw [settled, h]
  rfl

/-- A turn is the start of a section, or it is inside of one, or has to wait. -/
theorem settled_turn (sink : Nat) (d : Sharing) (party : Party) :
    (d.turn sink party).settled sink = d.settled sink ∨
      (d.turn sink party).settled sink = (d.settled sink).turn sink party := by
  obtain ⟨⟨k, steps, worker⟩, held⟩ := d
  cases party with
  | console =>
    cases held with
    | cons call rest =>
      left
      simp only [turn, settled, Alternation.world, World.callAll]
      rcases k.world.call sink call with ⟨_ | _, w⟩ <;> rfl
    | nil =>
      right
      cases steps with
      | nil => rfl
      | cons step rest =>
        cases step with
        | write text newline =>
          by_cases top : k.sink? = some sink
          case pos =>
            simp only [turn, top, if_true, settled, Alternation.turn, Alternation.world,
              World.callAll, OutputStep.apply_write top]
          case neg =>
            simp only [turn, top, if_false]
            rfl
        | _ => rfl
  | worker =>
    by_cases blocked : (worker.needsLock && !held.isEmpty) = true
    case pos =>
      left
      simp only [turn, blocked, if_true]
    case neg =>
      right
      cases held with
      | nil =>
        simp only [turn, List.isEmpty_nil, Bool.not_true, Bool.and_false]
        rfl
      | cons call rest =>
        have free : worker.needsLock = false := by simpa using blocked
        obtain ⟨next, unlocked⟩ := Worker.step_unlocked free sink
        simp only [turn, free, Bool.false_and, settled, Alternation.turn, Alternation.world,
          unlocked]
        rfl

/-- With the lock, any schedule of calls comes to one of whole sections. -/
theorem settled_run (sink : Nat) (d : Sharing) (schedule : List Party) :
    ∃ sections, (d.run sink schedule).settled sink = (d.settled sink).run sink sections := by
  induction schedule generalizing d with
  | nil => exact ⟨[], rfl⟩
  | cons party rest ih =>
    obtain ⟨sections, later⟩ := ih (d.turn sink party)
    rcases settled_turn sink d party with inside | first
    · rw [inside] at later
      exact ⟨sections, later⟩
    · rw [first] at later
      exact ⟨party :: sections, later⟩

/-! ### Coming to an end -/

/-- How often at most the console has to get a turn before it comes to its end. -/
def consoleTurns (d : Sharing) : Nat := d.held.length + OutputStep.turnsOfAll d.steps

theorem consoleTurns_turn_worker (sink : Nat) (d : Sharing) :
    (d.turn sink .worker).consoleTurns = d.consoleTurns := by
  simp only [turn]
  split <;> rfl

theorem consoleTurns_turn_console (sink : Nat) (d : Sharing) :
    (d.turn sink .console).consoleTurns ≤ d.consoleTurns - 1 := by
  obtain ⟨⟨k, steps, worker⟩, held⟩ := d
  cases held with
  | cons call rest =>
    simp only [turn]
    split <;> simp [consoleTurns]
  | nil =>
    cases steps with
    | nil => exact Nat.zero_le _
    | cons step rest =>
      cases step with
      | write text newline =>
        simp only [turn]
        split <;> simp [consoleTurns, Alternation.turn, OutputStep.turnsOfAll, OutputStep.turns]
      | _ => simp [turn, consoleTurns, Alternation.turn, OutputStep.turnsOfAll, OutputStep.turns]

theorem consoleTurns_run (sink : Nat) (d : Sharing) (schedule : List Party) :
    (d.run sink schedule).consoleTurns ≤ d.consoleTurns - schedule.count .console := by
  induction schedule generalizing d with
  | nil => exact Nat.le_refl _
  | cons party rest ih =>
    have later := ih (d.turn sink party)
    rw [run_cons]
    cases party with
    | console =>
      have first := consoleTurns_turn_console sink d
      rw [List.count_cons_self]
      omega
    | worker =>
      rw [consoleTurns_turn_worker] at later
      rwa [List.count_cons_of_ne (by decide)]

theorem done_of_consoleTurns (h : d.consoleTurns = 0) : d.steps = [] ∧ d.held = [] := by
  obtain ⟨⟨k, steps, worker⟩, held⟩ := d
  have held' : held = [] := List.eq_nil_of_length_eq_zero (Nat.eq_zero_of_add_eq_zero_right h)
  cases steps with
  | nil => exact ⟨rfl, held'⟩
  | cons step rest =>
    have positive := step.turns_pos
    simp only [consoleTurns, OutputStep.turnsOfAll] at h
    omega

theorem turn_console_worker (sink : Nat) (d : Sharing) :
    (d.turn sink .console).worker = d.worker := by
  obtain ⟨⟨k, steps, worker⟩, held⟩ := d
  cases held with
  | cons call rest =>
    simp only [turn]
    split <;> rfl
  | nil =>
    cases steps with
    | nil => rfl
    | cons step rest =>
      cases step with
      | write text newline =>
        simp only [turn]
        split <;> rfl
      | _ => rfl

/-- The worker does not wait for a console that has come to its end. -/
theorem workerTurns_run (sink : Nat) {d : Sharing} (quiet : d.consoleTurns = 0)
    (schedule : List Party) :
    (d.run sink schedule).worker.turns ≤ d.worker.turns - schedule.count .worker := by
  induction schedule generalizing d with
  | nil => exact Nat.le_refl _
  | cons party rest ih =>
    rw [run_cons]
    cases party with
    | console =>
      have still := consoleTurns_turn_console sink d
      have later := ih (d := d.turn sink .console) (by omega)
      rw [turn_console_worker] at later
      rwa [List.count_cons_of_ne (by decide)]
    | worker =>
      have still := consoleTurns_turn_worker sink d
      have later := ih (still.trans quiet)
      have first : (d.turn sink .worker).worker.turns ≤ d.worker.turns - 1 := by
        have free := (done_of_consoleTurns quiet).2
        simp only [turn, free, List.isEmpty_nil, Bool.not_true, Bool.and_false]
        exact d.worker.turns_step sink d.console.world
      rw [List.count_cons_self]
      omega

theorem exists_quiet (sink : Nat) (d : Sharing) :
    ∃ more, (d.run sink more).consoleTurns = 0 := by
  have bound := consoleTurns_run sink d (List.replicate d.consoleTurns .console)
  rw [List.count_replicate_self, Nat.sub_self] at bound
  exact ⟨_, Nat.le_zero.mp bound⟩

/-- There is always a way on to the end: the console gives the lock back, and then the worker gets
it as often as it needs. -/
theorem exists_end (sink : Nat) (d : Sharing) : ∃ more, (d.run sink more).Ended := by
  obtain ⟨first, quiet⟩ := exists_quiet sink d
  let last := List.replicate (d.run sink first).worker.turns Party.worker
  have workerTurns := workerTurns_run sink quiet last
  have consoleTurns := consoleTurns_run sink (d.run sink first) last
  rw [List.count_replicate_self, Nat.sub_self] at workerTurns
  rw [quiet, Nat.zero_sub] at consoleTurns
  obtain ⟨steps, held⟩ := done_of_consoleTurns (Nat.le_zero.mp consoleTurns)
  refine ⟨first ++ last, ?_⟩
  rw [run_append]
  exact ⟨Worker.eq_finished (Nat.le_zero.mp workerTurns), steps, held⟩

/-! ## The result -/

/-- **Captured output is whole, and texts are not torn.** Let what a child process prints be copied
to the current output, whose sink refuses nothing, and let the console meanwhile write to outputs,
enter and leave them, and replace them. Let the two make their calls on the sink in any order in
which the one that makes a call has the lock. There is always a way on to the end of both. When they
have come to it, what has happened to the sink is an interleaving of what the two do to it, in
which the worker writes each chunk once, in order, and flushes last. So the sink has received, after
what it had before, an interleaving of all chunks with the texts that were written while it was the
sink of the current output, each in one piece with its line feed. These are all texts if the console
does nothing but write. -/
theorem captured_output_is_whole {s : Session} {commandLine : String} {reads : List PipeRead}
    {c : Capture} {before : Sink} {steps : List OutputStep} {schedule : List Party} {e : Sharing}
    (started : (s.pipe commandLine reads).2.1 = some c)
    (there : s.world.sinks[c.sink]? = some before) (accepts : before.device.Accepting)
    (ran : run c.sink ⟨⟨s.console, steps, c.worker⟩, []⟩ schedule = e) :
    (∃ more, (e.run c.sink more).Ended) ∧
    (e.Ended →
      ∃ after, e.world.sinks[c.sink]? = some after ∧
        (∃ sections,
          Interleaving ((PipeRead.chunks reads).map .copied ++ [.drained])
            (sectionsOn c.sink s.context.outputs steps) sections ∧
          after.events = before.events ++ sections.flatMap (·.events)) ∧
        ∃ pieces,
          Interleaving (PipeRead.chunks reads) (echoesOn c.sink s.context.outputs steps) pieces ∧
          after.received = before.received ++ pieces.flatten) ∧
    (PipeRead.chunks reads).flatten = PipeRead.received reads ∧
    ∀ calls : List (String × Bool), steps = calls.map (fun e => .write e.1 e.2) →
      echoesOn c.sink s.context.outputs steps = calls.map fun e => encode (echoed e.1 e.2) := by
  subst ran
  obtain ⟨top, worker⟩ := Session.capture_of_pipe started
  refine ⟨exists_end c.sink _, fun ended => ?_, PipeRead.flatten_chunks reads, ?_⟩
  · obtain ⟨whole, settled⟩ := settled_run c.sink ⟨⟨s.console, steps, c.worker⟩, []⟩ schedule
    rw [settled_of_free ended.held, settled_of_free rfl] at settled
    obtain ⟨sections, order, takes⟩ := Alternation.whole_history ⟨before, there, accepts⟩
      (settled ▸ ended.worker) (settled ▸ ended.steps)
    rw [← settled] at takes
    obtain ⟨device, left, -⟩ := takes before there accepts
    have pieces := order.filterMap (·.piece?)
    simp only [Alternation.left, worker] at order pieces
    rw [Worker.pieces_left_copying] at pieces
    refine ⟨_, left, ⟨sections, order, rfl⟩, _, pieces, ?_⟩
    rw [Sink.received_eq, Sink.received_eq, List.flatMap_append,
      CriticalSection.bytes_flatMap_events]
  · rintro calls rfl
    exact OutputStep.echoesOn_writes top calls

/-- A session that prints to a sink in memory. -/
def teeSession : Session where
  console := {
    context := { outputs := ⟨⟨"tee", some 0⟩, []⟩ }
    world := { sinks := [⟨.memory "tee" fun _ _ => none, []⟩] } }

def teeReads : List PipeRead := [.chunk [97], .interrupted, .chunk [98, 10], .failed]

def teeCapture : Capture := ⟨"ls", 0, .copying teeReads⟩

/-- A text, the screen in place of the sink, and another text. -/
def teeSteps : List OutputStep := [.write "x" true, .clear, .write "y" true]

/-- The worker is interrupted and then waits, while the console writes the first text. -/
def teeSchedule : List Party :=
  [.worker, .console, .console, .worker, .worker, .console, .worker, .console, .worker, .console,
    .worker, .console, .worker]

/-- The first text comes between two chunks. The second one goes to the screen, while the rest of
what is captured still comes to the sink. -/
theorem chunks_around_a_text :
    (teeSession.pipe "ls" teeReads).2.1 = some teeCapture ∧
    (Device.memory "tee" fun _ _ => none).Accepting ∧
    (run 0 ⟨⟨teeSession.console, teeSteps, teeCapture.worker⟩, []⟩ teeSchedule).Ended ∧
    ∃ (after : Sink) (sections : List CriticalSection),
      (run 0 ⟨⟨teeSession.console, teeSteps, teeCapture.worker⟩, []⟩ teeSchedule).world.sinks[0]?
        = some after ∧
      Interleaving [.copied [97], .copied [98, 10], .drained] [.echoed "x" true, .closed] sections ∧
      after.events = sections.flatMap (·.events) ∧
      after.received = encode "ax\nb\n" := by
  have started : (teeSession.pipe "ls" teeReads).2.1 = some teeCapture := rfl
  have accepts : (Device.memory "tee" fun _ _ => none).Accepting := fun _ _ => rfl
  have ended : (run 0 ⟨⟨teeSession.console, teeSteps, teeCapture.worker⟩, []⟩
      teeSchedule).Ended := by
    constructor <;> decide +kernel
  refine ⟨started, accepts, ended, ?_⟩
  have ran : run teeCapture.sink ⟨⟨teeSession.console, teeSteps, teeCapture.worker⟩, []⟩ teeSchedule
      = run 0 ⟨⟨teeSession.console, teeSteps, teeCapture.worker⟩, []⟩ teeSchedule := rfl
  obtain ⟨-, whole, -⟩ := captured_output_is_whole started rfl accepts ran
  obtain ⟨after, left, ⟨sections, order, events⟩, -⟩ := whole ended
  have seen : ((run 0 ⟨⟨teeSession.console, teeSteps, teeCapture.worker⟩, []⟩
      teeSchedule).world.sinks[0]?).map (·.received) = some (encode "ax\nb\n") := by
    decide +kernel
  refine ⟨after, sections, left, order, events, ?_⟩
  have left : (run 0 ⟨⟨teeSession.console, teeSteps, teeCapture.worker⟩, []⟩
      teeSchedule).world.sinks[0]? = some after := left
  rw [left] at seen
  exact Option.some.inj seen

end Sharing

end LogConsole
