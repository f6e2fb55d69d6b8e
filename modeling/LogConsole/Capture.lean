import LogConsole.World

/-!
# LogConsole.Capture

Copying what a child process prints into a sink.

* `PipeRead`      — one reading from the pipe of the child;
* `Worker`        — how far the copying has come;
* `Worker.step`   — one turn: at most one write or flush of the sink. Interrupted readings are
  made again, and when input ends, fails or is refused by the sink, the sink is flushed;
* `Worker.finish` — all turns that are left;
* `Capture`       — a worker with the name of what it copies and its sink.
-/

namespace LogConsole

inductive PipeRead where
  | chunk (bytes : List UInt8)
  | interrupted
  | ended
  | failed
  deriving DecidableEq, Repr

namespace PipeRead

/-- How many bytes are read at once. -/
def chunkSize : Nat := 4096

/-- The readings of at most `fuel` chunks. -/
def ofBytesFrom : Nat → List UInt8 → List PipeRead
  | _, [] => [.ended]
  | 0, _ :: _ => [.ended]
  | fuel + 1, b :: rest =>
    .chunk ((b :: rest).take chunkSize) :: ofBytesFrom fuel ((b :: rest).drop chunkSize)

/-- The readings that bring given bytes. -/
def ofBytes (bytes : List UInt8) : List PipeRead := ofBytesFrom bytes.length bytes

/-- What has been read when the input ends or fails. -/
def received : List PipeRead → List UInt8
  | .chunk bytes :: rest => bytes ++ received rest
  | .interrupted :: rest => received rest
  | .ended :: _ => []
  | .failed :: _ => []
  | [] => []

end PipeRead

inductive Worker where
  | copying (reads : List PipeRead)
  | flushing
  | finished
  deriving DecidableEq, Repr

namespace Worker

def step (sink : Nat) (w : World) : Worker → Worker × World
  | .copying (.chunk bytes :: rest) =>
    match w.writeSink sink bytes with
    | (.ok (), w) => (.copying rest, w)
    | (.error _, w) => (.flushing, w)
  | .copying (.interrupted :: rest) => (.copying rest, w)
  | .copying _ => (.flushing, w)
  | .flushing => (.finished, (w.flushSink sink).2)
  | .finished => (.finished, w)

/-- A bound on the turns that are left. -/
def turns : Worker → Nat
  | .copying reads => reads.length + 2
  | .flushing => 1
  | .finished => 0

def advance (sink : Nat) : Nat → Worker → World → Worker × World
  | 0, worker, w => (worker, w)
  | n + 1, worker, w =>
    let (worker, w) := worker.step sink w
    advance sink n worker w

def finish (sink : Nat) (worker : Worker) (w : World) : World :=
  (advance sink worker.turns worker w).2

end Worker

structure Capture where
  name : String
  sink : Nat
  worker : Worker
  deriving DecidableEq, Repr

namespace Capture

def finish (c : Capture) (w : World) : World := c.worker.finish c.sink w

end Capture

end LogConsole
