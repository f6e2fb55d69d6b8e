import LogConsole.Dict
import LogConsole.Disk
import LogConsole.Text.Utf8

/-!
# LogConsole.World

What the console shares with the system it runs on: files, environment, standard streams, and
the sinks that output is written to.

* `SinkEvent`, `SinkCall` — what has happened to a sink, and what it is asked to do;
* `Device`    — what is behind a sink: memory, an open file, a full device, or standard output.
  Memory may refuse a call, depending on what happened before;
* `Sink`      — a device with everything that happened to it;
* `World`     — the system. `writeSink`, `flushSink` and `closeSink` act on one sink by its
  number.

A file sink holds what is written until it is flushed or 8192 bytes are held. What a full device
refuses stays held.
-/

namespace LogConsole

inductive SinkEvent where
  | wrote (bytes : List UInt8)
  | writeRefused
  | flushed
  | flushRefused
  | closed
  deriving DecidableEq, Repr

inductive SinkCall where
  | write (bytes : List UInt8)
  | flush
  deriving DecidableEq, Repr

inductive Device where
  /-- Keeps what it accepts; `refuse` gives the failure text of a call, if it is refused. -/
  | memory (name : String) (refuse : List SinkEvent → SinkCall → Option String)
  | file (id offset : Nat) (held : List UInt8)
  | full (held : List UInt8)
  | void
  | stdout

/-- The events are in the order in which they happened. -/
structure Sink where
  device : Device
  events : List SinkEvent := []

namespace Sink

def received (s : Sink) : List UInt8 :=
  s.events.flatMap fun e =>
    match e with
    | .wrote bytes => bytes
    | _ => []

def named (s : Sink) (name : String) : Bool :=
  match s.device with
  | .memory n _ => n == name
  | _ => false

end Sink

structure World where
  disk : Disk := {}
  environment : Dict String := {}
  /-- What is left to read on standard input. -/
  stdin : List UInt8 := []
  /-- The terminal that standard input is connected to, as lines and columns. -/
  terminal : Option (Nat × Nat) := none
  /-- How long a query takes, in milliseconds. -/
  queryTime : Nat := 0
  stdout : List UInt8 := []
  stderr : List UInt8 := []
  sinks : List Sink := []

namespace World

def print (w : World) (text : String) : World :=
  { w with stdout := w.stdout ++ Text.Utf8.encode text }

def printError (w : World) (text : String) : World :=
  { w with stderr := w.stderr ++ Text.Utf8.encode text }

def addSink (w : World) (device : Device) : Nat × World :=
  (w.sinks.length, { w with sinks := w.sinks ++ [⟨device, []⟩] })

def setSink (w : World) (id : Nat) (device : Device) (events : List SinkEvent) : World :=
  { w with sinks := w.sinks.set id ⟨device, events⟩ }

def heldLimit : Nat := 8192

/-- Puts what a file sink holds into its file. -/
def storeHeld (w : World) (file offset : Nat) (held : List UInt8) : World :=
  { w with
    disk := w.disk.setContents file (Disk.overwrite (w.disk.contentsOf file) offset held) }

def writeSink (w : World) (id : Nat) (bytes : List UInt8) : Except String Unit × World :=
  match w.sinks[id]? with
  | none => (.ok (), w)
  | some s =>
    match s.device with
    | .memory name refuse =>
      match refuse s.events (.write bytes) with
      | some text => (.error text, w.setSink id (.memory name refuse) (s.events ++ [.writeRefused]))
      | none => (.ok (), w.setSink id (.memory name refuse) (s.events ++ [.wrote bytes]))
    | .file file offset held =>
      if held.length + bytes.length < heldLimit then
        (.ok (), w.setSink id (.file file offset (held ++ bytes)) (s.events ++ [.wrote bytes]))
      else
        let all := held ++ bytes
        (.ok (), (w.storeHeld file offset all).setSink id (.file file (offset + all.length) [])
          (s.events ++ [.wrote bytes]))
    | .full held =>
      if held.length + bytes.length < heldLimit then
        (.ok (), w.setSink id (.full (held ++ bytes)) (s.events ++ [.wrote bytes]))
      else (.error IoError.noSpace.message, w.setSink id (.full held) (s.events ++ [.writeRefused]))
    | .void => (.ok (), w.setSink id .void (s.events ++ [.wrote bytes]))
    | .stdout =>
      (.ok (), ({ w with stdout := w.stdout ++ bytes } : World).setSink id .stdout
        (s.events ++ [.wrote bytes]))

def flushSink (w : World) (id : Nat) : Except String Unit × World :=
  match w.sinks[id]? with
  | none => (.ok (), w)
  | some s =>
    match s.device with
    | .memory name refuse =>
      match refuse s.events .flush with
      | some text => (.error text, w.setSink id (.memory name refuse) (s.events ++ [.flushRefused]))
      | none => (.ok (), w.setSink id (.memory name refuse) (s.events ++ [.flushed]))
    | .file file offset held =>
      (.ok (), (w.storeHeld file offset held).setSink id (.file file (offset + held.length) [])
        (s.events ++ [.flushed]))
    | .full held =>
      if held.isEmpty then (.ok (), w.setSink id (.full held) (s.events ++ [.flushed]))
      else (.error IoError.noSpace.message, w.setSink id (.full held) (s.events ++ [.flushRefused]))
    | .void => (.ok (), w.setSink id .void (s.events ++ [.flushed]))
    | .stdout => (.ok (), w.setSink id .stdout (s.events ++ [.flushed]))

/-- Flushes a sink, whether or not it refuses, and is done with it. -/
def closeSink (w : World) (id : Nat) : World :=
  let w := (w.flushSink id).2
  match w.sinks[id]? with
  | none => w
  | some s => w.setSink id s.device (s.events ++ [.closed])

/-- What the memory sink last made under a name has accepted. -/
def received? (w : World) (name : String) : Option (List UInt8) :=
  (w.sinks.reverse.find? (·.named name)).map (·.received)

/-- The number of the sink of a file that has been opened. -/
def openSink (w : World) : Node → Nat × World
  | .file id => w.addSink (.file id 0 [])
  | .full => w.addSink (.full [])
  | _ => w.addSink .void

end World

end LogConsole
