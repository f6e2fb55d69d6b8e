import LogConsole.Help
import LogConsole.LineValue
import LogConsole.Message.Basic
import LogConsole.Stack
import LogConsole.World

/-!
# LogConsole.Context

The state that the statements of a session share.

* `OutputFrame` — the name of an output target, and its sink unless it is the screen;
* `Context`     — four stacks (local variables, statement sources, directories, outputs), the
  global variables, query overrides and line values, and the modes of execution;
* `lookup`      — a variable: innermost locals, then globals, then the environment;
* `Context.error` — a failure message with the current source and the current help;
* `Console`     — a context in its world. Writing, redirecting and closing outputs happen here;
* `Frame`       — what a computation can be surrounded by: an element of one of the stacks, or a
  help text.

Each `enter…` has its `leave…`; who enters leaves, whatever happened in between.
-/

namespace LogConsole

structure OutputFrame where
  name : String
  sink : Option Nat := none
  deriving DecidableEq, Repr

structure Context where
  scopes : Stack (Dict String) := ⟨{}, []⟩
  globals : Dict String := {}
  overrides : Dict String := {}
  outputs : Stack OutputFrame := ⟨⟨"screen", none⟩, []⟩
  sources : Stack Snippet := ⟨⟨"command", 1, 0, ""⟩, []⟩
  directories : Stack String := ⟨".", []⟩
  dryRun : Bool := false
  readOnly : Bool := false
  help : Option Help := none
  lineValues : List LineValue := []

namespace Context

/-! ## Variables -/

def locals (c : Context) : Dict String := c.scopes.top

def setLocal (c : Context) (name value : String) : Context :=
  { c with scopes := c.scopes.setTop (c.scopes.top.insert name value) }

def setGlobal (c : Context) (name value : String) : Context :=
  { c with globals := c.globals.insert name value }

def setOverride (c : Context) (name value : String) : Context :=
  { c with overrides := c.overrides.insert name value }

def clearOverrides (c : Context) : Context := { c with overrides := {} }

/-- Innermost locals, then globals, then the environment. -/
def lookup (c : Context) (environment : Dict String) (name : String) : Option String :=
  match c.locals.get? name with
  | some v => some v
  | none =>
    match c.globals.get? name with
    | some v => some v
    | none => environment.get? name

def pushScope (c : Context) (vars : Dict String) : Context :=
  { c with scopes := c.scopes.push vars }

/-- The root scope is never taken off. -/
def popScope? (c : Context) : Option Context :=
  if c.scopes.below.isEmpty then none else some { c with scopes := c.scopes.pop }

/-! ## Frames -/

def leaveScope (c : Context) : Context := { c with scopes := c.scopes.pop }

def enterSource (c : Context) (s : Snippet) : Context := { c with sources := c.sources.push s }

def leaveSource (c : Context) : Context := { c with sources := c.sources.pop }

def source (c : Context) : Snippet := c.sources.top

def enterDirectory (c : Context) (dir : String) : Context :=
  { c with directories := c.directories.push dir }

def leaveDirectory (c : Context) : Context := { c with directories := c.directories.pop }

def directory (c : Context) : String := c.directories.top

def setHelp (c : Context) (help : Option Help) : Context := { c with help := help }

/-! ## Messages -/

/-- Adds the current source, and the current help if there is one. -/
def explain (c : Context) (m : Message) : Message :=
  let m := m.withSnippet c.source
  match c.help with
  | some help => m.withHelp help.display
  | none => m

def error (c : Context) (kind : ErrorKind) (text : String) : Message :=
  c.explain ((Message.error text).withKind kind)

@[simp] theorem error_kind (c : Context) (kind : ErrorKind) (text : String) :
    (c.error kind text).kind = some kind := by
  unfold error explain
  cases c.help <;> rfl

end Context

structure Console where
  context : Context := {}
  world : World := {}

namespace Console

def lookup (k : Console) (name : String) : Option String :=
  k.context.lookup k.world.environment name

def sink? (k : Console) : Option Nat := k.context.outputs.top.sink

def setTopOutput (k : Console) (frame : OutputFrame) : Console :=
  { k with context := { k.context with outputs := k.context.outputs.setTop frame } }

/-- Closes the sink of the current output, if it has one. -/
def closeTop (k : Console) : Console :=
  match k.sink? with
  | some id => { k with world := k.world.closeSink id }
  | none => k

/-- Puts another target in place of the current one, whose sink is closed. -/
def setOutput (k : Console) (name : String) (sink : Nat) : Console :=
  k.closeTop.setTopOutput ⟨name, some sink⟩

/-- Puts the screen in place of the current target, whose sink is closed. -/
def clearOutput (k : Console) : Console := k.closeTop.setTopOutput ⟨"default", none⟩

def enterOutput (k : Console) (name : String) (sink : Option Nat) : Console :=
  { k with context := { k.context with outputs := k.context.outputs.push ⟨name, sink⟩ } }

def leaveOutput (k : Console) : Console :=
  let k := k.clearOutput
  { k with context := { k.context with outputs := k.context.outputs.pop } }

/-- The pieces that are written for a text: the text unless it is empty, then a line feed. -/
def outputPieces (text : String) (newline : Bool) : List (List UInt8) :=
  (if text.isEmpty then [] else [Text.Utf8.encode text]) ++ (if newline then [[10]] else [])

/-- Writes pieces one after the other up to the first that is refused. -/
def writePieces (w : World) (sink : Nat) : List (List UInt8) → Except String Unit × World
  | [] => (.ok (), w)
  | piece :: rest =>
    match w.writeSink sink piece with
    | (.ok (), w) => writePieces w sink rest
    | (.error e, w) => (.error e, w)

/-- Writes pieces and flushes. -/
def writeFlushed (w : World) (sink : Nat) (pieces : List (List UInt8)) :
    Except String Unit × World :=
  match writePieces w sink pieces with
  | (.ok (), w) => w.flushSink sink
  | (.error e, w) => (.error e, w)

/-- Writes a text to the current output; the answer says whether there is a sink for it. -/
def writeOutput (k : Console) (text : String) (newline : Bool) :
    Except String Bool × Console :=
  match k.sink? with
  | none => (.ok false, k)
  | some id =>
    match writeFlushed k.world id (outputPieces text newline) with
    | (.ok (), w) => (.ok true, { k with world := w })
    | (.error e, w) => (.error e, { k with world := w })

end Console

/-! ## Frames around a computation -/

inductive Frame where
  | source (s : Snippet)
  | scope (vars : Dict String)
  | directory (dir : String)
  | output (name : String) (sink : Option Nat)
  /-- A help text in place of the current one. -/
  | help (text : Help)

namespace Frame

def enter (f : Frame) (k : Console) : Console :=
  match f with
  | .source s => { k with context := k.context.enterSource s }
  | .scope vars => { k with context := k.context.pushScope vars }
  | .directory dir => { k with context := k.context.enterDirectory dir }
  | .output name sink => k.enterOutput name sink
  | .help text => { k with context := k.context.setHelp (some text) }

/-- Leaves a frame that was entered in the context `before`. -/
def leave (f : Frame) (before : Context) (k : Console) : Console :=
  match f with
  | .source _ => { k with context := k.context.leaveSource }
  | .scope _ => { k with context := k.context.leaveScope }
  | .directory _ => { k with context := k.context.leaveDirectory }
  | .output _ _ => k.leaveOutput
  | .help _ => { k with context := k.context.setHelp before.help }

end Frame

end LogConsole
