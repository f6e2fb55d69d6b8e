import LogConsole.Proofs.Context.Delivery
import LogConsole.Proofs.Session.Acts
import LogConsole.Session.Command

/-!
# LogConsole.Proofs.Session.Delivery

What is printed or exported has been written if the command says so.

* `echoIn`, `exportTo` — printing and exporting in any calls that convey the text, and to whatever
  is opened. `echo` and `writeResults` are these with the calls and the targets of the program;
* `OpensTarget`        — what may be opened as a target: a device of any kind, which may refuse any
  call at any time;
* `Reported`           — all calls have been accepted, or the answer says which reason the device
  has given for the one that it has refused;
* `success_means_written` — the result for both.
-/

namespace LogConsole

open Text.Utf8 (encode)
open World (Adds Delivery)

namespace Run

variable {s : Session}

/-! ## Any calls -/

/-- Prints to the current output in the given calls; the answer says whether it has a sink. -/
def writeOutputIn (calls : List SinkCall) : Run Bool := fun s =>
  match s.console.sink? with
  | none => some (.ok false, s)
  | some id =>
    match s.world.callAll id calls with
    | (.ok (), w) => some (.ok true, s.changeWorld fun _ => w)
    | (.error e, w) =>
      failFor .commandFailed "unable to write to output" e (s.changeWorld fun _ => w)

def echoIn (cut : String → Bool → List SinkCall) (line : String) (words : List String) :
    Run String := do
  let (text, newline) := echoArguments line words
  let text ← expandText text
  if ← get fun s => s.context.dryRun then return text
  else if ← writeOutputIn (cut text newline) then return ""
  else return text

/-- Writes to a sink that has been opened in the given calls, and closes it. -/
def writeAllIn (path : String) (sink : Nat) (calls : List SinkCall) : Run Unit := fun s =>
  let (written, world) := s.world.callAll sink calls
  let s := s.changeWorld fun _ => world.closeSink sink
  match written with
  | .ok () => some (.ok (), s)
  | .error e => failFor .commandFailed ("unable to write to " ++ path) e s

def exportTo (opened : String → Run Nat) (cut : List UInt8 → List SinkCall)
    (form : ResultSet → String) (line : String) : Run String := do
  let path := Text.trim (← expandText (argumentText line))
  let results ← get Session.results
  if path.isEmpty then fail .commandFailed "expecting a path to write to"
  else if results.headers.isEmpty then fail .commandFailed "no query results to write"
  else if ← get fun s => s.context.dryRun then return ""
  else
    let sink ← opened path
    writeAllIn path sink (cut (encode (form results)))
    return ""

/-- The calls in which a text is printed: the text unless it is empty, a line feed if there is to be
one, and a flush. -/
def outputCalls (text : String) (newline : Bool) : List SinkCall :=
  (Console.outputPieces text newline).map .write ++ [.flush]

/-- The calls in which results are written. -/
def wholeCalls (bytes : List UInt8) : List SinkCall := [.write bytes, .flush]

theorem conveys_wholeCalls (bytes : List UInt8) : Conveys (wholeCalls bytes) bytes :=
  ⟨List.append_nil bytes, rfl⟩

/-- What is printed for a text. -/
def echoed (text : String) (newline : Bool) : String := if newline then text ++ "\n" else text

theorem conveys_outputCalls (text : String) (newline : Bool) :
    Conveys (outputCalls text newline) (encode (echoed text newline)) := by
  have whole : (Console.outputPieces text newline).flatten = encode (echoed text newline) := by
    have piece : (if text.isEmpty then [] else [encode text]).flatten = encode text := by
      split
      case isTrue none =>
        rw [String.isEmpty_iff.1 none]
        rfl
      case isFalse => exact List.flatten_singleton
    rw [Console.outputPieces, List.flatten_append, piece]
    cases newline with
    | true =>
      simp only [echoed, if_true, encode, String.toList_append, List.flatMap_append]
      rfl
    | false => simp [echoed]
  rw [← whole]
  exact .of_pieces _

theorem writeOutput_eq (text : String) (newline : Bool) :
    writeOutput text newline = writeOutputIn (outputCalls text newline) := by
  funext s
  rw [writeOutput, writeOutputIn, Console.writeOutput]
  cases s.console.sink? with
  | none => rfl
  | some id =>
    simp only [Console.writeFlushed_eq, outputCalls, Session.world]
    rcases s.console.world.callAll id _ with ⟨_ | _, w⟩ <;> rfl

theorem echo_eq (line : String) (words : List String) :
    echo line words = echoIn outputCalls line words := by
  simp only [echo, echoIn, writeOutput_eq]

theorem writeAll_eq (path : String) (sink : Nat) (bytes : List UInt8) :
    writeAll path sink bytes = writeAllIn path sink (wholeCalls bytes) := by
  funext s
  have same : Console.writeFlushed s.world sink [bytes] = s.world.callAll sink (wholeCalls bytes) :=
    Console.writeFlushed_eq s.world sink [bytes]
  rcases called : s.world.callAll sink (wholeCalls bytes) with ⟨_ | _, w⟩ <;>
    simp only [writeAll, writeAllIn, same, called]

theorem writeResults_eq (form : ResultSet → String) (line : String) :
    writeResults form line = exportTo openTarget wholeCalls form line := by
  simp only [writeResults, exportTo, writeAll_eq]

theorem echoArguments_newline (line : String) (words : List String) :
    (echoArguments line words).2 = !(words[1]? == some "-n") := by
  unfold echoArguments
  split
  case h_1 => rfl
  case h_2 other =>
    match words with
    | [] => rfl
    | [_] => rfl
    | name :: first :: rest =>
      have first : first ≠ "-n" := fun same => other name rest (same ▸ rfl)
      simp [first]

/-! ## Targets -/

/-- What may come of opening a target: a new sink, or a failure. -/
inductive TargetOpening (s : Session) : Option (Except Message Nat × Session) → Prop where
  | opened {w : World} (device : Device) (sinks : w.sinks = s.world.sinks ++ [⟨device, []⟩])
      (environment : w.environment = s.world.environment) :
      TargetOpening s (some (.ok s.world.sinks.length, s.changeWorld fun _ => w))
  | failed {w : World} {m : Message} (kind : m.kind = some .commandFailed)
      (sinks : w.sinks = s.world.sinks) (environment : w.environment = s.world.environment) :
      TargetOpening s (some (.error m, s.changeWorld fun _ => w))

def OpensTarget (opened : String → Run Nat) : Prop :=
  ∀ path s, TargetOpening s (opened path s)

theorem opens_openTarget : OpensTarget openTarget := by
  intro path s
  unfold openTarget
  split
  · exact .opened .stdout rfl rfl
  · cases created : s.disk.create (expandTilde s.world.environment path) with
    | error e =>
      exact .failed (w := s.world) (s.context.error_kind .commandFailed _) rfl rfl
    | ok result =>
      obtain ⟨disk, node⟩ := result
      cases node with
      | file id => exact .opened (.file id 0 []) rfl rfl
      | full => exact .opened (.full []) rfl rfl
      | dir => exact .opened .void rfl rfl
      | sink => exact .opened .void rfl rfl

/-- Opens a device, whatever the path. -/
def openDevice (device : Device) (_path : String) : Run Nat := fun s =>
  some (.ok s.world.sinks.length, s.changeWorld fun w => (w.addSink device).2)

theorem opens_openDevice (device : Device) : OpensTarget (openDevice device) :=
  fun _ _ => .opened device rfl rfl

/-! ## Outcomes -/

/-- What a command says that has written to a sink. In the end `last` has happened to it. -/
inductive Reported (c : Context) (w v : World) (id : Nat) (calls : List SinkCall) (text : String)
    (last : List SinkEvent) : Except Message String → Prop where
  | written (made : Adds w v id (calls.map (·.accepted) ++ last)) :
      Reported c w v id calls text last (.ok "")
  | refused {done rest : List SinkCall} {call : SinkCall} {mid : World} {reason : String}
      (cut : calls = done ++ call :: rest) (made : Adds w mid id (done.map (·.accepted)))
      (why : mid.refusal? id call = some reason) (noted : Adds mid v id (call.refused :: last)) :
      Reported c w v id calls text last
        (.error ((c.error .commandFailed text).withReason reason))

/-- The answer of a command that has written to a sink. -/
def report (c : Context) (text : String) : Except String Unit → Except Message String
  | .ok () => .ok ""
  | .error reason => .error ((c.error .commandFailed text).withReason reason)

theorem Reported.of_delivery {c : Context} {w u v : World} {id : Nat} {calls : List SinkCall}
    {r : Except String Unit} {last : List SinkEvent} (h : Delivery w u id calls r)
    (ended : Adds u v id last) (text : String) :
    Reported c w v id calls text last (report c text r) := by
  cases h with
  | complete made => exact .written (made.trans ended)
  | refused cut made why noted => exact .refused cut made why (noted.trans ended)

/-! ## Printing -/

theorem echoIn_reported (cut : String → Bool → List SinkCall) {line : String}
    {words : List String} {id : Nat} {text : String} (wet : s.context.dryRun = false)
    (top : s.console.sink? = some id) (there : (s.world.sinks[id]?).isSome)
    (expanded : expand s.console.lookup (echoArguments line words).1 = .ok text) :
    ∃ r v, echoIn cut line words s = some (r, s.changeWorld fun _ => v) ∧
      v.environment = s.world.environment ∧
      Reported s.context s.world v id (cut text (echoArguments line words).2)
        "unable to write to output" [] r := by
  have delivery := World.delivery_callAll (cut text (echoArguments line words).2) there
  have environment := s.world.callAll_environment id (cut text (echoArguments line words).2)
  refine ⟨_, _, ?_, environment, .of_delivery delivery (.refl _ id) _⟩
  simp only [echoIn, bind_def, expandText, expanded, Run.get, wet, Bool.false_eq_true, if_false,
    writeOutputIn, top]
  rcases s.world.callAll id _ with ⟨_ | _, w⟩ <;> rfl

theorem Reported.took {c : Context} {w v : World} {id : Nat} {calls : List SinkCall}
    {text answer : String} {last : List SinkEvent} {bytes : List UInt8} {before : Sink}
    (h : Reported c w v id calls text last (.ok answer)) (conveys : Conveys calls bytes)
    (silent : last.flatMap (·.bytes) = []) (there : w.sinks[id]? = some before) :
    answer = "" ∧ ∃ after, v.sinks[id]? = some after ∧ before.Took after bytes last := by
  obtain ⟨made⟩ := h
  exact ⟨rfl, made.took conveys silent there⟩

/-! ## Exporting -/

/-- How an export ends: no path is given, none is opened, or one has been opened, whose sink is
closed in the end, flushed if it can be. -/
inductive ExportEnds (opened : String → Run Nat) (path : String) (s : Session) (v : World)
    (calls : List SinkCall) : Except Message String → Prop where
  | unnamed (empty : path.isEmpty = true) (same : v = s.world) :
      ExportEnds opened path s v calls
        (.error (s.context.error .commandFailed "expecting a path to write to"))
  | unopened {m : Message} (fails : opened path s = some (.error m, s.changeWorld fun _ => v))
      (kind : m.kind = some .commandFailed) (sinks : v.sinks = s.world.sinks) :
      ExportEnds opened path s v calls (.error m)
  | opened {w : World} {device : Device} {flush : SinkEvent} {r : Except Message String}
      (opens : opened path s = some (.ok s.world.sinks.length, s.changeWorld fun _ => w))
      (sinks : w.sinks = s.world.sinks ++ [⟨device, []⟩])
      (flushes : flush = .flushed ∨ flush = .flushRefused)
      (reported : Reported s.context w v s.world.sinks.length calls ("unable to write to " ++ path)
        [flush, .closed] r) : ExportEnds opened path s v calls r

/-- A target in the world `w` is written to and closed, and that is all. -/
theorem writeAllIn_report (w : World) (path : String) (sink : Nat) (calls : List SinkCall) :
    (do writeAllIn path sink calls; return "" : Run String) (s.changeWorld fun _ => w)
      = some (report s.context ("unable to write to " ++ path) (w.callAll sink calls).1,
          s.changeWorld fun _ => (w.callAll sink calls).2.closeSink sink) := by
  have same : (s.changeWorld fun _ => w).world = w := rfl
  simp only [bind_def, writeAllIn, same]
  rcases w.callAll sink calls with ⟨_ | _, u⟩ <;> rfl

theorem exportTo_ends {opened : String → Run Nat} (opens : OpensTarget opened)
    (cut : List UInt8 → List SinkCall) (form : ResultSet → String) {line expanded : String}
    (wet : s.context.dryRun = false) (headed : s.results.headers ≠ [])
    (h : expand s.console.lookup (argumentText line) = .ok expanded) :
    ∃ r v, exportTo opened cut form line s = some (r, s.changeWorld fun _ => v) ∧
      v.environment = s.world.environment ∧
      ExportEnds opened (Text.trim expanded) s v (cut (encode (form s.results))) r := by
  have some_header : s.results.headers.isEmpty = false := by simpa using headed
  cases path : (Text.trim expanded).isEmpty with
  | true =>
    have run : exportTo opened cut form line s
        = fail .commandFailed "expecting a path to write to" s := by
      simp only [exportTo, bind_def, expandText, h, Run.get, path, if_true]
    exact ⟨_, s.world, run, rfl, .unnamed path rfl⟩
  | false =>
    simp only [exportTo, bind_def, expandText, h, Run.get, path, some_header, wet,
      Bool.false_eq_true, if_false]
    have opening := opens (Text.trim expanded) s
    generalize started : opened (Text.trim expanded) s = result at opening
    cases opening with
    | @failed w m kind sinks environment =>
      exact ⟨.error m, w, rfl, environment, .unopened started kind sinks⟩
    | @opened w device sinks environment =>
      have there : (w.sinks[s.world.sinks.length]?).isSome := by
        rw [sinks, List.getElem?_concat_length]
        rfl
      have delivery := World.delivery_callAll (cut (encode (form s.results))) there
      have kept := w.callAll_environment s.world.sinks.length (cut (encode (form s.results)))
      obtain ⟨flush, flushes, closed⟩ := World.closeSink_adds
        (w.callAll s.world.sinks.length (cut (encode (form s.results)))).2 s.world.sinks.length
      refine ⟨_, _, ?_, ((World.closeSink_environment _ _).trans kept).trans environment,
        .opened started sinks flushes (.of_delivery delivery closed _)⟩
      exact writeAllIn_report w _ _ _

theorem ExportEnds.took {opened : String → Run Nat} {path answer : String} {v : World}
    {calls : List SinkCall} {bytes : List UInt8} (h : ExportEnds opened path s v calls (.ok answer))
    (conveys : Conveys calls bytes) :
    answer = "" ∧ ∃ device after flush, v.sinks[s.world.sinks.length]? = some after ∧
      Sink.Took ⟨device, []⟩ after bytes [flush, .closed] := by
  cases h with
  | @opened w device flush r opens sinks flushes reported =>
    have there : w.sinks[s.world.sinks.length]? = some ⟨device, []⟩ := by
      rw [sinks, List.getElem?_concat_length]
    have silent : [flush, SinkEvent.closed].flatMap (·.bytes) = [] := by
      rcases flushes with rfl | rfl <;> rfl
    obtain ⟨done, after, left, took⟩ := reported.took conveys silent there
    exact ⟨done, device, after, flush, left, took⟩

/-! ## The result -/

/-- **Success means written.** Let a text be printed to an output that has a sink, or the results of
a session, which have headers, be exported to a target that can be opened in any way, and let what
stands behind the sink refuse any write or flush at any time. The commands make their calls one
after the other. If one of them is refused the answer is a failure of the command with the reason
that was given; else the answer is a success, and then the sink has received all of the text, which
for printing ends in a line feed unless the first word is `-n`, after what it had before and nothing
else, and has been flushed after that. An export closes its sink in the end. Nothing of the session
is changed but its world, where the environment stays as it is: the results, the variables and the
stack of outputs are the same. This holds however a text is cut into calls, and whatever device is
opened; what the commands do is one case of it. -/
theorem success_means_written (wet : s.context.dryRun = false) :
    (∀ (cut : String → Bool → List SinkCall) (line : String) (words : List String) (id : Nat)
      (before : Sink) (text : String),
      (∀ text newline, Conveys (cut text newline) (encode (echoed text newline))) →
      s.console.sink? = some id → s.world.sinks[id]? = some before →
      expand s.console.lookup (echoArguments line words).1 = .ok text →
      ∃ r v, echoIn cut line words s = some (r, s.changeWorld fun _ => v) ∧
        v.environment = s.world.environment ∧
        Reported s.context s.world v id (cut text (echoArguments line words).2)
          "unable to write to output" [] r ∧
        ∀ answer, r = .ok answer → answer = "" ∧ ∃ after, v.sinks[id]? = some after ∧
          before.Took after (encode (echoed text !(words[1]? == some "-n"))) []) ∧
    (∀ (opened : String → Run Nat) (cut : List UInt8 → List SinkCall) (form : ResultSet → String)
      (line expanded : String), OpensTarget opened → (∀ bytes, Conveys (cut bytes) bytes) →
      s.results.headers ≠ [] → expand s.console.lookup (argumentText line) = .ok expanded →
      ∃ r v, exportTo opened cut form line s = some (r, s.changeWorld fun _ => v) ∧
        v.environment = s.world.environment ∧
        ExportEnds opened (Text.trim expanded) s v (cut (encode (form s.results))) r ∧
        ∀ answer, r = .ok answer → answer = "" ∧ ∃ device after flush,
          v.sinks[s.world.sinks.length]? = some after ∧
          Sink.Took ⟨device, []⟩ after (encode (form s.results)) [flush, .closed]) ∧
    (OpensTarget openTarget ∧ (∀ device, OpensTarget (openDevice device)) ∧
      (∀ text newline, Conveys (outputCalls text newline) (encode (echoed text newline))) ∧
      ∀ bytes, Conveys (wholeCalls bytes) bytes) ∧
    ∀ (again : Mode → String → Run Output) (line : String) (words : List String),
      runBuiltin again .echo line words = echoIn outputCalls line words ∧
      runBuiltin again .writeCsv line words = exportTo openTarget wholeCalls csvText line ∧
      runBuiltin again .writeJson line words = exportTo openTarget wholeCalls jsonText line := by
  refine ⟨?_, ?_, ⟨opens_openTarget, opens_openDevice, conveys_outputCalls, conveys_wholeCalls⟩,
    fun again line words => ?_⟩
  · intro cut line words id before text conveys top there expanded
    obtain ⟨r, v, run, environment, reported⟩ := echoIn_reported cut wet top
      (Option.isSome_iff_exists.2 ⟨before, there⟩) expanded
    refine ⟨r, v, run, environment, reported, ?_⟩
    rintro answer rfl
    rw [← echoArguments_newline line]
    exact reported.took (conveys text _) rfl there
  · intro opened cut form line expanded opens conveys headed h
    obtain ⟨r, v, run, environment, exported⟩ :=
      exportTo_ends opens cut form wet headed h
    refine ⟨r, v, run, environment, exported, ?_⟩
    rintro answer rfl
    exact exported.took (conveys _)
  · exact ⟨echo_eq line words, writeResults_eq csvText line, writeResults_eq jsonText line⟩

/-- A sink that refuses line feeds. -/
def wordSink : Device :=
  .memory "words" fun _ call => if call.bytes = [10] then some "no line feeds" else none

/-- A session with one result that prints to such a sink. -/
def wordSession : Session where
  console := {
    context := { outputs := ⟨⟨"words", some 0⟩, []⟩ }
    world := { sinks := [⟨wordSink, []⟩] } }
  collector := { results := { headers := [⟨"n", .integer, true⟩], rows := [[some "1"]] } }

/-- A text is accepted and the line feed after it refused, which the answer says. The results are
written to another sink, a letter at a time. -/
theorem refused_line_feed_reported :
    wordSession.context.dryRun = false ∧
    (∃ m v, echoIn outputCalls "echo hello" ["echo", "hello"] wordSession
        = some (.error m, wordSession.changeWorld fun _ => v) ∧
      m.kind = some .commandFailed ∧ m.reason = "no line feeds" ∧
      v.sinks[0]?.map (·.events) = some [.wrote (encode "hello"), .writeRefused]) ∧
    ∃ v device after flush,
      exportTo (openDevice (.memory "report" fun _ _ => none))
          (fun bytes => bytes.map (fun b => .write [b]) ++ [.flush]) csvText "write-csv-to report"
          wordSession
        = some (.ok "", wordSession.changeWorld fun _ => v) ∧
      v.sinks[1]? = some after ∧
      Sink.Took ⟨device, []⟩ after (encode "n\n1\n") [flush, .closed] := by
  have wet : wordSession.context.dryRun = false := rfl
  have text : (expand wordSession.console.lookup "hello").toOption = some "hello" := by
    decide +kernel
  have path : (expand wordSession.console.lookup "report").toOption = some "report" := by
    decide +kernel
  have cuts (bytes : List UInt8) :
      Conveys (bytes.map (fun b => .write [b]) ++ [.flush]) bytes := by
    have pieces := Conveys.of_pieces (bytes.map fun b => [b])
    rwa [List.map_map, ← List.flatMap_def, List.flatMap_singleton'] at pieces
  obtain ⟨prints, exports, -⟩ := success_means_written wet
  refine ⟨wet, ?_, ?_⟩
  · obtain ⟨r, v, run, -, reported, -⟩ := prints outputCalls "echo hello" ["echo", "hello"] 0 _
      "hello" conveys_outputCalls rfl rfl (ok_of_toOption text)
    have seen : (echoIn outputCalls "echo hello" ["echo", "hello"] wordSession).map
        (fun e => (e.1.toOption, (e.1.tryCatch fun m => .ok m.reason).toOption,
          e.2.world.sinks[0]?.map (·.events)))
        = some (none, some "no line feeds", some [.wrote (encode "hello"), .writeRefused]) := by
      decide +kernel
    rw [run] at seen
    obtain ⟨failed, told⟩ := Prod.mk.inj (Option.some.inj seen)
    obtain ⟨reason, events⟩ := Prod.mk.inj told
    cases reported with
    | written => cases failed
    | refused =>
      have kind := wordSession.context.error_kind .commandFailed "unable to write to output"
      exact ⟨_, v, run, kind, Option.some.inj reason, events⟩
  · obtain ⟨r, v, run, -, -, took⟩ := exports (openDevice (.memory "report" fun _ _ => none)) _
      csvText "write-csv-to report" "report" (opens_openDevice _) cuts (by decide)
      (ok_of_toOption path)
    have seen : (exportTo (openDevice (.memory "report" fun _ _ => none))
        (fun bytes => bytes.map (fun b => .write [b]) ++ [.flush]) csvText "write-csv-to report"
        wordSession).map (fun e => e.1.toOption) = some (some "") := by decide +kernel
    rw [run] at seen
    obtain rfl : r = .ok "" := ok_of_toOption (Option.some.inj seen)
    obtain ⟨-, device, after, flush, left, took⟩ := took "" rfl
    exact ⟨v, device, after, flush, run, left, took⟩

end Run

end LogConsole
