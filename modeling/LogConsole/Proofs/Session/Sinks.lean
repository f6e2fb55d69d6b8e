import LogConsole.Proofs.Context.Calls
import LogConsole.Proofs.Session.Frames

/-!
# LogConsole.Proofs.Session.Sinks

Sinks that are opened are closed again, and a script leaves its caller as it was.

* `World.Closed w id`    — a sink that a frame is done with;
* `World.SameSinks w v`  — the sinks are the same but for what has happened to them since;
* `Session.Tidy s t`     — the invariant: what has been opened from `s` to `t`, or was the current
  output in `s`, is closed in `t` or the current output there;
* `Acts.tidy`            — whatever a line does keeps it;
* `Session.Confined s t` — the outputs of `t` are those of `s`, and what has been opened is closed;
* `Run.Enclosed x`       — `x` runs in a directory and an output of its own, as every script does;
* `script_leaves_caller_alone` — the result for the scripts that a name stands for.

A child process may go on writing to a sink that its frame has closed.
-/

namespace LogConsole

/-! ## Sinks -/

namespace World

def Closed (w : World) (id : Nat) : Prop :=
  ∃ sink, w.sinks[id]? = some sink ∧ SinkEvent.closed ∈ sink.events

structure SameSinks (w v : World) : Prop where
  count : v.sinks.length = w.sinks.length
  closed : ∀ id, w.Closed id → v.Closed id

namespace SameSinks

variable {w v u : World}

theorem of_eq (h : v.sinks = w.sinks) : SameSinks w v := by
  refine ⟨by rw [h], ?_⟩
  intro id hc
  rw [Closed, h]
  exact hc

theorem refl (w : World) : SameSinks w w := of_eq rfl

theorem trans (h : SameSinks w v) (k : SameSinks v u) : SameSinks w u :=
  ⟨k.count.trans h.count, fun id hc => k.closed id (h.closed id hc)⟩

/-- Something more happens to one sink. -/
theorem of_set {id : Nat} {sink : Sink} {device : Device} {more : List SinkEvent}
    (hs : w.sinks[id]? = some sink)
    (h : v.sinks = w.sinks.set id ⟨device, sink.events ++ more⟩) : SameSinks w v := by
  refine ⟨by rw [h, List.length_set], ?_⟩
  rintro other ⟨found, hf, hc⟩
  by_cases he : id = other
  · subst he
    rw [hs] at hf
    cases hf
    have hl : id < w.sinks.length := (List.getElem?_eq_some_iff.1 hs).1
    exact ⟨_, by rw [h, List.getElem?_set_self hl], List.mem_append_left _ hc⟩
  · exact ⟨found, by rw [h, List.getElem?_set_ne he, hf], hc⟩

end SameSinks

theorem call_same (w : World) (id : Nat) (call : SinkCall) : SameSinks w (w.call id call).2 := by
  cases there : w.sinks[id]? with
  | none =>
    rw [call_missing there]
    exact .refl w
  | some s =>
    have called := called there call
    generalize w.call id call = result at called
    cases called with
    | refused why sinks => exact .of_set there sinks
    | accepted free sinks => exact .of_set there sinks

theorem writeSink_same (w : World) (id : Nat) (bytes : List UInt8) :
    SameSinks w (w.writeSink id bytes).2 := call_same w id (.write bytes)

theorem flushSink_same (w : World) (id : Nat) : SameSinks w (w.flushSink id).2 :=
  call_same w id .flush

theorem closeSink_same (w : World) (id : Nat) : SameSinks w (w.closeSink id) := by
  refine (flushSink_same w id).trans ?_
  unfold closeSink
  dsimp only
  split
  · exact .refl _
  · rename_i sink hs; exact .of_set hs rfl

theorem closeSink_closed {w : World} {id : Nat} (h : id < w.sinks.length) :
    (w.closeSink id).Closed id := by
  have hl : id < (w.flushSink id).2.sinks.length := by rw [(flushSink_same w id).count]; exact h
  unfold closeSink
  simp only [List.getElem?_eq_getElem hl]
  exact ⟨_, List.getElem?_set_self hl, by simp⟩

end World

namespace Console

open World (SameSinks)

theorem writePieces_same (pieces : List (List UInt8)) (sink : Nat) :
    ∀ w : World, SameSinks w (writePieces w sink pieces).2 := by
  induction pieces with
  | nil => intro w; exact .refl w
  | cons piece rest ih =>
    intro w
    have first := World.writeSink_same w sink piece
    simp only [writePieces]
    split <;> rename_i hw <;> rw [hw] at first
    · exact first.trans (ih _)
    · exact first

theorem writeFlushed_same (w : World) (sink : Nat) (pieces : List (List UInt8)) :
    SameSinks w (writeFlushed w sink pieces).2 := by
  have written := writePieces_same pieces sink w
  unfold writeFlushed
  split <;> rename_i hw <;> rw [hw] at written
  · exact written.trans (World.flushSink_same _ _)
  · exact written

theorem writeOutput_same (k : Console) (text : String) (newline : Bool) :
    SameSinks k.world (k.writeOutput text newline).2.world := by
  unfold writeOutput
  split
  · exact .refl _
  · rename_i id _
    have written := writeFlushed_same k.world id (outputPieces text newline)
    split <;> rename_i hw <;> rw [hw] at written <;> exact written

theorem closeTop_same (k : Console) : SameSinks k.world k.closeTop.world := by
  unfold closeTop
  split
  · exact World.closeSink_same _ _
  · exact .refl _

theorem closeTop_closed {k : Console} {id : Nat} (hs : k.sink? = some id)
    (h : id < k.world.sinks.length) : k.closeTop.world.Closed id := by
  unfold closeTop
  rw [hs]
  exact World.closeSink_closed h

end Console

/-! ## Acts -/

namespace Session

open World (SameSinks)

structure Tidy (s t : Session) : Prop where
  count : s.world.sinks.length ≤ t.world.sinks.length
  closed : ∀ id, s.world.Closed id → t.world.Closed id
  opened : ∀ id, id < t.world.sinks.length →
    s.world.sinks.length ≤ id ∨ s.console.sink? = some id →
    t.world.Closed id ∨ t.console.sink? = some id

namespace Tidy

variable {s t u : Session}

/-- No sink is opened, and the current output is the same. -/
theorem of_same (h : SameSinks s.world t.world) (hs : t.console.sink? = s.console.sink?) :
    Tidy s t := by
  refine ⟨Nat.le_of_eq h.count.symm, h.closed, ?_⟩
  rintro id hl (hnew | htop)
  · rw [h.count] at hl
    omega
  · exact .inr (hs.trans htop)

theorem refl (s : Session) : Tidy s s := of_same (.refl _) rfl

theorem trans (h : Tidy s t) (k : Tidy t u) : Tidy s u := by
  refine ⟨Nat.le_trans h.count k.count, fun id hc => k.closed id (h.closed id hc), ?_⟩
  intro id hl hs
  -- a sink that was there in between is settled by the first part, a later one by the second
  by_cases ht : id < t.world.sinks.length
  · rcases h.opened id ht hs with hc | htop
    · exact .inl (k.closed id hc)
    · exact k.opened id hl (.inr htop)
  · exact k.opened id hl (.inl (Nat.le_of_not_lt ht))

end Tidy

variable {s t : Session}

/-- A target that is opened is a new sink. -/
theorem openTarget_sinks {path : String} {sink : Nat}
    (h : Run.openTarget path s = some (.ok sink, t)) :
    sink = s.world.sinks.length ∧ (∃ device, t.world.sinks = s.world.sinks ++ [⟨device, []⟩]) ∧
      t.context = s.context := by
  unfold Run.openTarget at h
  split at h
  · cases h; exact ⟨rfl, ⟨_, rfl⟩, rfl⟩
  · split at h
    · cases h
    · rename_i disk node _
      cases h
      cases node <;> exact ⟨rfl, ⟨_, rfl⟩, rfl⟩

/-- A target is opened in `t`, and by `u` it is closed or the current output; so is the output that
was current before. -/
theorem Tidy.of_opened {u : Session} {path : String} {sink : Nat}
    (h : Run.openTarget path s = some (.ok sink, t)) (same : SameSinks t.world u.world)
    (new : sink < t.world.sinks.length → u.world.Closed sink ∨ u.console.sink? = some sink)
    (top : ∀ id, id < t.world.sinks.length → t.console.sink? = some id →
      u.world.Closed id ∨ u.console.sink? = some id) : Tidy s u := by
  obtain ⟨rfl, ⟨device, hs⟩, hc⟩ := openTarget_sinks h
  have count : t.world.sinks.length = s.world.sinks.length + 1 := by
    rw [hs, List.length_append, List.length_singleton]
  refine ⟨?_, ?_, ?_⟩
  · rw [same.count]
    omega
  · rintro id ⟨found, hf, he⟩
    have hl : id < s.world.sinks.length := (List.getElem?_eq_some_iff.1 hf).1
    exact same.closed id ⟨found, by rw [hs, List.getElem?_append_left hl, hf], he⟩
  · intro id hl hid
    rw [same.count] at hl
    rcases hid with hnew | htop
    · obtain rfl : id = s.world.sinks.length := by omega
      exact new hl
    · refine top id hl ?_
      rw [← htop]
      exact congrArg (fun c : Context => c.outputs.top.sink) hc

theorem redirect_tidy {path : String} {sink : Nat} (name : String)
    (h : Run.openTarget path s = some (.ok sink, t)) :
    Tidy s (t.changeConsole fun k => k.setOutput name sink) :=
  .of_opened h (Console.closeTop_same t.console) (fun _ => .inr rfl)
    fun _ hl htop => .inl (Console.closeTop_closed htop hl)

theorem export_tidy {path : String} {sink : Nat} (bytes : List UInt8)
    (h : Run.openTarget path s = some (.ok sink, t)) : Tidy s (t.exported sink bytes) := by
  have written := Console.writeFlushed_same t.world sink [bytes]
  refine .of_opened h (written.trans (World.closeSink_same _ _)) ?_ fun _ _ htop => .inr htop
  intro hl
  rw [← written.count] at hl
  exact .inl (World.closeSink_closed hl)

theorem showScreen_tidy (s : Session) : Tidy s (s.changeConsole Console.clearOutput) := by
  have same : SameSinks s.world (s.changeConsole Console.clearOutput).world :=
    Console.closeTop_same s.console
  refine ⟨Nat.le_of_eq same.count.symm, same.closed, ?_⟩
  intro id hl hid
  rw [same.count] at hl
  rcases hid with hnew | htop
  · omega
  · exact .inl (Console.closeTop_closed htop hl)

theorem search_sinks (h : Host) (w : World) (pattern : String) :
    (h.search w pattern).2.sinks = w.sinks := by
  unfold Host.search
  dsimp only
  split
  · unfold Host.printHits
    split <;> rfl
  · rfl

theorem setLocals_outputs (vars : List (String × String)) (c : Context) :
    (Query.setLocals vars c).outputs = c.outputs := by
  rw [Query.setLocals_eq]

theorem shell_tidy {text : String} {bytes : List UInt8}
    (h : Run.startShell text s = some (.ok bytes, t)) : Tidy s (t.captured text bytes) := by
  have started : Tidy s t := by
    unfold Run.startShell at h
    split at h <;> cases h
    exact .of_same (.of_eq rfl) rfl
  refine started.trans ?_
  unfold captured pipe
  split
  · rename_i hp
    split at hp <;> cases hp <;> exact .of_same (.of_eq rfl) rfl

theorem Act.tidy (h : Act s t) : Tidy s t := by
  cases h with
  | clearResults => exact .of_same (.refl _) rfl
  | collectRows => exact .of_same (.refl _) rfl
  | storeFirstRow =>
    refine .of_same (.refl _) ?_
    exact congrArg (fun o : Stack OutputFrame => o.top.sink) (setLocals_outputs _ _)
  | search pattern => exact .of_same (.of_eq (search_sinks _ _ _)) rfl
  | print text newline =>
    refine .of_same (Console.writeOutput_same _ _ _) ?_
    simp only [Console.sink?, Console.writeOutput_context]
  | showScreen => exact showScreen_tidy s
  | redirect wet opened => exact redirect_tidy _ opened
  | «export» bytes wet opened => exact export_tidy bytes opened
  | shell wet started => exact shell_tidy started
  | resolve => exact .of_same (.refl _) rfl
  | takeInput => exact .of_same (.of_eq rfl) rfl
  | leaveInput => exact .of_same (.of_eq rfl) rfl
  | refresh => exact .of_same (.refl _) rfl

/-- Leaving a frame for an output closes what is current then, and brings back what was. -/
theorem Tidy.leave_output {name : String} {sink : Option Nat}
    (inside : Acts (s.changeConsole (Frame.output name sink).enter) t)
    (h : Tidy (s.changeConsole (Frame.output name sink).enter) t) :
    let u := t.changeConsole ((Frame.output name sink).leave s.context)
    Tidy s u ∧ u.context.outputs = s.context.outputs ∧
      ∀ id, s.world.sinks.length ≤ id → id < u.world.sinks.length → u.world.Closed id := by
  intro u
  have same : SameSinks t.world u.world := Console.closeTop_same t.console
  have outputs : u.context.outputs = s.context.outputs := by
    have kept := inside.kept.trans (Console.clearOutput_kept t.console)
    exact Stack.pop_of_below kept.outputs
  have opened : ∀ id, s.world.sinks.length ≤ id → id < u.world.sinks.length →
      u.world.Closed id := by
    intro id hnew hl
    rw [same.count] at hl
    rcases h.opened id hl (.inl hnew) with hc | htop
    · exact same.closed id hc
    · exact Console.closeTop_closed htop hl
  refine ⟨⟨?_, fun id hc => same.closed id (h.closed id hc), ?_⟩, outputs, opened⟩
  · rw [same.count]
    exact h.count
  · rintro id hl (hnew | htop)
    · exact .inl (opened id hnew hl)
    · right
      rw [← htop]
      exact congrArg (fun o : Stack OutputFrame => o.top.sink) outputs

theorem Acts.tidy (h : Acts s t) : Tidy s t := by
  induction h with
  | refl => exact .refl _
  | act h => exact h.tidy
  | trans _ _ ih₁ ih₂ => exact ih₁.trans ih₂
  | within f h ih =>
    cases f with
    | output name sink => exact (Tidy.leave_output h ih).1
    -- the other frames leave the world and the outputs alone
    | source _ => exact ⟨ih.count, ih.closed, ih.opened⟩
    | scope _ => exact ⟨ih.count, ih.closed, ih.opened⟩
    | directory _ => exact ⟨ih.count, ih.closed, ih.opened⟩
    | help _ => exact ⟨ih.count, ih.closed, ih.opened⟩

/-! ## Scripts -/

structure Confined (s t : Session) : Prop where
  outputs : t.context.outputs = s.context.outputs
  count : s.world.sinks.length ≤ t.world.sinks.length
  closed : ∀ id, s.world.Closed id → t.world.Closed id
  opened : ∀ id, s.world.sinks.length ≤ id → id < t.world.sinks.length → t.world.Closed id

namespace Confined

variable {s t u : Session}

theorem of_same (ho : t.context.outputs = s.context.outputs) (h : SameSinks s.world t.world) :
    Confined s t := by
  refine ⟨ho, Nat.le_of_eq h.count.symm, h.closed, ?_⟩
  intro id hnew hl
  rw [h.count] at hl
  omega

theorem refl (s : Session) : Confined s s := of_same rfl (.refl _)

theorem trans (h : Confined s t) (k : Confined t u) : Confined s u := by
  refine ⟨k.outputs.trans h.outputs, Nat.le_trans h.count k.count,
    fun id hc => k.closed id (h.closed id hc), ?_⟩
  intro id hnew hl
  by_cases ht : id < t.world.sinks.length
  · exact k.closed id (h.opened id hnew ht)
  · exact k.opened id (Nat.le_of_not_lt ht) hl

end Confined

end Session

namespace Run

open Session

variable {α β : Type} {s : Session}

def Confines (x : Run α) (s : Session) : Prop := Ends Confined x s

theorem Confines.bind {x : Run α} {f : α → Run β} (hx : Confines x s)
    (hf : ∀ a t, Confines (f a) t) : Confines (x >>= f) s :=
  Ends.bind .trans hx fun a t _ => hf a t

theorem confines_still {x : Run α} (h : ∀ r t, x s = some (r, t) → t = s) : Confines x s :=
  Ends.still .refl h

theorem confines_get_bind {f : Session → α} {k : α → Run β} (h : Confines (k (f s)) s) :
    Confines (Run.get f >>= k) s := h

theorem Enclosed.confines {x : Run α} (h : Enclosed x) : Confines x s := by
  obtain ⟨dir, y, rfl, hy⟩ := h
  intro r t ht
  obtain ⟨u, hu, rfl⟩ := within_ended ht
  obtain ⟨v, hv, rfl⟩ := within_ended hu
  have inside := hy _ r v hv
  obtain ⟨tidy, outputs, opened⟩ := Tidy.leave_output inside inside.tidy
  exact ⟨outputs, tidy.count, tidy.closed, opened⟩

theorem resolveScript_confines (name : String) : Confines (resolveScript name) s := by
  intro r t h
  unfold resolveScript at h
  split at h <;> cases h <;> exact .of_same rfl (.refl _)

section Again

variable {again : Mode → String → Run Output}
  (ih : ∀ mode payload t, ByActs (again mode payload) t)

include ih

theorem executeCandidate_confines (multiline : Bool) (c : Candidate) :
    Confines (executeCandidate again multiline c) s := by
  unfold executeCandidate
  split
  · exact (enclosed_executeStdin ih multiline).confines
  · refine confines_get_bind ?_
    split
    · exact confines_still fun _ _ h => by cases h; rfl
    · exact Enclosed.confines ⟨_, _, rfl, fun _ => byActs_failFor _ _ _⟩
    · exact (enclosed_executeScript ih _ _ _ _).confines

theorem executeAll_confines (multiline : Bool) (found : List Candidate) :
    ∀ (answer : String) (s : Session), Confines (executeAll again multiline answer found) s := by
  induction found with
  | nil => intro answer s; exact confines_still fun _ _ h => by cases h; rfl
  | cons c rest ihc =>
    intro answer s
    exact (executeCandidate_confines ih multiline c).bind fun a t => ihc a t

/-- Scripts have a local scope of their own, and it is gone afterwards. -/
theorem executeFile_confines {invocation : String} {multiline : Bool} {r : Except Message String}
    {t : Session} (h : executeFile again invocation multiline s = some (r, t)) :
    t.context.scopes = s.context.scopes ∧ Confined s t := by
  simp only [executeFile] at h
  split at h
  · cases h; exact ⟨rfl, .refl s⟩
  · cases h; exact ⟨rfl, .refl s⟩
  · rename_i name args _
    obtain ⟨u, hu, rfl⟩ := within_ended h
    have kept := ((byActs_resolveScript name).bind
      fun found t _ => byActs_executeAll ih multiline found "" t) r u hu |>.kept
    have scripts := ((resolveScript_confines name).bind
      fun found t => executeAll_confines ih multiline found "" t) r u hu
    exact ⟨Stack.pop_of_below kept.scopes,
      scripts.outputs, scripts.count, scripts.closed, scripts.opened⟩

end Again

end Run

namespace Session

/-- **A script cannot change its caller.** However many scripts a name stands for, whatever runs
inside of them, and whether or not they succeed: the local scopes of the caller are the same, down
to the values in the innermost one, and so are its outputs with their sinks. Every sink that has
been opened has been closed. -/
theorem script_leaves_caller_alone {fuel : Nat} {invocation : String} {multiline : Bool}
    {s t : Session} {r : Except Message String}
    (h : executeScriptFile fuel invocation multiline s = some (r, t)) :
    t.context.scopes = s.context.scopes ∧
    t.context.outputs = s.context.outputs ∧
    ∀ id, s.world.sinks.length ≤ id → id < t.world.sinks.length → t.world.Closed id := by
  obtain ⟨scopes, confined⟩ := Run.executeFile_confines (dispatchMode_byActs fuel) h
  exact ⟨scopes, confined.outputs, confined.opened⟩

set_option maxRecDepth 8000 in
/-- A script that redirects its output twice, called with an output of its caller's own. -/
theorem redirecting_script_leaves_caller_alone :
    let script := Text.Utf8.encode ":redirect-to o\n:redirect-to p"
    let disk : Disk := { nodes := [([], .dir), (["a"], .file 0)], contents := [script] }
    let context : Context :=
      { scopes := ⟨Dict.ofList [("x", "1")], []⟩, outputs := ⟨⟨"own", some 0⟩, []⟩ }
    let s : Session := { console := { context, world := { disk, sinks := [⟨.void, []⟩] } } }
    ∃ r t, executeScriptFile 2 "a" true s = some (r, t) ∧ t.world.sinks.length = 3 ∧
      t.context.scopes = s.context.scopes ∧ t.context.outputs = s.context.outputs ∧
      t.world.Closed 1 ∧ t.world.Closed 2 := by
  intro script disk context s
  have ran : (executeScriptFile 2 "a" true s).map (fun x => x.2.world.sinks.length) = some 3 := by
    decide +kernel
  obtain ⟨⟨r, t⟩, h, count⟩ := Option.map_eq_some_iff.1 ran
  have three : t.world.sinks.length = 3 := count
  obtain ⟨scopes, outputs, closed⟩ := script_leaves_caller_alone h
  refine ⟨r, t, h, three, scopes, outputs, closed 1 (by decide) ?_, closed 2 (by decide) ?_⟩
  · omega
  · omega

end Session

end LogConsole
