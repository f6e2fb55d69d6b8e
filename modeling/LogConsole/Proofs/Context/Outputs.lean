import LogConsole.Proofs.Context.Calls
import LogConsole.Proofs.Session.Frames

/-!
# LogConsole.Proofs.Context.Outputs

Outputs inside of outputs, and what becomes of their sinks.

* `World.Adds w v id more` — from `w` to `v`, `more` has happened to one sink and nothing to others;
* `OutputStep`   — an output is entered or left, replaced, put back to the screen, or written to;
* `OutputTree`   — steps in which every output that is entered is left again, as guards do it;
* `Console.after` — where steps lead;
* `OwnSinks`     — the sinks of the outputs and those that the steps bring are all different, and
  none has been closed;
* `apply_adds`, `OwnSinks.apply` — what one step does to the sinks, and that it keeps them apart;
* `frame_stays`  — an output stays where it is until a step ends it;
* `ClosesOnce`   — a sink is closed once, by the first step that ends its output;
* `sinks_close_once` — the result for all trees of steps.
-/

namespace LogConsole

/-! ## One sink -/

namespace World

/-- What has happened to a sink. -/
def eventsOf (w : World) (id : Nat) : List SinkEvent := (w.sinks[id]?.map (·.events)).getD []

theorem eventsOf_congr {w v : World} {id : Nat} (h : w.sinks[id]? = v.sinks[id]?) :
    w.eventsOf id = v.eventsOf id := by
  rw [eventsOf, eventsOf, h]

structure Adds (w v : World) (id : Nat) (more : List SinkEvent) : Prop where
  others : ∀ other, other ≠ id → v.sinks[other]? = w.sinks[other]?
  same : ∀ s, w.sinks[id]? = some s → ∃ device, v.sinks[id]? = some ⟨device, s.events ++ more⟩

/-- A sink is flushed, whether or not it refuses, and that is the last that happens to it. -/
inductive Closes (w v : World) (id : Nat) : Prop where
  | intro {s : Sink} {device : Device} {flush : SinkEvent} (there : w.sinks[id]? = some s)
      (flushes : flush = .flushed ∨ flush = .flushRefused)
      (closed : v.sinks[id]? = some ⟨device, s.events ++ [flush, .closed]⟩)

variable {w v u : World} {id : Nat}

namespace Adds

theorem trans {first more : List SinkEvent} (h : Adds w v id first) (k : Adds v u id more) :
    Adds w u id (first ++ more) := by
  refine ⟨fun other ho => (k.others other ho).trans (h.others other ho), ?_⟩
  intro s hs
  obtain ⟨device, hv⟩ := h.same s hs
  obtain ⟨device', hu⟩ := k.same _ hv
  exact ⟨device', by rw [hu, List.append_assoc]⟩

theorem refl (w : World) (id : Nat) : Adds w w id [] :=
  ⟨fun _ _ => rfl, fun s hs => ⟨s.device, by rw [hs, List.append_nil]⟩⟩

theorem of_missing (h : w.sinks[id]? = none) (more : List SinkEvent) : Adds w w id more :=
  ⟨fun _ _ => rfl, fun s hs => by rw [h] at hs; cases hs⟩

theorem of_set {s : Sink} {device : Device} {more : List SinkEvent} (hs : w.sinks[id]? = some s)
    (h : v.sinks = w.sinks.set id ⟨device, s.events ++ more⟩) : Adds w v id more := by
  have hl : id < w.sinks.length := (List.getElem?_eq_some_iff.1 hs).1
  refine ⟨fun other ho => by rw [h, List.getElem?_set_ne (Ne.symm ho)], ?_⟩
  intro found hf
  rw [hs] at hf
  cases hf
  exact ⟨device, by rw [h, List.getElem?_set_self hl]⟩

end Adds

theorem call_adds (w : World) (id : Nat) (call : SinkCall) :
    ∃ e, (e = call.accepted ∨ e = call.refused) ∧ Adds w (w.call id call).2 id [e] := by
  cases there : w.sinks[id]? with
  | none =>
    rw [call_missing there]
    exact ⟨_, .inl rfl, .of_missing there _⟩
  | some s =>
    have called := called there call
    generalize w.call id call = result at called
    cases called with
    | refused why sinks => exact ⟨_, .inr rfl, .of_set there sinks⟩
    | accepted free sinks => exact ⟨_, .inl rfl, .of_set there sinks⟩

theorem writeSink_adds (w : World) (id : Nat) (bytes : List UInt8) :
    ∃ e, e ≠ .closed ∧ Adds w (w.writeSink id bytes).2 id [e] := by
  obtain ⟨e, noted, adds⟩ := call_adds w id (.write bytes)
  refine ⟨e, ?_, adds⟩
  rcases noted with rfl | rfl <;> simp [SinkCall.accepted, SinkCall.refused]

theorem flushSink_adds (w : World) (id : Nat) :
    ∃ e, (e = .flushed ∨ e = .flushRefused) ∧ Adds w (w.flushSink id).2 id [e] :=
  call_adds w id .flush

theorem closeSink_adds (w : World) (id : Nat) :
    ∃ flush, (flush = .flushed ∨ flush = .flushRefused) ∧
      Adds w (w.closeSink id) id [flush, .closed] := by
  obtain ⟨flush, hf, flushed⟩ := flushSink_adds w id
  have closed : Adds (w.flushSink id).2 (w.closeSink id) id [.closed] := by
    unfold closeSink
    dsimp only
    split
    · rename_i missing; exact .of_missing missing _
    · rename_i sink hs; exact .of_set hs rfl
  exact ⟨flush, hf, flushed.trans closed⟩

theorem closeSink_closes (there : (w.sinks[id]?).isSome) : Closes w (w.closeSink id) id := by
  obtain ⟨s, hs⟩ := Option.isSome_iff_exists.1 there
  obtain ⟨flush, hf, adds⟩ := closeSink_adds w id
  obtain ⟨device, closed⟩ := adds.same s hs
  exact .intro hs hf closed

theorem Closes.eventsOf (h : Closes w v id) :
    ∃ flush, flush ≠ .closed ∧ v.eventsOf id = w.eventsOf id ++ [flush, .closed] := by
  obtain ⟨there, flushes, closed⟩ := h
  rename_i s device flush
  refine ⟨flush, by rcases flushes with rfl | rfl <;> simp, ?_⟩
  simp [World.eventsOf, there, closed]

end World

/-! ## Steps -/

inductive OutputStep where
  | enter (name : String) (sink : Option Nat)
  | set (name : String) (sink : Nat)
  | clear
  | write (text : String) (newline : Bool)
  | leave
  deriving DecidableEq, Repr

inductive OutputTree where
  | done
  | set (name : String) (sink : Nat) (rest : OutputTree)
  | clear (rest : OutputTree)
  | write (text : String) (newline : Bool) (rest : OutputTree)
  | within (name : String) (sink : Option Nat) (inner rest : OutputTree)

/-- The steps of a tree in the order in which they are made. -/
def OutputTree.steps : OutputTree → List OutputStep
  | .done => []
  | .set name sink rest => .set name sink :: rest.steps
  | .clear rest => .clear :: rest.steps
  | .write text newline rest => .write text newline :: rest.steps
  | .within name sink inner rest => .enter name sink :: inner.steps ++ .leave :: rest.steps

namespace OutputStep

/-- The sink that a step brings. -/
def sink? : OutputStep → Option Nat
  | .enter _ sink => sink
  | .set _ sink => some sink
  | _ => none

/-- Whether a step ends the current output, by another one or by leaving it. -/
def ends : OutputStep → Bool
  | .set _ _ => true
  | .clear => true
  | .leave => true
  | _ => false

def apply (k : Console) : OutputStep → Console
  | .enter name sink => k.enterOutput name sink
  | .set name sink => k.setOutput name sink
  | .clear => k.clearOutput
  | .write text newline => (k.writeOutput text newline).2
  | .leave => k.leaveOutput

end OutputStep

namespace Console

def after (k : Console) (steps : List OutputStep) : Console := steps.foldl OutputStep.apply k

@[simp] theorem after_nil (k : Console) : k.after [] = k := rfl

@[simp] theorem after_cons (k : Console) (step : OutputStep) (rest : List OutputStep) :
    k.after (step :: rest) = (step.apply k).after rest := rfl

@[simp] theorem after_append (k : Console) (first rest : List OutputStep) :
    k.after (first ++ rest) = (k.after first).after rest := List.foldl_append

/-- The sinks of all outputs, innermost first. -/
def sinks (k : Console) : List Nat := k.context.outputs.toList.filterMap (·.sink)

def outputDepth (k : Console) : Nat := k.context.outputs.depth

variable {k : Console} {id : Nat}

/-! ## What one step does -/

theorem setOutput_outputs (k : Console) (name : String) (sink : Nat) :
    (k.setOutput name sink).context.outputs = k.context.outputs.setTop ⟨name, some sink⟩ := by
  simp only [setOutput, setTopOutput, closeTop_context]

theorem clearOutput_outputs (k : Console) :
    k.clearOutput.context.outputs = k.context.outputs.setTop ⟨"default", none⟩ := by
  simp only [clearOutput, setTopOutput, closeTop_context]

theorem closeTop_closes (top : k.sink? = some id) (there : (k.world.sinks[id]?).isSome) :
    World.Closes k.world k.closeTop.world id := by
  unfold closeTop
  rw [top]
  exact World.closeSink_closes there

theorem closeTop_untouched (other : k.sink? ≠ some id) :
    k.closeTop.world.sinks[id]? = k.world.sinks[id]? := by
  unfold closeTop
  split
  · rename_i top hs
    obtain ⟨_, -, adds⟩ := World.closeSink_adds k.world top
    exact adds.others id fun h => other (h ▸ hs)
  · rfl

theorem writePieces_adds (pieces : List (List UInt8)) (sink : Nat) :
    ∀ w : World, ∃ more, .closed ∉ more ∧ World.Adds w (writePieces w sink pieces).2 sink more := by
  induction pieces with
  | nil => intro w; exact ⟨[], by simp, .refl w sink⟩
  | cons piece rest ih =>
    intro w
    obtain ⟨e, he, first⟩ := World.writeSink_adds w sink piece
    simp only [writePieces]
    split <;> rename_i hw <;> rw [hw] at first
    · obtain ⟨more, hm, adds⟩ := ih _
      exact ⟨e :: more, by simp [hm, he.symm], first.trans adds⟩
    · exact ⟨[e], by simpa using he.symm, first⟩

theorem writeFlushed_adds (w : World) (sink : Nat) (pieces : List (List UInt8)) :
    ∃ more, .closed ∉ more ∧ World.Adds w (writeFlushed w sink pieces).2 sink more := by
  obtain ⟨more, hm, written⟩ := writePieces_adds pieces sink w
  unfold writeFlushed
  split <;> rename_i hw <;> rw [hw] at written
  · obtain ⟨flush, hf, flushed⟩ := World.flushSink_adds _ sink
    refine ⟨more ++ [flush], ?_, written.trans flushed⟩
    rcases hf with rfl | rfl <;> simpa using hm
  · exact ⟨more, hm, written⟩

theorem writeOutput_adds (text : String) (newline : Bool) (top : k.sink? = some id) :
    ∃ more, .closed ∉ more ∧
      World.Adds k.world (k.writeOutput text newline).2.world id more := by
  obtain ⟨more, hm, adds⟩ := writeFlushed_adds k.world id (outputPieces text newline)
  refine ⟨more, hm, ?_⟩
  unfold writeOutput
  rw [top]
  dsimp only
  split <;> rename_i hw <;> rw [hw] at adds <;> exact adds

theorem writeOutput_untouched (text : String) (newline : Bool) (other : k.sink? ≠ some id) :
    (k.writeOutput text newline).2.world.sinks[id]? = k.world.sinks[id]? := by
  cases hs : k.sink? with
  | none => simp only [writeOutput, hs]
  | some top =>
    obtain ⟨_, -, adds⟩ := writeOutput_adds text newline hs
    exact adds.others id fun h => other (h ▸ hs)

end Console

namespace OutputStep

variable {k : Console} {id : Nat} {step : OutputStep}

/-- A step does nothing to a sink that is not that of the current output. -/
theorem apply_untouched (step : OutputStep) (other : k.sink? ≠ some id) :
    (step.apply k).world.sinks[id]? = k.world.sinks[id]? := by
  cases step with
  | enter name sink => rfl
  | set name sink => exact Console.closeTop_untouched other
  | clear => exact Console.closeTop_untouched other
  | write text newline => exact Console.writeOutput_untouched text newline other
  | leave => exact Console.closeTop_untouched other

/-- A step that ends the current output closes its sink. -/
theorem apply_closes (ends : step.ends = true) (top : k.sink? = some id)
    (there : (k.world.sinks[id]?).isSome) : World.Closes k.world (step.apply k).world id := by
  cases step with
  | enter name sink => cases ends
  | set name sink => exact Console.closeTop_closes top there
  | clear => exact Console.closeTop_closes top there
  | write text newline => cases ends
  | leave => exact Console.closeTop_closes top there

/-- A step that does not end the current output does not close its sink. -/
theorem apply_adds (ends : step.ends = false) (top : k.sink? = some id) :
    ∃ more, .closed ∉ more ∧ World.Adds k.world (step.apply k).world id more := by
  cases step with
  | enter name sink => exact ⟨[], by simp, .refl _ _⟩
  | set name sink => cases ends
  | clear => cases ends
  | write text newline => exact Console.writeOutput_adds text newline top
  | leave => cases ends

end OutputStep

/-! ## Sinks apart -/

/-- A sink that is there and has not been closed. -/
def World.Open (w : World) (id : Nat) : Prop :=
  ∃ s, w.sinks[id]? = some s ∧ SinkEvent.closed ∉ s.events

structure OwnSinks (k : Console) (steps : List OutputStep) : Prop where
  distinct : (k.sinks ++ steps.filterMap (·.sink?)).Nodup
  unclosed : ∀ id ∈ k.sinks ++ steps.filterMap (·.sink?), k.world.Open id

namespace Console

/-- The sinks of the outputs around the current one. -/
def sinksBelow (k : Console) : List Nat := k.context.outputs.below.filterMap (·.sink)

theorem sinks_eq (k : Console) : k.sinks = k.sink?.toList ++ k.sinksBelow := by
  simp only [sinks, Stack.toList, sink?, sinksBelow, List.filterMap_cons]
  cases k.context.outputs.top.sink <;> rfl

end Console

namespace OutputStep

variable {k : Console} {id : Nat} {step : OutputStep}

/-- A step that ends the current output takes its sink away. -/
theorem sinks_of_ends (ends : step.ends = true) (rest : List OutputStep) :
    ((step.apply k).sinks ++ rest.filterMap (·.sink?)).Perm
      (k.sinksBelow ++ (step :: rest).filterMap (·.sink?)) := by
  cases step with
  | enter name sink => cases ends
  | set name sink =>
    have sinks : (apply k (.set name sink)).sinks = sink :: k.sinksBelow := by
      simp only [apply, Console.sinks, Console.setOutput_outputs]
      rfl
    rw [sinks]
    exact List.perm_middle.symm
  | clear =>
    have sinks : (apply k .clear).sinks = k.sinksBelow := by
      simp only [apply, Console.sinks, Console.clearOutput_outputs]
      rfl
    rw [sinks]
    exact .refl _
  | write text newline => cases ends
  | leave =>
    have sinks : (apply k .leave).sinks = k.sinksBelow := by
      simp only [apply, Console.sinks, Console.leaveOutput, Console.clearOutput_outputs,
        Console.sinksBelow, Stack.setTop, Stack.pop]
      cases k.context.outputs.below <;> rfl
    rw [sinks]
    exact .refl _

theorem sinks_of_not_ends (ends : step.ends = false) (rest : List OutputStep) :
    ((step.apply k).sinks ++ rest.filterMap (·.sink?)).Perm
      (k.sinks ++ (step :: rest).filterMap (·.sink?)) := by
  cases step with
  | enter name sink =>
    cases sink with
    | none => exact .refl _
    | some id => exact List.perm_middle.symm
  | set name sink => cases ends
  | clear => cases ends
  | write text newline =>
    have sinks : (apply k (.write text newline)).sinks = k.sinks := by
      simp only [apply, Console.sinks, Console.writeOutput_context]
    rw [sinks]
    exact .refl _
  | leave => cases ends

end OutputStep

namespace OwnSinks

variable {k : Console} {id : Nat} {step : OutputStep} {rest : List OutputStep}

/-- The current output has a sink that no other output has, and that no later step brings. -/
theorem top_not_mem (own : OwnSinks k (step :: rest)) (top : k.sink? = some id) :
    id ∉ k.sinksBelow ++ (step :: rest).filterMap (·.sink?) := by
  have distinct := own.distinct
  rw [Console.sinks_eq, top, List.append_assoc] at distinct
  exact (List.nodup_cons.1 distinct).1

theorem gone (own : OwnSinks k (step :: rest)) (ends : step.ends = true)
    (top : k.sink? = some id) : id ∉ (step.apply k).sinks ++ rest.filterMap (·.sink?) := by
  rw [(step.sinks_of_ends ends rest).mem_iff]
  exact own.top_not_mem top

theorem apply (own : OwnSinks k (step :: rest)) : OwnSinks (step.apply k) rest := by
  cases ends : step.ends with
  | true =>
    have perm := step.sinks_of_ends (k := k) ends rest
    have sub : (k.sinksBelow ++ (step :: rest).filterMap (·.sink?)).Sublist
        (k.sinks ++ (step :: rest).filterMap (·.sink?)) := by
      rw [k.sinks_eq, List.append_assoc]
      exact List.sublist_append_right _ _
    refine ⟨perm.nodup_iff.2 (own.distinct.sublist sub), fun id hid => ?_⟩
    have other : k.sink? ≠ some id := fun top => own.gone ends top hid
    rw [World.Open, step.apply_untouched other]
    exact own.unclosed id (sub.subset (perm.mem_iff.1 hid))
  | false =>
    have perm := step.sinks_of_not_ends (k := k) ends rest
    refine ⟨perm.nodup_iff.2 own.distinct, fun id hid => ?_⟩
    obtain ⟨s, hs, hc⟩ := own.unclosed id (perm.mem_iff.1 hid)
    by_cases top : k.sink? = some id
    · obtain ⟨more, hm, adds⟩ := OutputStep.apply_adds ends top
      obtain ⟨device, after⟩ := adds.same s hs
      exact ⟨_, after, by simp [hc, hm]⟩
    · exact ⟨s, by rw [step.apply_untouched top, hs], hc⟩

theorem after {before : List OutputStep} (own : OwnSinks k (before ++ rest)) :
    OwnSinks (k.after before) rest := by
  induction before generalizing k with
  | nil => exact own
  | cons step before ih => exact ih own.apply

end OwnSinks

/-! ## An output and the step that ends it -/

namespace Console

variable {k : Console} {id : Nat} {step : OutputStep} {frame : OutputFrame}
  {above under : List OutputFrame}

/-- An output stays where it is, but for a step that ends it. -/
theorem frame_stays (there : k.context.outputs.toList = above ++ frame :: under)
    (stays : above = [] → step.ends = false) :
    ∃ above', (step.apply k).context.outputs.toList = above' ++ frame :: under := by
  have below (ends : step.ends = true) :
      ∃ above', k.context.outputs.below = above' ++ frame :: under := by
    cases above with
    | nil => rw [stays rfl] at ends; cases ends
    | cons top above => exact ⟨above, (List.cons.inj there).2⟩
  cases step with
  | enter name sink =>
    refine ⟨⟨name, sink⟩ :: above, ?_⟩
    rw [List.cons_append, ← there]
    rfl
  | set name sink =>
    obtain ⟨above', hb⟩ := below rfl
    refine ⟨⟨name, some sink⟩ :: above', ?_⟩
    simp only [OutputStep.apply, setOutput_outputs, Stack.toList, Stack.setTop, hb,
      List.cons_append]
  | clear =>
    obtain ⟨above', hb⟩ := below rfl
    refine ⟨⟨"default", none⟩ :: above', ?_⟩
    simp only [OutputStep.apply, clearOutput_outputs, Stack.toList, Stack.setTop, hb,
      List.cons_append]
  | write text newline =>
    refine ⟨above, ?_⟩
    simp only [OutputStep.apply, writeOutput_context, there]
  | leave =>
    obtain ⟨above', hb⟩ := below rfl
    refine ⟨above', ?_⟩
    simp only [OutputStep.apply, leaveOutput, clearOutput_outputs, Stack.toList, Stack.setTop,
      Stack.pop, hb]
    cases above' <;> rfl

theorem outputDepth_of_frame (there : k.context.outputs.toList = above ++ frame :: under) :
    k.outputDepth = above.length + under.length + 1 := by
  have length : k.context.outputs.toList.length = k.outputDepth := rfl
  rw [← length, there, List.length_append, List.length_cons, Nat.add_assoc]

/-- An output that is not there in the end has been ended by some step. The induction is on the
steps that are left. -/
theorem exists_ending {later : List OutputStep}
    (there : k.context.outputs.toList = above ++ frame :: under)
    (left : (k.after later).outputDepth ≤ under.length) :
    ∃ quiet ending rest, later = quiet ++ ending :: rest ∧ ending.ends = true ∧
      (k.after quiet).context.outputs.toList = frame :: under ∧
      (∀ before more, quiet = before ++ more →
        ∃ above', (k.after before).context.outputs.toList = above' ++ frame :: under) ∧
      ∀ before step more, quiet = before ++ step :: more → step.ends = true →
        under.length + 1 < (k.after before).outputDepth := by
  induction later generalizing k above with
  | nil =>
    rw [after_nil, outputDepth_of_frame there] at left
    omega
  | cons step rest ih =>
    by_cases last : above = [] ∧ step.ends = true
    · obtain ⟨rfl, ends⟩ := last
      refine ⟨[], step, rest, rfl, ends, there, ?_, fun before step' more h => by simp at h⟩
      intro before more h
      obtain ⟨rfl, -⟩ := List.append_eq_nil_iff.1 h.symm
      exact ⟨[], there⟩
    · have stays : above = [] → step.ends = false := by simpa using last
      obtain ⟨above', there'⟩ := frame_stays there stays
      obtain ⟨quiet, ending, rest', rfl, ends, own, within, earlier⟩ := ih there' left
      refine ⟨step :: quiet, ending, rest', rfl, ends, own, ?_, ?_⟩
      · intro before more h
        cases before with
        | nil => exact ⟨above, there⟩
        | cons first before =>
          obtain ⟨rfl, tail⟩ := List.cons.inj h
          exact within before more tail
      · intro before step' more h ends'
        cases before with
        | nil =>
          obtain ⟨rfl, -⟩ := List.cons.inj h
          have covered : above ≠ [] := fun ha => by rw [stays ha] at ends'; cases ends'
          have positive := List.length_pos_iff.2 covered
          rw [after_nil, outputDepth_of_frame there]
          omega
        | cons first before =>
          obtain ⟨rfl, tail⟩ := List.cons.inj h
          exact earlier before step' more tail ends'

/-- What is not among the outputs, and is not brought by a step, nothing happens to. -/
theorem after_untouched {steps : List OutputStep}
    (absent : id ∉ k.sinks ++ steps.filterMap (·.sink?)) :
    (k.after steps).world.sinks[id]? = k.world.sinks[id]? ∧ id ∉ (k.after steps).sinks := by
  induction steps generalizing k with
  | nil => simpa using absent
  | cons step rest ih =>
    have other : k.sink? ≠ some id := fun top => absent (by simp [sinks_eq, top])
    have absent' : id ∉ (step.apply k).sinks ++ rest.filterMap (·.sink?) := by
      cases ends : step.ends with
      | true =>
        rw [(step.sinks_of_ends ends rest).mem_iff]
        intro h
        refine absent ?_
        rw [sinks_eq, List.append_assoc]
        exact List.mem_append_right _ h
      | false => rwa [(step.sinks_of_not_ends ends rest).mem_iff]
    obtain ⟨same, gone⟩ := ih absent'
    exact ⟨same.trans (step.apply_untouched other), gone⟩

/-! ## Trees -/

/-- To leave an output brings back the one around it. -/
theorem leave_restores {inside : Console}
    (below : inside.context.outputs.below = k.context.outputs.toList) :
    inside.leaveOutput.context.outputs = k.context.outputs := by
  simp only [leaveOutput, clearOutput_outputs]
  exact Stack.pop_of_below below

/-- After the steps of a tree the outputs around the current one are as they were. -/
theorem after_tree_below (tree : OutputTree) :
    ∀ k : Console, (k.after tree.steps).context.outputs.below = k.context.outputs.below := by
  induction tree with
  | done => intro k; rfl
  | set name sink rest ih =>
    intro k
    refine (ih _).trans ?_
    simp only [OutputStep.apply, setOutput_outputs]
    rfl
  | clear rest ih =>
    intro k
    refine (ih _).trans ?_
    simp only [OutputStep.apply, clearOutput_outputs]
    rfl
  | write text newline rest ih =>
    intro k
    refine (ih _).trans ?_
    simp only [OutputStep.apply, writeOutput_context]
  | within name sink inner rest ihi ih =>
    intro k
    simp only [OutputTree.steps, List.cons_append, after_cons, after_append]
    have left : ((k.enterOutput name sink).after inner.steps).leaveOutput.context.outputs
        = k.context.outputs := leave_restores (ihi _)
    rw [ih]
    exact congrArg Stack.below left

theorem after_within (k : Console) (name : String) (sink : Option Nat) (inner : OutputTree) :
    (k.after (.enter name sink :: inner.steps ++ [.leave])).context.outputs
      = k.context.outputs := by
  rw [List.cons_append, after_cons, after_append]
  exact leave_restores (after_tree_below inner _)

theorem after_tree_depth (k : Console) (tree : OutputTree) :
    (k.after tree.steps).outputDepth = k.outputDepth := by
  rw [outputDepth, Stack.depth, after_tree_below]
  rfl

/-! ## The result -/

/-- The sink of the current output is closed by the first of the later steps that ends this output.
Until then it is open, and afterwards no output has it and nothing happens to it. -/
inductive ClosesOnce (k : Console) (later : List OutputStep) (id : Nat) : Prop where
  | intro {quiet rest : List OutputStep} {ending : OutputStep}
      (there : later = quiet ++ ending :: rest) (ends : ending.ends = true)
      (own : (k.after quiet).outputDepth = k.outputDepth)
      (first : ∀ before step more, quiet = before ++ step :: more → step.ends = true →
        k.outputDepth < (k.after before).outputDepth)
      (unclosed : ∀ before more, quiet = before ++ more → (k.after before).world.Open id)
      (closes : World.Closes (k.after quiet).world (ending.apply (k.after quiet)).world id)
      (gone : ∀ before more, rest = before ++ more →
        id ∉ (k.after (quiet ++ ending :: before)).sinks ∧
        (k.after (quiet ++ ending :: before)).world.sinks[id]?
          = (ending.apply (k.after quiet)).world.sinks[id]?)
      (once : ((k.after later).world.eventsOf id).count .closed = 1) : ClosesOnce k later id

theorem closesOnce {later : List OutputStep} (own : OwnSinks k later) (top : k.sink? = some id)
    (left : (k.after later).outputDepth < k.outputDepth) : ClosesOnce k later id := by
  have there : k.context.outputs.toList
      = [] ++ k.context.outputs.top :: k.context.outputs.below := rfl
  obtain ⟨quiet, ending, rest, rfl, ends, ended, within, earlier⟩ :=
    exists_ending there (Nat.le_of_lt_succ left)
  have last : (k.after quiet).sink? = some id := by
    rw [← top]
    exact congrArg (fun frame : OutputFrame => frame.sink) (List.cons.inj ended).1
  have unclosed (before more : List OutputStep) (h : quiet = before ++ more) :
      (k.after before).world.Open id := by
    subst h
    rw [List.append_assoc] at own
    obtain ⟨above, there⟩ := within before more rfl
    refine own.after.unclosed id (List.mem_append_left _ ?_)
    rw [sinks, there]
    have sink : k.context.outputs.top.sink = some id := top
    simp [sink]
  obtain ⟨s, hs, hc⟩ := unclosed quiet [] (List.append_nil _).symm
  have closes := ending.apply_closes ends last (by rw [hs]; rfl)
  have gone (before more : List OutputStep) (h : rest = before ++ more) :
      id ∉ (k.after (quiet ++ ending :: before)).sinks ∧
      (k.after (quiet ++ ending :: before)).world.sinks[id]?
        = (ending.apply (k.after quiet)).world.sinks[id]? := by
    subst h
    rw [after_append, after_cons]
    refine (after_untouched fun mem => own.after.gone ends last ?_).symm
    rw [List.filterMap_append, ← List.append_assoc]
    exact List.mem_append_left _ mem
  refine .intro rfl ends ?_ earlier unclosed closes gone ?_
  · have again : (k.after quiet).context.outputs.toList
        = [] ++ k.context.outputs.top :: k.context.outputs.below := ended
    rw [outputDepth_of_frame again, outputDepth_of_frame there]
  · obtain ⟨flush, hf, events⟩ := closes.eventsOf
    have before : (k.after quiet).world.eventsOf id = s.events := by simp [World.eventsOf, hs]
    rw [World.eventsOf_congr (gone rest [] (List.append_nil _).symm).2, events, before,
      List.count_append, List.count_eq_zero.2 hc]
    simp [hf]

/-- The sink that a step brings is that of the current output then. -/
theorem sink_of_brings {step : OutputStep} (brings : step.sink? = some id) :
    (step.apply k).sink? = some id := by
  cases step with
  | enter name sink => exact brings
  | set name sink =>
    simp only [OutputStep.apply, sink?, setOutput_outputs]
    exact brings
  | clear => cases brings
  | write text newline => cases brings
  | leave => cases brings

/-- **Outputs do not get in the way of each other.** Whatever steps are made, with outputs inside of
outputs to any depth, and whatever their sinks refuse: at each step nothing happens to a sink but
that of the current output, and so nothing to those of the outputs around it. A sink that comes with
an output inside of another one, or is put in place of its sink there, is closed exactly once: by
the first later step that puts another target in place of it or leaves that output. It is flushed
then, and closed even if it refuses that. After an output has been left the others are as they were,
by name and by sink. -/
theorem sinks_close_once {tree : OutputTree} (own : OwnSinks k tree.steps) :
    (∀ before step later, tree.steps = before ++ step :: later →
      (∀ id, (k.after before).sink? ≠ some id →
        (step.apply (k.after before)).world.sinks[id]? = (k.after before).world.sinks[id]?) ∧
      (∀ id ∈ (k.after before).sinksBelow,
        (step.apply (k.after before)).world.sinks[id]? = (k.after before).world.sinks[id]?) ∧
      (∀ id, step.sink? = some id →
        k.outputDepth < (step.apply (k.after before)).outputDepth →
        ClosesOnce (step.apply (k.after before)) later id)) ∧
    ∀ (l : Console) name sink (inner : OutputTree),
      (l.after (.enter name sink :: inner.steps ++ [.leave])).context.outputs
        = l.context.outputs := by
  refine ⟨?_, after_within⟩
  intro before step later made
  rw [made] at own
  refine ⟨fun id => step.apply_untouched, fun id below => ?_, fun id brings inside => ?_⟩
  · exact step.apply_untouched fun top => own.after.top_not_mem top (List.mem_append_left _ below)
  · have ended := after_tree_depth k tree
    rw [made, after_append, after_cons] at ended
    exact closesOnce own.after.apply (sink_of_brings brings) (by rw [ended]; exact inside)

/-- Three sinks, of which the first refuses to be flushed. -/
def threeSinks : Console where
  world :=
    { sinks :=
      [⟨.memory "a" fun _ call => if call = .flush then some "no" else none, []⟩, ⟨.void, []⟩,
        ⟨.full [], []⟩] }

/-- An output whose sink is replaced, with another output inside of it that is written to. -/
def nestedOutputs : OutputTree :=
  .within "a" (some 0)
    (.set "b" 1 (.within "c" (some 2) (.write "x" true .done) (.write "y" true .done))) .done

/-- The first sink is closed where it is replaced, although it refuses to be flushed. -/
theorem refusing_sink_closes_once :
    OwnSinks threeSinks nestedOutputs.steps ∧
    ClosesOnce (threeSinks.enterOutput "a" (some 0)) (nestedOutputs.steps.drop 1) 0 ∧
    ((threeSinks.after nestedOutputs.steps).world.sinks.map (·.events)) =
      [[.flushRefused, .closed],
        [.wrote [121], .wrote [10], .flushed, .flushed, .closed],
        [.wrote [120], .wrote [10], .flushRefused, .flushRefused, .closed]] := by
  have own : OwnSinks threeSinks nestedOutputs.steps := by
    refine ⟨by decide, fun id hid => ?_⟩
    have all : threeSinks.sinks ++ nestedOutputs.steps.filterMap (·.sink?) = [0, 1, 2] := rfl
    have given : id = 0 ∨ id = 1 ∨ id = 2 := by simpa [all] using hid
    rcases given with rfl | rfl | rfl <;> exact ⟨_, rfl, by simp⟩
  obtain ⟨steps, -⟩ := sinks_close_once own
  obtain ⟨-, -, closes⟩ := steps [] (.enter "a" (some 0)) (nestedOutputs.steps.drop 1) rfl
  exact ⟨own, closes 0 rfl (by decide), by decide⟩

end Console

end LogConsole
