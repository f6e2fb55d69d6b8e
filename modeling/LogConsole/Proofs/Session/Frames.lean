import LogConsole.Proofs.Session.Acts

/-!
# LogConsole.Proofs.Session.Frames

What a line cannot change for the lines after it.

* `Context.Kept c d`  — `d` has the frames of `c`: the same statement sources, directories and
  help text, the same local scopes but for the innermost, the same outputs but for the current
  one, and the same globals, overrides, line values and modes of execution;
* `SameFrames c d`    — besides, there are as many local scopes and outputs;
* `Acts.commands`     — what commands there are does not change either;
* `Run.KeepsFrames x` — wherever `x` ends, with success or not, it has the frames it started from.

A frame that is entered and left again restores all of it, whatever was kept inside
(`Kept.leave_enter`). `every_line_keeps_frames` is the result for all ways to run a line.
-/

namespace LogConsole

/-- Variables that are set change the innermost scope and nothing else. -/
theorem Query.setLocals_eq (vars : List (String × String)) : ∀ c : Context,
    setLocals vars c
      = { c with scopes := c.scopes.setTop (vars.foldl (fun d v => d.insert v.1 v.2) c.locals) } := by
  induction vars with
  | nil => intro c; rfl
  | cons v rest ih => intro c; exact ih (c.setLocal v.1 v.2)

namespace Context

structure Kept (c d : Context) : Prop where
  sources : d.sources = c.sources
  directories : d.directories = c.directories
  help : d.help = c.help
  scopes : d.scopes.below = c.scopes.below
  outputs : d.outputs.below = c.outputs.below
  globals : d.globals = c.globals
  overrides : d.overrides = c.overrides
  lineValues : d.lineValues = c.lineValues
  dryRun : d.dryRun = c.dryRun
  readOnly : d.readOnly = c.readOnly

namespace Kept

variable {c d e : Context}

theorem refl (c : Context) : Kept c c := ⟨rfl, rfl, rfl, rfl, rfl, rfl, rfl, rfl, rfl, rfl⟩

theorem trans (h : Kept c d) (k : Kept d e) : Kept c e where
  sources := k.sources.trans h.sources
  directories := k.directories.trans h.directories
  help := k.help.trans h.help
  scopes := k.scopes.trans h.scopes
  outputs := k.outputs.trans h.outputs
  globals := k.globals.trans h.globals
  overrides := k.overrides.trans h.overrides
  lineValues := k.lineValues.trans h.lineValues
  dryRun := k.dryRun.trans h.dryRun
  readOnly := k.readOnly.trans h.readOnly

theorem setLocals (vars : List (String × String)) (c : Context) : Kept c (Query.setLocals vars c) := by
  rw [Query.setLocals_eq]
  exact ⟨rfl, rfl, rfl, rfl, rfl, rfl, rfl, rfl, rfl, rfl⟩

end Kept

/-- What is kept, and as many local scopes and outputs. -/
def SameFrames (c d : Context) : Prop :=
  Kept c d ∧ d.scopes.depth = c.scopes.depth ∧ d.outputs.depth = c.outputs.depth

theorem Kept.sameFrames {c d : Context} (h : Kept c d) : SameFrames c d := by
  refine ⟨h, ?_, ?_⟩
  · rw [Stack.depth, Stack.depth, h.scopes]
  · rw [Stack.depth, Stack.depth, h.outputs]

end Context

namespace Console

open Context (Kept)

theorem closeTop_context (k : Console) : k.closeTop.context = k.context := by
  unfold closeTop
  split <;> rfl

theorem setOutput_kept (k : Console) (name : String) (sink : Nat) :
    Kept k.context (k.setOutput name sink).context := by
  rw [setOutput, setTopOutput, closeTop_context]
  exact ⟨rfl, rfl, rfl, rfl, rfl, rfl, rfl, rfl, rfl, rfl⟩

theorem clearOutput_kept (k : Console) : Kept k.context k.clearOutput.context := by
  rw [clearOutput, setTopOutput, closeTop_context]
  exact ⟨rfl, rfl, rfl, rfl, rfl, rfl, rfl, rfl, rfl, rfl⟩

theorem writeOutput_context (k : Console) (text : String) (newline : Bool) :
    (k.writeOutput text newline).2.context = k.context := by
  unfold writeOutput
  split
  · rfl
  · split <;> rfl

end Console

/-- A stack with these elements below its top is the other one with something on it. -/
theorem Stack.pop_of_below {α : Type} {s t : Stack α} (h : s.below = t.toList) : s.pop = t := by
  obtain ⟨top, below⟩ := s
  subst h
  rfl

namespace Context

/-- What is kept inside of a frame is kept around it. -/
theorem Kept.leave_enter (f : Frame) {k l : Console}
    (h : Kept (f.enter k).context l.context) : Kept k.context (f.leave k.context l).context := by
  cases f with
  | source s =>
    have hs : l.context.sources.pop = k.context.sources := by rw [h.sources]; rfl
    exact ⟨hs, h.directories, h.help, h.scopes, h.outputs, h.globals, h.overrides, h.lineValues,
      h.dryRun, h.readOnly⟩
  | scope vars =>
    have hs : l.context.scopes.pop = k.context.scopes := Stack.pop_of_below h.scopes
    exact ⟨h.sources, h.directories, h.help, congrArg Stack.below hs, h.outputs, h.globals,
      h.overrides, h.lineValues, h.dryRun, h.readOnly⟩
  | directory dir =>
    have hd : l.context.directories.pop = k.context.directories := by rw [h.directories]; rfl
    exact ⟨h.sources, hd, h.help, h.scopes, h.outputs, h.globals, h.overrides, h.lineValues,
      h.dryRun, h.readOnly⟩
  | output name sink =>
    have hc : Kept (k.enterOutput name sink).context l.clearOutput.context :=
      Kept.trans h (Console.clearOutput_kept l)
    have ho : l.clearOutput.context.outputs.pop = k.context.outputs := Stack.pop_of_below hc.outputs
    exact ⟨hc.sources, hc.directories, hc.help, hc.scopes, congrArg Stack.below ho, hc.globals,
      hc.overrides, hc.lineValues, hc.dryRun, hc.readOnly⟩
  | help text =>
    exact ⟨h.sources, h.directories, rfl, h.scopes, h.outputs, h.globals, h.overrides,
      h.lineValues, h.dryRun, h.readOnly⟩

end Context

open Context (Kept SameFrames)

namespace Session

variable {s t : Session}

/-! ## Acts -/

theorem context_pipe (s : Session) (text : String) (reads : List PipeRead) :
    (s.pipe text reads).2.2.context = s.context := by
  unfold pipe
  split <;> rfl

theorem openTarget_context {path : String} {r : Except Message Nat}
    (h : Run.openTarget path s = some (r, t)) : t.context = s.context := by
  obtain ⟨w, rfl⟩ := Run.openTarget_ended h
  rfl

theorem startShell_context {text : String} {r : Except Message (List UInt8)}
    (h : Run.startShell text s = some (r, t)) : t.context = s.context := by
  obtain ⟨w, rfl⟩ := Run.startShell_ended h
  rfl

theorem Act.kept (h : Act s t) : Kept s.context t.context := by
  cases h with
  | clearResults => exact .refl _
  | collectRows => exact .refl _
  | storeFirstRow => exact .setLocals _ _
  | search => exact .refl _
  | print text newline =>
    simp only [context, Console.writeOutput_context]
    exact .refl _
  | showScreen => exact Console.clearOutput_kept _
  | redirect wet opened =>
    rw [← openTarget_context opened]
    exact Console.setOutput_kept _ _ _
  | «export» bytes wet opened =>
    rw [← openTarget_context opened]
    exact .refl _
  | shell wet started =>
    rw [← startShell_context started, ← context_pipe]
    exact .refl _
  | resolve => exact .refl _
  | takeInput => exact .refl _
  | leaveInput => exact .refl _
  | refresh => exact .refl _

theorem Acts.kept (h : Acts s t) : Kept s.context t.context := by
  induction h with
  | refl => exact .refl _
  | act h => exact h.kept
  | trans _ _ ih₁ ih₂ => exact ih₁.trans ih₂
  | within f _ ih => exact Kept.leave_enter f ih

/-! ## Commands -/

theorem pipe_commands (s : Session) (text : String) (reads : List PipeRead) :
    (s.pipe text reads).2.2.commands = s.commands := by
  unfold pipe
  split <;> rfl

theorem Act.commands (h : Act s t) : t.commands = s.commands := by
  cases h with
  | redirect wet opened =>
    obtain ⟨w, rfl⟩ := Run.openTarget_ended opened
    rfl
  | «export» bytes wet opened =>
    obtain ⟨w, rfl⟩ := Run.openTarget_ended opened
    rfl
  | shell wet started =>
    obtain ⟨w, rfl⟩ := Run.startShell_ended started
    exact pipe_commands _ _ _
  | _ => rfl

theorem Acts.commands (h : Acts s t) : t.commands = s.commands := by
  induction h with
  | refl => rfl
  | act h => exact h.commands
  | trans _ _ ih₁ ih₂ => exact ih₂.trans ih₁
  | within f _ ih => exact ih

/-- No command comes from outside. -/
def OnlyBuiltins (cs : Commands) : Prop :=
  ∀ name c, cs.get? name = some c → ∃ b, c.handler = .builtin b

theorem onlyBuiltins_builtins : OnlyBuiltins Commands.builtins := by
  have key : ∀ (bs : List Builtin) (cs : Commands), OnlyBuiltins cs →
      OnlyBuiltins (bs.foldl (fun cs b => cs.add ⟨b.helpText, .builtin b⟩) cs) := by
    intro bs
    induction bs with
    | nil => intro cs h; exact h
    | cons b rest ih =>
      intro cs h
      refine ih _ fun name c hc => ?_
      have hc : (cs.insert b.helpText.name ⟨b.helpText, .builtin b⟩).get? name = some c := hc
      rw [Dict.get?_insert] at hc
      split at hc
      · cases hc
        exact ⟨b, rfl⟩
      · exact h name c hc
  exact key Builtin.all Dict.empty fun name c h => by cases h

end Session

/-! ## Lines -/

namespace Run

def KeepsFrames {α : Type} (x : Run α) : Prop :=
  ∀ s r t, x s = some (r, t) → SameFrames s.context t.context

theorem keepsFrames_of_byActs {α : Type} {x : Run α} (h : ∀ s, ByActs x s) : KeepsFrames x :=
  fun s r t hx => (h s r t hx).kept.sameFrames

end Run

namespace Session

open Run

theorem waitForCaptures_context (s : Session) : s.waitForCaptures.context = s.context := by
  obtain ⟨w, hw⟩ := waitForCaptures_eq s
  rw [hw]
  rfl

/-- An entry of a batch waits for captures first, and the host is refreshed after it. -/
theorem executeEntry_kept {fuel index : Nat} {command : String} {s : Session} {entry : BatchEntry}
    (h : executeEntry fuel index command s = some entry) :
    Kept s.context entry.session.context := by
  obtain ⟨r, t, ht, -, -, hs⟩ := executeEntry_ended h
  have inner := (dispatchMode_byActs _ _ _ _ _ _ ht).kept
  rw [hs, ← waitForCaptures_context s]
  exact Kept.leave_enter (.source (batchSource index command)) inner

/-- **A line cannot change what is around it.** However a line is run, wherever its run ends and
whatever runs inside of it, the frames it was started in are there again: sources, directories and
help text one by one, as many local scopes and outputs, of which only the innermost may have
changed, and all else that statements share. -/
theorem every_line_keeps_frames (fuel : Nat) :
    (∀ line, KeepsFrames (executeAny fuel line)) ∧
    (∀ line, KeepsFrames (dispatch fuel line)) ∧
    (∀ line, KeepsFrames (executeCommand fuel line)) ∧
    (∀ text, KeepsFrames (executeQuery text)) ∧
    (∀ invocation multiline, KeepsFrames (executeScriptFile fuel invocation multiline)) ∧
    (∀ source dir bytes multiline, KeepsFrames (executeReader fuel source dir bytes multiline)) ∧
    (∀ index command s entry, executeEntry fuel index command s = some entry →
      SameFrames s.context entry.session.context) := by
  have ih : ∀ mode payload s, ByActs (dispatchMode fuel mode payload) s := dispatchMode_byActs fuel
  refine ⟨?_, ?_, ?_, ?_, ?_, ?_, ?_⟩
  · intro line; exact keepsFrames_of_byActs fun s => byActs_executeWith ih line
  · intro line; exact keepsFrames_of_byActs fun s => byActs_dispatchWith ih line
  · intro line; exact keepsFrames_of_byActs fun s => byActs_runCommand ih line
  · intro text; exact keepsFrames_of_byActs fun s => (byActs_runQuery text).map
  · intro invocation multiline
    exact keepsFrames_of_byActs fun s => byActs_executeFile ih invocation multiline
  · intro source dir bytes multiline
    exact keepsFrames_of_byActs fun s => byActs_executeScript ih source dir bytes multiline
  · intro index command s entry h; exact (executeEntry_kept h).sameFrames

end Session

end LogConsole
