import LogConsole.Script.Resolver

/-!
# LogConsole.Proofs.Script.Resolution

What the resolver answers, and what it keeps.

* `Candidate.source_ofFile` — a candidate for a file is that file, whatever it says of itself;
* `Candidate.isStdin`       — a candidate is standard input;
* `Resolver.latch_resolve`  — a name for standard input sets the latch, and nothing else is kept;
* `resolve_stdin_taken`     — such a name fails after that;
* `resolve_indexed`, `resolve_literal` — any other name stands for the files of its name in the
  index, or else for one file or none;
* `resolve_script`          — so it stands for files;
* `stdins_resolve`          — so standard input is given out exactly if a name for it is resolved
  while the latch is not set.
-/

namespace LogConsole

namespace Candidate

def isStdin (c : Candidate) : Bool := c.source == .stdin

theorem source_withHeaderLine (c : Candidate) (line : List Char) :
    (c.withHeaderLine line).source = c.source := by
  unfold withHeaderLine
  split
  · rfl
  · split <;> rfl

theorem source_readHeader (c : Candidate) (lines : List (List UInt8)) :
    (c.readHeader lines).source = c.source := by
  induction lines generalizing c with
  | nil => rfl
  | cons bytes rest ih =>
    rw [readHeader]
    split
    · rfl
    · split
      · exact ih c
      · rw [ih, source_withHeaderLine]
      · rfl

theorem source_ofFile (d : Disk) (path : String) : (ofFile d path).source = .file path := by
  unfold ofFile
  split
  · exact source_readHeader _ _
  · rfl

theorem name_ofFile (d : Disk) (path : String) : (ofFile d path).name = path := by
  rw [name, source_ofFile]

theorem isStdin_ofFile (d : Disk) (path : String) : (ofFile d path).isStdin = false := by
  rw [isStdin, source_ofFile]
  rfl

end Candidate

/-- How many times standard input is among the candidates for a name. -/
def stdinsOf : Except Message (List Candidate) → Nat
  | .ok found => found.countP Candidate.isStdin
  | .error _ => 0

namespace Resolver

variable {d : Disk} {r r' : Resolver} {name : String} {ctx : Context} {found : List Candidate}

theorem resolve_stdin_free (stdin : isStdin name = true) (free : r.stdinTaken = false) :
    r.resolve ctx d name = (.ok [⟨.stdin, "", ""⟩], { r with stdinTaken := true }) := by
  simp [resolve, stdin, free]

theorem resolve_stdin_taken (stdin : isStdin name = true) (taken : r.stdinTaken = true) :
    r.resolve ctx d name
      = (.error (ctx.error .stdinAlreadyConsumed "stdin has already been consumed"), r) := by
  simp [resolve, stdin, taken]

theorem resolve_indexed (script : isStdin name = false) (some : r.filesNamed d name ≠ []) :
    r.resolve ctx d name = (.ok ((r.filesNamed d name).map (Candidate.ofFile d)), r) := by
  obtain ⟨p, rest, files⟩ := List.exists_cons_of_ne_nil some
  simp [resolve, script, files]

theorem resolve_literal (script : isStdin name = false) (none : r.filesNamed d name = []) :
    r.resolve ctx d name =
      match literalFile d ctx.directory name with
      | .ok c => (.ok [c], r)
      | .error reason => (.error (ctx.error .scriptNotFound (unknown name reason)), r) := by
  rw [resolve, script, none]
  rfl

/-- A file of the name is taken before all others. -/
theorem literalFile_here {dir : String} (here : d.isFile name = true) :
    literalFile d dir name = .ok (Candidate.ofFile d name) := by
  unfold Disk.isFile at here
  split at here
  case h_1 found => rw [literalFile, found]
  case h_2 => cases here

theorem besideScript_ok {dir : String} {c : Candidate} (h : besideScript d dir name = .ok c) :
    ∃ path, c = Candidate.ofFile d path := by
  unfold besideScript at h
  split at h
  · cases h
  · split at h <;> cases h
    exact ⟨_, rfl⟩

theorem literalFile_ok {dir : String} {c : Candidate} (h : literalFile d dir name = .ok c) :
    ∃ path, c = Candidate.ofFile d path := by
  unfold literalFile at h
  split at h
  case h_1 =>
    cases h
    exact ⟨_, rfl⟩
  case h_3 => exact besideScript_ok h
  all_goals cases h

/-- A name that is not standard input stands for the files of its name in the index, or else for
one file. -/
theorem resolve_script (script : isStdin name = false)
    (h : r.resolve ctx d name = (.ok found, r')) :
    found = (r.filesNamed d name).map (Candidate.ofFile d) ∨
      r.filesNamed d name = [] ∧ ∃ path, found = [Candidate.ofFile d path] := by
  by_cases none : r.filesNamed d name = []
  · rw [resolve_literal script none] at h
    split at h
    case h_1 c hc =>
      obtain ⟨path, rfl⟩ := literalFile_ok hc
      cases h
      exact .inr ⟨none, path, rfl⟩
    case h_2 => cases h
  · rw [resolve_indexed script none] at h
    cases h
    exact .inl rfl

theorem isStdin_of_resolve_script (script : isStdin name = false)
    (h : r.resolve ctx d name = (.ok found, r')) : ∀ c ∈ found, c.isStdin = false := by
  intro c hc
  rcases resolve_script script h with rfl | ⟨-, path, rfl⟩
  · obtain ⟨path, -, rfl⟩ := List.mem_map.1 hc
    exact Candidate.isStdin_ofFile d path
  · obtain rfl := List.mem_singleton.1 hc
    exact Candidate.isStdin_ofFile d path

/-- All that a resolution leaves behind. -/
theorem latch_resolve (r : Resolver) (ctx : Context) (d : Disk) (name : String) :
    (r.resolve ctx d name).2 = { r with stdinTaken := r.stdinTaken || isStdin name } := by
  cases stdin : isStdin name with
  | true =>
    cases taken : r.stdinTaken with
    | true => rw [resolve_stdin_taken stdin taken, Bool.true_or, ← taken]
    | false => rw [resolve_stdin_free stdin taken, Bool.false_or]
  | false =>
    rw [Bool.or_false, resolve, stdin]
    simp only [Bool.false_eq_true, if_false]
    split
    · split <;> rfl
    · rfl

theorem stdins_resolve (r : Resolver) (ctx : Context) (d : Disk) (name : String) :
    stdinsOf (r.resolve ctx d name).1 = if isStdin name && !r.stdinTaken then 1 else 0 := by
  cases stdin : isStdin name with
  | true =>
    cases taken : r.stdinTaken with
    | true => rw [resolve_stdin_taken stdin taken]; rfl
    | false => rw [resolve_stdin_free stdin taken]; rfl
  | false =>
    rcases h : r.resolve ctx d name with ⟨e | found, r'⟩
    · rfl
    · have files := isStdin_of_resolve_script stdin h
      exact List.countP_eq_zero.2 fun c hc => Bool.eq_false_iff.1 (files c hc)

end Resolver

end LogConsole
