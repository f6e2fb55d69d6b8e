import LogConsole.Proofs.Session.Acts

/-!
# LogConsole.Proofs.Session.Statements

Running a script line by line is reading its statements first and running them then.

* `Script.Statement`   — a statement as it stands in a script;
* `Script.texts`       — the lines of a script up to the first that is not UTF-8;
* `Script.assemble`    — the statements of the lines that count: one for each line with a mark,
  with the lines up to the next such line;
* `Script.statements`, `Script.isWhole` — the statements of a script that are complete, and
  whether all of it is UTF-8. Where it is not, the last statement is still open;
* `Run.runStatements`  — statements one after the other, up to the first failure;
* `Run.runWhole`       — the two phases one after the other;
* `script_runs_its_statements` — that is what the executor does, whatever its statements do.

The executor holds a statement back until the next one starts. The invariant is therefore about
the lines that are left and the statement that waits: `assembleFrom`.
-/

namespace LogConsole

namespace Script

/-! ## Reading -/

structure Statement where
  mode : Mode
  line : Nat
  payload : String
  deriving DecidableEq, Repr

/-- The lines up to the first that is not UTF-8, and whether there is no such line. -/
def texts : List (List UInt8) → List String × Bool
  | [] => ([], true)
  | bytes :: rest =>
    match Text.Utf8.decode? bytes with
    | none => ([], false)
    | some text => (text :: (texts rest).1, (texts rest).2)

/-- Blank lines and comments. -/
def isIgnored (text : String) : Bool :=
  (Text.trim text).isEmpty || text.toList.head? == some '#'

/-- The mode that a line asks for by its first character, and the rest of it. -/
def opening? (text : String) : Option (Mode × String) :=
  match text.toList with
  | [] => none
  | c :: rest => (Mode.ofMark? c).map fun mode => (mode, String.ofList rest)

/-- The lines that count, with their numbers from `n` on. -/
def numbered (n : Nat) (lines : List String) : List (String × Nat) :=
  (lines.zipIdx n).filter fun l => !isIgnored l.1

/-- The lines up to the next one that opens a statement. -/
def continuation (lines : List (String × Nat)) : List String :=
  (lines.takeWhile fun l => (opening? l.1).isNone).map (·.1)

/-- A text with more lines after it. -/
def joined (text : String) (lines : List String) : String :=
  lines.foldl (fun text line => text ++ "\n" ++ line) text

def assemble : List (String × Nat) → List Statement
  | [] => []
  | (text, n) :: rest =>
    match opening? text with
    | some (mode, head) =>
      ⟨mode, n, Text.trim (joined head (continuation rest))⟩ :: assemble rest
    | none => assemble rest

/-- The statements that are complete: the last one is not where there is no end to it. -/
def completed (whole : Bool) (statements : List Statement) : List Statement :=
  if whole then statements else statements.dropLast

def isWhole (bytes : List UInt8) : Bool := (texts (Text.byteLines bytes)).2

def statements (bytes : List UInt8) : List Statement :=
  completed (isWhole bytes) (assemble (numbered 1 (texts (Text.byteLines bytes)).1))

/-! ## Lines -/

theorem lineBytes_rawLinesFrom (bytes : List UInt8) :
    ∀ line : List UInt8, 10 ∉ line →
      (rawLinesFrom line bytes).map lineBytes = Text.cutLinesFrom 10 13 line bytes := by
  induction bytes with
  | nil =>
    intro line hl
    cases line with
    | nil => rfl
    | cons b line =>
      have hb : b ≠ 10 := fun e => hl (by simp [e])
      simp [rawLinesFrom, Text.cutLinesFrom, lineBytes, hb]
  | cons b rest ih =>
    intro line hl
    by_cases hb : b = 10
    · subst hb
      simp [rawLinesFrom, Text.cutLinesFrom, lineBytes, ih [] List.not_mem_nil]
    · have hl' : 10 ∉ b :: line := by simp [hl, Ne.symm hb]
      simp [rawLinesFrom, Text.cutLinesFrom, hb, ih _ hl']

theorem map_lineBytes (bytes : List UInt8) :
    (rawLines bytes).map lineBytes = Text.byteLines bytes :=
  lineBytes_rawLinesFrom bytes [] List.not_mem_nil

theorem ofText_eq (text : String) :
    Line.ofText text =
      if isIgnored text then .skipped
      else match opening? text with
        | some (mode, head) => .statement mode head
        | none => .other text := by
  unfold Line.ofText isIgnored opening?
  split
  · rename_i hn
    have he : text = "" := String.toList_inj.1 hn
    subst he
    rfl
  · rename_i c rest hc
    rw [hc]
    simp only [List.head?_cons, Option.some_beq_some, Bool.or_eq_true, decide_eq_true_eq, beq_iff_eq]
    split
    · rfl
    · cases Mode.ofMark? c <;> rfl

/-! ## Assembling -/

/-- The statements of the lines that are left, with the one that waits before them. -/
def assembleFrom (pending : Option Pending) (lines : List (String × Nat)) : List Statement :=
  match pending with
  | none => assemble lines
  | some stmt =>
    ⟨stmt.mode, stmt.line, Text.trim (joined stmt.text (continuation lines))⟩ :: assemble lines

/-- The statement that waits ends where the next one starts. -/
def flushed (pending : Option Pending) : List Statement :=
  match pending with
  | none => []
  | some stmt => [⟨stmt.mode, stmt.line, Text.trim stmt.text⟩]

theorem assembleFrom_opening {text head : String} {mode : Mode} (pending : Option Pending) (n : Nat)
    (rest : List (String × Nat)) (h : opening? text = some (mode, head)) :
    assembleFrom pending ((text, n) :: rest)
      = flushed pending ++ assembleFrom (some ⟨mode, n, head⟩) rest := by
  have hc : continuation ((text, n) :: rest) = [] := by simp [continuation, h]
  cases pending with
  | none => simp [assembleFrom, flushed, assemble, h]
  | some stmt => simp [assembleFrom, flushed, assemble, h, hc, joined]

theorem assembleFrom_other {text : String} (p : Progress) (n : Nat) (rest : List (String × Nat))
    (h : opening? text = none) :
    assembleFrom p.pending ((text, n) :: rest)
      = assembleFrom (Run.continuePending p text).pending rest := by
  have hc : continuation ((text, n) :: rest) = text :: continuation rest := by
    simp [continuation, h]
  obtain ⟨pending, lines, answer⟩ := p
  cases pending with
  | none => simp [assembleFrom, assemble, Run.continuePending, h]
  | some stmt => simp [assembleFrom, assemble, Run.continuePending, h, hc, joined]

theorem numbered_cons (n : Nat) (text : String) (rest : List String) :
    numbered n (text :: rest)
      = if isIgnored text then numbered (n + 1) rest else (text, n) :: numbered (n + 1) rest := by
  unfold numbered
  rw [List.zipIdx_cons, List.filter_cons]
  cases isIgnored text <;> rfl

theorem completed_append (whole : Bool) (before : List Statement) {after : List Statement}
    (h : after ≠ []) : completed whole (before ++ after) = before ++ completed whole after := by
  unfold completed
  split
  · rfl
  · exact List.dropLast_append_of_ne_nil h

end Script

/-! ## Running -/

namespace Run

open Script

variable (again : Mode → String → Run Output) (source : String)

/-- A statement in its own frame, unless there has been an interrupt. -/
def runOne (st : Statement) : Run String := do
  checkInterrupt
  let frame : Snippet :=
    ⟨source, Int32.ofNat st.line, 0, String.singleton st.mode.mark ++ st.payload⟩
  let output ← withSource frame (again st.mode st.payload)
  return output.summary

/-- Statements one after the other, up to the first failure; the answer is that of the last one. -/
def runStatements (answer : String) : List Statement → Run String
  | [] => do return answer
  | st :: rest => do
    let answer ← runOne again source st
    runStatements answer rest

/-- What comes after the complete statements. -/
def finish (whole : Bool) (answer : String) : Run String := do
  if whole then return answer
  else failFor .commandFailed ("unable to read " ++ source) IoError.invalidUtf8.message

/-- A script whose statements are read before the first of them is run. -/
def runWhole (dir : String) (bytes : List UInt8) : Run String :=
  withDirectory dir (withOutput "default" do
    let answer ← runStatements again source "" (statements bytes)
    finish source (isWhole bytes) answer)

variable {again source}

theorem runStatements_append (answer : String) (before after : List Statement) :
    runStatements again source answer (before ++ after)
      = runStatements again source answer before >>= fun answer =>
        runStatements again source answer after := by
  induction before generalizing answer with
  | nil => rw [List.nil_append, runStatements, pure_bind]
  | cons st before ih => simp only [List.cons_append, runStatements, bind_assoc, ih]

/-- The statement that waits is run when it ends. -/
theorem runPending_eq (p : Progress) :
    runPending again source p
      = runStatements again source p.answer (flushed p.pending) >>= fun answer =>
        pure { p with pending := none, answer } := by
  obtain ⟨pending, lines, answer⟩ := p
  cases pending with
  | none => rfl
  | some stmt =>
    simp only [flushed, runStatements, bind_assoc]
    rfl

/-- The answer of what is left of a script. -/
def readOn (again : Mode → String → Run Output) (source : String) (p : Progress)
    (raws : List (List UInt8)) : Run String := do
  let (answer, _) ← readScript again source true p raws
  answerOf answer

theorem readOn_nil (p : Progress) :
    readOn again source p [] = runPending again source p >>= fun p => pure p.answer := by
  funext s
  rw [readOn, bind_def, bind_def, readScript]
  dsimp only
  rcases runPending again source p s with _ | ⟨_ | _, _⟩ <;> rfl

theorem readOn_cons (p : Progress) (raw : List UInt8) (rest : List (List UInt8)) :
    readOn again source p (raw :: rest)
      = runLine again source true p (lineBytes raw) >>= fun p => readOn again source p rest := by
  funext s
  rw [readOn, bind_def, bind_def, readScript]
  dsimp only
  rcases runLine again source true p (lineBytes raw) s with _ | ⟨_ | _, _⟩ <;> rfl

theorem continuePending_keeps (p : Progress) (text : String) :
    (continuePending p text).lines = p.lines ∧ (continuePending p text).answer = p.answer := by
  unfold continuePending
  split <;> exact ⟨rfl, rfl⟩

/-- What a line of text does to the progress of a script. -/
theorem runLine_text {bytes : List UInt8} {text : String} (p : Progress)
    (hd : Text.Utf8.decode? bytes = some text) :
    runLine again source true p bytes =
      if isIgnored text then Pure.pure { p with lines := p.lines + 1 }
      else match opening? text with
        | some (mode, head) =>
          runStatements again source p.answer (flushed p.pending) >>= fun answer =>
            Pure.pure ⟨some ⟨mode, p.lines + 1, head⟩, p.lines + 1, answer⟩
        | none => Pure.pure (continuePending { p with lines := p.lines + 1 } text) := by
  simp only [runLine, hd, ofText_eq]
  cases isIgnored text with
  | true => rfl
  | false =>
    cases opening? text with
    | none => rfl
    | some o =>
      simp only [Bool.false_eq_true, if_false, runPending_eq, bind_assoc]
      rfl

/-- The loop: what waits and what is left to read are the statements that are left to run. -/
theorem readOn_eq (raws : List (List UInt8)) (p : Progress) :
    readOn again source p raws
      = runStatements again source p.answer
          (completed (texts (raws.map lineBytes)).2
            (assembleFrom p.pending (numbered (p.lines + 1) (texts (raws.map lineBytes)).1)))
        >>= finish source (texts (raws.map lineBytes)).2 := by
  induction raws generalizing p with
  | nil =>
    have waiting : assembleFrom p.pending (numbered (p.lines + 1) []) = flushed p.pending := by
      cases p.pending <;> rfl
    rw [readOn_nil, runPending_eq, bind_assoc, List.map_nil, texts, waiting]
    rfl
  | cons raw rest ih =>
    rw [readOn_cons, List.map_cons, texts]
    cases hd : Text.Utf8.decode? (lineBytes raw) with
    | none =>
      -- the statement that waits is not complete
      have nothing : completed false (assembleFrom p.pending (numbered (p.lines + 1) [])) = [] := by
        cases p.pending <;> rfl
      simp only [runLine, hd]
      rw [nothing]
      rfl
    | some text =>
      rw [runLine_text p hd]
      simp only [numbered_cons]
      cases isIgnored text with
      | true => exact ih { p with lines := p.lines + 1 }
      | false =>
        simp only [Bool.false_eq_true, if_false]
        cases ho : opening? text with
        | none =>
          obtain ⟨hl, ha⟩ := continuePending_keeps { p with lines := p.lines + 1 } text
          rw [assembleFrom_other { p with lines := p.lines + 1 } _ _ ho, pure_bind, ih, hl, ha]
        | some o =>
          obtain ⟨mode, head⟩ := o
          have waiting : assembleFrom (some ⟨mode, p.lines + 1, head⟩)
              (numbered (p.lines + 1 + 1) (texts (rest.map lineBytes)).1) ≠ [] := by
            simp [assembleFrom]
          rw [assembleFrom_opening p.pending _ _ ho, completed_append _ _ waiting]
          simp only [runStatements_append, bind_assoc, pure_bind, ih]

theorem executeScript_eq_runWhole (again : Mode → String → Run Output) (source dir : String)
    (bytes : List UInt8) :
    executeScript again source dir bytes true = runWhole again source dir bytes := by
  have loop : readOn again source {} (rawLines bytes) = _ := readOn_eq (rawLines bytes) {}
  rw [map_lineBytes] at loop
  unfold executeScript runWhole
  congr 2

/-! ## Interrupts -/

theorem runStatements_interrupted {s : Session} (interrupted : s.interrupted = true)
    (answer : String) (sts : List Statement) :
    runStatements again source answer sts s =
      match sts with
      | [] => some (.ok answer, s)
      | _ :: _ => some (.error (s.context.error .interrupted "interrupted"), s) := by
  cases sts with
  | nil => rfl
  | cons st rest =>
    simp only [runStatements, runOne, bind_def, checkInterrupt, interrupted, if_true]
    rfl

/-- What an interrupted session makes of a script does not depend on what its statements do. -/
theorem executeScript_interrupted {s : Session} (interrupted : s.interrupted = true)
    (again : Mode → String → Run Output) (source dir : String) (bytes : List UInt8) :
    executeScript again source dir bytes true s =
      match statements bytes with
      | _ :: _ => some (.error (s.context.error .interrupted "interrupted"), s)
      | [] =>
        if isWhole bytes then some (.ok "", s)
        else some (.error ((s.context.error .commandFailed ("unable to read " ++ source)).withReason
          IoError.invalidUtf8.message), s) := by
  rw [executeScript_eq_runWhole]
  simp only [runWhole, withDirectory, withOutput, Run.within, ensuring, bind_def]
  rw [runStatements_interrupted (by exact interrupted)]
  cases statements bytes with
  | cons st rest => rfl
  | nil =>
    unfold finish
    cases isWhole bytes <;> rfl

end Run

namespace Session

open Run Script

/-- **A script runs its statements.** For any bytes, and whatever dispatching a statement does: the
statements that are run are those that are read from the lines that count, in order, each in its own
frame, up to the first failure. The answer is that of the last one. A script that stops being UTF-8
fails after its complete statements. After an interrupt nothing is dispatched: a script with a
statement to run fails, and all else is as before. -/
theorem script_runs_its_statements (again : Mode → String → Run Output) (source dir : String)
    (bytes : List UInt8) :
    executeScript again source dir bytes true = runWhole again source dir bytes ∧
    (∀ fuel, executeReader fuel source dir bytes true
      = runWhole (dispatchMode fuel) source dir bytes) ∧
    ∀ s : Session, s.interrupted = true →
      executeScript again source dir bytes true s =
        match statements bytes with
        | _ :: _ => some (.error (s.context.error .interrupted "interrupted"), s)
        | [] =>
          if isWhole bytes then some (.ok "", s)
          else some (.error ((s.context.error .commandFailed
            ("unable to read " ++ source)).withReason IoError.invalidUtf8.message), s) := by
  refine ⟨executeScript_eq_runWhole again source dir bytes, ?_, ?_⟩
  · intro fuel
    exact executeScript_eq_runWhole (dispatchMode fuel) source dir bytes
  · intro s interrupted
    exact executeScript_interrupted interrupted again source dir bytes

set_option maxRecDepth 8000 in
/-- Two statements, one of them in two lines, that nothing could run. -/
theorem interrupted_script_runs_nothing :
    let bytes := Text.Utf8.encode "# two\n:a\n b\n\n;x"
    let s : Session := { interrupted := true }
    s.interrupted = true
      ∧ statements bytes = [⟨.command, 2, "a\n b"⟩, ⟨.query, 5, "x"⟩]
      ∧ executeScript (fun _ _ _ => none) "f" "." bytes true s
        = some (.error (s.context.error .interrupted "interrupted"), s) := by
  intro bytes s
  have interrupted : s.interrupted = true := rfl
  have read : statements bytes = [⟨.command, 2, "a\n b"⟩, ⟨.query, 5, "x"⟩] := by decide +kernel
  have run := (script_runs_its_statements (fun _ _ _ => none) "f" "." bytes).2.2 s interrupted
  rw [read] at run
  exact ⟨interrupted, read, run⟩

end Session

end LogConsole
