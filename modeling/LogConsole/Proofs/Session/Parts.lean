import LogConsole.Proofs.Session.Statements

/-!
# LogConsole.Proofs.Session.Parts

A script is its statements, also where every line of it is one.

* `Script.singlesFrom` — the statements in the order in which they are run where none goes on in the
  next line. A line with a mark waits for the next line with a mark, or for the end; a line without
  one is a command, and is run at once;
* `Script.parts`       — the statements of a script, which may go over many lines or may not;
* `Run.runParts`       — they are run, and then it is told if the script has not been read whole;
* `executeScript_eq_runParts` — that is what the executor does, in its directory and output.
-/

namespace LogConsole

namespace Script

/-- What is left to run: a line is left, or one waits. -/
def singlesFrom (whole : Bool) (pending : Option Pending) : List (String × Nat) → List Statement
  | [] => if whole then flushed pending else []
  | (text, n) :: rest =>
    match opening? text with
    | some (mode, head) => flushed pending ++ singlesFrom whole (some ⟨mode, n, head⟩) rest
    | none => ⟨.command, n, Text.trim text⟩ :: singlesFrom whole pending rest

def singles (bytes : List UInt8) : List Statement :=
  singlesFrom (isWhole bytes) none (numbered 1 (texts (Text.byteLines bytes)).1)

def parts (multiline : Bool) (bytes : List UInt8) : List Statement :=
  if multiline then statements bytes else singles bytes

end Script

namespace Run

open Script

variable {again : Mode → String → Run Output} {source : String}

def runParts (again : Mode → String → Run Output) (source : String) (bytes : List UInt8)
    (multiline : Bool) : Run String := do
  let answer ← runStatements again source "" (parts multiline bytes)
  finish source (isWhole bytes) answer

/-- The answer of what is left of a script in which every line is a statement. -/
def readSingles (again : Mode → String → Run Output) (source : String) (p : Progress)
    (raws : List (List UInt8)) : Run String := do
  let (answer, _) ← readScript again source false p raws
  answerOf answer

theorem readSingles_nil (p : Progress) :
    readSingles again source p [] = runPending again source p >>= fun p => pure p.answer := by
  funext s
  rw [readSingles, bind_def, bind_def, readScript]
  dsimp only
  rcases runPending again source p s with _ | ⟨_ | _, _⟩ <;> rfl

theorem readSingles_cons (p : Progress) (raw : List UInt8) (rest : List (List UInt8)) :
    readSingles again source p (raw :: rest)
      = runLine again source false p (lineBytes raw) >>= fun p =>
        readSingles again source p rest := by
  funext s
  rw [readSingles, bind_def, bind_def, readScript]
  dsimp only
  rcases runLine again source false p (lineBytes raw) s with _ | ⟨_ | _, _⟩ <;> rfl

/-- What a line of text does to the progress of such a script. -/
theorem runLine_single {text : String} {bytes : List UInt8} (p : Progress)
    (hd : Text.Utf8.decode? bytes = some text) :
    runLine again source false p bytes =
      if isIgnored text then Pure.pure { p with lines := p.lines + 1 }
      else match opening? text with
        | some (mode, head) =>
          runStatements again source p.answer (flushed p.pending) >>= fun answer =>
            Pure.pure ⟨some ⟨mode, p.lines + 1, head⟩, p.lines + 1, answer⟩
        | none =>
          runOne again source ⟨.command, p.lines + 1, Text.trim text⟩ >>= fun answer =>
            Pure.pure { p with lines := p.lines + 1, answer } := by
  simp only [runLine, hd, ofText_eq]
  cases isIgnored text with
  | true => rfl
  | false =>
    cases opening? text with
    | none => rfl
    | some o =>
      simp only [Bool.false_eq_true, if_false, runPending_eq, bind_assoc]
      rfl

/-- The loop: what waits and what is left to read are the statements that are left to run. -/
theorem readSingles_eq (raws : List (List UInt8)) (p : Progress) :
    readSingles again source p raws
      = runStatements again source p.answer
          (singlesFrom (texts (raws.map lineBytes)).2 p.pending
            (numbered (p.lines + 1) (texts (raws.map lineBytes)).1))
        >>= finish source (texts (raws.map lineBytes)).2 := by
  induction raws generalizing p with
  | nil =>
    rw [readSingles_nil, runPending_eq, bind_assoc, List.map_nil, texts]
    rfl
  | cons raw rest ih =>
    rw [readSingles_cons, List.map_cons, texts]
    cases hd : Text.Utf8.decode? (lineBytes raw) with
    | none =>
      -- what waits is not run
      simp only [runLine, hd]
      rfl
    | some text =>
      rw [runLine_single p hd]
      simp only [numbered_cons]
      cases isIgnored text with
      | true => exact ih { p with lines := p.lines + 1 }
      | false =>
        simp only [Bool.false_eq_true, if_false, singlesFrom]
        cases opening? text with
        | none => simp only [runStatements, bind_assoc, pure_bind, ih]
        | some o => simp only [runStatements_append, bind_assoc, pure_bind, ih]

/-- What has been left unread makes no difference to the answer. -/
theorem readScript_eq_runParts (again : Mode → String → Run Output) (source : String)
    (bytes : List UInt8) (multiline : Bool) :
    (readScript again source multiline {} (rawLines bytes) >>= fun read => answerOf read.1)
      = runParts again source bytes multiline := by
  cases multiline with
  | true =>
    have loop : readOn again source {} (rawLines bytes) = _ := readOn_eq (rawLines bytes) {}
    rw [map_lineBytes] at loop
    exact loop
  | false =>
    have loop : readSingles again source {} (rawLines bytes) = _ :=
      readSingles_eq (rawLines bytes) {}
    rw [map_lineBytes] at loop
    exact loop

theorem executeScript_eq_runParts (again : Mode → String → Run Output) (source dir : String)
    (bytes : List UInt8) (multiline : Bool) :
    executeScript again source dir bytes multiline
      = withDirectory dir (withOutput "default" (runParts again source bytes multiline)) := by
  rw [← readScript_eq_runParts]
  rfl

end Run

end LogConsole
