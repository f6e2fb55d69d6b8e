import LogConsole.Text.Lines
import LogConsole.Text.Utf8

/-!
# LogConsole.Proofs.Text.LineBreaks

A byte sequence can be cut after a line feed, and its parts decoded and cut into lines on
their own.

* `Utf8.lossyChars`            — the characters of a byte sequence, without fuel;
* `Utf8.lossyChars_append_lf`  — a line feed ends every character, whole or broken, before it;
* `cutLines_append_lf`         — what follows a line feed starts a line;
* `lossyLines_append_lf`       — the lines of a text that is closed by a line feed, and of more.
-/

namespace LogConsole.Text

namespace Utf8

/-! ## Heads -/

def Head.size : Head → Nat
  | .char _ n => n
  | .broken n => n

def Head.shown : Head → Char
  | .char c _ => c
  | .broken _ => '\uFFFD'

theorem isTail_lf : isTail 10 = false := rfl

theorem second3_lf (a : UInt8) : second3 a 10 = false := by
  simp only [second3, isTail_lf]
  split
  · rfl
  · split <;> rfl

theorem second4_lf (a : UInt8) : second4 a 10 = false := by
  simp only [second4, isTail_lf]
  split
  · rfl
  · split <;> rfl

/-- What is cut short by a line feed is cut short by the end as well. -/
theorem head_append_lf (a : UInt8) (rest more : List UInt8) :
    head a (rest ++ 10 :: more) = head a rest := by
  rcases rest with _ | ⟨b, _ | ⟨c, _ | ⟨d, rest⟩⟩⟩ <;>
    simp [head, isTail_lf, second3_lf, second4_lf]

theorem head_size_pos (a : UInt8) (rest : List UInt8) : 0 < (head a rest).size := by
  unfold head
  repeat' split
  all_goals simp [Head.size]

theorem head_size_le (a : UInt8) (rest : List UInt8) :
    (head a rest).size ≤ rest.length + 1 := by
  unfold head
  repeat' split
  all_goals simp [Head.size]

/-! ## Decoding -/

theorem decodeLossyFrom_cons (n : Nat) (a : UInt8) (rest : List UInt8) :
    decodeLossyFrom (n + 1) (a :: rest)
      = (head a rest).shown :: decodeLossyFrom n ((a :: rest).drop (head a rest).size) := by
  simp only [decodeLossyFrom]
  cases head a rest <;> rfl

/-- Fuel beyond the length of the sequence changes nothing. -/
theorem decodeLossyFrom_fuel {n m : Nat} {bytes : List UInt8} (hn : bytes.length ≤ n)
    (hm : bytes.length ≤ m) : decodeLossyFrom n bytes = decodeLossyFrom m bytes := by
  induction n generalizing m bytes with
  | zero =>
    have he : bytes = [] := List.length_eq_zero_iff.1 (by omega)
    subst he
    cases m <;> rfl
  | succ n ih =>
    cases bytes with
    | nil => cases m <;> rfl
    | cons a rest =>
      cases m with
      | zero => simp at hm
      | succ m =>
        have hp := head_size_pos a rest
        simp only [List.length_cons] at hn hm
        rw [decodeLossyFrom_cons, decodeLossyFrom_cons]
        congr 1
        apply ih <;> simp only [List.length_drop, List.length_cons] <;> omega

def lossyChars (bytes : List UInt8) : List Char := decodeLossyFrom bytes.length bytes

@[simp] theorem toList_decodeLossy (bytes : List UInt8) :
    (decodeLossy bytes).toList = lossyChars bytes := String.toList_ofList

@[simp] theorem lossyChars_nil : lossyChars [] = [] := rfl

theorem lossyChars_cons (a : UInt8) (rest : List UInt8) :
    lossyChars (a :: rest)
      = (head a rest).shown :: lossyChars ((a :: rest).drop (head a rest).size) := by
  have hp := head_size_pos a rest
  simp only [lossyChars, List.length_cons]
  rw [decodeLossyFrom_cons]
  congr 1
  apply decodeLossyFrom_fuel <;> simp only [List.length_drop, List.length_cons] <;> omega

theorem lossyChars_lf (more : List UInt8) : lossyChars (10 :: more) = '\n' :: lossyChars more := by
  rw [lossyChars_cons]
  rfl

theorem lossyChars_append_lf (before more : List UInt8) :
    lossyChars (before ++ 10 :: more) = lossyChars before ++ '\n' :: lossyChars more := by
  -- a head may be longer than one byte, so the induction is on the length
  induction h : before.length using Nat.strongRecOn generalizing before with
  | _ n ih =>
    cases before with
    | nil => simp [lossyChars_lf]
    | cons a rest =>
      have hp := head_size_pos a rest
      have hl := head_size_le a rest
      have hd : ((a :: rest) ++ 10 :: more).drop (head a rest).size
          = (a :: rest).drop (head a rest).size ++ 10 :: more :=
        List.drop_append_of_le_length (by simpa using hl)
      rw [List.cons_append, lossyChars_cons, head_append_lf, ← List.cons_append, hd,
        ih _ (by simp only [List.length_drop, List.length_cons, ← h]; omega) _ rfl,
        lossyChars_cons a rest, List.cons_append]

end Utf8

/-! ## Lines -/

section CutLines

variable {α : Type} [DecidableEq α]

theorem cutLinesFrom_append_lf_lines (lf cr : α) (line before more : List α) :
    cutLinesFrom lf cr line (before ++ lf :: more)
      = cutLinesFrom lf cr line (before ++ [lf]) ++ cutLines lf cr more := by
  induction before generalizing line with
  | nil => simp [cutLinesFrom, cutLines]
  | cons c before ih =>
    simp only [List.cons_append, cutLinesFrom]
    split
    · rw [ih, List.cons_append]
    · rw [ih]

theorem cutLines_append_lf (lf cr : α) (before more : List α) :
    cutLines lf cr (before ++ lf :: more)
      = cutLines lf cr (before ++ [lf]) ++ cutLines lf cr more :=
  cutLinesFrom_append_lf_lines lf cr [] before more

theorem cutLinesFrom_ne_nil (lf cr : α) {line : List α} (h : line ≠ []) (text : List α) :
    cutLinesFrom lf cr line text ≠ [] := by
  induction text generalizing line with
  | nil => simp [cutLinesFrom, h]
  | cons c rest ih =>
    rw [cutLinesFrom]
    split
    · exact List.cons_ne_nil _ _
    · exact ih (List.cons_ne_nil _ _)

theorem cutLines_eq_nil_iff (lf cr : α) {text : List α} : cutLines lf cr text = [] ↔ text = [] := by
  cases text with
  | nil => simp
  | cons c rest =>
    rw [cutLines, cutLinesFrom]
    split
    · simp
    · simpa using cutLinesFrom_ne_nil lf cr (List.cons_ne_nil c []) rest

end CutLines

/-- The lines of a decoded byte sequence. -/
def lossyLines (bytes : List UInt8) : List String := lines (Utf8.decodeLossy bytes)

@[simp] theorem lossyLines_nil : lossyLines [] = [] := rfl

theorem lossyLines_append_lf (before more : List UInt8) :
    lossyLines (before ++ 10 :: more) = lossyLines (before ++ [10]) ++ lossyLines more := by
  simp only [lossyLines, lines, Utf8.toList_decodeLossy, Utf8.lossyChars_append_lf,
    Utf8.lossyChars_nil, ← List.map_append]
  rw [cutLines_append_lf]

theorem lossyLines_eq_nil_iff {bytes : List UInt8} : lossyLines bytes = [] ↔ bytes = [] := by
  rw [lossyLines, lines, List.map_eq_nil_iff, cutLines_eq_nil_iff, Utf8.toList_decodeLossy]
  cases bytes with
  | nil => simp
  | cons a rest => rw [Utf8.lossyChars_cons]; simp

end LogConsole.Text
