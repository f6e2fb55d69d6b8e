import Mathlib.Data.List.TakeWhile

/-!
# LogConsole.Proofs.Text.Span

The run of characters with a property at the head of a text, and what follows it.
-/

namespace LogConsole.Text

/-- A run of characters with a property ends where one without it follows. -/
theorem span_append {keep : Char → Bool} {run : List Char} (rest : List Char)
    (hrun : ∀ c ∈ run, keep c = true) (hrest : ∀ c ∈ rest.head?, keep c = false) :
    (run ++ rest).takeWhile keep = run ∧ (run ++ rest).dropWhile keep = rest := by
  rw [List.takeWhile_append_of_pos hrun, List.dropWhile_append_of_pos hrun]
  cases rest with
  | nil => simp
  | cons d rest => simp [List.takeWhile, List.dropWhile, hrest d rfl]

/-- Where a run ends that is as long as it can be. -/
theorem of_span (keep : Char → Bool) (cs : List Char) :
    (∀ c ∈ cs.takeWhile keep, keep c = true) ∧
      ∀ c ∈ (cs.dropWhile keep).head?, keep c = false := by
  refine ⟨fun c hc => List.mem_takeWhile_imp hc, ?_⟩
  intro c hc
  have h := List.head?_dropWhile_not keep cs
  rw [Option.mem_def.1 hc] at h
  exact h

end LogConsole.Text
