import Mathlib.Data.String.Basic
import Mathlib.Data.List.Perm.Basic
import LogConsole.Json.Value

/-!
# LogConsole.Proofs.Json.Sorting

Members in the order of their names.

* `Sorted`            — the names increase, so that no name is there twice;
* `putMember_sorted`, `sortMembers_sorted` — whatever the members are;
* `sortMembers_perm`  — members of different names are all there once they are sorted.
-/

namespace LogConsole.Json

def Sorted (members : List (String × Json)) : Prop := members.Pairwise (·.1 < ·.1)

theorem sorted_nil : Sorted [] := List.Pairwise.nil

theorem mem_putMember {k : String} {j : Json} {m : String × Json} {ms : List (String × Json)}
    (h : m ∈ putMember k j ms) : m = (k, j) ∨ m ∈ ms := by
  induction ms with
  | nil => simpa [putMember] using h
  | cons first rest ih =>
    obtain ⟨k', j'⟩ := first
    rw [putMember] at h
    split_ifs at h <;> grind

theorem putMember_sorted (k : String) (j : Json) {ms : List (String × Json)} (h : Sorted ms) :
    Sorted (putMember k j ms) := by
  induction ms with
  | nil => exact List.pairwise_singleton _ _
  | cons first rest ih =>
    obtain ⟨k', j'⟩ := first
    obtain ⟨least, others⟩ := List.pairwise_cons.1 h
    rw [putMember]
    split_ifs with same before
    · subst same
      exact List.pairwise_cons.2 ⟨least, others⟩
    · refine List.pairwise_cons.2 ⟨fun m hm => ?_, h⟩
      rcases List.mem_cons.1 hm with rfl | hm
      · exact before
      · exact before.trans (least m hm)
    · refine List.pairwise_cons.2 ⟨fun m hm => ?_, ih others⟩
      rcases mem_putMember hm with rfl | hm
      · exact lt_of_le_of_ne (not_lt.1 before) same
      · exact least m hm

theorem putMember_perm {k : String} {j : Json} {ms : List (String × Json)}
    (new : ∀ m ∈ ms, m.1 ≠ k) : (putMember k j ms).Perm ((k, j) :: ms) := by
  induction ms with
  | nil => exact List.Perm.refl _
  | cons first rest ih =>
    obtain ⟨k', j'⟩ := first
    rw [putMember, if_neg (new _ List.mem_cons_self)]
    split_ifs with before
    · exact List.Perm.refl _
    · have rest := ih fun m hm => new m (List.mem_cons_of_mem _ hm)
      exact (rest.cons _).trans (List.Perm.swap _ _ _)

theorem sortMembers_sorted {sorted : List (String × Json)} (h : Sorted sorted)
    (ms : List (String × Json)) : Sorted (sortMembers sorted ms) := by
  induction ms generalizing sorted with
  | nil => simpa [sortMembers] using h
  | cons first rest ih =>
    obtain ⟨k, j⟩ := first
    rw [sortMembers]
    exact ih (putMember_sorted k _ h)

theorem sortMembers_perm {sorted ms : List (String × Json)}
    (distinct : ((sorted ++ ms).map (·.1)).Nodup) :
    (sortMembers sorted ms).Perm (sorted ++ ms.map fun m => (m.1, m.2.sortKeys)) := by
  induction ms generalizing sorted with
  | nil => simp [sortMembers]
  | cons first rest ih =>
    obtain ⟨k, j⟩ := first
    have names : ((sorted ++ (k, j) :: rest).map (·.1)).Perm (k :: (sorted ++ rest).map (·.1)) :=
      List.perm_middle.map _
    rw [names.nodup_iff, List.nodup_cons] at distinct
    have put : (putMember k j.sortKeys sorted).Perm ((k, j.sortKeys) :: sorted) :=
      putMember_perm fun m hm same =>
        distinct.1 (same ▸ List.mem_map_of_mem (List.mem_append_left _ hm))
    have others : ((putMember k j.sortKeys sorted ++ rest).map (·.1)).Nodup :=
      ((put.append_right rest).map _).nodup_iff.2 (List.nodup_cons.2 distinct)
    rw [sortMembers]
    exact (ih others).trans ((put.append_right _).trans List.perm_middle.symm)

end LogConsole.Json
