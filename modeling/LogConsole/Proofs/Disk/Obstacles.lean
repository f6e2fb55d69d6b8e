import LogConsole.Proofs.Disk.Locations

/-!
# LogConsole.Proofs.Disk.Obstacles

A name that leads to a file from one directory, and is tried from another one first.

* `follow_append`    — names are followed one part after the other;
* `follow_failure`   — names that are not too long cannot be followed where one of them is missing, or
  where they go on after something that is no directory;
* `Disk.Obstructed`  — something that is no file has the name, or the name goes on after something
  that is no directory;
* `find_of_beside`   — a name that leads to a file from another directory is not found from the
  directory of the process, unless it is obstructed there. If it is, the answer is something else.
-/

namespace LogConsole

namespace Disk

variable {d : Disk} {p dir : String} {l : Location}

/-! ## Following names -/

theorem follow_append (d : Disk) (l : Location) (node : Node) (ss tt : List String) :
    d.follow l node (ss ++ tt) = (d.follow l node ss).bind fun e => d.follow e.1 e.2 tt := by
  induction ss generalizing l node with
  | nil => rfl
  | cons s rest ih =>
    cases node with
    | dir =>
      rw [List.cons_append, follow, follow]
      split
      · exact ih _ _
      · split
        · exact ih _ _
        · split
          · rfl
          · split
            · exact ih _ _
            · rfl
    | file | sink | full => rfl

theorem follow_stop {n : Node} (stop : n ≠ .dir) {ss : List String} (more : ss ≠ []) :
    d.follow l n ss = .error .notDirectory := by
  obtain ⟨s, rest, rfl⟩ := List.exists_cons_of_ne_nil more
  cases n with
  | dir => exact absurd rfl stop
  | file | sink | full => rfl

theorem short_of_follow {node : Node} {ss : List String} {found : Location × Node}
    (h : d.follow l node ss = .ok found) : ∀ s ∈ ss, s.utf8ByteSize ≤ maxName := by
  induction ss generalizing l node with
  | nil => simp
  | cons s rest ih =>
    cases node with
    | dir =>
      rw [follow] at h
      refine List.forall_mem_cons.2 ?_
      split at h
      case isTrue here => exact ⟨here ▸ by decide, ih h⟩
      case isFalse =>
        split at h
        case isTrue up => exact ⟨up ▸ by decide, ih h⟩
        case isFalse =>
          split at h
          case isTrue => cases h
          case isFalse short =>
            split at h
            · exact ⟨Nat.le_of_not_lt short, ih h⟩
            · cases h
    | file | sink | full => cases h

/-- The names go on after something that is no directory. -/
def Blocked (d : Disk) (l : Location) (ss : List String) : Prop :=
  ∃ front back k n, ss = front ++ back ∧ back ≠ [] ∧ d.follow l .dir front = .ok (k, n) ∧ n ≠ .dir

theorem Blocked.follow_eq {ss : List String} (h : d.Blocked l ss) :
    d.follow l .dir ss = .error .notDirectory := by
  obtain ⟨front, back, k, n, rfl, more, reached, stop⟩ := h
  rw [follow_append, reached]
  exact follow_stop stop more

/-- A name that leads to a directory changes nothing of what comes after it. -/
theorem Blocked.cons {s : String} {rest : List String} {k : Location} (h : d.Blocked k rest)
    (entered : d.follow l .dir [s] = .ok (k, .dir)) : d.Blocked l (s :: rest) := by
  obtain ⟨front, back, m, n, rfl, more, reached, stop⟩ := h
  refine ⟨s :: front, back, m, n, rfl, more, ?_, stop⟩
  rw [← List.singleton_append, follow_append, entered]
  exact reached

theorem follow_missing {s : String} {e : IoError} (short : s.utf8ByteSize ≤ maxName)
    (h : d.follow l .dir [s] = .error e) : e = .notFound := by
  rw [follow] at h
  split at h
  · cases h
  · split at h
    · cases h
    · rw [if_neg (Nat.not_lt_of_le short)] at h
      split at h <;> cases h
      rfl

/-- Names that are not too long fail where one of them is missing, or where they go on after
something that is no directory. -/
theorem follow_failure {ss : List String} {e : IoError}
    (short : ∀ s ∈ ss, s.utf8ByteSize ≤ maxName) (h : d.follow l .dir ss = .error e) :
    e = .notFound ∨ e = .notDirectory ∧ d.Blocked l ss := by
  induction ss generalizing l with
  | nil => cases h
  | cons s rest ih =>
    obtain ⟨hs, hrest⟩ := List.forall_mem_cons.1 short
    rw [← List.singleton_append, follow_append] at h
    -- what the first name leads to decides how the others can fail
    cases first : d.follow l .dir [s] with
    | error f =>
      rw [first] at h
      cases h
      exact .inl (follow_missing hs first)
    | ok found =>
      obtain ⟨k, n⟩ := found
      rw [first] at h
      by_cases dir : n = .dir
      · subst dir
        exact (ih hrest h).imp_right fun ⟨same, blocked⟩ => ⟨same, blocked.cons first⟩
      · by_cases last : rest = []
        · subst last
          cases n <;> cases h
        · have same : d.follow k n rest = .error e := h
          rw [follow_stop dir last] at same
          cases same
          exact .inr ⟨rfl, [s], rest, k, n, rfl, last, first, dir⟩

/-! ## Files -/

theorem isFile_iff : d.isFile p = true ↔ ∃ l id, d.find p = .ok (l, .file id) := by
  unfold isFile
  split <;> simp_all

/-- Where a regular file is found. -/
theorem find_eq_file_iff {id : Nat} : d.find p = .ok (l, .file id) ↔
    checkName p = .ok () ∧ d.follow (d.startOf p) .dir (names p) = .ok (l, .file id) ∧
      endsInSlash p = false := by
  rw [find]
  cases checkName p with
  | error e => simp
  | ok checked =>
    rcases d.follow (d.startOf p) .dir (names p) with e | ⟨k, n⟩
    · simp
    · cases n <;> cases endsInSlash p <;> simp

theorem checkName_eq_ok_iff : checkName p = .ok () ↔
    '\x00' ∉ p.toList ∧ p ≠ "" ∧ p.utf8ByteSize < maxPath := by
  unfold checkName
  split
  case isTrue nul => simp_all
  case isFalse =>
    split
    case isTrue => simp_all
    case isFalse =>
      split
      case isTrue long => simp [Nat.not_lt_of_le long]
      case isFalse short => simp_all

/-- Something that is no file has the name, or the name goes on after something that is no
directory. -/
inductive Obstructed (d : Disk) (p : String) : Prop where
  | taken {l : Location} {n : Node} (found : d.find p = .ok (l, n)) (other : ∀ id, n ≠ .file id) :
      Obstructed d p
  | blocked (h : d.Blocked (d.startOf p) (names p)) : Obstructed d p

/-- A name taken relative to a directory ends in that name. -/
theorem join_eq_append (dir : String) (relative : Path.isAbsolute p = false) :
    ∃ front, Path.join dir p = front ++ p ∧ (front = "" ∨ endsInSlash front = true) := by
  rw [Path.join, if_neg (by simp [relative])]
  split
  case isTrue hdir =>
    refine ⟨dir, rfl, ?_⟩
    simpa [endsInSlash] using hdir
  case isFalse => exact ⟨dir ++ "/", rfl, .inr (by simp [endsInSlash])⟩

/-- A name that leads to a file from some directory is well formed. -/
theorem well_formed_of_beside (relative : Path.isAbsolute p = false)
    (beside : d.isFile (Path.join dir p) = true) :
    checkName p = .ok () ∧ (∀ s ∈ names p, s.utf8ByteSize ≤ maxName) ∧ endsInSlash p = false := by
  obtain ⟨l, id, found⟩ := isFile_iff.1 beside
  obtain ⟨checked, followed, file⟩ := find_eq_file_iff.1 found
  have short := short_of_follow followed
  rw [names_join dir relative] at short
  obtain ⟨front, joined, start⟩ := join_eq_append dir relative
  rw [joined] at checked file
  obtain ⟨clean, nonempty, size⟩ := checkName_eq_ok_iff.1 checked
  have named : p ≠ "" := by
    rintro rfl
    rw [String.append_empty] at nonempty file
    exact start.elim nonempty fun slash => Bool.noConfusion (slash.symm.trans file)
  refine ⟨checkName_eq_ok_iff.2 ⟨?_, named, ?_⟩, fun s hs => short s (List.mem_append_right _ hs), ?_⟩
  · exact fun nul => clean (by simp [nul])
  · rw [String.utf8ByteSize_append] at size
    omega
  · have chars : p.toList ≠ [] := fun none => named (String.toList_eq_nil_iff.1 none)
    rwa [endsInSlash, String.toList_append, List.getLast?_append_of_ne_nil _ chars] at file

/-- A name that leads to a file from another directory is not found from the directory of the
process, unless it is obstructed there. -/
theorem find_of_beside (relative : Path.isAbsolute p = false)
    (beside : d.isFile (Path.join dir p) = true) (no : d.isFile p = false) :
    d.find p = .error .notFound ∧ ¬ d.Obstructed p ∨
      d.Obstructed p ∧
        ((∃ l n, d.find p = .ok (l, n) ∧ ∀ id, n ≠ .file id) ∨ d.find p = .error .notDirectory) := by
  obtain ⟨checked, short, file⟩ := well_formed_of_beside relative beside
  cases followed : d.follow (d.startOf p) .dir (names p) with
  | error e =>
    have answer : d.find p = .error e := by rw [find, checked, followed]
    rcases follow_failure short followed with rfl | ⟨rfl, blocked⟩
    · refine .inl ⟨answer, ?_⟩
      rintro (⟨found, -⟩ | blocked)
      · rw [answer] at found
        cases found
      · rw [blocked.follow_eq] at followed
        cases followed
    · exact .inr ⟨.blocked blocked, .inr answer⟩
  | ok found =>
    obtain ⟨l, n⟩ := found
    have answer : d.find p = .ok (l, n) := by
      rw [find, checked, followed]
      cases n <;> simp [file]
    have other : ∀ id, n ≠ .file id := by
      rintro id rfl
      exact Bool.noConfusion (no.symm.trans (isFile_iff.2 ⟨l, id, answer⟩))
    exact .inr ⟨.taken answer other, .inl ⟨l, n, answer, other⟩⟩

end Disk

end LogConsole
