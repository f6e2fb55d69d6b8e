import LogConsole.Disk
import Mathlib.Data.List.Basic

/-!
# LogConsole.Proofs.Disk.Locations

Where a name leads.

* `Path.Proper`           — a name that a directory can have an entry under;
* `names_join`            — a name taken relative to a directory has the directory's names and its
  own;
* `Disk.locationOf`       — the location that a name spells, whatever is there;
* `Disk.find_eq_location` — what `find` finds is at that location;
* `Disk.locationOf_below` — names below a directory spell the locations below its own.

A name leads to a file in many ways: with `.` and `..`, with slashes repeated, absolute or from the
directory of the process. Where there are no links, two names lead to one file if and only if they
spell one location.
-/

namespace LogConsole

namespace Path

/-- A name that a directory can have an entry under. -/
structure Proper (s : String) : Prop where
  nonempty : s ≠ ""
  not_here : s ≠ "."
  not_up : s ≠ ".."
  single : '/' ∉ s.toList

instance (s : String) : Decidable (Proper s) :=
  decidable_of_iff (s ≠ "" ∧ s ≠ "." ∧ s ≠ ".." ∧ '/' ∉ s.toList)
    ⟨fun ⟨a, b, c, d⟩ => ⟨a, b, c, d⟩, fun ⟨a, b, c, d⟩ => ⟨a, b, c, d⟩⟩

/-! ## The parts between slashes -/

theorem segmentsFrom_slash (part before after : List Char) :
    segmentsFrom part (before ++ '/' :: after)
      = segmentsFrom part before ++ segmentsFrom [] after := by
  induction before generalizing part with
  | nil => simp [segmentsFrom]
  | cons c rest ih =>
    by_cases hc : c = '/'
    · simp [segmentsFrom, hc, ih]
    · simp [segmentsFrom, hc, ih]

theorem segmentsFrom_single {part cs : List Char} (single : '/' ∉ cs) :
    segmentsFrom part cs = [String.ofList (part.reverse ++ cs)] := by
  induction cs generalizing part with
  | nil => simp [segmentsFrom]
  | cons c rest ih =>
    obtain ⟨hc, hrest⟩ : '/' ≠ c ∧ '/' ∉ rest := by simpa using single
    simp [segmentsFrom, Ne.symm hc, ih hrest]

theorem segments_single {s : String} (single : '/' ∉ s.toList) : segments s = [s] := by
  simp [segments, segmentsFrom_single single]

theorem slash_not_mem_segmentsFrom {part cs : List Char} (hpart : '/' ∉ part) :
    ∀ s ∈ segmentsFrom part cs, '/' ∉ s.toList := by
  induction cs generalizing part with
  | nil => simpa [segmentsFrom] using hpart
  | cons c rest ih =>
    by_cases hc : c = '/'
    · simpa [segmentsFrom, hc, hpart] using @ih [] (by simp)
    · simpa [segmentsFrom, hc] using @ih (c :: part) (by simp [Ne.symm hc, hpart])

/-! ## Names relative to a directory -/

theorem Proper.isAbsolute {s : String} (h : Proper s) : isAbsolute s = false := by
  cases hs : s.toList with
  | nil => simp [Path.isAbsolute, hs]
  | cons c rest =>
    have hc : c ≠ '/' := fun hc => h.single (by simp [hs, hc])
    simp [Path.isAbsolute, hs, hc]

theorem Proper.counts {s : String} (h : Proper s) : counts s = true := by
  simp [Path.counts, h.nonempty, h.not_here]

/-- The parts of a name taken relative to a directory: those of the directory, of which an empty one
at its end may be gone, and its own. -/
theorem segments_join (dir : String) {p : String} (relative : isAbsolute p = false) :
    ∃ before, segments (join dir p) = before ++ segments p ∧
      (segments dir = before ∨ segments dir = before ++ [""]) := by
  rw [join, if_neg (by simp [relative])]
  split
  case isTrue hdir =>
    rcases Bool.or_eq_true _ _ ▸ hdir with hempty | hslash
    · obtain rfl : dir = "" := by simpa using hempty
      exact ⟨[], by simp, .inr (by simp [segments, segmentsFrom])⟩
    · obtain ⟨before, hbefore⟩ := List.getLast?_eq_some_iff.1 (by simpa using hslash)
      refine ⟨segmentsFrom [] before, ?_, .inr ?_⟩
      · rw [segments, String.toList_append, hbefore, List.append_assoc, List.singleton_append,
          segmentsFrom_slash, segments]
      · rw [segments, hbefore, segmentsFrom_slash]
        simp [segmentsFrom]
  case isFalse =>
    refine ⟨segments dir, ?_, .inl rfl⟩
    have parts : (dir ++ "/" ++ p).toList = dir.toList ++ '/' :: p.toList := by simp
    rw [segments, parts, segmentsFrom_slash, segments, segments]

theorem isAbsolute_join (dir : String) {p : String} (relative : isAbsolute p = false) :
    isAbsolute (join dir p) = isAbsolute dir := by
  rw [join, if_neg (by simp [relative])]
  split
  case isTrue hdir =>
    rcases Bool.or_eq_true _ _ ▸ hdir with hempty | hslash
    · obtain rfl : dir = "" := by simpa using hempty
      rw [String.empty_append, relative]
      rfl
    · obtain ⟨before, hbefore⟩ := List.getLast?_eq_some_iff.1 (by simpa using hslash)
      cases before <;> simp [isAbsolute, hbefore]
  case isFalse hdir =>
    have nonempty : dir.toList ≠ [] := by
      intro hnil
      simp [String.toList_eq_nil_iff.1 hnil] at hdir
    obtain ⟨c, rest, hdir⟩ := List.exists_cons_of_ne_nil nonempty
    simp [isAbsolute, hdir]

/-- A name in a directory is one more component. -/
theorem components_join (dir : String) {s : String} (h : Proper s) :
    components (join dir s) = components dir ++ [s] := by
  obtain ⟨before, hparts, hdir⟩ := segments_join dir h.isAbsolute
  rw [segments_single h.single] at hparts
  have blank : counts "" = false := rfl
  cases before with
  | nil =>
    have own : components (join dir s) = [s] := by
      simp [components, hparts, h.not_here, h.counts]
    rw [own]
    rcases hdir with hdir | hdir <;> simp [components, hdir, blank]
  | cons first more =>
    by_cases here : first = "."
    · subst here
      rcases hdir with hdir | hdir <;>
        simp [components, hparts, hdir, List.filter_append, h.counts, blank]
    · cases hfirst : counts first <;> rcases hdir with hdir | hdir <;>
        simp [components, hparts, hdir, here, hfirst, List.filter_append, h.counts, blank]

theorem components_below (dir : String) {ss : List String} (h : ∀ s ∈ ss, Proper s) :
    components (ss.foldl join dir) = components dir ++ ss := by
  induction ss generalizing dir with
  | nil => simp
  | cons s rest ih =>
    obtain ⟨hs, hrest⟩ := List.forall_mem_cons.1 h
    rw [List.foldl_cons, ih _ hrest, components_join dir hs, List.append_assoc,
      List.singleton_append]

/-- A name in a directory ends in that name. -/
theorem fileName?_join (dir : String) {s : String} (h : Proper s) :
    fileName? (join dir s) = some s := by
  simp [fileName?, components_join dir h, h.not_here, h.not_up]

end Path

/-- Where a name leads from a location. -/
def Location.into (l : Location) (s : String) : Location :=
  if s = "." then l else if s = ".." then l.dropLast else l ++ [s]

theorem Location.into_proper (l : Location) {s : String} (h : Path.Proper s) :
    l.into s = l ++ [s] := by
  rw [into, if_neg h.not_here, if_neg h.not_up]

namespace Disk

theorem names_join (dir : String) {p : String} (relative : Path.isAbsolute p = false) :
    names (Path.join dir p) = names dir ++ names p := by
  obtain ⟨before, hparts, hdir⟩ := Path.segments_join dir relative
  rw [names, hparts, List.filter_append, names, names]
  rcases hdir with hdir | hdir <;> simp [hdir]

theorem names_proper {s : String} (h : Path.Proper s) : names s = [s] := by
  simp [names, Path.segments_single h.single, h.nonempty]

/-- A name in a path leads on to an entry of a directory, unless it stays there or goes up. -/
theorem proper_of_mem_names {p s : String} (h : s ∈ names p) (here : s ≠ ".") (up : s ≠ "..") :
    Path.Proper s := by
  obtain ⟨hs, nonempty⟩ := List.mem_filter.1 h
  exact ⟨by simpa using nonempty, here, up, Path.slash_not_mem_segmentsFrom (by simp) s hs⟩

/-! ## Locations -/

variable {d : Disk}

/-- The location that a name spells, whatever is there. -/
def locationOf (d : Disk) (p : String) : Location := (names p).foldl Location.into (d.startOf p)

theorem follow_eq_location {l k : Location} {node n : Node} {ss : List String}
    (h : d.follow l node ss = .ok (k, n)) : k = ss.foldl Location.into l := by
  induction ss generalizing l node with
  | nil =>
    cases h
    rfl
  | cons s rest ih =>
    rw [List.foldl_cons]
    cases node with
    | dir =>
      rw [follow] at h
      by_cases here : s = "."
      · rw [if_pos here] at h
        rw [Location.into, if_pos here, ← ih h]
      · by_cases up : s = ".."
        · rw [if_neg here, if_pos up] at h
          rw [Location.into, if_neg here, if_pos up, ← ih h]
        · rw [if_neg here, if_neg up] at h
          rw [Location.into, if_neg here, if_neg up]
          split at h
          · cases h
          · split at h
            · exact ih h
            · cases h
    | file | sink | full => simp [follow] at h

/-- What a name stands for is at the location that it spells. -/
theorem find_eq_location {p : String} {l : Location} {n : Node} (h : d.find p = .ok (l, n)) :
    l = d.locationOf p := by
  rw [find] at h
  split at h
  · cases h
  · split at h
    · cases h
    case h_2 hfollow =>
      cases h
      exact follow_eq_location hfollow
    case h_3 _ hfollow =>
      split at h
      · cases h
      · cases h
        exact follow_eq_location hfollow

theorem startOf_join (dir : String) {p : String} (relative : Path.isAbsolute p = false) :
    d.startOf (Path.join dir p) = d.startOf dir := by
  rw [startOf, Path.isAbsolute_join dir relative, startOf]

theorem locationOf_join (dir : String) {s : String} (h : Path.Proper s) :
    d.locationOf (Path.join dir s) = d.locationOf dir ++ [s] := by
  rw [locationOf, names_join dir h.isAbsolute, startOf_join dir h.isAbsolute, List.foldl_append,
    names_proper h, List.foldl_cons, List.foldl_nil, Location.into_proper _ h, locationOf]

theorem locationOf_below (dir : String) {ss : List String} (h : ∀ s ∈ ss, Path.Proper s) :
    d.locationOf (ss.foldl Path.join dir) = d.locationOf dir ++ ss := by
  induction ss generalizing dir with
  | nil => simp
  | cons s rest ih =>
    obtain ⟨hs, hrest⟩ := List.forall_mem_cons.1 h
    rw [List.foldl_cons, ih _ hrest, locationOf_join dir hs, List.append_assoc,
      List.singleton_append]

end Disk

end LogConsole
