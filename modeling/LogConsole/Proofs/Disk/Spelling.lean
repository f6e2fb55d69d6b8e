import LogConsole.Proofs.Disk.Tree

/-!
# LogConsole.Proofs.Disk.Spelling

How the names below an input are spelled.

* `Path.spelling`       — what two names have in common exactly if they are the same as texts go;
* `locationOf_eq`       — a spelling leads to one location, but a location can be spelled in many
  ways;
* `Disk.namesUnder`     — the files of an input: those that a walk comes to, or the input itself;
* `Disk.comesTo`, `Disk.spelled` — whether one of them is at a location, and how it is spelled then;
* `exists_under_iff`, `spelling_under` — these two say all about the names of an input.
-/

namespace LogConsole

namespace Path

theorem isAbsolute_below (dir : String) {ss : List String} (h : ∀ s ∈ ss, Proper s) :
    isAbsolute (ss.foldl join dir) = isAbsolute dir := by
  induction ss generalizing dir with
  | nil => rfl
  | cons s rest ih =>
    obtain ⟨hs, hrest⟩ := List.forall_mem_cons.1 h
    rw [List.foldl_cons, ih _ hrest, isAbsolute_join dir hs.isAbsolute]

/-- Whether a name starts from the root, and its components. -/
def spelling (p : String) : Bool × List String := (isAbsolute p, components p)

theorem same_iff {p q : String} : same p q = true ↔ spelling p = spelling q := by
  simp [same, spelling]

end Path

open Path (spelling)

namespace Disk

variable {d : Disk}

theorem foldl_into_counts (l : Location) (ss : List String) :
    (ss.filter Path.counts).foldl Location.into l
      = (ss.filter (· != "")).foldl Location.into l := by
  induction ss generalizing l with
  | nil => rfl
  | cons s rest ih =>
    by_cases empty : s = ""
    · have blank : Path.counts "" = false := rfl
      simp [empty, blank, ih]
    · by_cases here : s = "."
      · have stay : Path.counts "." = false := rfl
        simp [here, stay, ih, Location.into]
      · have entry : Path.counts s = true := by simp [Path.counts, empty, here]
        simp [empty, entry, ih]

/-- The location is that of the components. -/
theorem locationOf_eq (d : Disk) (p : String) : d.locationOf p
    = (spelling p).2.foldl Location.into (if (spelling p).1 then [] else d.base) := by
  have parts : (names p).foldl Location.into (d.startOf p)
      = (Path.components p).foldl Location.into (d.startOf p) := by
    rw [names, Path.components]
    split
    case h_1 rest shape =>
      have kept : ("." :: rest).filter (· != "") = "." :: rest.filter (· != "") := by simp
      rw [shape, kept, List.foldl_cons, List.foldl_cons, foldl_into_counts]
    case h_2 => rw [foldl_into_counts]
  exact parts

theorem locationOf_of_same {p q : String} (h : spelling p = spelling q) :
    d.locationOf p = d.locationOf q := by
  rw [locationOf_eq, locationOf_eq, h]

/-! ## The files of an input -/

/-- The files below a directory, or a name that is no directory. -/
def namesUnder (d : Disk) (input : String) : List String :=
  if d.isDir input then d.walk input else [input]

/-- Whether a file of an input is at a location. -/
def comesTo (d : Disk) (input : String) (l : Location) : Bool :=
  if d.isDir input then d.holds input l else d.locationOf input == l

/-- How an input spells a location: its own spelling, and the names on the way from there. -/
def spelled (d : Disk) (input : String) (l : Location) : Bool × List String :=
  (Path.isAbsolute input, Path.components input ++ l.drop (d.locationOf input).length)

section Under

variable (tree : d.Tree) {input p : String} {l : Location}

include tree

theorem exists_under_iff (file : l ∈ d.files) :
    (∃ p ∈ d.namesUnder input, d.locationOf p = l) ↔ d.comesTo input l = true := by
  rw [← List.mem_map, namesUnder, comesTo]
  split
  case isTrue => rw [tree.map_locationOf_walk, List.mem_filter, and_iff_right file]
  case isFalse => rw [List.map_singleton, List.mem_singleton, beq_iff_eq, eq_comm]

theorem spelling_under (h : p ∈ d.namesUnder input) :
    spelling p = d.spelled input (d.locationOf p) := by
  rw [namesUnder] at h
  split at h
  case isTrue =>
    unfold walk at h
    split at h
    case h_1 top hfind =>
      obtain ⟨ss, hss, rfl⟩ := List.mem_map.1 h
      have proper : ∀ s ∈ ss, Path.Proper s := fun s hs =>
        tree.proper_files (mem_filesBelow.1 hss).1 s (List.mem_append_right _ hs)
      rw [spelling, spelled, Path.components_below input proper, locationOf_below input proper,
        List.drop_left, Path.isAbsolute_below input proper]
    case h_2 => cases h
  case isFalse =>
    obtain rfl := List.mem_singleton.1 h
    rw [spelling, spelled, List.drop_length, List.append_nil]

end Under

end Disk

end LogConsole
