import LogConsole.Proofs.Dict
import LogConsole.Proofs.Disk.Visit
import LogConsole.Proofs.Script.Overlap

/-!
# LogConsole.Proofs.Script.Index

What the index of the scripts holds for a name.

* `Resolver.find?_index` — the files of the name, if there are any;
* `Resolver.Lists`       — a list of exactly the scripts of a name that are below a directory, at any
  depth, in the order of their paths component by component. There is one such list (`Lists.unique`);
* `lists_walk`           — the walk of a directory has them in this order;
* `filesNamed_eq_flatMap` — so the index holds these lists, one search directory after the other;
* `find?_index_of_visits` — it is what comes of one pass over the visits to the search directories, in
  which each script that is reported goes to the end of those of its name.
-/

namespace LogConsole

namespace Resolver

variable {d : Disk} {r : Resolver} {name dir : String}

/-! ## Look-up -/

/-- The index holds the files of a name, if there are any. -/
theorem find?_index (r : Resolver) (d : Disk) (name : String) :
    Dict.find? name (r.index d)
      = if r.filesNamed d name = [] then none
        else some ((r.filesNamed d name).map (Candidate.ofFile d)) := by
  let entries : List (String × Unit) :=
    (r.scriptFiles d).filterMap fun p => (scriptName? p).map fun n => (n, ())
  have keyed : r.index d = (Dict.ofList entries).entries.map fun e =>
      (e.1, (r.filesNamed d e.1).map (Candidate.ofFile d)) := by
    rw [index, Dict.keys, List.map_map]
    rfl
  have found : entries.filter (·.1 == name) = (r.filesNamed d name).map fun _ => (name, ()) := by
    rw [List.filter_filterMap, filesNamed, ← List.filterMap_eq_map, List.filterMap_filter]
    refine List.filterMap_congr fun p _ => ?_
    cases named : scriptName? p with
    | none => simp
    | some n => by_cases same : n = name <;> simp [Option.filter_some, same]
  rw [keyed, Dict.find?_map_keys fun n => (r.filesNamed d n).map (Candidate.ofFile d)]
  change ((Dict.ofList entries).get? name).map _ = _
  rw [Dict.get?_ofList, found]
  cases r.filesNamed d name with
  | nil => rfl
  | cons p rest => simp [List.getLast?_cons]

theorem find?_index_eq_some {found : List Candidate}
    (listed : Dict.find? name (r.index d) = some found) :
    r.filesNamed d name ≠ [] ∧ found = (r.filesNamed d name).map (Candidate.ofFile d) := by
  rw [find?_index] at listed
  split at listed
  case isTrue => cases listed
  case isFalse some =>
    cases listed
    exact ⟨some, rfl⟩

/-! ## The scripts below a directory -/

/-- The paths of exactly the scripts of a name that are below a directory, at any depth, in
increasing order component by component. -/
structure Lists (d : Disk) (name dir : String) (paths : List String) : Prop where
  exactly : ∀ p, p ∈ paths ↔ ∃ top names id, d.find dir = .ok (top, .dir) ∧ names ≠ [] ∧
    d.nodeAt (top ++ names) = some (.file id) ∧ p = names.foldl Path.join dir ∧
    Path.extension? p = some "lsh" ∧ Path.stem? p = some name
  ordered : paths.Pairwise fun p q => Path.components p < Path.components q

/-- There is one such list. -/
theorem Lists.unique {paths paths' : List String} (h : Lists d name dir paths)
    (h' : Lists d name dir paths') : paths = paths' := by
  have irrefl : Std.Irrefl fun p q => Path.components p < Path.components q :=
    ⟨fun p => lt_irrefl (Path.components p)⟩
  have antisymm : Std.Antisymm fun p q => Path.components p < Path.components q :=
    ⟨fun _ _ h k => absurd h k.asymm⟩
  exact h.ordered.eq_of_mem_iff h'.ordered fun p => (h.exactly p).trans (h'.exactly p).symm

theorem Lists.eq_nil {paths : List String} (h : Lists d name dir paths) (no : d.isDir dir = false) :
    paths = [] := by
  refine List.eq_nil_iff_forall_not_mem.2 fun p hp => ?_
  obtain ⟨top, _, _, there, -⟩ := (h.exactly p).1 hp
  rw [Disk.isDir_iff.2 ⟨top, there⟩] at no
  cases no

theorem scriptName?_eq_some_iff {p : String} :
    scriptName? p = some name ↔ Path.extension? p = some "lsh" ∧ Path.stem? p = some name := by
  rw [scriptName?, extension]
  split
  case isTrue lsh => simp [lsh]
  case isFalse other => simp [other]

theorem sorted_walk (tree : d.Tree) (dir : String) :
    (d.walk dir).Pairwise fun p q => Path.components p < Path.components q := by
  unfold Disk.walk
  split
  case h_1 top there =>
    refine List.pairwise_map.2 ((tree.sorted_filesBelow top).imp_of_mem fun ha hb before => ?_)
    have proper {ss : Location} (h : ss ∈ d.filesBelow top) : ∀ s ∈ ss, Path.Proper s :=
      fun s hs => tree.proper_files (Disk.mem_filesBelow.1 h).1 s (List.mem_append_right _ hs)
    rw [Path.components_below dir (proper ha), Path.components_below dir (proper hb)]
    exact (Location.append_lt_append_iff _ _ _).2 before
  case h_2 => exact .nil

theorem mem_walk (tree : d.Tree) {p : String} :
    p ∈ d.walk dir ↔ ∃ top names id, d.find dir = .ok (top, .dir) ∧ names ≠ [] ∧
      d.nodeAt (top ++ names) = some (.file id) ∧ p = names.foldl Path.join dir := by
  unfold Disk.walk
  split
  case h_1 top there =>
    simp only [there, List.mem_map, Disk.mem_filesBelow, Disk.mem_files, tree.nodeAt_eq_some_iff]
    constructor
    · rintro ⟨names, ⟨⟨id, file⟩, nonempty⟩, rfl⟩
      exact ⟨top, names, id, rfl, nonempty, file, rfl⟩
    · rintro ⟨_, names, id, ⟨⟩, nonempty, file, rfl⟩
      exact ⟨names, ⟨⟨id, file⟩, nonempty⟩, rfl⟩
  case h_2 no =>
    refine iff_of_false List.not_mem_nil ?_
    rintro ⟨top, _, _, there, -⟩
    exact no top there

/-- The walk of a directory has its scripts in this order. -/
theorem lists_walk (tree : d.Tree) (name dir : String) :
    Lists d name dir ((d.walk dir).filter (scriptName? · == some name)) where
  exactly p := by
    rw [List.mem_filter, mem_walk tree, beq_iff_eq, scriptName?_eq_some_iff]
    constructor
    · rintro ⟨⟨top, names, id, there, nonempty, file, rfl⟩, lsh, stem⟩
      exact ⟨top, names, id, there, nonempty, file, rfl, lsh, stem⟩
    · rintro ⟨top, names, id, there, nonempty, file, rfl, lsh, stem⟩
      exact ⟨⟨top, names, id, there, nonempty, file, rfl⟩, lsh, stem⟩
  ordered := (sorted_walk tree dir).filter _

/-- The files of a name, directory by directory. -/
theorem filesNamed_eq_flatMap (tree : d.Tree) {listed : String → List String}
    (h : ∀ dir ∈ r.directories, Lists d name dir (listed dir)) :
    r.filesNamed d name = r.directories.flatMap listed := by
  rw [filesNamed_eq]
  exact List.flatMap_congr fun dir hdir => (lists_walk tree name dir).unique (h dir hdir)

/-! ## One pass -/

/-- Puts a script at the end of those of its name; other files are passed over. -/
def file (d : Disk) (index : Dict (List Candidate)) (p : String) : Dict (List Candidate) :=
  match scriptName? p with
  | none => index
  | some n => index.insert n ((index.get? n).getD [] ++ [Candidate.ofFile d p])

theorem get?_foldl_file (d : Disk) (name : String) (paths : List String) :
    ∀ index : Dict (List Candidate), (paths.foldl (file d) index).get? name
      = match paths.filter (scriptName? · == some name) with
        | [] => index.get? name
        | more => some ((index.get? name).getD [] ++ more.map (Candidate.ofFile d)) := by
  induction paths with
  | nil => intro index; rfl
  | cons p rest ih =>
    intro index
    rw [List.foldl_cons, ih, file, List.filter_cons]
    cases named : scriptName? p with
    | none => simp
    | some n =>
      by_cases same : n = name
      · subst same
        cases more : rest.filter (scriptName? · == some n) <;> simp
      · simp [same, Dict.get?_insert]

/-- The index is what comes of one pass over the visits to the search directories. -/
theorem find?_index_of_visits (tree : d.Tree) (rooted : d.Rooted) {visited : String → List String}
    (h : ∀ dir ∈ r.directories, d.VisitsFrom dir (visited dir)) (name : String) :
    Dict.find? name (r.index d)
      = ((r.directories.flatMap visited).foldl (file d) Dict.empty).get? name := by
  have walks : r.directories.flatMap visited = r.directories.flatMap d.walk :=
    List.flatMap_congr fun dir hdir => (Disk.visitsFrom_iff tree rooted).1 (h dir hdir)
  have named : (r.directories.flatMap d.walk).filter (scriptName? · == some name)
      = r.filesNamed d name := by
    rw [filesNamed_eq, List.filter_flatMap]
  rw [walks, get?_foldl_file, named, find?_index]
  cases r.filesNamed d name <;> simp

end Resolver

end LogConsole
