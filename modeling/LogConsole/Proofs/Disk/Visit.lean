import LogConsole.Proofs.Disk.Tree
import Mathlib.Data.List.Induction
import Mathlib.Data.List.Sort

/-!
# LogConsole.Proofs.Disk.Visit

A walk as a visit to one directory after the other.

* `Disk.below`       — what is below a location, by the names that lead there from it, in order;
* `Disk.entriesOf`   — the entries of a directory in the order of their names;
* `below_eq_flatMap` — an entry of a directory is followed by what is below it, and all that by the
  next entry;
* `Disk.Visits`      — a visit takes up, one after the other, what is waiting for it. A file is
  reported; a directory gives way to its entries, which come before all that was waiting already;
* `visits_iff`, `visitsFrom_iff` — such a visit ends, and a visit from a directory reports the files
  that the walk comes to, in the same order.

The table of a disk is in the order of whole locations, while a visit sees the names of one
directory at a time. In a tree both come to the same.
-/

namespace LogConsole

theorem Location.append_lt_append_iff (top a b : Location) : top ++ a < top ++ b ↔ a < b := by
  induction top with
  | nil => rfl
  | cons s rest ih => simp [ih]

namespace Disk

variable {d : Disk}

/-! ## What is below a location -/

/-- What is below a location, by the names that lead there from it. -/
def below (d : Disk) (top : Location) : List (Location × Node) :=
  d.nodes.filterMap fun e =>
    match below? top e.1 with
    | some (s :: rest) => some (s :: rest, e.2)
    | _ => none

theorem mem_below {top ss : Location} {n : Node} :
    (ss, n) ∈ d.below top ↔ (top ++ ss, n) ∈ d.nodes ∧ ss ≠ [] := by
  rw [below, List.mem_filterMap]
  constructor
  · rintro ⟨⟨l, m⟩, he, h⟩
    dsimp only at h
    split at h <;> cases h
    rename_i hbelow
    exact ⟨below?_eq_some.1 hbelow ▸ he, List.cons_ne_nil _ _⟩
  · rintro ⟨he, nonempty⟩
    refine ⟨_, he, ?_⟩
    obtain ⟨s, rest, rfl⟩ := List.exists_cons_of_ne_nil nonempty
    rw [below?_eq_some.2 rfl]

theorem Tree.sorted_below (tree : d.Tree) (top : Location) :
    (d.below top).Pairwise fun a b => a.1 < b.1 := by
  refine tree.sorted.filterMap _ ?_
  rintro ⟨k, m⟩ ⟨l, n⟩ before a ha b hb
  dsimp only at ha hb before
  split at ha <;> cases ha
  rename_i hk
  split at hb <;> cases hb
  rename_i hl
  rw [below?_eq_some.1 hk, below?_eq_some.1 hl] at before
  exact (Location.append_lt_append_iff _ _ _).1 before

/-- What something is below is a directory. -/
theorem Rooted.above_append (rooted : d.Rooted) {l ss : Location} {n : Node}
    (h : (l ++ ss, n) ∈ d.nodes) (deeper : ss ≠ []) : (l, .dir) ∈ d.nodes := by
  induction ss using List.reverseRecOn generalizing n with
  | nil => exact absurd rfl deeper
  | append_singleton before s ih =>
    have parent := rooted.above _ h
    rw [← List.append_assoc, List.dropLast_concat] at parent
    by_cases first : before = []
    · simpa [first] using parent
    · exact ih parent first

theorem Rooted.below_eq_nil (rooted : d.Rooted) (tree : d.Tree) {l : Location} {n : Node}
    (h : (l, n) ∈ d.nodes) (other : n ≠ .dir) : d.below l = [] := by
  refine List.eq_nil_iff_forall_not_mem.2 fun ⟨ss, m⟩ hm => ?_
  obtain ⟨hm, deeper⟩ := mem_below.1 hm
  exact other (tree.eq_of_mem h (rooted.above_append hm deeper))

/-- The entries of a directory by their names. -/
def entriesOf (d : Disk) (top : Location) : List (String × Node) :=
  (d.below top).filterMap fun e =>
    match e.1 with
    | [s] => some (s, e.2)
    | _ => none

theorem mem_entriesOf {top : Location} {s : String} {n : Node} :
    (s, n) ∈ d.entriesOf top ↔ (top ++ [s], n) ∈ d.nodes := by
  rw [entriesOf, List.mem_filterMap]
  constructor
  · rintro ⟨⟨ss, m⟩, he, h⟩
    dsimp only at h
    split at h <;> cases h
    exact (mem_below.1 he).1
  · intro h
    exact ⟨([s], n), mem_below.2 ⟨h, List.cons_ne_nil _ _⟩, rfl⟩

theorem Tree.sorted_entriesOf (tree : d.Tree) (top : Location) :
    (d.entriesOf top).Pairwise fun a b => a.1 < b.1 := by
  refine (tree.sorted_below top).filterMap _ ?_
  rintro ⟨k, m⟩ ⟨l, n⟩ before a ha b hb
  dsimp only at ha hb before
  split at ha <;> cases ha
  split at hb <;> cases hb
  simpa [List.cons_lt_cons_iff] using before

/-- What is below an entry, and the entry itself first, by the names that lead there from its
directory. -/
def entryAndBelow (d : Disk) (top : Location) (e : String × Node) : List (Location × Node) :=
  ([e.1], e.2) :: (d.below (top ++ [e.1])).map fun f => (e.1 :: f.1, f.2)

theorem mem_entryAndBelow {top : Location} {e : String × Node} {f : Location × Node}
    (h : f ∈ d.entryAndBelow top e) : ∃ rest, f.1 = e.1 :: rest := by
  rcases List.mem_cons.1 h with rfl | h
  · exact ⟨[], rfl⟩
  · obtain ⟨g, -, rfl⟩ := List.mem_map.1 h
    exact ⟨g.1, rfl⟩

theorem Tree.sorted_entryAndBelow (tree : d.Tree) (top : Location) (e : String × Node) :
    (d.entryAndBelow top e).Pairwise fun a b => a.1 < b.1 := by
  refine List.pairwise_cons.2 ⟨fun f hf => ?_, List.pairwise_map.2 ?_⟩
  · obtain ⟨⟨ss, n⟩, hg, rfl⟩ := List.mem_map.1 hf
    obtain ⟨s, rest, rfl⟩ := List.exists_cons_of_ne_nil (mem_below.1 hg).2
    simp
  · exact (tree.sorted_below _).imp fun h => List.cons_lt_cons_self.2 h

/-- An entry of a directory is followed by what is below it, and all that by the next entry. -/
theorem below_eq_flatMap (tree : d.Tree) (rooted : d.Rooted) (top : Location) :
    d.below top = (d.entriesOf top).flatMap (d.entryAndBelow top) := by
  have irrefl : Std.Irrefl fun a b : Location × Node => a.1 < b.1 := ⟨fun a => lt_irrefl a.1⟩
  have antisymm : Std.Antisymm fun a b : Location × Node => a.1 < b.1 :=
    ⟨fun _ _ h k => absurd h k.asymm⟩
  refine (tree.sorted_below top).eq_of_mem_iff (List.pairwise_flatMap.2 ⟨?_, ?_⟩) ?_
  · exact fun e _ => tree.sorted_entryAndBelow top e
  · refine (tree.sorted_entriesOf top).imp fun before f hf g hg => ?_
    obtain ⟨_, hf⟩ := mem_entryAndBelow hf
    obtain ⟨_, hg⟩ := mem_entryAndBelow hg
    rw [hf, hg]
    exact List.cons_lt_cons_iff.2 (.inl before)
  · rintro ⟨ss, n⟩
    rw [mem_below, List.mem_flatMap]
    constructor
    · rintro ⟨hn, nonempty⟩
      obtain ⟨s, rest, rfl⟩ := List.exists_cons_of_ne_nil nonempty
      by_cases direct : rest = []
      · subst direct
        exact ⟨(s, n), mem_entriesOf.2 hn, List.mem_cons_self⟩
      · -- what is deeper down is below an entry that is a directory
        have there : (top ++ [s] ++ rest, n) ∈ d.nodes := by simpa using hn
        have dir := rooted.above_append there direct
        exact ⟨(s, .dir), mem_entriesOf.2 dir, List.mem_cons_of_mem _
          (List.mem_map.2 ⟨(rest, n), mem_below.2 ⟨there, direct⟩, rfl⟩)⟩
    · rintro ⟨⟨s, m⟩, he, hf⟩
      rcases List.mem_cons.1 hf with h | h
      · cases h
        exact ⟨mem_entriesOf.1 he, List.cons_ne_nil _ _⟩
      · obtain ⟨⟨rest, k⟩, hg, h⟩ := List.mem_map.1 h
        cases h
        refine ⟨?_, List.cons_ne_nil _ _⟩
        simpa using (mem_below.1 hg).1

/-! ## Visits -/

/-- What a visit has come to and not yet taken up. -/
structure Waiting where
  path : String
  location : Location
  node : Node

/-- The entries of a directory, with names that start with its own. -/
def inside (d : Disk) (w : Waiting) : List Waiting :=
  (d.entriesOf w.location).map fun e => ⟨Path.join w.path e.1, w.location ++ [e.1], e.2⟩

/-- A visit depth first: what is waiting is taken up in order, and the entries of a directory are
put in its place. No name leads outside of the directory, as there are no links. -/
inductive Visits (d : Disk) : List Waiting → List String → Prop where
  | done : Visits d [] []
  | file {w : Waiting} {rest : List Waiting} {found : List String} {id : Nat}
      (here : w.node = .file id) (more : Visits d rest found) :
      Visits d (w :: rest) (w.path :: found)
  | directory {w : Waiting} {rest : List Waiting} {found : List String}
      (here : w.node = .dir) (more : Visits d (d.inside w ++ rest) found) :
      Visits d (w :: rest) found
  | device {w : Waiting} {rest : List Waiting} {found : List String}
      (here : w.node = .sink ∨ w.node = .full) (more : Visits d rest found) :
      Visits d (w :: rest) found

/-- The files that are to be reported for what is waiting. -/
def reports (d : Disk) (w : Waiting) : List String :=
  match w.node with
  | .file _ => [w.path]
  | .dir => (d.filesBelow w.location).map fun names => names.foldl Path.join w.path
  | _ => []

/-- The name of a regular file. -/
def fileName? (e : Location × Node) : Option Location :=
  match e.2 with
  | .file _ => some e.1
  | _ => none

theorem filesBelow_eq_filterMap (d : Disk) (top : Location) :
    d.filesBelow top = (d.below top).filterMap fileName? := by
  rw [filesBelow, below, List.filterMap_filterMap]
  refine List.filterMap_congr fun e _ => ?_
  obtain ⟨l, n⟩ := e
  dsimp only
  cases below? top l with
  | none => cases n <;> rfl
  | some ss => cases ss <;> cases n <;> rfl

/-- The files below a location are in the order of their names. -/
theorem Tree.sorted_filesBelow (tree : d.Tree) (top : Location) :
    (d.filesBelow top).Pairwise (· < ·) := by
  rw [filesBelow_eq_filterMap]
  refine (tree.sorted_below top).filterMap _ ?_
  rintro ⟨ss, m⟩ ⟨tt, n⟩ before a ha b hb
  cases m <;> cases ha
  cases n <;> cases hb
  exact before

theorem reports_entry (tree : d.Tree) (rooted : d.Rooted) {top : Location} {e : String × Node}
    (he : e ∈ d.entriesOf top) (path : String) :
    ((d.entryAndBelow top e).filterMap fileName?).map (fun names => names.foldl Path.join path)
      = d.reports ⟨Path.join path e.1, top ++ [e.1], e.2⟩ := by
  obtain ⟨s, n⟩ := e
  have there := mem_entriesOf.1 he
  cases n with
  | dir =>
    have deeper : (fileName? ∘ fun f : Location × Node => (s :: f.1, f.2))
        = fun f => (fileName? f).map (s :: ·) := by
      funext ⟨ss, m⟩
      cases m <;> rfl
    rw [entryAndBelow, List.filterMap_cons_none rfl, List.filterMap_map, deeper, reports,
      filesBelow_eq_filterMap, List.map_filterMap, List.map_filterMap]
    simp [Option.map_map, Function.comp_def]
  | file id => simp [entryAndBelow, rooted.below_eq_nil tree there, fileName?, reports]
  | sink | full => simp [entryAndBelow, rooted.below_eq_nil tree there, fileName?, reports]

/-- A directory reports what its entries report. -/
theorem reports_directory (tree : d.Tree) (rooted : d.Rooted) {w : Waiting} (here : w.node = .dir) :
    d.reports w = (d.inside w).flatMap d.reports := by
  rw [reports, here]
  dsimp only
  rw [filesBelow_eq_filterMap, below_eq_flatMap tree rooted, List.filterMap_flatMap,
    List.map_flatMap, inside, List.flatMap_map]
  exact List.flatMap_congr fun e he => reports_entry tree rooted he w.path

/-- The number of things that a visit takes up for what is waiting. -/
def weight (d : Disk) : List Waiting → Nat
  | [] => 0
  | w :: rest => (d.below w.location).length + 1 + d.weight rest

theorem weight_append (d : Disk) (waiting rest : List Waiting) :
    d.weight (waiting ++ rest) = d.weight waiting + d.weight rest := by
  induction waiting with
  | nil => simp [weight]
  | cons w more ih =>
    rw [List.cons_append, weight, weight, ih]
    omega

theorem weight_inside (tree : d.Tree) (rooted : d.Rooted) (w : Waiting) :
    d.weight (d.inside w) = (d.below w.location).length := by
  rw [below_eq_flatMap tree rooted, inside]
  induction d.entriesOf w.location with
  | nil => rfl
  | cons e rest ih =>
    rw [List.map_cons, weight, ih, List.flatMap_cons, List.length_append, entryAndBelow,
      List.length_cons, List.length_map]

theorem Visits.eq (tree : d.Tree) (rooted : d.Rooted) {waiting : List Waiting}
    {found : List String} (h : d.Visits waiting found) : found = waiting.flatMap d.reports := by
  induction h with
  | done => rfl
  | file here _ ih => simp [ih, reports, here]
  | @directory w rest found here _ ih =>
    rw [ih, List.flatMap_append, List.flatMap_cons, reports_directory tree rooted here]
  | @device w rest found here _ ih =>
    have silent : d.reports w = [] := by
      rcases here with here | here <;> simp [reports, here]
    rw [ih, List.flatMap_cons, silent, List.nil_append]

/-- A visit ends: by what is below the location, each thing that is taken up leaves less to do. -/
theorem exists_visits (tree : d.Tree) (rooted : d.Rooted) (waiting : List Waiting) :
    ∃ found, d.Visits waiting found := by
  induction h : d.weight waiting using Nat.strong_induction_on generalizing waiting with
  | _ total ih =>
    subst h
    cases waiting with
    | nil => exact ⟨[], .done⟩
    | cons w rest =>
      have less : d.weight rest < d.weight (w :: rest) := by
        rw [weight]
        omega
      cases here : w.node with
      | file id =>
        obtain ⟨found, more⟩ := ih _ less rest rfl
        exact ⟨_, .file here more⟩
      | dir =>
        have opened : d.weight (d.inside w ++ rest) < d.weight (w :: rest) := by
          rw [weight_append, weight_inside tree rooted, weight]
          omega
        obtain ⟨found, more⟩ := ih _ opened (d.inside w ++ rest) rfl
        exact ⟨_, .directory here more⟩
      | sink =>
        obtain ⟨found, more⟩ := ih _ less rest rfl
        exact ⟨_, .device (.inl here) more⟩
      | full =>
        obtain ⟨found, more⟩ := ih _ less rest rfl
        exact ⟨_, .device (.inr here) more⟩

theorem visits_iff (tree : d.Tree) (rooted : d.Rooted) {waiting : List Waiting}
    {found : List String} : d.Visits waiting found ↔ found = waiting.flatMap d.reports := by
  refine ⟨Visits.eq tree rooted, ?_⟩
  rintro rfl
  obtain ⟨found, visits⟩ := exists_visits tree rooted waiting
  rwa [visits.eq tree rooted] at visits

theorem isDir_iff {dir : String} : d.isDir dir = true ↔ ∃ top, d.find dir = .ok (top, .dir) := by
  unfold isDir
  split <;> simp_all

theorem walk_of_not_isDir {dir : String} (no : d.isDir dir = false) : d.walk dir = [] := by
  unfold walk
  split
  case h_1 there => simp [isDir, there] at no
  case h_2 => rfl

/-- A visit from a directory; no other name is visited. -/
inductive VisitsFrom (d : Disk) (dir : String) (found : List String) : Prop where
  | directory {top : Location} (there : d.find dir = .ok (top, .dir))
      (visits : d.Visits [⟨dir, top, .dir⟩] found) : VisitsFrom d dir found
  | nothing (no : d.isDir dir = false) (empty : found = []) : VisitsFrom d dir found

/-- A visit from a directory reports what the walk comes to. -/
theorem visitsFrom_iff (tree : d.Tree) (rooted : d.Rooted) {dir : String} {found : List String} :
    d.VisitsFrom dir found ↔ found = d.walk dir := by
  have visited {top : Location} (there : d.find dir = .ok (top, .dir)) :
      d.walk dir = [⟨dir, top, .dir⟩].flatMap d.reports := by
    simp [walk, there, reports]
  constructor
  · rintro (⟨there, visits⟩ | ⟨no, rfl⟩)
    · rw [visited there, visits.eq tree rooted]
    · exact (walk_of_not_isDir no).symm
  · rintro rfl
    cases there : d.isDir dir with
    | false => exact .nothing there (walk_of_not_isDir there)
    | true =>
      obtain ⟨top, there⟩ := isDir_iff.1 there
      exact .directory there ((visits_iff tree rooted).2 (visited there))

end Disk

end LogConsole
