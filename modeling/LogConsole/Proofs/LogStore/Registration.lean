import LogConsole.Proofs.Disk.Spelling
import LogConsole.Proofs.LogStore.Rotation
import Mathlib.Data.List.Dedup

/-!
# LogConsole.Proofs.LogStore.Registration

How often a file is registered, and how often its lines are read.

* `Registered d names s`    — a store in which names have been registered: one entry for each
  spelling among them;
* `Registered.addPath`      — each call registers the files of its input;
* `Added d calls s`         — calls one after the other, all of which succeed;
* `Added.registered`        — the invariant, for the files of all inputs;
* `Added.lines_of_file`     — the first rescan reads each entry of a file from its start;
* `ingested_per_spelling`   — the result: a file is read once for each way in which the calls that
  come to it spell it;
* `ingested_once`           — once, if no call goes through `.` or `..`, and all of them start from
  the root or none;
* `line_ingested_twice`     — a directory `.`, and a file in it.

An input is looked for among those that are there by its name. The names of the files below a
directory start with the name of the directory, as it is given.
-/

namespace LogConsole.LogStore

open Path (spelling)

variable {d : Disk}

/-! ## Entries -/

/-- A store in which names have been registered, and nothing else has been done. -/
structure Registered (d : Disk) (names : List String) (s : LogStore) : Prop where
  apart : (s.files.map fun f => spelling f.path).Nodup
  spellings : ∀ k, k ∈ s.files.map (fun f => spelling f.path) ↔ k ∈ names.map spelling
  unread : ∀ f ∈ s.files, f = { path := f.path }
  found : ∀ f ∈ s.files, f.path ∈ names ∧ ∃ entry, d.find f.path = .ok entry
  lines : s.lines = []
  virtuals : s.virtuals = []

theorem registered_start (d : Disk) : Registered d [] {} where
  apart := List.nodup_nil
  spellings _ := Iff.rfl
  unread := by simp
  found := by simp
  lines := rfl
  virtuals := rfl

namespace Registered

variable {names : List String} {s s' : LogStore}

/-- A name that is spelled like one of those that are there. -/
theorem known {p : String} (h : Registered d names s)
    (old : spelling p ∈ s.files.map fun f => spelling f.path) :
    Registered d (names ++ [p]) s := by
  refine ⟨h.apart, fun k => ?_, h.unread, fun f hf => ?_, h.lines, h.virtuals⟩
  · rw [h.spellings, List.map_append, List.mem_append, List.map_singleton, List.mem_singleton]
    exact ⟨.inl, fun k => k.elim id fun same => same ▸ (h.spellings _).1 old⟩
  · exact (h.found f hf).imp_left (List.mem_append_left _)

theorem new {p : String} {entry : Location × Node} (h : Registered d names s)
    (there : d.find p = .ok entry) (new : spelling p ∉ s.files.map fun f => spelling f.path) :
    Registered d (names ++ [p]) { s with files := s.files ++ [{ path := p }] } := by
  refine ⟨?_, fun k => ?_, ?_, ?_, h.lines, h.virtuals⟩
  · rw [List.map_append, List.map_singleton, ← List.concat_eq_append]
    exact h.apart.concat new
  · rw [List.map_append, List.map_append, List.mem_append, List.mem_append, h.spellings,
      List.map_singleton, List.map_singleton]
  · exact List.forall_mem_append.2 ⟨h.unread, by simp⟩
  · refine List.forall_mem_append.2 ⟨fun f hf => ?_, fun f hf => ?_⟩
    · exact (h.found f hf).imp_left (List.mem_append_left _)
    · obtain rfl := List.mem_singleton.1 hf
      exact ⟨by simp, entry, there⟩

theorem addFile {p : String} (h : Registered d names s) (ok : s.addFile d p = .ok s') :
    Registered d (names ++ [p]) s' := by
  have same : s.files.any (fun f => Path.same f.path p) = true ↔
      spelling p ∈ s.files.map fun f => spelling f.path := by
    simp only [List.any_eq_true, List.mem_map, Path.same_iff]
  rw [LogStore.addFile] at ok
  split at ok
  · cases ok
  case h_2 entry there =>
    split at ok
    case isTrue old =>
      cases ok
      exact h.known (same.1 old)
    case isFalse unknown =>
      cases ok
      exact h.new there (mt same.2 unknown)

theorem addFiles {paths : List String} (h : Registered d names s)
    (ok : s.addFiles d paths = (.ok (), s')) : Registered d (names ++ paths) s' := by
  induction paths generalizing s names with
  | nil =>
    cases ok
    rwa [List.append_nil]
  | cons p rest ih =>
    rw [LogStore.addFiles] at ok
    split at ok
    · cases ok
    case h_2 t one =>
      have both := ih (h.addFile one) ok
      rwa [List.append_assoc] at both

theorem addPath {input : String} {n : Nat} (h : Registered d names s)
    (ok : s.addPath d input = (.ok n, s')) : Registered d (names ++ d.namesUnder input) s' := by
  simp only [LogStore.addPath] at ok
  split at ok
  case h_1 t all =>
    cases ok
    exact h.addFiles all
  case h_2 => cases ok

end Registered

/-- Calls one after the other, all of which succeed. -/
inductive Added (d : Disk) : List String → LogStore → Prop
  | start : Added d [] {}
  | more {calls : List String} {s s' : LogStore} {input : String} {n : Nat}
      (before : Added d calls s) (ok : s.addPath d input = (.ok n, s')) :
      Added d (calls ++ [input]) s'

theorem Added.registered {calls : List String} {s : LogStore} (h : Added d calls s) :
    Registered d (calls.flatMap d.namesUnder) s := by
  induction h with
  | start => exact registered_start d
  | more _ ok ih =>
    rw [List.flatMap_append, List.flatMap_singleton]
    exact ih.addPath ok

/-! ## One file -/

/-- The names under which a file is registered. -/
def namesOf (d : Disk) (s : LogStore) (l : Location) : List String :=
  (s.files.map (·.path)).filter fun p => d.locationOf p == l

/-- The ways in which the calls that come to a file spell it. -/
def spellings (d : Disk) (calls : List String) (l : Location) : List (Bool × List String) :=
  ((calls.filter fun input => d.comesTo input l).map fun input => d.spelled input l).dedup

theorem mem_spellings {calls : List String} {l : Location} {k : Bool × List String} :
    k ∈ spellings d calls l ↔
      ∃ input ∈ calls, d.comesTo input l = true ∧ d.spelled input l = k := by
  simp [spellings, and_assoc]

/-- A file is spelled in one way, if all calls that come to it agree. -/
theorem length_spellings_eq_one_iff {calls : List String} {l : Location} :
    (spellings d calls l).length = 1 ↔
      (∃ input ∈ calls, d.comesTo input l = true) ∧
      ∀ input ∈ calls, ∀ other ∈ calls, d.comesTo input l = true → d.comesTo other l = true →
        d.spelled input l = d.spelled other l := by
  constructor
  · intro one
    obtain ⟨k, only⟩ := List.length_eq_one_iff.1 one
    have all {input : String} (call : input ∈ calls) (comes : d.comesTo input l = true) :
        d.spelled input l = k := by
      have member : d.spelled input l ∈ spellings d calls l :=
        mem_spellings.2 ⟨input, call, comes, rfl⟩
      rw [only] at member
      exact List.mem_singleton.1 member
    obtain ⟨input, call, comes, -⟩ := mem_spellings.1 (only ▸ List.mem_singleton_self k)
    exact ⟨⟨input, call, comes⟩, fun _ call _ call' comes comes' =>
      (all call comes).trans (all call' comes').symm⟩
  · rintro ⟨⟨input, call, comes⟩, agree⟩
    have alone : spellings d calls l = [d.spelled input l] := by
      refine List.perm_singleton.1 ((List.perm_ext_iff_of_nodup (List.nodup_dedup _)
        (List.nodup_singleton _)).2 fun k => ?_)
      rw [← spellings, mem_spellings, List.mem_singleton]
      constructor
      · rintro ⟨other, call', comes', rfl⟩
        exact agree other call' input call comes' comes
      · rintro rfl
        exact ⟨input, call, comes, rfl⟩
    rw [alone, List.length_singleton]

section OneFile

variable (tree : d.Tree) {calls : List String} {s : LogStore} {l : Location}

include tree

/-- The entries of a file are as many as its spellings. -/
theorem Added.perm_spellings (h : Added d calls s) (file : l ∈ d.files) :
    ((namesOf d s l).map spelling).Perm (spellings d calls l) := by
  have registered := h.registered
  refine (List.perm_ext_iff_of_nodup ?_ (List.nodup_dedup _)).2 fun k => ?_
  · have all : ((s.files.map (·.path)).map spelling).Nodup := by
      rw [List.map_map]
      exact registered.apart
    exact all.sublist (List.filter_sublist.map spelling)
  · rw [← spellings, mem_spellings]
    constructor
    · intro member
      obtain ⟨p, named, rfl⟩ := List.mem_map.1 member
      obtain ⟨entry, place⟩ := List.mem_filter.1 named
      obtain ⟨f, hf, rfl⟩ := List.mem_map.1 entry
      obtain ⟨input, call, under⟩ := List.mem_flatMap.1 (registered.found f hf).1
      obtain rfl : d.locationOf f.path = l := beq_iff_eq.1 place
      exact ⟨input, call, (Disk.exists_under_iff tree file).1 ⟨f.path, under, rfl⟩,
        (Disk.spelling_under tree under).symm⟩
    · rintro ⟨input, call, comes, rfl⟩
      obtain ⟨p, under, rfl⟩ := (Disk.exists_under_iff tree file).2 comes
      rw [← Disk.spelling_under tree under]
      have reached : spelling p ∈ (calls.flatMap d.namesUnder).map spelling :=
        List.mem_map_of_mem (List.mem_flatMap.2 ⟨input, call, under⟩)
      obtain ⟨f, hf, same⟩ := List.mem_map.1 ((registered.spellings _).2 reached)
      refine List.mem_map.2 ⟨f.path, List.mem_filter.2 ⟨List.mem_map_of_mem hf, ?_⟩, same⟩
      exact beq_iff_eq.2 (Disk.locationOf_of_same same)

end OneFile

/-! ## The first rescan -/

theorem readFileInput_unread {p : String} {bytes : List UInt8} (read : d.read p = .ok bytes) :
    (readFileInput d { path := p }).1 = numberedLines p 0 (fileLines bytes) := by
  have long := readFileInput_long (f := { path := p }) read (Nat.zero_le _)
  rwa [List.drop_zero] at long

theorem flatMap_of_filter {α β : Type} {q : α → Bool} {g h : α → List β} {elements : List α}
    (inside : ∀ a ∈ elements, q a = true → g a = h a)
    (outside : ∀ a ∈ elements, q a = false → g a = []) :
    elements.flatMap g = (elements.filter q).flatMap h := by
  induction elements with
  | nil => rfl
  | cons a rest ih =>
    obtain ⟨first, others⟩ := List.forall_mem_cons.1 inside
    obtain ⟨first', others'⟩ := List.forall_mem_cons.1 outside
    rw [List.flatMap_cons, ih others others']
    cases hq : q a with
    | true => rw [List.filter_cons_of_pos hq, List.flatMap_cons, first hq]
    | false =>
      rw [List.filter_cons_of_neg (by simp [hq]), first' hq, List.nil_append]

/-- The lines of a file, with the names under which it is registered. -/
theorem Registered.lines_of {names : List String} {s : LogStore} (h : Registered d names s)
    {l : Location} {bytes : List UInt8} (read : ∀ p ∈ namesOf d s l, d.read p = .ok bytes) :
    ((s.rescan d).2.lines.filter fun line => d.locationOf line.path == l)
      = (namesOf d s l).flatMap fun p => numberedLines p 0 (fileLines bytes) := by
  have lines : (s.rescan d).2.lines = s.files.flatMap fun f => (readFileInput d f).1 := by
    rw [rescan_lines, h.lines, h.virtuals, List.flatMap_map]
    simp
  rw [lines, List.filter_flatMap, namesOf, List.filter_map, List.flatMap_map]
  refine flatMap_of_filter (fun f hf here => ?_) fun f hf other => ?_
  · have named : f.path ∈ namesOf d s l :=
      List.mem_filter.2 ⟨List.mem_map_of_mem hf, here⟩
    have all : (readFileInput d f).1 = numberedLines f.path 0 (fileLines bytes) := by
      rw [h.unread f hf]
      exact readFileInput_unread (read f.path named)
    rw [all, List.filter_eq_self]
    intro line hline
    rw [path_of_mem_numberedLines hline]
    exact here
  · rw [List.filter_eq_nil_iff]
    intro line hline
    rw [path_of_mem_readFileInput hline]
    exact Bool.not_eq_true _ ▸ other

theorem filter_number (path : String) (before : Nat) (lines : List String) {k : Nat}
    (hk : k < lines.length) :
    ((numberedLines path before lines).filter fun line => line.number == before + k + 1)
      = [⟨path, before + k + 1, lines[k]⟩] := by
  induction lines generalizing before k with
  | nil => cases hk
  | cons line rest ih =>
    rw [numberedLines_cons]
    cases k with
    | zero =>
      have later : ∀ x ∈ numberedLines path (before + 1) rest,
          ¬ (x.number == before + 0 + 1) = true := by
        intro x hx
        simp only [numberedLines, List.mem_map] at hx
        obtain ⟨⟨body, i⟩, -, rfl⟩ := hx
        simp only [beq_iff_eq]
        omega
      rw [List.filter_cons_of_pos (by simp), List.filter_eq_nil_iff.2 later]
      rfl
    | succ k =>
      have number : before + (k + 1) + 1 = before + 1 + k + 1 := by omega
      rw [number, List.filter_cons_of_neg, ih (before + 1) (Nat.lt_of_succ_lt_succ hk)]
      · rfl
      · simp only [beq_iff_eq]
        omega

section Whole

variable (tree : d.Tree) (rooted : d.Rooted) {calls : List String} {s : LogStore}
  (added : Added d calls s) {l : Location} {id : Nat} (file : (l, .file id) ∈ d.nodes)

include tree rooted added file

theorem Added.lines_of_file :
    ((s.rescan d).2.lines.filter fun line => d.locationOf line.path == l)
      = (namesOf d s l).flatMap fun p => numberedLines p 0 (fileLines (d.contentsOf id)) := by
  refine added.registered.lines_of fun p named => ?_
  obtain ⟨entry, place⟩ := List.mem_filter.1 named
  obtain ⟨f, hf, rfl⟩ := List.mem_map.1 entry
  obtain ⟨-, ⟨k, n⟩, found⟩ := added.registered.found f hf
  obtain rfl : k = l := (Disk.find_eq_location found).trans (beq_iff_eq.1 place)
  obtain rfl := tree.eq_of_mem (rooted.mem_of_find found) file
  rw [Disk.read, found]
  rfl

omit rooted in
theorem Added.length_names_eq_one_iff : (namesOf d s l).length = 1 ↔
    (∃ input ∈ calls, d.comesTo input l = true) ∧
    ∀ input ∈ calls, ∀ other ∈ calls, d.comesTo input l = true → d.comesTo other l = true →
      d.spelled input l = d.spelled other l := by
  have perm := added.perm_spellings tree (Disk.mem_files.2 ⟨id, file⟩)
  rw [← length_spellings_eq_one_iff, ← perm.length_eq, List.length_map]

end Whole

/-- **A file is read once for each way in which it is spelled.** Let inputs be added, one after the
other and without a failure, on a tree of files. Whatever inputs they are and however they overlap:
a regular file is registered under as many names as there are spellings of it among the calls that
come to it, so exactly once if and only if there is such a call and all of them spell it alike. The
first rescan reads all its whole lines for each of these names, and each line exactly once for each
of them. -/
theorem ingested_per_spelling (tree : d.Tree) (rooted : d.Rooted) {calls : List String}
    {s : LogStore} (added : Added d calls s) {l : Location} {id : Nat}
    (file : (l, .file id) ∈ d.nodes) :
    ((namesOf d s l).map spelling).Perm (spellings d calls l) ∧
    ((namesOf d s l).length = 1 ↔ (∃ input ∈ calls, d.comesTo input l = true) ∧
      ∀ input ∈ calls, ∀ other ∈ calls, d.comesTo input l = true → d.comesTo other l = true →
        d.spelled input l = d.spelled other l) ∧
    ((s.rescan d).2.lines.filter fun line => d.locationOf line.path == l)
      = (namesOf d s l).flatMap (fun p => numberedLines p 0 (fileLines (d.contentsOf id))) ∧
    ∀ k (hk : k < (fileLines (d.contentsOf id)).length),
      ((s.rescan d).2.lines.filter fun line => line.number == k + 1 && d.locationOf line.path == l)
        = (namesOf d s l).map fun p => ⟨p, k + 1, (fileLines (d.contentsOf id))[k]⟩ := by
  have lines := added.lines_of_file tree rooted file
  refine ⟨added.perm_spellings tree (Disk.mem_files.2 ⟨id, file⟩),
    added.length_names_eq_one_iff tree file, lines, fun k hk => ?_⟩
  have one (p : String) := filter_number p 0 (fileLines (d.contentsOf id)) hk
  simp only [Nat.zero_add] at one
  rw [← List.filter_filter, lines, List.filter_flatMap]
  simp only [one]
  exact List.map_eq_flatMap.symm

/-! ### Names without detours -/

theorem foldl_into_proper (l : Location) {ss : List String} (h : ∀ s ∈ ss, Path.Proper s) :
    ss.foldl Location.into l = l ++ ss := by
  induction ss generalizing l with
  | nil => simp
  | cons s rest ih =>
    obtain ⟨first, others⟩ := List.forall_mem_cons.1 h
    rw [List.foldl_cons, Location.into_proper l first, ih _ others, List.append_assoc,
      List.singleton_append]

theorem location_initial_of_comesTo {input : String} {l : Location} (h : d.comesTo input l = true) :
    d.locationOf input <+: l := by
  rw [Disk.comesTo] at h
  split at h
  case isTrue =>
    unfold Disk.holds at h
    split at h
    case h_1 hfind =>
      rw [← Disk.find_eq_location hfind]
      exact List.isPrefixOf_iff_prefix.1 (Bool.and_elim_left h)
    case h_2 => cases h
  case isFalse => exact beq_iff_eq.1 h ▸ List.prefix_rfl

/-- An input that does not go through `.` or `..` spells a location by the way to it. -/
theorem spelled_of_proper {input : String} (proper : ∀ s ∈ Path.components input, Path.Proper s)
    {l : Location} (comes : d.comesTo input l = true) :
    d.spelled input l = (Path.isAbsolute input,
      l.drop (if Path.isAbsolute input then [] else d.base).length) := by
  have place : d.locationOf input
      = (if Path.isAbsolute input then [] else d.base) ++ Path.components input := by
    rw [Disk.locationOf_eq, spelling, foldl_into_proper _ proper]
  obtain ⟨rest, rfl⟩ := location_initial_of_comesTo comes
  rw [Disk.spelled, List.drop_left, place, List.append_assoc, List.drop_left]

/-- Let no call go through `.` or `..`, and let all of them start from the root or none. Then each
file that one of them comes to is read once. -/
theorem ingested_once (tree : d.Tree) (rooted : d.Rooted) {calls : List String} {s : LogStore}
    (added : Added d calls s) {absolute : Bool} (plain : ∀ input ∈ calls,
      Path.isAbsolute input = absolute ∧ ∀ s ∈ Path.components input, Path.Proper s)
    {l : Location} {id : Nat} (file : (l, .file id) ∈ d.nodes)
    (reached : ∃ input ∈ calls, d.comesTo input l = true) :
    ∃ p, namesOf d s l = [p] ∧
      ((s.rescan d).2.lines.filter fun line => d.locationOf line.path == l)
        = numberedLines p 0 (fileLines (d.contentsOf id)) := by
  have agree : ∀ input ∈ calls, ∀ other ∈ calls, d.comesTo input l = true →
      d.comesTo other l = true → d.spelled input l = d.spelled other l := by
    intro input call other call' comes comes'
    rw [spelled_of_proper (plain input call).2 comes,
      spelled_of_proper (plain other call').2 comes', (plain input call).1, (plain other call').1]
  have one := (added.length_names_eq_one_iff tree file).2 ⟨reached, agree⟩
  obtain ⟨p, name⟩ := List.length_eq_one_iff.1 one
  refine ⟨p, name, ?_⟩
  rw [added.lines_of_file tree rooted file, name, List.flatMap_singleton]

/-! ### One file, two spellings -/

theorem oneFile_tree : (oneFile "one\n").Tree ∧ (oneFile "one\n").Rooted :=
  ⟨⟨by decide, by decide, by decide⟩, ⟨by decide, by decide, by decide⟩⟩

/-- A file, the directory that it is in, and the file with detours that do not count. -/
theorem line_ingested_once :
    (["a"], .file 0) ∈ (oneFile "one\n").nodes ∧
    Added (oneFile "one\n") ["/a", "/", "//./a"] { files := [⟨"/a", 0, 0⟩] } ∧
    (namesOf (oneFile "one\n") { files := [⟨"/a", 0, 0⟩] } ["a"]).length = 1 := by
  obtain ⟨tree, rooted⟩ := oneFile_tree
  have added : Added (oneFile "one\n") ["/a", "/", "//./a"] { files := [⟨"/a", 0, 0⟩] } :=
    .more (.more (.more .start rfl) rfl) rfl
  have file : (["a"], .file 0) ∈ (oneFile "one\n").nodes := by decide
  obtain ⟨-, once, -⟩ := ingested_per_spelling tree rooted added file
  exact ⟨file, added, once.2 ⟨by decide +kernel, by decide +kernel⟩⟩

/-- A directory spelled `.`, and a file in it by its own name: its line is read twice. -/
theorem line_ingested_twice :
    (oneFile "one\n").Tree ∧ (oneFile "one\n").Rooted ∧
    Added (oneFile "one\n") [".", "a"] { files := [⟨"./a", 0, 0⟩, ⟨"a", 0, 0⟩] } ∧
    (oneFile "one\n").locationOf "./a" = (oneFile "one\n").locationOf "a" ∧
    (({ files := [⟨"./a", 0, 0⟩, ⟨"a", 0, 0⟩] } : LogStore).rescan (oneFile "one\n")).2.lines
      = [⟨"./a", 1, "one"⟩, ⟨"a", 1, "one"⟩] :=
  ⟨oneFile_tree.1, oneFile_tree.2, .more (.more .start rfl) rfl, by decide +kernel,
    by decide +kernel⟩

end LogConsole.LogStore
