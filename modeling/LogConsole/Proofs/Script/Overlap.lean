import LogConsole.Proofs.Disk.Tree
import LogConsole.Proofs.Script.Resolution
import LogConsole.Session.Dispatch
import Mathlib.Data.List.Nodup

/-!
# LogConsole.Proofs.Script.Overlap

Which files a script name stands for, and how often each of them.

* `Disk.scripts`          — the script files of a name, by their locations;
* `locations_filesNamed`  — the index holds, for each search directory in turn, the script files
  that a search from there comes to;
* `count_filesNamed`      — so a file stands in it once for each search directory that holds it;
* `candidates_differ_iff` — the candidates for a name are different files if and only if none of
  those files is held by two of the search directories, where a directory that is listed twice
  counts twice;
* `candidates_differ`     — as long as no search directory lies in another they are;
* `script_found_twice`    — a configured directory that has the data directory's own one in it.

The directory in the data directory is left out if it is configured under its own name. Nothing else
is compared, neither the configured directories with each other nor what lies below them.
-/

namespace LogConsole

open Resolver (scriptName? isStdin)

/-- The name that a file at a location has as a script. -/
def Location.scriptName? (l : Location) : Option String := l.getLast?.bind Resolver.scriptName?

namespace Disk

variable {d : Disk}

/-- The script files of a name. -/
def scripts (d : Disk) (name : String) : List Location :=
  d.files.filter fun l => l.scriptName? == some name

/-- The directory makes no difference to the name of a script in it. -/
theorem scriptName?_join (dir : String) {s : String} (h : Path.Proper s) :
    scriptName? (Path.join dir s) = scriptName? s := by
  have own : Path.fileName? s = some s := by
    have joined := Path.fileName?_join "" h
    rwa [Path.join, h.isAbsolute, String.empty_append] at joined
  simp only [scriptName?, Path.extension?, Path.stem?, Path.fileName?_join dir h, own]

theorem Tree.scriptName?_walk (tree : d.Tree) {dir p : String} (h : p ∈ d.walk dir) :
    scriptName? p = (d.locationOf p).scriptName? := by
  obtain ⟨parent, s, proper, rfl⟩ := tree.exists_join_of_mem_walk h
  rw [scriptName?_join parent proper, locationOf_join parent proper, Location.scriptName?,
    List.getLast?_concat, Option.bind_some]

/-- Of two directories that hold a file, one lies in the other. -/
theorem nested_of_holds {dir other : String} {l : Location} (h : d.holds dir l = true)
    (h' : d.holds other l = true) :
    d.locationOf dir <+: d.locationOf other ∨ d.locationOf other <+: d.locationOf dir := by
  have above : ∀ dir, d.holds dir l = true → d.locationOf dir <+: l := by
    intro dir h
    unfold holds at h
    split at h
    case h_1 hfind =>
      rw [← find_eq_location hfind]
      exact List.isPrefixOf_iff_prefix.1 (Bool.and_elim_left h)
    case h_2 => cases h
  exact List.prefix_or_prefix_of_prefix (above dir h) (above other h')

end Disk

namespace Resolver

variable {d : Disk} {r : Resolver} {name : String}

/-! ## The index -/

theorem filesNamed_eq (r : Resolver) (d : Disk) (name : String) :
    r.filesNamed d name
      = r.directories.flatMap fun dir => (d.walk dir).filter (scriptName? · == some name) := by
  rw [filesNamed, scriptFiles, List.filter_filter, List.filter_flatMap]
  refine List.flatMap_congr fun dir _ => List.filter_congr fun p _ => ?_
  cases scriptName? p <;> simp

/-- The files of a name, directory by directory. -/
theorem locations_filesNamed (tree : d.Tree) (r : Resolver) (name : String) :
    (r.filesNamed d name).map d.locationOf
      = r.directories.flatMap fun dir => (d.scripts name).filter (d.holds dir) := by
  rw [filesNamed_eq, List.map_flatMap]
  refine List.flatMap_congr fun dir _ => ?_
  have here : (d.walk dir).filter (scriptName? · == some name)
      = (d.walk dir).filter ((fun l => l.scriptName? == some name) ∘ d.locationOf) :=
    List.filter_congr fun p hp => by
      rw [tree.scriptName?_walk hp, Function.comp_apply]
  rw [here, ← List.filter_map, tree.map_locationOf_walk, Disk.scripts, List.filter_filter,
    List.filter_filter]
  exact List.filter_congr fun l _ => Bool.and_comm _ _

/-- An element is counted once for each selection that it is in. -/
theorem count_flatMap_filter {α β : Type} [BEq α] [LawfulBEq α] {elements : List α}
    (nodup : elements.Nodup) (holds : β → α → Bool) {l : α} (h : l ∈ elements) (dirs : List β) :
    (dirs.flatMap fun dir => elements.filter (holds dir)).count l = dirs.countP (holds · l) := by
  induction dirs with
  | nil => rfl
  | cons dir rest ih =>
    rw [List.flatMap_cons, List.count_append, ih, List.countP_cons, Nat.add_comm]
    congr 1
    cases held : holds dir l with
    | true =>
      rw [List.count_filter held, List.count_eq_one_of_mem nodup h]
      rfl
    | false =>
      exact List.count_eq_zero_of_not_mem fun member => by
        simp [held] at member

theorem count_filesNamed (tree : d.Tree) (r : Resolver) {l : Location}
    (h : l ∈ d.scripts name) :
    ((r.filesNamed d name).map d.locationOf).count l = r.directories.countP (d.holds · l) := by
  rw [locations_filesNamed tree]
  exact count_flatMap_filter (tree.nodup_files.filter _) _ h _

theorem nodup_filesNamed_iff (tree : d.Tree) (r : Resolver) (name : String) :
    ((r.filesNamed d name).map d.locationOf).Nodup ↔
      ∀ l ∈ d.scripts name, r.directories.countP (d.holds · l) ≤ 1 := by
  rw [List.nodup_iff_count_le_one]
  constructor
  · intro once l h
    rw [← count_filesNamed tree r h]
    exact once l
  · intro once l
    by_cases h : l ∈ d.scripts name
    · rw [count_filesNamed tree r h]
      exact once l h
    · have absent : l ∉ (r.filesNamed d name).map d.locationOf := by
        rw [locations_filesNamed tree]
        intro member
        obtain ⟨dir, -, hl⟩ := List.mem_flatMap.1 member
        exact h (List.mem_of_mem_filter hl)
      rw [List.count_eq_zero_of_not_mem absent]
      exact Nat.zero_le 1

/-! ## Candidates -/

theorem locations_ofFile (d : Disk) (paths : List String) :
    (paths.map (Candidate.ofFile d)).map (fun c => d.locationOf c.name)
      = paths.map d.locationOf := by
  rw [List.map_map]
  refine List.map_congr_left fun path _ => ?_
  rw [Function.comp_apply, Candidate.name_ofFile]

section Candidates

variable (tree : d.Tree) {ctx : Context} {found : List Candidate} {r' : Resolver}
  (script : isStdin name = false) (h : r.resolve ctx d name = (.ok found, r'))

include tree script h

theorem nodup_candidates_iff :
    (found.map fun c => d.locationOf c.name).Nodup ↔
      ∀ l ∈ d.scripts name, r.directories.countP (d.holds · l) ≤ 1 := by
  have indexed := nodup_filesNamed_iff tree r name
  rcases resolve_script script h with rfl | ⟨none, path, rfl⟩
  · rw [locations_ofFile, indexed]
  · rw [none] at indexed
    exact iff_of_true (List.nodup_singleton _) (indexed.1 List.nodup_nil)

theorem count_candidates {l : Location} (hl : l ∈ d.scripts name) {dir : String}
    (hdir : dir ∈ r.directories) (held : d.holds dir l = true) :
    (found.map fun c => d.locationOf c.name).count l = r.directories.countP (d.holds · l) := by
  have counted := count_filesNamed tree r hl
  rcases resolve_script script h with rfl | ⟨none, -⟩
  · rw [locations_ofFile, counted]
  · have positive : 0 < r.directories.countP (d.holds · l) :=
      List.countP_pos_iff.2 ⟨dir, hdir, held⟩
    rw [none] at counted
    exact absurd counted positive.ne

end Candidates

/-- Two directories of which neither lies in the other, and which are not the same. -/
def Apart (d : Disk) (dir other : String) : Prop :=
  ¬ d.locationOf dir <+: d.locationOf other ∧ ¬ d.locationOf other <+: d.locationOf dir

theorem countP_holds_le_one {dirs : List String} (apart : dirs.Pairwise (Apart d))
    (l : Location) : dirs.countP (d.holds · l) ≤ 1 := by
  induction dirs with
  | nil => simp
  | cons dir rest ih =>
    obtain ⟨first, others⟩ := List.pairwise_cons.1 apart
    rw [List.countP_cons]
    cases held : d.holds dir l with
    | false => simpa [held] using ih others
    | true =>
      have alone : rest.countP (d.holds · l) = 0 := by
        refine List.countP_eq_zero.2 fun other hother held' => ?_
        rcases Disk.nested_of_holds held held' with h | h
        · exact (first other hother).1 h
        · exact (first other hother).2 h
      simp [alone]

/-- As long as no search directory lies in another, nothing is found twice. -/
theorem candidates_differ (tree : d.Tree) {ctx : Context} {found : List Candidate}
    {r' : Resolver} (script : isStdin name = false)
    (h : r.resolve ctx d name = (.ok found, r')) (apart : r.directories.Pairwise (Apart d)) :
    (found.map fun c => d.locationOf c.name).Nodup :=
  (nodup_candidates_iff tree script h).2 fun l _ => countP_holds_le_one apart l

/-- **A script is found as often as search directories hold it.** Whatever directories are
configured, wherever the data directory is and whatever files there are: the candidates for a name
that is not standard input are different files if and only if no script file of the name is held by
two of the search directories. A script file that is held by any of them is among the candidates
exactly as often as it is held. -/
theorem candidates_differ_iff (tree : d.Tree) (c : Config) (environment : Dict String)
    (dataDir : String) (taken : Bool) (ctx : Context) (script : isStdin name = false)
    {found : List Candidate} {r' : Resolver}
    (h : resolve ⟨c.searchDirectories environment dataDir, taken⟩ ctx d name = (.ok found, r')) :
    ((found.map fun c => d.locationOf c.name).Nodup ↔
      ∀ l ∈ d.scripts name,
        (c.searchDirectories environment dataDir).countP (d.holds · l) ≤ 1) ∧
    ∀ l ∈ d.scripts name, ∀ dir ∈ c.searchDirectories environment dataDir, d.holds dir l = true →
      (found.map fun c => d.locationOf c.name).count l
        = (c.searchDirectories environment dataDir).countP (d.holds · l) :=
  ⟨nodup_candidates_iff tree script h, fun _ hl _ hdir held =>
    count_candidates tree script h hl hdir held⟩

/-- A script of one name in two directories. -/
def twoReports : Disk where
  nodes := [([], .dir), (["data"], .dir), (["data", "scripts"], .dir),
    (["data", "scripts", "report.lsh"], .file 0), (["shared"], .dir),
    (["shared", "report.lsh"], .file 1)]
  contents := [Text.Utf8.encode "/hit\n", Text.Utf8.encode "/miss\n"]

theorem twoReports_tree : twoReports.Tree where
  sorted := by decide
  proper := by decide
  base := by decide

/-- The two are found, each of them once. -/
theorem both_reports_found :
    let c : Config := { scriptDirectories := ["shared"] }
    twoReports.Tree ∧ isStdin "report" = false ∧
    ∃ found r', resolve ⟨c.searchDirectories {} "data", false⟩ {} twoReports "report"
        = (.ok found, r') ∧
      found.map (fun c => twoReports.locationOf c.name)
        = [["shared", "report.lsh"], ["data", "scripts", "report.lsh"]] ∧
      (found.map fun c => twoReports.locationOf c.name).Nodup := by
  intro c
  have script : isStdin "report" = false := by decide
  have locations : (resolve ⟨c.searchDirectories {} "data", false⟩ {} twoReports "report").1.map
      (·.map fun c => twoReports.locationOf c.name)
        = .ok [["shared", "report.lsh"], ["data", "scripts", "report.lsh"]] := by decide +kernel
  have once : ∀ l ∈ twoReports.scripts "report",
      (c.searchDirectories {} "data").countP (twoReports.holds · l) ≤ 1 := by decide +kernel
  refine ⟨twoReports_tree, script, ?_⟩
  rcases h : resolve ⟨c.searchDirectories {} "data", false⟩ {} twoReports "report"
    with ⟨e | found, r'⟩
  · rw [h] at locations
    cases locations
  · rw [h] at locations
    obtain ⟨iff, -⟩ := candidates_differ_iff twoReports_tree c {} "data" false {} script h
    exact ⟨found, r', rfl, Except.ok.inj locations, iff.2 once⟩

end Resolver

namespace Session

/-- A session with a data directory that is configured as a script directory too. -/
def reportSession : Session :=
  configure { scriptDirectories := ["data"] } "data"
    { console := { world := { disk :=
      { nodes := [([], .dir), (["data"], .dir), (["data", "scripts"], .dir),
          (["data", "scripts", "report.lsh"], .file 0)]
        contents := [Text.Utf8.encode "/hit\n"] } } } }

/-- One file is two candidates, and to invoke its name runs it twice. -/
theorem script_found_twice :
    reportSession.disk.Tree ∧
    (reportSession.resolver.resolve reportSession.context reportSession.disk "report").1.map
      (·.map Candidate.name)
      = .ok ["data/scripts/report.lsh", "data/scripts/report.lsh"] ∧
    (executeAny 3 "|report" reportSession).map (fun ended => ended.2.host.calls)
      = some [.search "hit", .search "hit"] := by
  refine ⟨⟨by decide, by decide, by decide⟩, by decide +kernel, by decide +kernel⟩

end Session

end LogConsole
