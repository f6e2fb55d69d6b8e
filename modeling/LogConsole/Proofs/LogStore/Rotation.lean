import LogConsole.Proofs.LogStore.Ingestion

/-!
# LogConsole.Proofs.LogStore.Rotation

A file that has become shorter is read again from its start, if it ends before what has been read.

* `length_wholeLines_le`, `not_mem_drop` — what is left behind the last line feed;
* `Left f seen`    — a file that was `seen` when it was last read: it has been read up to a place
  behind which there is no line feed, and lines have been read from it unless that is its start;
* `readAppended_left` — reading a file leaves it so;
* `Watched path s seen` — a run of a store, and what the file `path` was when it was last read;
* `Watched.entries` — the invariant: an entry of that file has not been read, or is `Left`;
* `reads_whole_iff` — when reading gives the lines of the whole file, numbered from one;
* `rescan_of_shrunken` — the result for all runs;
* `line_lost_in_rotation` — a run in which a file has become shorter and its line is not read.

A store keeps the place up to which it has read a file, which is the end of a line. It does not know
how much of the next line was there.
-/

namespace LogConsole.LogStore

open Text (lossyLines lossyLines_eq_nil_iff)

/-! ## The rest behind the last line feed -/

theorem length_wholeLines_le (bytes : List UInt8) : (wholeLines bytes).length ≤ bytes.length :=
  (wholeLines_initial bytes).length_le

theorem not_mem_drop (bytes : List UInt8) : 10 ∉ bytes.drop (wholeLines bytes).length := by
  rcases last_lf bytes with h | ⟨before, tail, rfl, h⟩
  · intro hm
    exact h (List.mem_of_mem_drop hm)
  · have split : before ++ 10 :: tail = (before ++ [10]) ++ tail := by simp
    rw [wholeLines_append_lf h, split, List.drop_left]
    exact h

theorem wholeLines_eq_nil_iff {bytes : List UInt8} : wholeLines bytes = [] ↔ 10 ∉ bytes := by
  constructor
  · intro none hm
    have rest := not_mem_drop bytes
    rw [none] at rest
    exact rest hm
  · exact wholeLines_of_not_mem

theorem fileLines_eq_nil_iff {bytes : List UInt8} : fileLines bytes = [] ↔ 10 ∉ bytes := by
  rw [fileLines, lossyLines_eq_nil_iff, wholeLines_eq_nil_iff]

/-! ## Reading -/

/-- What has been read of a file that was `seen` then. -/
structure Left (f : FileInput) (seen : List UInt8) : Prop where
  bound : f.offset ≤ seen.length
  rest : 10 ∉ seen.drop f.offset
  start : f.offset = 0 ↔ f.linesRead = 0

/-- A file that ends before what has been read of it. -/
theorem readAppended_short {f : FileInput} {bytes : List UInt8} (h : bytes.length < f.offset) :
    readAppended f bytes
      = (fileLines bytes, { f with
          offset := (wholeLines bytes).length, linesRead := (fileLines bytes).length }) := by
  simp only [readAppended, if_pos h, List.drop_zero, Nat.zero_add]
  rfl

theorem readAppended_long {f : FileInput} {bytes : List UInt8} (h : f.offset ≤ bytes.length) :
    readAppended f bytes
      = (fileLines (bytes.drop f.offset), { f with
          offset := f.offset + (wholeLines (bytes.drop f.offset)).length
          linesRead := f.linesRead + (fileLines (bytes.drop f.offset)).length }) := by
  simp only [readAppended, if_neg (Nat.not_lt.2 h)]
  rfl

theorem readAppended_left {f : FileInput} (start : f.offset = 0 ↔ f.linesRead = 0)
    (bytes : List UInt8) : Left (readAppended f bytes).2 bytes := by
  by_cases short : bytes.length < f.offset
  · rw [readAppended_short short]
    refine ⟨length_wholeLines_le bytes, not_mem_drop bytes, ?_⟩
    rw [List.length_eq_zero_iff, List.length_eq_zero_iff, fileLines_eq_nil_iff,
      wholeLines_eq_nil_iff]
  · have long : f.offset ≤ bytes.length := Nat.le_of_not_lt short
    have whole := length_wholeLines_le (bytes.drop f.offset)
    rw [List.length_drop] at whole
    rw [readAppended_long long]
    refine ⟨?_, ?_, ?_⟩
    · dsimp only
      omega
    · rw [← List.drop_drop]
      exact not_mem_drop _
    · dsimp only
      rw [Nat.add_eq_zero_iff, Nat.add_eq_zero_iff, List.length_eq_zero_iff,
        List.length_eq_zero_iff, fileLines_eq_nil_iff, wholeLines_eq_nil_iff, start]

theorem readFileInput_short {disk : Disk} {f : FileInput} {bytes : List UInt8}
    (read : disk.read f.path = .ok bytes) (h : bytes.length < f.offset) :
    (readFileInput disk f).1 = numberedLines f.path 0 (fileLines bytes) := by
  simp only [readFileInput, read, readAppended_short h, Nat.sub_self]

theorem readFileInput_long {disk : Disk} {f : FileInput} {bytes : List UInt8}
    (read : disk.read f.path = .ok bytes) (h : f.offset ≤ bytes.length) :
    (readFileInput disk f).1
      = numberedLines f.path f.linesRead (fileLines (bytes.drop f.offset)) := by
  simp only [readFileInput, read, readAppended_long h, Nat.add_sub_cancel]

theorem numberedLines_cons (path : String) (before : Nat) (line : String) (lines : List String) :
    numberedLines path before (line :: lines)
      = ⟨path, before + 1, line⟩ :: numberedLines path (before + 1) lines := by
  have split := numberedLines_append path before [line] lines
  exact split

/-- Reading gives the lines of the whole file, numbered from one, exactly if the file ends before
what has been read of it, or nothing has been read, or there is no whole line in it. -/
theorem reads_whole_iff {disk : Disk} {f : FileInput} {bytes : List UInt8}
    (start : f.offset = 0 ↔ f.linesRead = 0) (read : disk.read f.path = .ok bytes) :
    (readFileInput disk f).1 = numberedLines f.path 0 (fileLines bytes) ↔
      bytes.length < f.offset ∨ f.offset = 0 ∨ 10 ∉ bytes := by
  by_cases short : bytes.length < f.offset
  · simp only [readFileInput_short read short, short, true_or]
  · rw [readFileInput_long read (Nat.le_of_not_lt short)]
    constructor
    · intro same
      refine .inr ?_
      by_cases lf : 10 ∈ bytes
      · -- the numbers tell which lines have been read before
        refine .inl (start.2 ?_)
        cases lines : fileLines bytes with
        | nil => exact absurd lf (fileLines_eq_nil_iff.1 lines)
        | cons line rest =>
          rw [lines, numberedLines_cons] at same
          cases later : fileLines (bytes.drop f.offset) with
          | nil =>
            rw [later] at same
            cases same
          | cons line' rest' =>
            rw [later, numberedLines_cons] at same
            have number := congrArg LogLine.number (List.cons.inj same).1
            exact Nat.add_right_cancel number
      · exact .inr lf
    · rintro (h | h | h)
      · exact absurd h short
      · rw [h, start.1 h, List.drop_zero]
      · have none : 10 ∉ bytes.drop f.offset := fun hm => h (List.mem_of_mem_drop hm)
        rw [fileLines_eq_nil_iff.2 none, fileLines_eq_nil_iff.2 h]
        rfl

/-! ## Runs -/

/-- A run of a store, and what the file `path` was when it was last read. -/
inductive Watched (path : String) : LogStore → Option (List UInt8) → Prop
  | start : Watched path {} none
  | pathAdded {s : LogStore} {seen : Option (List UInt8)} (h : Watched path s seen) (disk : Disk)
      (input : String) : Watched path (s.addPath disk input).2 seen
  | virtualAdded {s : LogStore} {seen : Option (List UInt8)} (h : Watched path s seen)
      (v : VirtualInput) : Watched path (s.addVirtual v) seen
  | rebuilt {s : LogStore} {seen : Option (List UInt8)} (h : Watched path s seen)
      (db : Sql.Database) : Watched path (s.rebuild db).2 seen
  | rescanned {s : LogStore} {seen : Option (List UInt8)} (h : Watched path s seen) {disk : Disk}
      {bytes : List UInt8} (there : ∃ f ∈ s.files, f.path = path)
      (read : disk.read path = .ok bytes) : Watched path (s.rescan disk).2 (some bytes)
  | passed {s : LogStore} {seen : Option (List UInt8)} (h : Watched path s seen) {disk : Disk}
      (unread : ∀ f ∈ s.files, f.path = path → ∃ e, disk.read path = .error e) :
      Watched path (s.rescan disk).2 seen

/-- What the store holds of the file. -/
def Entries (path : String) (s : LogStore) : Option (List UInt8) → Prop
  | none => ∀ f ∈ s.files, f.path = path → f.offset = 0 ∧ f.linesRead = 0
  | some seen =>
    (∃ f ∈ s.files, f.path = path) ∧ ∀ f ∈ s.files, f.path = path → Left f seen

namespace Entries

variable {path : String} {s s' : LogStore} {seen : Option (List UInt8)}

theorem of_files (h : Entries path s seen) (same : s'.files = s.files) : Entries path s' seen := by
  cases seen <;> simpa only [Entries, same] using h

theorem start (h : Entries path s seen) {f : FileInput} (hf : f ∈ s.files) (hp : f.path = path) :
    f.offset = 0 ↔ f.linesRead = 0 := by
  cases seen with
  | none =>
    obtain ⟨offset, lines⟩ := h f hf hp
    rw [offset, lines]
  | some seen => exact (h.2 f hf hp).start

/-- A file that is there is not added again. -/
theorem addFile {disk : Disk} {p : String} (hs : s.addFile disk p = .ok s')
    (h : Entries path s seen) : Entries path s' seen := by
  rcases addFile_cases hs with rfl | ⟨new, rfl⟩
  · exact h
  · cases seen with
    | none =>
      intro f hf hp
      rcases List.mem_append.1 hf with hf | hf
      · exact h f hf hp
      · rw [List.mem_singleton.1 hf]
        exact ⟨rfl, rfl⟩
    | some seen =>
      obtain ⟨⟨g, hg, gp⟩, left⟩ := h
      refine ⟨⟨g, List.mem_append_left _ hg, gp⟩, fun f hf hp => ?_⟩
      rcases List.mem_append.1 hf with hf | hf
      · exact left f hf hp
      · rw [List.mem_singleton.1 hf] at hp
        have other := List.any_eq_false.1 new g hg
        have name : g.path = p := gp.trans hp.symm
        exact absurd (by simp [Path.same, name]) other

theorem rescanned {disk : Disk} {bytes : List UInt8} (h : Entries path s seen)
    (there : ∃ f ∈ s.files, f.path = path) (read : disk.read path = .ok bytes) :
    Entries path (s.rescan disk).2 (some bytes) := by
  obtain ⟨g, hg, gp⟩ := there
  simp only [Entries, LogStore.rescan, List.map_map, List.mem_map, Function.comp_apply]
  refine ⟨⟨_, ⟨g, hg, rfl⟩, (readFileInput_path disk g).trans gp⟩, ?_⟩
  rintro _ ⟨f, hf, rfl⟩ hp
  rw [readFileInput_path] at hp
  have done : (readFileInput disk f).2 = (readAppended f bytes).2 := by
    simp only [readFileInput, hp, read]
  rw [done]
  exact readAppended_left (h.start hf hp) bytes

theorem passed {disk : Disk} (h : Entries path s seen)
    (unread : ∀ f ∈ s.files, f.path = path → ∃ e, disk.read path = .error e) :
    Entries path (s.rescan disk).2 seen := by
  have still (f : FileInput) (hf : f ∈ s.files) (hp : f.path = path) :
      (readFileInput disk f).2 = f := by
    obtain ⟨e, he⟩ := unread f hf hp
    simp only [readFileInput, hp, he]
  have mem (g : FileInput) (hg : g ∈ (s.rescan disk).2.files) (gp : g.path = path) :
      g ∈ s.files := by
    simp only [LogStore.rescan, List.map_map, List.mem_map, Function.comp_apply] at hg
    obtain ⟨f, hf, rfl⟩ := hg
    rw [readFileInput_path] at gp
    rwa [still f hf gp]
  cases seen with
  | none => exact fun g hg gp => h g (mem g hg gp) gp
  | some seen =>
    obtain ⟨⟨f, hf, hp⟩, left⟩ := h
    refine ⟨⟨f, ?_, hp⟩, fun g hg gp => left g (mem g hg gp) gp⟩
    simp only [LogStore.rescan, List.map_map, List.mem_map, Function.comp_apply]
    exact ⟨f, hf, still f hf hp⟩

end Entries

theorem Watched.entries {path : String} {s : LogStore} {seen : Option (List UInt8)}
    (h : Watched path s seen) : Entries path s seen := by
  induction h with
  | start => intro f hf; cases hf
  | @pathAdded s seen h disk input ih =>
    exact addPath_induct (P := fun t => Entries path t seen) (fun _ _ _ hs k => k.addFile hs) ih
  | virtualAdded h v ih => exact ih.of_files rfl
  | rebuilt h db ih => exact ih.of_files (by rw [rebuild_inputs])
  | rescanned h there read ih => exact ih.rescanned there read
  | passed h unread ih => exact ih.passed unread

/-! ## The result -/

/-- **When a shorter file is read again.** In every run of a store, let a file be shorter than it
was when it was last read. A rescan gets its whole lines from its start, numbered from one, exactly
if it ends before the last line end that had been read, or no line had been read, or it has no whole
line. Else the rescan starts in its middle and goes on with the numbers. Only a part of a line can
make the difference: if the file had ended with a line end, it is always read again. -/
theorem rescan_of_shrunken {path : String} {s : LogStore} {seen bytes : List UInt8} {disk : Disk}
    (h : Watched path s (some seen)) (now : disk.read path = .ok bytes)
    (shorter : bytes.length < seen.length) :
    (s.rescan disk).2.lines = s.lines ++ (s.files.flatMap (fun f => (readFileInput disk f).1)
      ++ s.virtuals.flatMap fun v => (readVirtual v).1) ∧
    (∃ f ∈ s.files, f.path = path) ∧
    ∀ f ∈ s.files, f.path = path →
      (f.offset ≤ seen.length ∧ 10 ∉ seen.drop f.offset) ∧
      ((readFileInput disk f).1 = numberedLines path 0 (fileLines bytes) ↔
        bytes.length < f.offset ∨ f.offset = 0 ∨ 10 ∉ bytes) ∧
      (f.offset ≤ bytes.length → (readFileInput disk f).1
        = numberedLines path f.linesRead (fileLines (bytes.drop f.offset))) ∧
      (seen.getLast? = some 10 →
        (readFileInput disk f).1 = numberedLines path 0 (fileLines bytes)) := by
  obtain ⟨there, left⟩ := h.entries
  refine ⟨?_, there, fun f hf hp => ?_⟩
  · rw [rescan_lines, List.flatMap_map, List.flatMap_map]
  · subst hp
    have entry := left f hf rfl
    have whole := reads_whole_iff entry.start now
    refine ⟨⟨entry.bound, entry.rest⟩, whole, readFileInput_long now, fun last => ?_⟩
    refine whole.2 (.inl (Nat.lt_of_not_le fun long => entry.rest ?_))
    have inside : ¬ seen.length ≤ f.offset := by omega
    refine List.mem_of_getLast? ?_
    rw [List.getLast?_drop, if_neg inside, last]

/-- One file in the directory of the process. -/
def oneFile (text : String) : Disk where
  nodes := [([], .dir), (["a"], .file 0)]
  contents := [Text.Utf8.encode text]

/-- A store that has read a file with one line and part of another. -/
def partlyRead : LogStore where
  files := [⟨"a", 4, 1⟩]
  lines := [⟨"a", 1, "one"⟩]

theorem partlyRead_watched : Watched "a" partlyRead (some (Text.Utf8.encode "one\npart")) := by
  have added : Watched "a" { files := [⟨"a", 0, 0⟩] } none := .pathAdded .start (oneFile "") "a"
  have read : (oneFile "one\npart").read "a" = .ok (Text.Utf8.encode "one\npart") := rfl
  exact added.rescanned ⟨_, List.mem_singleton_self _, rfl⟩ read

/-- A file that ends before the first line end that had been read. -/
theorem rescan_of_shorter_line :
    (oneFile "x\n").read "a" = .ok (Text.Utf8.encode "x\n") ∧
    (readFileInput (oneFile "x\n") ⟨"a", 4, 1⟩).1 = [⟨"a", 1, "x"⟩] := by
  have read : (oneFile "x\n").read "a" = .ok (Text.Utf8.encode "x\n") := rfl
  obtain ⟨-, -, files⟩ := rescan_of_shrunken partlyRead_watched read (by decide)
  obtain ⟨-, whole, -⟩ := files ⟨"a", 4, 1⟩ (List.mem_singleton_self _) rfl
  exact ⟨read, whole.2 (.inl (by decide))⟩

/-- Eight bytes with one whole line are replaced by four bytes with another: its end is where that
of the first line was, and it is never read. -/
theorem line_lost_in_rotation :
    Watched "a" partlyRead (some (Text.Utf8.encode "one\npart")) ∧
    (oneFile "new\n").read "a" = .ok (Text.Utf8.encode "new\n") ∧
    (Text.Utf8.encode "new\n").length < (Text.Utf8.encode "one\npart").length ∧
    fileLines (Text.Utf8.encode "new\n") = ["new"] ∧
    (partlyRead.rescan (oneFile "new\n")).2.lines = [⟨"a", 1, "one"⟩] :=
  ⟨partlyRead_watched, rfl, by decide, by decide +kernel, by decide +kernel⟩

end LogConsole.LogStore
