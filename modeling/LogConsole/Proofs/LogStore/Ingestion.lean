import LogConsole.LogStore.Basic
import LogConsole.Proofs.Text.LineBreaks

/-!
# LogConsole.Proofs.LogStore.Ingestion

A file that only grows is read as if it had been read once.

* `Closed`     — bytes that end with a line feed, or none;
* `fileLines`  — the lines of a file up to its last line feed;
* `readUpTo`   — a file of which `seen` has been read;
* `Ingested`   — a store that has the lines of `seen` from one file, and no others from it;
* `Growing`    — the stores that can come about while that file grows and anything else happens
  to the other inputs;
* `growing_ingested` — such a store has the lines of some earlier state of the file;
* `rescan_of_growing` — after a rescan they are the lines of the file as it is.
-/

namespace LogConsole.LogStore

open Text (lossyLines lossyLines_nil lossyLines_append_lf)

/-! ## Whole lines -/

theorem wholeLines_of_not_mem {bytes : List UInt8} (h : 10 ∉ bytes) : wholeLines bytes = [] := by
  have hd : ∀ b ∈ bytes.reverse, (b != 10) = true := by
    intro b hb
    have hne : b ≠ 10 := fun e => h (e ▸ List.mem_reverse.1 hb)
    simpa using hne
  have hn : (bytes.reverse ++ []).dropWhile (· != 10) = [] := List.dropWhile_append_of_pos hd
  rw [List.append_nil] at hn
  rw [wholeLines, hn, List.reverse_nil]

theorem wholeLines_append_lf {before tail : List UInt8} (h : 10 ∉ tail) :
    wholeLines (before ++ 10 :: tail) = before ++ [10] := by
  have hd : ∀ b ∈ tail.reverse, (b != 10) = true := by
    intro b hb
    have hne : b ≠ 10 := fun e => h (e ▸ List.mem_reverse.1 hb)
    simpa using hne
  simp only [wholeLines, List.reverse_append, List.reverse_cons, List.append_assoc]
  rw [List.dropWhile_append_of_pos hd]
  simp

/-- Bytes without a line feed, or bytes with a last one. -/
theorem last_lf (bytes : List UInt8) :
    10 ∉ bytes ∨ ∃ before tail, bytes = before ++ 10 :: tail ∧ 10 ∉ tail := by
  induction bytes with
  | nil => exact .inl (by simp)
  | cons c rest ih =>
    rcases ih with h | ⟨before, tail, rfl, h⟩
    · by_cases hc : c = 10
      · exact .inr ⟨[], rest, by simp [hc], h⟩
      · refine .inl ?_
        simp only [List.mem_cons, not_or]
        exact ⟨fun e => hc e.symm, h⟩
    · exact .inr ⟨c :: before, tail, rfl, h⟩

def Closed (bytes : List UInt8) : Prop := bytes = [] ∨ ∃ before, bytes = before ++ [10]

theorem closed_wholeLines (bytes : List UInt8) : Closed (wholeLines bytes) := by
  rcases last_lf bytes with h | ⟨before, tail, rfl, h⟩
  · exact .inl (wholeLines_of_not_mem h)
  · exact .inr ⟨before, wholeLines_append_lf h⟩

theorem wholeLines_initial (bytes : List UInt8) : wholeLines bytes <+: bytes := by
  rcases last_lf bytes with h | ⟨before, tail, rfl, h⟩
  · rw [wholeLines_of_not_mem h]
    exact List.nil_prefix
  · rw [wholeLines_append_lf h]
    exact ⟨tail, by simp⟩

theorem wholeLines_append_closed {first : List UInt8} (hc : Closed first) (more : List UInt8) :
    wholeLines (first ++ more) = first ++ wholeLines more := by
  rcases last_lf more with h | ⟨before, tail, rfl, h⟩
  · rw [wholeLines_of_not_mem h]
    rcases hc with rfl | ⟨before, rfl⟩
    · simp [wholeLines_of_not_mem h]
    · rw [List.append_assoc, List.singleton_append, wholeLines_append_lf h, List.append_nil]
  · rw [← List.append_assoc, wholeLines_append_lf h, wholeLines_append_lf h, List.append_assoc]

theorem lossyLines_append_closed {first : List UInt8} (hc : Closed first) (more : List UInt8) :
    lossyLines (first ++ more) = lossyLines first ++ lossyLines more := by
  rcases hc with rfl | ⟨before, rfl⟩
  · simp
  · rw [List.append_assoc, List.singleton_append, lossyLines_append_lf]

/-! ## One file -/

def fileLines (bytes : List UInt8) : List String := lossyLines (wholeLines bytes)

def readUpTo (path : String) (seen : List UInt8) : FileInput where
  path := path
  offset := (wholeLines seen).length
  linesRead := (fileLines seen).length

/-- The lines that come after those of an earlier state of the file. -/
theorem readAppended_grown {seen content : List UInt8} (path : String) (hs : seen <+: content) :
    ∃ added, readAppended (readUpTo path seen) content = (added, readUpTo path content)
      ∧ fileLines content = fileLines seen ++ added := by
  obtain ⟨rest, hrest⟩ := (wholeLines_initial seen).trans hs
  have hc := closed_wholeLines seen
  have hw : wholeLines content = wholeLines seen ++ wholeLines rest := by
    rw [← hrest, wholeLines_append_closed hc]
  have hlines : fileLines content = fileLines seen ++ lossyLines (wholeLines rest) := by
    rw [fileLines, hw, lossyLines_append_closed hc, fileLines]
  have hlen : ¬ content.length < (readUpTo path seen).offset := by
    simp only [readUpTo, ← hrest, List.length_append]
    omega
  have hdrop : content.drop (readUpTo path seen).offset = rest := by
    simp only [readUpTo, ← hrest, List.drop_left]
  refine ⟨lossyLines (wholeLines rest), ?_, hlines⟩
  simp only [readAppended, if_neg hlen, hdrop]
  simp only [readUpTo, hw, hlines, List.length_append, lossyLines]

theorem numberedLines_append (path : String) (before : Nat) (a b : List String) :
    numberedLines path before (a ++ b)
      = numberedLines path before a ++ numberedLines path (before + a.length) b := by
  simp only [numberedLines, List.zipIdx_append, List.map_append, Nat.zero_add]
  congr 1
  rw [List.zipIdx_eq_map_add, List.map_map]
  apply List.map_congr_left
  intro p _
  simp only [Function.comp_apply, LogLine.mk.injEq, true_and, and_true]
  omega

theorem path_of_mem_numberedLines {path : String} {before : Nat} {lines : List String}
    {l : LogLine} (h : l ∈ numberedLines path before lines) : l.path = path := by
  simp only [numberedLines, List.mem_map] at h
  obtain ⟨p, -, rfl⟩ := h
  rfl

theorem readFileInput_path (disk : Disk) (f : FileInput) :
    (readFileInput disk f).2.path = f.path := by
  simp only [readFileInput]
  split
  · rfl
  · simp only [readAppended]
    split <;> rfl

theorem path_of_mem_readFileInput {disk : Disk} {f : FileInput} {l : LogLine}
    (h : l ∈ (readFileInput disk f).1) : l.path = f.path := by
  simp only [readFileInput] at h
  split at h
  · cases h
  · rename_i bytes _
    cases hr : readAppended f bytes with
    | mk lines read =>
      rw [hr] at h
      exact path_of_mem_numberedLines h

/-- Reading the file gives the lines that are new in it. -/
theorem readFileInput_grown {disk : Disk} {path : String} {seen content : List UInt8}
    (hs : seen <+: content) (hr : disk.read path = .ok content) :
    ∃ added, readFileInput disk (readUpTo path seen) = (added, readUpTo path content)
      ∧ numberedLines path 0 (fileLines content)
        = numberedLines path 0 (fileLines seen) ++ added := by
  obtain ⟨bodies, hread, hlines⟩ := readAppended_grown path hs
  have hn : (readUpTo path content).linesRead - bodies.length = (fileLines seen).length := by
    simp only [readUpTo, hlines, List.length_append]
    omega
  refine ⟨numberedLines path (fileLines seen).length bodies, ?_, ?_⟩
  · have hp : (readUpTo path seen).path = path := rfl
    simp only [readFileInput, hp, hr, hread, hn]
  · rw [hlines, numberedLines_append, Nat.zero_add]
/-! ## The store -/

def isFrom (path : String) (l : LogLine) : Bool := l.path = path

def isNamed (path : String) (f : FileInput) : Bool := f.path = path

/-- `seen` of the file has been read, and nothing else is taken for that file. -/
structure Ingested (path : String) (s : LogStore) (seen : List UInt8) : Prop where
  file : s.files.filter (isNamed path) = [readUpTo path seen]
  virtuals : ∀ v ∈ s.virtuals, v.name ≠ path
  lines : s.lines.filter (isFrom path) = numberedLines path 0 (fileLines seen)

theorem filter_readFiles (disk : Disk) (path : String) (files : List FileInput) :
    ((files.map (readFileInput disk)).map (·.2)).filter (isNamed path)
      = (files.filter (isNamed path)).map fun f => (readFileInput disk f).2 := by
  rw [List.map_map, List.filter_map]
  congr 1
  apply List.filter_congr
  intro f _
  simp only [Function.comp_apply, isNamed, readFileInput_path]

theorem filter_readLines (disk : Disk) (path : String) (files : List FileInput) :
    ((files.map (readFileInput disk)).flatMap (·.1)).filter (isFrom path)
      = (files.filter (isNamed path)).flatMap fun f => (readFileInput disk f).1 := by
  induction files with
  | nil => rfl
  | cons f files ih =>
    have hf : (readFileInput disk f).1.filter (isFrom path)
        = if isNamed path f then (readFileInput disk f).1 else [] := by
      split
      · next h =>
        rw [List.filter_eq_self]
        intro l hl
        simpa [isFrom, isNamed, path_of_mem_readFileInput hl] using h
      · next h =>
        rw [List.filter_eq_nil_iff]
        intro l hl
        simpa [isFrom, isNamed, path_of_mem_readFileInput hl] using h
    rw [List.map_cons, List.flatMap_cons, List.filter_append, ih, hf, List.filter_cons]
    split
    · rw [List.flatMap_cons]
    · rw [List.nil_append]

theorem filter_readVirtuals {path : String} {virtuals : List VirtualInput}
    (h : ∀ v ∈ virtuals, v.name ≠ path) :
    ((virtuals.map readVirtual).flatMap (·.1)).filter (isFrom path) = [] := by
  rw [List.filter_eq_nil_iff]
  intro l hl
  simp only [List.mem_flatMap, List.mem_map] at hl
  obtain ⟨_, ⟨v, hv, rfl⟩, hl⟩ := hl
  have hp : l.path = v.name := path_of_mem_numberedLines hl
  simpa [isFrom, hp] using h v hv

theorem rescan_lines (s : LogStore) (disk : Disk) :
    (s.rescan disk).2.lines = s.lines
      ++ ((s.files.map (readFileInput disk)).flatMap (·.1)
        ++ (s.virtuals.map readVirtual).flatMap (·.1)) := rfl

theorem rescan_virtual_name {s : LogStore} {disk : Disk} {v : VirtualInput}
    (h : v ∈ (s.rescan disk).2.virtuals) : ∃ w ∈ s.virtuals, w.name = v.name := by
  simp only [rescan, List.mem_map] at h
  obtain ⟨_, ⟨w, hw, rfl⟩, rfl⟩ := h
  exact ⟨w, hw, rfl⟩

namespace Ingested

variable {path : String} {s : LogStore} {seen : List UInt8}

theorem rescan_virtuals (h : Ingested path s seen) (disk : Disk) :
    ∀ v ∈ (s.rescan disk).2.virtuals, v.name ≠ path := by
  intro v hv
  obtain ⟨w, hw, hn⟩ := rescan_virtual_name hv
  exact hn ▸ h.virtuals w hw

/-- What a rescan adds to the lines of the file is what reading the file gives. -/
theorem rescan_from (h : Ingested path s seen) (disk : Disk) :
    (s.rescan disk).2.lines.filter (isFrom path)
      = numberedLines path 0 (fileLines seen) ++ (readFileInput disk (readUpTo path seen)).1 := by
  rw [rescan_lines, List.filter_append, List.filter_append, filter_readLines,
    filter_readVirtuals h.virtuals, h.file, h.lines]
  simp

theorem rescan_file (h : Ingested path s seen) (disk : Disk) :
    (s.rescan disk).2.files.filter (isNamed path)
      = [(readFileInput disk (readUpTo path seen)).2] := by
  have hf := filter_readFiles disk path s.files
  rw [h.file] at hf
  exact hf

theorem rescan {content : List UInt8} (h : Ingested path s seen) (hs : seen <+: content)
    {disk : Disk} (hr : disk.read path = .ok content) :
    Ingested path (s.rescan disk).2 content := by
  obtain ⟨added, hread, hlines⟩ := readFileInput_grown hs hr
  refine ⟨?_, h.rescan_virtuals disk, ?_⟩
  · rw [h.rescan_file, hread]
  · rw [h.rescan_from, hread, hlines]

/-- A file that cannot be read stays as it was. -/
theorem rescan_unreadable (h : Ingested path s seen) {disk : Disk} {e : IoError}
    (hr : disk.read path = .error e) : Ingested path (s.rescan disk).2 seen := by
  have hread : readFileInput disk (readUpTo path seen) = ([], readUpTo path seen) := by
    have hp : (readUpTo path seen).path = path := rfl
    simp only [readFileInput, hp, hr]
  refine ⟨?_, h.rescan_virtuals disk, ?_⟩
  · rw [h.rescan_file, hread]
  · rw [h.rescan_from, hread, List.append_nil]

theorem addVirtual (h : Ingested path s seen) {v : VirtualInput} (hv : v.name ≠ path) :
    Ingested path (s.addVirtual v) seen := by
  refine ⟨h.file, ?_, h.lines⟩
  intro w hw
  simp only [LogStore.addVirtual, List.mem_append, List.mem_singleton] at hw
  rcases hw with hw | rfl
  · exact h.virtuals w hw
  · exact hv

end Ingested

/-! ## Adding files -/

/-- Nothing is called `path`. -/
structure Absent (path : String) (s : LogStore) : Prop where
  names : path ∉ s.inputNames
  lines : ∀ l ∈ s.lines, l.path ≠ path

theorem addFile_cases {s s' : LogStore} {disk : Disk} {p : String}
    (h : s.addFile disk p = .ok s') :
    s' = s ∨ (s.files.any (fun f => Path.same f.path p) = false
      ∧ s' = { s with files := s.files ++ [{ path := p }] }) := by
  simp only [addFile] at h
  split at h
  · cases h
  · split at h
    · cases h
      exact .inl rfl
    · rename_i hn
      cases h
      exact .inr ⟨by simpa using hn, rfl⟩

/-- What holds of a store, and after each file that is added, holds after all of them. -/
theorem addFiles_induct {P : LogStore → Prop} {disk : Disk}
    (step : ∀ s s' p, s.addFile disk p = .ok s' → P s → P s') {s : LogStore} {paths : List String}
    (h : P s) : P (s.addFiles disk paths).2 := by
  induction paths generalizing s with
  | nil => exact h
  | cons p paths ih =>
    simp only [addFiles]
    split
    · exact h
    · rename_i s' hs
      exact ih (step s s' p hs h)

theorem addPath_induct {P : LogStore → Prop} {disk : Disk} {input : String}
    (step : ∀ s s' p, s.addFile disk p = .ok s' → P s → P s') {s : LogStore} (h : P s) :
    P (s.addPath disk input).2 := by
  have ha : P (s.addFiles disk (if disk.isDir input then disk.walk input else [input])).2 :=
    addFiles_induct step h
  simp only [addPath]
  split <;> (rename_i heq; rw [heq] at ha; exact ha)

theorem Ingested.addFile {path : String} {seen : List UInt8} {s s' : LogStore} {disk : Disk}
    {p : String} (hs : s.addFile disk p = .ok s') (h : Ingested path s seen) :
    Ingested path s' seen := by
  rcases addFile_cases hs with rfl | ⟨hn, rfl⟩
  · exact h
  · refine ⟨?_, h.virtuals, h.lines⟩
    -- the file itself is not added again: its name is there
    have hp : p ≠ path := by
      rintro rfl
      have hm : readUpTo p seen ∈ s.files.filter (isNamed p) := by
        rw [h.file]
        exact List.mem_singleton_self _
      have hno := List.any_eq_false.1 hn _ (List.mem_filter.1 hm).1
      exact hno (by simp [readUpTo, Path.same])
    rw [List.filter_append, h.file]
    simp [isNamed, hp]

theorem Absent.addFile {path : String} {s s' : LogStore} {disk : Disk} {p : String}
    (hs : s.addFile disk p = .ok s') (h : Absent path s) :
    Absent path s' ∨ Ingested path s' [] := by
  rcases addFile_cases hs with rfl | ⟨-, rfl⟩
  · exact .inl h
  · have hnames := h.names
    simp only [inputNames, List.mem_append, List.mem_map, not_or, not_exists, not_and] at hnames
    by_cases hp : p = path
    · refine .inr ⟨?_, hnames.2, ?_⟩
      · have hf : s.files.filter (isNamed path) = [] := by
          rw [List.filter_eq_nil_iff]
          intro f hf
          simpa [isNamed] using hnames.1 f hf
        rw [List.filter_append, hf, hp]
        simp [isNamed, readUpTo, wholeLines, fileLines]
      · have hl : s.lines.filter (isFrom path) = [] := by
          rw [List.filter_eq_nil_iff]
          intro l hl
          simpa [isFrom] using h.lines l hl
        exact hl
    · refine .inl ⟨?_, h.lines⟩
      simp only [inputNames, List.map_append, List.mem_append, List.mem_map, not_or, not_exists,
        not_and]
      refine ⟨⟨hnames.1, ?_⟩, hnames.2⟩
      simpa using hp

theorem Ingested.addPath {path : String} {seen : List UInt8} {s : LogStore}
    (h : Ingested path s seen) (disk : Disk) (input : String) :
    Ingested path (s.addPath disk input).2 seen :=
  addPath_induct (P := fun s => Ingested path s seen) (fun _ _ _ hs h => h.addFile hs) h

/-- A file that is found under a new name has not been read. -/
theorem Absent.addPath {path : String} {s : LogStore} (h : Absent path s) {disk : Disk}
    {input : String} (hin : path ∈ (s.addPath disk input).2.inputNames) :
    Ingested path (s.addPath disk input).2 [] := by
  have ha : Absent path (s.addPath disk input).2 ∨ Ingested path (s.addPath disk input).2 [] := by
    refine addPath_induct (P := fun s => Absent path s ∨ Ingested path s []) ?_ (.inl h)
    intro s s' p hs h
    rcases h with h | h
    · exact h.addFile hs
    · exact .inr (h.addFile hs)
  rcases ha with ha | ha
  · exact absurd hin ha.names
  · exact ha

theorem rebuild_inputs (s : LogStore) (db : Sql.Database) :
    (s.rebuild db).2 = { s with indexed := (s.rebuild db).2.indexed } := by
  simp only [rebuild]
  split
  · rfl
  · split <;> rfl

theorem Ingested.rebuild {path : String} {seen : List UInt8} {s : LogStore}
    (h : Ingested path s seen) (db : Sql.Database) : Ingested path (s.rebuild db).2 seen := by
  rw [rebuild_inputs]
  exact ⟨h.file, h.virtuals, h.lines⟩

/-! ## Every schedule -/

/-- A store, and what the file under `path` holds: the file is added once, it grows, and it is
read or cannot be read when the store looks; what the store does with other inputs, and what
these hold, is not restricted. -/
inductive Growing (path : String) : LogStore → List UInt8 → Prop
  | added {s : LogStore} (absent : Absent path s) (disk : Disk) (input : String)
      (found : path ∈ (s.addPath disk input).2.inputNames) (content : List UInt8) :
      Growing path (s.addPath disk input).2 content
  | appended {s : LogStore} {content : List UInt8} (h : Growing path s content)
      (more : List UInt8) : Growing path s (content ++ more)
  | rescanned {s : LogStore} {content : List UInt8} (h : Growing path s content) (disk : Disk)
      (holds : ∀ bytes, disk.read path = .ok bytes → bytes = content) :
      Growing path (s.rescan disk).2 content
  | pathAdded {s : LogStore} {content : List UInt8} (h : Growing path s content) (disk : Disk)
      (input : String) : Growing path (s.addPath disk input).2 content
  | virtualAdded {s : LogStore} {content : List UInt8} (h : Growing path s content)
      (v : VirtualInput) (other : v.name ≠ path) : Growing path (s.addVirtual v) content
  | rebuilt {s : LogStore} {content : List UInt8} (h : Growing path s content)
      (db : Sql.Database) : Growing path (s.rebuild db).2 content

/-- At any time the store has the lines of some earlier state of the file. -/
theorem growing_ingested {path : String} {s : LogStore} {content : List UInt8}
    (h : Growing path s content) : ∃ seen, seen <+: content ∧ Ingested path s seen := by
  induction h with
  | added absent disk input found content =>
    exact ⟨[], List.nil_prefix, absent.addPath found⟩
  | appended h more ih =>
    obtain ⟨seen, hs, hi⟩ := ih
    exact ⟨seen, hs.trans (List.prefix_append _ more), hi⟩
  | rescanned h disk holds ih =>
    obtain ⟨seen, hs, hi⟩ := ih
    cases hr : disk.read path with
    | error e => exact ⟨seen, hs, hi.rescan_unreadable hr⟩
    | ok bytes =>
      obtain rfl := holds bytes hr
      exact ⟨bytes, List.prefix_refl bytes, hi.rescan hs hr⟩
  | pathAdded h disk input ih =>
    obtain ⟨seen, hs, hi⟩ := ih
    exact ⟨seen, hs, hi.addPath disk input⟩
  | virtualAdded h v other ih =>
    obtain ⟨seen, hs, hi⟩ := ih
    exact ⟨seen, hs, hi.addVirtual other⟩
  | rebuilt h db ih =>
    obtain ⟨seen, hs, hi⟩ := ih
    exact ⟨seen, hs, hi.rebuild db⟩

/-- However the file has grown, and whenever it was read, after a rescan its lines are those of
its content up to the last line feed, decoded at once and numbered from one. -/
theorem rescan_of_growing {path : String} {s : LogStore} {content : List UInt8} {disk : Disk}
    (h : Growing path s content) (hr : disk.read path = .ok content) :
    (s.rescan disk).2.lines.filter (fun l => l.path = path)
      = numberedLines path 0 (Text.lines (Text.Utf8.decodeLossy (wholeLines content))) := by
  obtain ⟨seen, hs, hi⟩ := growing_ingested h
  exact (hi.rescan hs hr).lines

/-- A line end that comes in two parts, with a rescan between them. -/
theorem rescan_of_cut_line_end :
    let disk (bytes : List UInt8) : Disk :=
      { nodes := [([], .dir), (["a"], .file 0)], contents := [bytes] }
    let s := ((LogStore.addPath {} (disk [120]) "a").2.rescan (disk [120, 13])).2
    (s.rescan (disk [120, 13, 10])).2.lines.filter (fun l => l.path = "a") = [⟨"a", 1, "x"⟩] := by
  intro disk s
  have absent : Absent "a" {} := ⟨by simp [inputNames], by simp⟩
  have added : Growing "a" (LogStore.addPath {} (disk [120]) "a").2 [120] :=
    .added absent (disk [120]) "a" (by decide +kernel) [120]
  have grown : Growing "a" s [120, 13, 10] := by
    refine .appended (.rescanned (.appended added [13]) (disk [120, 13]) ?_) [10]
    intro bytes h
    have hr : (disk [120, 13]).read "a" = .ok [120, 13] := by rfl
    rw [hr] at h
    cases h
    rfl
  have readable : (disk [120, 13, 10]).read "a" = .ok [120, 13, 10] := by rfl
  rw [rescan_of_growing grown readable]
  decide +kernel

end LogConsole.LogStore
