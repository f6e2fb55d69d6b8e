import LogConsole.Config
import LogConsole.Proofs.Disk.Contents
import LogConsole.Proofs.Text.Utf8
import LogConsole.Proofs.Toml.Documents

/-!
# LogConsole.Proofs.Config.RoundTrip

A configuration that has been saved is loaded again.

* `encode_toList`   — the text of a configuration, line by line;
* `document_encode` — those lines are read from top to bottom. The table of variables comes last,
  so that no line of a field is taken for one of its entries;
* `decode_encode`   — a configuration is read back from its text. No field is left out, so that no
  default is put in its place;
* `load_of_save`    — the same in a file, by what is read from a file that has been written.
-/

namespace LogConsole.Config

open Toml

/-! ## The document -/

/-- The lines of the fields that are no table. -/
def fieldChars (c : Config) : List Char :=
  entryChars "script_dirs".toList (arrayChars c.scriptDirectories)
    ++ (entryChars "key_columns".toList (arrayChars c.keyColumns)
      ++ entryChars "read_only".toList (if c.readOnly then "true" else "false").toList)

def globalChars (c : Config) : List Char :=
  c.globals.toList.flatMap fun e => entryChars e.1.toList (textChars e.2.toList)

theorem entry_toList {name : String} (bare : keyChars name.toList = name.toList) (text : String) :
    (name ++ " = " ++ text ++ "\n").toList = entryChars name.toList text.toList := by
  rw [entryChars, bare]
  simp only [String.toList_append, List.append_assoc]
  rfl

/-- The line of a variable. -/
def globalLine (e : String × String) : String := writeKey e.1 ++ " = " ++ writeText e.2 ++ "\n"

theorem join_globalLine (c : Config) :
    (String.join (c.globals.toList.map globalLine)).toList = c.globalChars := by
  have each : (fun e => (globalLine e).toList)
      = fun e => entryChars e.1.toList (textChars e.2.toList) := by
    funext e
    simp [globalLine, entryChars, writeKey, writeText]
  rw [String.toList_join, List.flatMap_map, each, globalChars]

/-- The text of a configuration, line by line. -/
theorem encode_eq (c : Config) :
    c.encode = ("script_dirs" ++ " = " ++ writeTextArray c.scriptDirectories ++ "\n")
      ++ ("key_columns" ++ " = " ++ writeTextArray c.keyColumns ++ "\n")
      ++ ("read_only" ++ " = " ++ (if c.readOnly then "true" else "false") ++ "\n")
      ++ "\n[global_vars]\n"
      ++ String.join (c.globals.toList.map globalLine) := by
  have dirs : "script_dirs = " = "script_dirs" ++ " = " := rfl
  have keys : "\nkey_columns = " = "\n" ++ ("key_columns" ++ " = ") := rfl
  have flag : "\nread_only = " = "\n" ++ ("read_only" ++ " = ") := rfl
  have header : "\n\n[global_vars]\n" = "\n" ++ "\n[global_vars]\n" := rfl
  have line : globalLine = fun e => writeKey e.1 ++ " = " ++ writeText e.2 ++ "\n" := rfl
  unfold encode
  rw [line]
  simp only [dirs, keys, flag, header, String.append_assoc]

theorem encode_toList (c : Config) :
    c.encode.toList
      = c.fieldChars ++ '\n' :: '[' :: ("global_vars".toList ++ ']' :: '\n' :: c.globalChars) := by
  have dirs : keyChars "script_dirs".toList = "script_dirs".toList := by decide
  have keys : keyChars "key_columns".toList = "key_columns".toList := by decide
  have flag : keyChars "read_only".toList = "read_only".toList := by decide
  have header : "\n[global_vars]\n".toList
      = '\n' :: '[' :: ("global_vars".toList ++ [']', '\n']) := rfl
  rw [encode_eq, String.toList_append, join_globalLine, String.toList_append, String.toList_append,
    String.toList_append, entry_toList dirs, entry_toList keys, entry_toList flag, header,
    writeTextArray_toList, writeTextArray_toList, fieldChars]
  simp only [List.append_assoc, List.cons_append, List.nil_append]

theorem return_not_mem_encode (c : Config) : '\r' ∉ c.encode.toList := by
  have fields : '\r' ∉ c.fieldChars := by
    have flag : '\r' ∉ (if c.readOnly then "true" else "false").toList := by
      split <;> decide
    simp only [fieldChars, List.mem_append, not_or]
    exact ⟨return_not_mem_entryChars _ (return_not_mem_arrayChars _),
      return_not_mem_entryChars _ (return_not_mem_arrayChars _), return_not_mem_entryChars _ flag⟩
  have globals : '\r' ∉ c.globalChars := by
    rw [globalChars, List.mem_flatMap]
    rintro ⟨e, -, there⟩
    exact return_not_mem_entryChars _ (return_not_mem_textChars _) there
  rw [encode_toList]
  simp [fields, globals]

/-! ## What is read -/

/-- What the fields that are no table make. -/
def fieldEntries (c : Config) : Entries :=
  [("script_dirs", .value (.array (c.scriptDirectories.map .text))),
    ("key_columns", .value (.array (c.keyColumns.map .text))),
    ("read_only", .value (.boolean c.readOnly))]

theorem document_fields (c : Config) (fuel : Nat) (rest : List Char) :
    document (fuel + 3) [] [] (c.fieldChars ++ rest) = document fuel [] c.fieldEntries rest := by
  have dirs : lookup "script_dirs" ([] : Entries) = none := rfl
  have keys : lookup "key_columns"
      [("script_dirs", Node.value (.array (c.scriptDirectories.map .text)))] = none := by
    simp [lookup]
  have flag : lookup "read_only"
      [("script_dirs", Node.value (.array (c.scriptDirectories.map .text))),
        ("key_columns", .value (.array (c.keyColumns.map .text)))] = none := by
    simp [lookup]
  rw [fieldChars, List.append_assoc, List.append_assoc, document_entry (readsLine_array _),
    String.ofList_toList, assignUnder_fresh dirs, Option.bind_some, List.nil_append,
    document_entry (readsLine_array _), String.ofList_toList, assignUnder_fresh keys,
    Option.bind_some, List.singleton_append, document_entry (readsLine_boolean _),
    String.ofList_toList, assignUnder_fresh flag, Option.bind_some]
  rfl

/-- Every line is read, the table of variables last. -/
theorem document_encode {c : Config} (distinct : (c.globals.toList.map (·.1)).Nodup) {fuel : Nat}
    (enough : c.globals.toList.length < fuel) :
    document (fuel + 5) [] [] c.encode.toList
      = some (c.fieldEntries ++
          [("global_vars", .table .header (c.globals.toList.map textEntry))]) := by
  have bare : ∀ c ∈ 'g' :: "lobal_vars".toList, isBare c = true := List.all_eq_true.1 rfl
  have fresh : lookup "global_vars" c.fieldEntries = none := by
    simp [fieldEntries, lookup]
  have opened : lookup "global_vars" (c.fieldEntries ++ [("global_vars", .table .header [])])
      = some (.table .header []) := by
    simp [fieldEntries, lookup]
  have names : String.ofList ('g' :: "lobal_vars".toList) = "global_vars" := rfl
  have header := document_header bare fuel [] c.fieldEntries c.globalChars
  rw [names, openTable_fresh fresh, Option.bind_some] at header
  rw [encode_toList, document_fields c (fuel + 2), document_blank]
  refine header.trans ?_
  rw [globalChars, document_table _ _ _ _ _ _ enough opened (by simpa using distinct)]
  simp [fieldEntries, replace]

/-- The text has more characters than the document has lines. -/
theorem length_encode (c : Config) : c.globals.toList.length + 5 ≤ c.encode.toList.length := by
  have short : c.globals.toList.length ≤ c.globalChars.length :=
    length_le_flatMap (by simp [entryChars]) _
  have name : "global_vars".toList.length = 11 := rfl
  rw [encode_toList]
  simp only [List.length_append, List.length_cons]
  omega

theorem head_encode (c : Config) : ∃ more, c.encode.toList = 's' :: more := by
  have dirs : keyChars "script_dirs".toList = 's' :: "cript_dirs".toList := by decide
  rw [encode_toList, fieldChars, entryChars, dirs]
  exact ⟨_, rfl⟩

theorem parse_encode {c : Config} (distinct : (c.globals.toList.map (·.1)).Nodup) :
    parse c.encode = some [("script_dirs", .array (c.scriptDirectories.map .text)),
      ("key_columns", .array (c.keyColumns.map .text)), ("read_only", .boolean c.readOnly),
      ("global_vars", .table (c.globals.toList.map fun e => (e.1, .text e.2)))] := by
  have mark : dropMark c.encode.toList = c.encode.toList := by
    obtain ⟨more, head⟩ := head_encode c
    rw [head]
    rfl
  have long := length_encode c
  obtain ⟨fuel, hfuel⟩ : ∃ fuel, c.encode.toList.length + 1 = fuel + 5 :=
    ⟨c.encode.toList.length - 4, by omega⟩
  have enough : c.globals.toList.length < fuel := by omega
  rw [parse, mark, joinLineEnds_eq (return_not_mem_encode c)]
  simp only [hfuel, document_encode distinct enough, Option.map_some]
  simp [fieldEntries, Node.toValue, Node.entriesToValues_eq, textEntry]

theorem texts?_map (list : List String) : texts? (list.map .text) = some list := by
  induction list with
  | nil => rfl
  | cons s rest ih => rw [List.map_cons, texts?, ih, Option.map_some]

theorem textEntries?_map (list : List (String × String)) :
    textEntries? (list.map fun e => (e.1, .text e.2)) = some list := by
  induction list with
  | nil => rfl
  | cons e rest ih => rw [List.map_cons, textEntries?, ih, Option.map_some]

/-- A configuration is read back from its text. -/
theorem decode_encode {c : Config} (sorted : c.globals.Sorted) : decode c.encode = some c := by
  have globals := textEntries?_map c.globals.toList
  have restored : Dict.ofList c.globals.toList = c.globals := sorted.ofList_toList
  rw [decode, parse_encode sorted.nodup]
  simp [ofEntries, fieldOr, lookup, dict?, textArray?, flag?, texts?_map, globals, restored]

/-! ## The file -/

theorem readBytes_encode {c : Config} (sorted : c.globals.Sorted) :
    readBytes (Text.Utf8.encode c.encode) = .ok c := by
  rw [readBytes, Text.Utf8.decode?_encode]
  simp only [decode_encode sorted]

theorem load_of_read {d : Disk} {path : String} {bytes : List UInt8} (h : d.read path = .ok bytes) :
    load d path = readBytes bytes := by
  have there : d.exists? path = true := by
    rw [Disk.read] at h
    rw [Disk.exists?]
    split at h
    · cases h
    case h_2 found => rw [found]
  rw [load, if_pos there, h]

theorem load_sink {d : Disk} {path : String} {l : Location} (found : d.find path = .ok (l, .sink)) :
    load d path = .ok {} := by
  have nothing : d.read path = .ok [] := by
    rw [Disk.read, found]
    rfl
  rw [load_of_read nothing]
  cbv

theorem encode_ne_nil (c : Config) : Text.Utf8.encode c.encode ≠ [] := by
  obtain ⟨more, head⟩ := head_encode c
  obtain ⟨a, rest, bytes, -⟩ := Text.Utf8.head_encodeChar 's'
  simp [Text.Utf8.encode, head, bytes]

theorem save_of_create {c : Config} {d made created : Disk} {path : String} {n : Node}
    (makes : d.makeDirs ((Path.parent? path).getD "") = .ok made)
    (creates : made.create path = .ok (created, n)) :
    (n = .sink → c.save d path = (.ok (), created)) ∧
    ∀ id, n = .file id →
      c.save d path = (.ok (), created.setContents id (Text.Utf8.encode c.encode)) := by
  refine ⟨?_, ?_⟩
  · rintro rfl
    simp only [save, makes, Disk.write, creates]
  · rintro id rfl
    simp only [save, makes, Disk.write, creates]

/-- **A configuration that has been saved is loaded again.** If a configuration is saved and its
name leads to a regular file afterwards, what is loaded from there is that configuration,
whatever the names and values of its variables, its directories and its key columns are. The only
other thing on a `Disk` that can have the name is the device that swallows what is written to it;
what is loaded from there is the configuration with all defaults. -/
theorem load_of_save (c : Config) (sorted : c.globals.Sorted) (d : Disk) (backed : d.Backed)
    (path : String) (e : Disk) (saved : c.save d path = (.ok (), e)) :
    (e.isFile path = true → load e path = .ok c) ∧
      (e.isFile path = false → (∃ l, e.find path = .ok (l, .sink)) ∧ load e path = .ok {}) := by
  rw [save] at saved
  split at saved
  · cases saved
  case h_2 made makes =>
    split at saved
    · cases saved
    case h_2 written writes =>
      cases saved
      obtain ⟨-, ⟨l, id, found, read⟩ | ⟨l, found⟩ | ⟨l, found, empty⟩⟩ :=
        Disk.read_of_write (backed.makeDirs makes) writes
      · have loaded : load e path = .ok c := by rw [load_of_read read, readBytes_encode sorted]
        have file : e.isFile path = true := Disk.isFile_iff.2 ⟨l, id, found⟩
        exact ⟨fun _ => loaded, fun other => absurd file (by rw [other]; decide)⟩
      · have device : e.isFile path = false := by rw [Disk.isFile, found]
        exact ⟨fun other => absurd other (by rw [device]; decide),
          fun _ => ⟨⟨l, found⟩, load_sink found⟩⟩
      · exact absurd empty c.encode_ne_nil

/-- Names and values that need each kind of string, and no key columns. -/
def quotingSample : Config where
  globals := Dict.ofList
    [("", "it's \"\"\" and '''"), ("a.b \"c\"", "one\ntwo\\"), ("tab\t", "\u0001"), ("x", "")]
  scriptDirectories := ["it's here", "C:\\logs"]
  keyColumns := []
  readOnly := true

theorem load_of_save_quotingSample :
    quotingSample.globals.Sorted ∧ Disk.empty.Backed ∧
      ∃ e, quotingSample.save Disk.empty "new/config.toml" = (.ok (), e) ∧
        e.isFile "new/config.toml" = true ∧ load e "new/config.toml" = .ok quotingSample := by
  have sorted : quotingSample.globals.Sorted := Dict.sorted_ofList _
  obtain ⟨made, created, makes, creates, found⟩ : ∃ made created : Disk,
      Disk.empty.makeDirs ((Path.parent? "new/config.toml").getD "") = .ok made ∧
        made.create "new/config.toml" = .ok (created, .file 0) ∧
        created.find "new/config.toml" = .ok (["work", "new", "config.toml"], .file 0) :=
    ⟨_, _, rfl, rfl, rfl⟩
  let text := Text.Utf8.encode quotingSample.encode
  have saved := (save_of_create (c := quotingSample) makes creates).2 0 rfl
  have file : (created.setContents 0 text).isFile "new/config.toml" = true :=
    Disk.isFile_iff.2 ⟨_, _, (Disk.stays_setContents created 0 text).find found⟩
  have loaded := load_of_save quotingSample sorted Disk.empty Disk.backed_empty _ _ saved
  exact ⟨sorted, Disk.backed_empty, _, saved, file, loaded.1 file⟩

/-- A device takes the text of a configuration and gives none of it back. -/
theorem save_to_null_device :
    let c : Config := { readOnly := true }
    c.save Disk.empty "/dev/null" = (.ok (), Disk.empty) ∧ load Disk.empty "/dev/null" = .ok {} ∧
      load Disk.empty "/dev/null" ≠ .ok c := by
  intro c
  have found : Disk.empty.find "/dev/null" = .ok (["dev", "null"], .sink) := by decide
  have loaded : load Disk.empty "/dev/null" = .ok {} := load_sink found
  have makes : Disk.empty.makeDirs ((Path.parent? "/dev/null").getD "") = .ok Disk.empty := rfl
  have creates : Disk.empty.create "/dev/null" = .ok (Disk.empty, .sink) := rfl
  refine ⟨(save_of_create makes creates).1 rfl, loaded, ?_⟩
  rw [loaded]
  intro same
  exact absurd (congrArg Config.readOnly (Except.ok.inj same)) (by decide)

end LogConsole.Config
