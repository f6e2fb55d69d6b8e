import LogConsole.Proofs.Toml.Distinct
import LogConsole.Proofs.Toml.Strings

/-!
# LogConsole.Proofs.Toml.Documents

Lines with one entry each are read back, and so are the arrays that stand in them.

* `value_arrayChars` — a written array of texts, with fuel for its characters;
* `ReadsLine`        — a value that is read up to the end of its line, and no further;
* `document_entry`, `document_blank`, `document_header` — what one line does to a document;
* `document_table`   — the lines of a table of texts with different names, by induction on them;
* `return_not_mem_textChars` — no carriage return is written as it is, so that the line ends of a
  document are those between its lines.
-/

namespace LogConsole.Toml

/-! ## Arrays -/

def itemChars (s : String) : List Char :=
  ' ' :: ' ' :: ' ' :: ' ' :: (textChars s.toList ++ [',', '\n'])

/-- The characters of a written array. -/
def arrayChars : List String → List Char
  | [] => ['[', ']']
  | items => '[' :: '\n' :: (items.flatMap itemChars ++ [']'])

theorem writeTextArray_toList (items : List String) :
    (writeTextArray items).toList = arrayChars items := by
  cases items with
  | nil => rfl
  | cons s rest =>
    have each : (fun s => ("    " ++ writeText s ++ ",\n").toList) = itemChars := by
      funext s
      simp [itemChars, writeText]
    simp [writeTextArray, arrayChars, List.flatMap_map, ← each]

/-- No text starts like the end of an array, or like what stands between its items. -/
theorem head_textChars (cs : List Char) :
    ∃ d more, textChars cs = d :: more ∧ (d = '"' ∨ d = '\'') := by
  rw [textChars]
  cases (traits cs).preferred with
  | basic => exact ⟨'"', _, rfl, .inl rfl⟩
  | literal => exact ⟨'\'', _, rfl, .inr rfl⟩
  | longBasic => exact ⟨'"', _, rfl, .inl rfl⟩
  | longLiteral => exact ⟨'\'', _, rfl, .inr rfl⟩

theorem afterText_cons {c : Char} (double : c ≠ '"') (single : c ≠ '\'') (tail : List Char) :
    AfterText (c :: tail) := ⟨by simpa using double, by simpa using single⟩

theorem items_item (fuel : Nat) (s : String) (tail : List Char) :
    items (fuel + 2) ('\n' :: (itemChars s ++ tail))
      = (items (fuel + 1) ('\n' :: tail)).map fun (vs, rest) => (.text s :: vs, rest) := by
  have gap : skipGaps false ('\n' :: (itemChars s ++ tail))
      = some (textChars s.toList ++ ',' :: '\n' :: tail) := by
    obtain ⟨d, more, head, form⟩ := head_textChars s.toList
    rw [itemChars, head]
    rcases form with rfl | rfl <;> simp [skipGaps, isSpace]
  have read : value (fuel + 1) (textChars s.toList ++ ',' :: '\n' :: tail)
      = some (.text s, ',' :: '\n' :: tail) := by
    rw [value_textChars fuel _ (afterText_cons (by decide) (by decide) _), String.ofList_toList]
  have comma : skipGaps false (',' :: '\n' :: tail) = some (',' :: '\n' :: tail) := by
    simp [skipGaps, isSpace]
  rw [items, gap]
  split
  case h_1 same => cases same
  case h_2 same =>
    obtain ⟨d, more, head, form⟩ := head_textChars s.toList
    rw [head] at same
    cases same
    exact absurd form (by decide)
  case h_3 same =>
    cases same
    simp only [read, comma]

theorem items_flatMap (list : List String) (tail : List Char) :
    ∀ fuel, list.length < fuel → items fuel ('\n' :: (list.flatMap itemChars ++ ']' :: tail))
      = some (list.map .text, tail) := by
  induction list with
  | nil =>
    intro fuel enough
    obtain ⟨fuel, rfl⟩ := Nat.exists_eq_add_of_lt enough
    simp [items, skipGaps, isSpace]
  | cons s rest ih =>
    intro fuel enough
    rw [List.length_cons] at enough
    obtain ⟨fuel, rfl⟩ : ∃ n, fuel = n + 2 := ⟨fuel - 2, by omega⟩
    rw [List.flatMap_cons, List.append_assoc, items_item, ih (fuel + 1) (by omega)]
    rfl

theorem length_le_flatMap {α : Type} {f : α → List Char} (some_text : ∀ a, f a ≠ [])
    (list : List α) : list.length ≤ (list.flatMap f).length := by
  induction list with
  | nil => exact Nat.le_refl 0
  | cons a rest ih =>
    have first := List.length_pos_iff.2 (some_text a)
    rw [List.flatMap_cons, List.length_append, List.length_cons]
    omega

/-- A written array is read back if there is fuel for its characters. -/
theorem value_arrayChars (list : List String) (tail : List Char) {fuel : Nat}
    (enough : (arrayChars list ++ tail).length < fuel) :
    value fuel (arrayChars list ++ tail) = some (.array (list.map .text), tail) := by
  obtain ⟨fuel, rfl⟩ : ∃ n, fuel = n + 1 := ⟨fuel - 1, by omega⟩
  cases list with
  | nil =>
    simp only [arrayChars, List.cons_append, List.nil_append, List.length_cons] at enough ⊢
    obtain ⟨fuel, rfl⟩ : ∃ n, fuel = n + 1 := ⟨fuel - 1, by omega⟩
    simp [value, items, skipGaps, isSpace]
  | cons s rest =>
    have short := length_le_flatMap (f := itemChars) (by simp [itemChars]) (s :: rest)
    simp only [arrayChars, List.cons_append, List.nil_append, List.length_cons, List.append_assoc,
      List.length_append] at enough short ⊢
    rw [value, items_flatMap (s :: rest) tail fuel (by rw [List.length_cons]; omega)]
    rfl

theorem value_boolean (fuel : Nat) (b : Bool) (tail : List Char) :
    value (fuel + 1) ((if b then "true" else "false").toList ++ '\n' :: tail)
      = some (.boolean b, '\n' :: tail) := by
  cases b <;> simp [value, word, isWordChar]

/-! ## Lines -/

/-- An entry reads its value, and nothing of the next line. -/
structure ReadsLine (text : List Char) (v : Value) : Prop where
  starts : ∀ c ∈ text.head?, isSpace c = false
  some_text : text ≠ []
  read : ∀ rest fuel, (text ++ '\n' :: rest).length < fuel →
    value fuel (text ++ '\n' :: rest) = some (v, '\n' :: rest)

theorem readsLine_text (cs : List Char) : ReadsLine (textChars cs) (.text (String.ofList cs)) := by
  obtain ⟨d, more, head, form⟩ := head_textChars cs
  refine ⟨?_, by simp [head], fun rest fuel enough => ?_⟩
  · rw [head]
    rintro c ⟨⟩
    rcases form with rfl | rfl <;> decide
  · obtain ⟨fuel, rfl⟩ : ∃ n, fuel = n + 1 := ⟨fuel - 1, by omega⟩
    exact value_textChars fuel cs (afterText_cons (by decide) (by decide) rest)

theorem readsLine_array (list : List String) :
    ReadsLine (arrayChars list) (.array (list.map .text)) := by
  refine ⟨?_, ?_, fun rest fuel enough => value_arrayChars list _ enough⟩
  · cases list <;> (rintro c ⟨⟩; decide)
  · cases list <;> simp [arrayChars]

theorem readsLine_boolean (b : Bool) :
    ReadsLine (if b then "true" else "false").toList (.boolean b) := by
  refine ⟨?_, by cases b <;> decide, fun rest fuel enough => ?_⟩
  · cases b <;> (rintro c ⟨⟩; decide)
  · obtain ⟨fuel, rfl⟩ : ∃ n, fuel = n + 1 := ⟨fuel - 1, by omega⟩
    exact value_boolean fuel b rest

def entryChars (name text : List Char) : List Char :=
  keyChars name ++ ' ' :: '=' :: ' ' :: (text ++ ['\n'])

theorem lineEnd_of_head {c : Char} (starts : StartsEntry c) (cs : List Char) :
    lineEnd (c :: cs) = none := by
  simp only [lineEnd, skipSpace_of_head starts.space]
  split
  case h_1 left =>
    split at left
    case h_1 same => exact absurd (List.cons.inj same).1 starts.mark
    case h_2 => cases left
  case h_2 left =>
    split at left
    case h_1 same => exact absurd (List.cons.inj same).1 starts.mark
    case h_2 => exact absurd (List.cons.inj left).1 starts.feed
  case h_3 => rfl

theorem lineEnd_feed (rest : List Char) : lineEnd ('\n' :: rest) = some rest := by
  rw [lineEnd, skipSpace_of_head (by decide)]
  rfl

theorem document_entry {text : List Char} {v : Value} (reads : ReadsLine text v) (fuel : Nat)
    (header : List String) (entries : Entries) (name rest : List Char) :
    document (fuel + 1) header entries (entryChars name text ++ rest)
      = (assignUnder header [String.ofList name] v entries).bind fun entries =>
          document fuel header entries rest := by
  obtain ⟨d, more, head, starts⟩ := head_keyChars name
  have line : entryChars name text ++ rest
      = keyChars name ++ ' ' :: '=' :: (' ' :: (text ++ '\n' :: rest)) := by
    simp [entryChars]
  have named := key_entry name (' ' :: (text ++ '\n' :: rest))
  have space : skipSpace (' ' :: (text ++ '\n' :: rest)) = text ++ '\n' :: rest := by
    obtain ⟨c, cs, rfl⟩ := List.exists_cons_of_ne_nil reads.some_text
    exact skipSpace_of_head (reads.starts c rfl) _
  have read : value ((' ' :: (text ++ '\n' :: rest)).length + 1) (text ++ '\n' :: rest)
      = some (v, '\n' :: rest) := reads.read rest _ (by rw [List.length_cons]; omega)
  rw [line]
  rw [head] at named ⊢
  rw [List.cons_append] at named ⊢
  rw [document, skipSpace_of_head starts.space]
  split
  case h_1 same => cases same
  case h_2 same => exact absurd (List.cons.inj same).1 starts.bracket
  case h_3 same => exact absurd (List.cons.inj same).1 starts.bracket
  case h_4 =>
    simp only [lineEnd_of_head starts, named, space, read, lineEnd_feed]
    cases assignUnder header [String.ofList name] v entries <;> rfl

theorem document_blank (fuel : Nat) (header : List String) (entries : Entries) (rest : List Char) :
    document (fuel + 1) header entries ('\n' :: rest) = document fuel header entries rest := by
  rw [document, skipSpace_of_head (by decide)]
  split
  case h_1 same => cases same
  case h_2 same => cases same
  case h_3 same => cases same
  case h_4 => simp only [lineEnd_feed]

/-- The header of a table whose name needs no quotes. -/
theorem document_header {d : Char} {name : List Char} (bare : ∀ c ∈ d :: name, isBare c = true)
    (fuel : Nat) (header : List String) (entries : Entries) (rest : List Char) :
    document (fuel + 1) header entries ('[' :: (d :: name ++ ']' :: '\n' :: rest))
      = (openTable [String.ofList (d :: name)] entries).bind fun entries =>
          document fuel [String.ofList (d :: name)] entries rest := by
  have starts := startsEntry_of_bare (bare d List.mem_cons_self)
  have named : key (d :: name ++ ']' :: '\n' :: rest)
      = some ([String.ofList (d :: name)], ']' :: '\n' :: rest) := by
    rw [key, keyFrom, List.cons_append, skipSpace_of_head starts.space, ← List.cons_append,
      simpleKey_bare bare (by simp [isBare])]
    simp only [skipSpace_of_head (show isSpace ']' = false by decide)]
    rfl
  rw [document, skipSpace_of_head (by decide)]
  split
  case h_1 same => cases same
  case h_2 same => exact absurd (List.cons.inj (List.cons.inj same).2).1 starts.bracket
  case h_3 same =>
    cases same
    simp only [named, lineEnd_feed]
    cases openTable [String.ofList (d :: name)] entries <;> rfl
  case h_4 other => exact absurd rfl (other _)

/-! ## Tables -/

theorem lookup_replace {α : Type} (key : String) (a : α) (entries : List (String × α)) :
    lookup key (replace key a entries) = some a := by
  induction entries with
  | nil => simp [replace, lookup]
  | cons e rest ih =>
    rw [replace]
    split
    case isTrue => simp [lookup]
    case isFalse other => rw [lookup, if_neg other, ih]

theorem replace_replace {α : Type} (key : String) (a b : α) (entries : List (String × α)) :
    replace key b (replace key a entries) = replace key b entries := by
  induction entries with
  | nil => simp [replace]
  | cons e rest ih =>
    rw [replace, replace]
    split
    case isTrue => simp [replace]
    case isFalse other => rw [replace, if_neg other, ih]

theorem replace_lookup {α : Type} {key : String} {a : α} {entries : List (String × α)}
    (h : lookup key entries = some a) : replace key a entries = entries := by
  induction entries with
  | nil => cases h
  | cons e rest ih =>
    rw [lookup] at h
    rw [replace]
    split at h
    case isTrue same => cases h; rw [if_pos same, ← same]
    case isFalse other => rw [if_neg other, ih h]

def textEntry (e : String × String) : String × Node := (e.1, .value (.text e.2))

theorem assignUnder_fresh {key : String} {entries : Entries} (fresh : lookup key entries = none)
    (v : Value) : assignUnder [] [key] v entries = some (entries ++ [(key, .value v)]) := by
  simp [assignUnder, assign, fresh]

theorem openTable_fresh {key : String} {entries : Entries} (fresh : lookup key entries = none) :
    openTable [key] entries = some (entries ++ [(key, .table .header [])]) := by
  simp [openTable, descend, fresh]

theorem assignUnder_table {header key : String} {origin : Origin} {inner outer : Entries}
    (open_table : lookup header outer = some (.table origin inner))
    (fresh : lookup key inner = none) (v : Value) :
    assignUnder [header] [key] v outer
      = some (replace header (.table origin (inner ++ [(key, .value v)])) outer) := by
  simp [assignUnder, descend, open_table, assign, fresh]

/-- The lines of a table of texts, with no name twice. -/
theorem document_table (header : String) (origin : Origin) (list : List (String × String)) :
    ∀ (fuel : Nat) (outer inner : Entries), list.length < fuel →
      lookup header outer = some (.table origin inner) →
      (inner.map (·.1) ++ list.map (·.1)).Nodup →
      document fuel [header] outer
          (list.flatMap fun e => entryChars e.1.toList (textChars e.2.toList))
        = some (replace header (.table origin (inner ++ list.map textEntry)) outer) := by
  induction list with
  | nil =>
    intro fuel outer inner enough open_table distinct
    obtain ⟨fuel, rfl⟩ : ∃ n, fuel = n + 1 := ⟨fuel - 1, by omega⟩
    rw [List.map_nil, List.append_nil, replace_lookup open_table]
    rfl
  | cons e rest ih =>
    intro fuel outer inner enough open_table distinct
    obtain ⟨fuel, rfl⟩ : ∃ n, fuel = n + 1 := ⟨fuel - 1, by omega⟩
    have fresh : lookup e.1 inner = none := by
      rw [lookup_eq_find?, Dict.find?_eq_none_iff]
      exact fun there => (List.nodup_append.1 distinct).2.2 _ there _ List.mem_cons_self rfl
    rw [List.flatMap_cons, document_entry (readsLine_text _), String.ofList_toList,
      String.ofList_toList, assignUnder_table open_table fresh, Option.bind_some,
      ih fuel _ _ (by simpa using enough) (lookup_replace _ _ _), replace_replace,
      List.append_assoc]
    · rfl
    · simpa using distinct

/-! ## Whole documents -/

theorem joinLineEnds_eq {cs : List Char} (h : '\r' ∉ cs) : joinLineEnds cs = cs := by
  induction cs with
  | nil => rfl
  | cons c cs ih =>
    rw [List.mem_cons, not_or] at h
    rw [joinLineEnds, ih h.2]
    rintro rest rfl
    exact absurd rfl h.1

theorem return_not_mem_escapeControl {c : Char} (control : c.toNat < 0x20 ∨ c.toNat = 0x7F) :
    '\r' ∉ escapeControl c := by
  have each : ∀ n < 0x80, n < 0x20 ∨ n = 0x7F → '\r' ∉ escapeControl (Char.ofNat n) := by decide
  have known := each c.toNat (by omega) control
  rwa [Char.ofNat_toNat] at known

theorem return_not_mem_escaped (long : Bool) (cs : List Char) :
    ∀ run, '\r' ∉ escaped long run cs := by
  induction cs with
  | nil => intro run; simp [escaped]
  | cons c cs ih =>
    intro run
    rw [escaped]
    split
    case isTrue => split <;> simp [ih]
    split
    case isTrue => simp [ih]
    split
    case isTrue => simp [ih]
    split
    case isTrue control =>
      rw [List.mem_append, not_or]
      exact ⟨return_not_mem_escapeControl (by simpa using control), ih 0⟩
    case isFalse control =>
      rw [List.mem_cons, not_or]
      refine ⟨?_, ih 0⟩
      rintro rfl
      exact control (by decide)

theorem return_not_mem_of_no_control {cs : List Char} (h : cs.any isControl = false) : '\r' ∉ cs :=
  fun there => absurd (List.any_eq_false.1 h _ there) (by decide)

theorem return_not_mem_basic (t : Traits) (cs : List Char) : '\r' ∉ quoted t cs .basic := by
  simp [quoted, return_not_mem_escaped]

/-- A carriage return is always written as an escape. -/
theorem return_not_mem_textChars (cs : List Char) : '\r' ∉ textChars cs := by
  rw [textChars]
  obtain ⟨literal, longLiteral⟩ := preferred_spec (traits cs)
  have opened : '\r' ∉ opening (traits cs) := by
    rw [opening]
    split <;> simp
  cases picked : (traits cs).preferred with
  | basic => exact return_not_mem_basic _ cs
  | literal => simp [quoted, return_not_mem_of_no_control (literal picked).1]
  | longBasic => simp [quoted, return_not_mem_escaped, opened]
  | longLiteral => simp [quoted, return_not_mem_of_no_control (longLiteral picked).1, opened]

theorem return_not_mem_keyChars (cs : List Char) : '\r' ∉ keyChars cs := by
  simp only [keyChars]
  split
  case isTrue bare =>
    intro there
    have all : ∀ c ∈ cs, isBare c = true := by simpa using (Bool.and_eq_true_iff.1 bare).2
    exact absurd (all _ there) (by decide)
  split
  case isTrue => exact return_not_mem_basic _ cs
  split
  case isTrue literal =>
    have control : cs.any isControl = false := by
      simp only [Bool.and_eq_true, Bool.not_eq_true', traits] at literal
      exact literal.1.1
    simp [quoted, return_not_mem_of_no_control control]
  case isFalse => exact return_not_mem_basic _ cs

theorem return_not_mem_entryChars (name : List Char) {text : List Char} (h : '\r' ∉ text) :
    '\r' ∉ entryChars name text := by
  simp [entryChars, return_not_mem_keyChars, h]

theorem return_not_mem_arrayChars (list : List String) : '\r' ∉ arrayChars list := by
  have each : '\r' ∉ list.flatMap itemChars := by
    rw [List.mem_flatMap]
    rintro ⟨s, -, there⟩
    simp [itemChars, return_not_mem_textChars] at there
  cases list with
  | nil => decide
  | cons s rest => simp only [arrayChars]; simp [-List.flatMap_cons, each]

end LogConsole.Toml
