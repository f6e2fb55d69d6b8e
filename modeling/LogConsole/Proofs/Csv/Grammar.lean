import LogConsole.Csv
import Mathlib.Tactic.Common

/-!
# LogConsole.Proofs.Csv.Grammar

The grammar of comma-separated values (RFC 4180) in which a line may also end in a line feed alone,
and that the encoding of a table is read as that table and as no other.

* `Inside`, `Field`, `Record`, `LineEnd`, `Table` — the rules of the grammar. Each record has a
  line end; the last may lack it if there is anything in it, since no record is empty text at the
  end of a file;
* `readFrom`      — a reader that goes through a text once, character by character;
* `Table.read_eq` — it reads whatever the grammar does, so that a text is one table at most;
* `table_encode`  — what is encoded is a text of the grammar.

`table_encode_iff` is the result.
-/

namespace LogConsole.Csv

/-! ## Grammar -/

/-- A character of a field without quotes. -/
def IsText (c : Char) : Prop := c ≠ ',' ∧ c ≠ '"' ∧ c ≠ '\r' ∧ c ≠ '\n'

/-- What stands between the quotes of a field. -/
inductive Inside : List Char → List Char → Prop where
  | nil : Inside [] []
  | char {c : Char} {text cs : List Char} (other : c ≠ '"') (rest : Inside text cs) :
      Inside (c :: text) (c :: cs)
  | pair {text cs : List Char} (rest : Inside text cs) : Inside ('"' :: '"' :: text) ('"' :: cs)

inductive Field : List Char → String → Prop where
  | plain {cs : List Char} (all : ∀ c ∈ cs, IsText c) : Field cs (String.ofList cs)
  | quoted {text cs : List Char} (inside : Inside text cs) :
      Field ('"' :: (text ++ ['"'])) (String.ofList cs)

inductive Record : List Char → List String → Prop where
  | one {text : List Char} {f : String} (field : Field text f) : Record text [f]
  | more {text rest : List Char} {f : String} {fields : List String} (field : Field text f)
      (others : Record rest fields) : Record (text ++ ',' :: rest) (f :: fields)

inductive LineEnd : List Char → Prop where
  | feed : LineEnd ['\n']
  | returnFeed : LineEnd ['\r', '\n']

inductive Table : List Char → List (List String) → Prop where
  | nil : Table [] []
  | line {text ending rest : List Char} {fields : List String} {records : List (List String)}
      (record : Record text fields) (ends : LineEnd ending) (others : Table rest records) :
      Table (text ++ (ending ++ rest)) (fields :: records)
  | last {text : List Char} {fields : List String} (record : Record text fields)
      (some_text : text ≠ []) : Table text [fields]

/-! ## Reader -/

/-- Where a reader is: at a field, in one without quotes, between quotes, after a quote that may
close a field, or after a carriage return. -/
inductive Place where
  | fresh | plain | inside | closing | returned
  deriving DecidableEq, Repr

/-- Reads the rest of a text. `cs` has been read of the current field, and `done` are the fields
before it in its record. -/
def readFrom (place : Place) (cs : List Char) (done : List String) :
    List Char → Option (List (List String))
  | [] =>
    match place with
    | .fresh => if done = [] then some [] else some [done ++ [String.ofList cs]]
    | .plain => some [done ++ [String.ofList cs]]
    | .closing => some [done ++ [String.ofList cs]]
    | _ => none
  | c :: rest =>
    match place with
    | .inside =>
      if c = '"' then readFrom .closing cs done rest else readFrom .inside (cs ++ [c]) done rest
    | .returned =>
      if c = '\n' then (readFrom .fresh [] [] rest).map ((done ++ [String.ofList cs]) :: ·)
      else none
    | place =>
      if c = ',' then readFrom .fresh [] (done ++ [String.ofList cs]) rest
      else if c = '\n' then (readFrom .fresh [] [] rest).map ((done ++ [String.ofList cs]) :: ·)
      else if c = '\r' then readFrom .returned cs done rest
      else if c = '"' then
        match place with
        | .fresh => readFrom .inside cs done rest
        | .closing => readFrom .inside (cs ++ ['"']) done rest
        | _ => none
      else if place = .closing then none
      else readFrom .plain (cs ++ [c]) done rest

section Read

variable {cs text : List Char} {done : List String} {rest : List Char}

theorem readFrom_text {c : Char} (h : IsText c) {place : Place}
    (outside : place = .fresh ∨ place = .plain) :
    readFrom place cs done (c :: rest) = readFrom .plain (cs ++ [c]) done rest := by
  obtain ⟨comma, quote, ret, feed⟩ := h
  rcases outside with rfl | rfl <;> simp [readFrom, comma, quote, ret, feed]

theorem readFrom_plain (all : ∀ c ∈ text, IsText c) (cs rest : List Char) :
    readFrom .plain cs done (text ++ rest) = readFrom .plain (cs ++ text) done rest := by
  induction text generalizing cs with
  | nil => simp
  | cons c text ih =>
    obtain ⟨first, others⟩ := List.forall_mem_cons.1 all
    rw [List.cons_append, readFrom_text first (.inr rfl), ih others, List.append_assoc,
      List.singleton_append]

theorem readFrom_inside (h : Inside text cs) (before rest : List Char) :
    readFrom .inside before done (text ++ rest) = readFrom .inside (before ++ cs) done rest := by
  induction h generalizing before with
  | nil => simp
  | char other _ ih => simp [readFrom, other, ih]
  | pair _ ih => simp [readFrom, ih]

/-- What ends a field. -/
def Stops (rest : List Char) : Prop := ∀ c ∈ rest.head?, c = ',' ∨ c = '\r' ∨ c = '\n'

/-- A field is read up to what ends it, like one in quotes. -/
theorem Field.readFrom_eq {f : String} (h : Field text f) (stops : Stops rest)
    (something : rest = [] → text ≠ [] ∨ done ≠ []) :
    readFrom .fresh [] done (text ++ rest) = readFrom .closing f.toList done rest := by
  have stopped (cs : List Char) :
      readFrom .plain cs done rest = readFrom .closing cs done rest := by
    cases rest with
    | nil => rfl
    | cons c rest => rcases stops c rfl with rfl | rfl | rfl <;> simp [readFrom]
  cases h with
  | plain all =>
    cases text with
    | nil =>
      cases rest with
      | nil => simp_all [readFrom]
      | cons c rest => rcases stops c rfl with rfl | rfl | rfl <;> simp [readFrom]
    | cons c cs =>
      obtain ⟨first, others⟩ := List.forall_mem_cons.1 all
      rw [List.cons_append, readFrom_text first (.inl rfl), readFrom_plain others, stopped]
      simp
  | quoted inside =>
    have opened (rest : List Char) :
        readFrom .fresh [] done ('"' :: rest) = readFrom .inside [] done rest := by
      simp [readFrom]
    have closed (cs : List Char) :
        readFrom .inside cs done ('"' :: rest) = readFrom .closing cs done rest := by
      simp [readFrom]
    rw [List.cons_append, List.append_assoc, opened, readFrom_inside inside,
      List.singleton_append, closed, List.nil_append, String.toList_ofList]

theorem Record.readFrom_line {fields : List String} {ending : List Char} (h : Record text fields)
    (ends : LineEnd ending) (rest : List Char) :
    readFrom .fresh [] done (text ++ (ending ++ rest))
      = (readFrom .fresh [] [] rest).map ((done ++ fields) :: ·) := by
  have stops : Stops (ending ++ rest) := by
    cases ends <;> (rintro c ⟨⟩; simp)
  have some_ending : ending ++ rest ≠ [] := by
    cases ends <;> simp
  induction h generalizing done with
  | one field =>
    rw [field.readFrom_eq stops fun none => absurd none some_ending]
    cases ends <;> simp [readFrom]
  | @more text rest' f fields field others ih =>
    have comma : Stops (',' :: (rest' ++ (ending ++ rest))) := by
      rintro c ⟨⟩
      exact .inl rfl
    rw [List.append_assoc, List.cons_append, field.readFrom_eq comma (by simp)]
    simp [readFrom, ih]

theorem Record.readFrom_last {fields : List String} (h : Record text fields)
    (something : text ≠ [] ∨ done ≠ []) :
    readFrom .fresh [] done text = some [done ++ fields] := by
  induction h generalizing done with
  | @one text f field =>
    have read : readFrom .fresh [] done (text ++ []) = readFrom .closing f.toList done [] :=
      field.readFrom_eq (fun c h => by cases h) fun _ => something
    rw [List.append_nil] at read
    rw [read]
    simp [readFrom]
  | @more text rest f fields field others ih =>
    have comma : Stops (',' :: rest) := by
      rintro c ⟨⟩
      exact .inl rfl
    rw [field.readFrom_eq comma (by simp)]
    simp [readFrom, ih]

theorem Table.read_eq {records : List (List String)} (h : Table text records) :
    readFrom .fresh [] [] text = some records := by
  induction h with
  | nil => rfl
  | line record ends _ ih => rw [record.readFrom_line ends, ih]; rfl
  | last record some_text => rw [record.readFrom_last (.inl some_text)]; rfl

theorem Table.unique {records others : List (List String)} (h : Table text records)
    (k : Table text others) : others = records :=
  Option.some.inj (k.read_eq.symm.trans h.read_eq)

end Read

/-! ## Writing -/

theorem inside_flatMap (cs : List Char) :
    Inside (cs.flatMap fun c => if c = '"' then ['"', '"'] else [c]) cs := by
  induction cs with
  | nil => exact .nil
  | cons c cs ih =>
    rw [List.flatMap_cons]
    split
    case isTrue same =>
      subst same
      exact .pair ih
    case isFalse other => exact .char other ih

theorem field_quoted (cs : List Char) : Field (quoted cs) (String.ofList cs) :=
  .quoted (inside_flatMap cs)

theorem field_field (s : String) : Field (field s) s := by
  rw [field]
  split
  case isTrue =>
    have back := field_quoted s.toList
    rwa [String.ofList_toList] at back
  case isFalse free =>
    have back : Field s.toList (String.ofList s.toList) := by
      refine .plain fun c hc => ?_
      have plain : needsQuotes c = false := by
        rw [Bool.eq_false_iff]
        exact fun needs => free (List.any_eq_true.2 ⟨c, hc, needs⟩)
      simpa [needsQuotes, IsText, and_assoc] using plain
    rwa [String.ofList_toList] at back

theorem record_joinFields {fields : List String} (some_field : fields ≠ []) :
    Record (joinFields (fields.map field)) fields := by
  induction fields with
  | nil => exact absurd rfl some_field
  | cons f rest ih =>
    cases rest with
    | nil => exact .one (field_field f)
    | cons g rest => exact .more (field_field f) (ih (List.cons_ne_nil g rest))

/-- Several fields have a comma between them, so that only a single empty one leaves nothing. -/
theorem joinFields_eq_nil {fields : List String} (some_field : fields ≠ [])
    (h : joinFields (fields.map field) = []) : fields = [""] := by
  match fields with
  | [] => exact absurd rfl some_field
  | [f] =>
    have empty : field f = [] := h
    rw [field] at empty
    split at empty
    · simp [quoted] at empty
    · rw [String.toList_eq_nil_iff.1 empty]
  | f :: g :: rest => simp [joinFields] at h

theorem record_record {fields : List String} (some_field : fields ≠ []) :
    ∃ text, record fields = text ++ ['\n'] ∧ Record text fields := by
  rw [record]
  split
  case h_1 none_left =>
    rw [joinFields_eq_nil some_field none_left]
    exact ⟨['"', '"'], rfl, .one (field_quoted [])⟩
  case h_2 => exact ⟨_, rfl, record_joinFields some_field⟩

theorem table_encode {records : List (List String)} (some_field : ∀ fields ∈ records, fields ≠ []) :
    Table (encode records).toList records := by
  rw [encode, String.toList_ofList]
  induction records with
  | nil => exact .nil
  | cons fields rest ih =>
    obtain ⟨first, others⟩ := List.forall_mem_cons.1 some_field
    obtain ⟨text, written, record⟩ := record_record first
    rw [List.flatMap_cons, written, List.append_assoc]
    exact .line record .feed (ih others)

/-- The encoding of a table reads as that table and as no other. -/
theorem table_encode_iff {records : List (List String)}
    (some_field : ∀ fields ∈ records, fields ≠ []) (others : List (List String)) :
    Table (encode records).toList others ↔ others = records := by
  refine ⟨fun read => (table_encode some_field).unique read, ?_⟩
  rintro rfl
  exact table_encode some_field

end LogConsole.Csv
