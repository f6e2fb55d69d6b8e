import LogConsole.Proofs.Dict
import LogConsole.Toml.Reader
import Mathlib.Tactic.Common

/-!
# LogConsole.Proofs.Toml.Distinct

No table of a document has two entries of one name.

* `Value.Distinct`, `Node.Distinct`, `Distinct` — that of values, of tables under construction,
  and of the entries of one;
* `Keeps`          — what an operation on the entries of a table must keep;
* `keeps_descend`  — a change deep in a table keeps it if the change of the innermost table
  does, and so do `keeps_openTable`, `keeps_openElement` and `keeps_assignUnder`;
* `distinct_parse` — each table that is read is built by those.
-/

namespace LogConsole.Toml

inductive Value.Distinct : Value → Prop where
  | text (s : String) : Distinct (.text s)
  | boolean (b : Bool) : Distinct (.boolean b)
  | scalar (s : String) : Distinct (.scalar s)
  | array {items : List Value} (each : ∀ v ∈ items, v.Distinct) : Distinct (.array items)
  | table {entries : List (String × Value)} (names : (entries.map (·.1)).Nodup)
      (each : ∀ e ∈ entries, e.2.Distinct) : Distinct (.table entries)

inductive Node.Distinct : Node → Prop where
  | value {v : Value} (h : v.Distinct) : Distinct (.value v)
  | table {origin : Origin} {entries : Entries} (names : (entries.map (·.1)).Nodup)
      (each : ∀ e ∈ entries, e.2.Distinct) : Distinct (.table origin entries)
  | tables {elements : List Entries} (names : ∀ es ∈ elements, (es.map (·.1)).Nodup)
      (each : ∀ es ∈ elements, ∀ e ∈ es, e.2.Distinct) : Distinct (.tables elements)

structure Distinct (entries : Entries) : Prop where
  names : (entries.map (·.1)).Nodup
  each : ∀ e ∈ entries, e.2.Distinct

/-! ## Values of tables -/

namespace Node

theorem entriesToValues_eq (entries : Entries) :
    entriesToValues entries = entries.map fun e => (e.1, e.2.toValue) := by
  induction entries with
  | nil => rfl
  | cons e rest ih => rw [entriesToValues, ih, List.map_cons]

theorem elementsToValues_eq (elements : List Entries) :
    elementsToValues elements = elements.map fun es => .table (entriesToValues es) := by
  induction elements with
  | nil => rfl
  | cons es rest ih => rw [elementsToValues, ih, List.map_cons]

theorem names_entriesToValues (entries : Entries) :
    (entriesToValues entries).map (·.1) = entries.map (·.1) := by
  rw [entriesToValues_eq, List.map_map]
  rfl

theorem distinct_entriesToValues {entries : Entries} (names : (entries.map (·.1)).Nodup)
    (each : ∀ e ∈ entries, e.2.toValue.Distinct) :
    (Value.table (entriesToValues entries)).Distinct := by
  refine .table (by rwa [names_entriesToValues]) fun e he => ?_
  rw [entriesToValues_eq] at he
  obtain ⟨own, hown, rfl⟩ := List.mem_map.1 he
  exact each own hown

theorem Distinct.toValue {n : Node} (h : n.Distinct) : n.toValue.Distinct := by
  induction h with
  | value h => exact h
  | table names _ ih => exact distinct_entriesToValues names ih
  | tables names _ ih =>
    refine .array fun v hv => ?_
    rw [elementsToValues_eq] at hv
    obtain ⟨es, hes, rfl⟩ := List.mem_map.1 hv
    exact distinct_entriesToValues (names es hes) (ih es hes)

end Node

/-! ## Entries -/

variable {entries out : Entries} {elements made : List Entries} {key : String} {n : Node}

theorem lookup_eq_find? {α : Type} (key : String) (entries : List (String × α)) :
    lookup key entries = Dict.find? key entries := by
  induction entries with
  | nil => rfl
  | cons e rest ih => rw [lookup, Dict.find?, ih]

theorem distinct_nil : Distinct [] := ⟨List.nodup_nil, by simp⟩

theorem Distinct.table (h : Distinct entries) (origin : Origin) :
    (Node.table origin entries).Distinct := .table h.names h.each

theorem Distinct.of_table {origin : Origin} (h : (Node.table origin entries).Distinct) :
    Distinct entries := by
  cases h with | table names each => exact ⟨names, each⟩

theorem distinct_tables (h : ∀ es ∈ elements, Distinct es) : (Node.tables elements).Distinct :=
  .tables (fun es hes => (h es hes).names) fun es hes => (h es hes).each

theorem Distinct.of_tables (h : (Node.tables elements).Distinct) :
    ∀ es ∈ elements, Distinct es := by
  cases h with | tables names each => exact fun es hes => ⟨names es hes, each es hes⟩

theorem Distinct.lookup (h : Distinct entries) (there : lookup key entries = some n) :
    n.Distinct := by
  rw [lookup_eq_find?] at there
  exact h.each _ ((Dict.find?_eq_some_iff h.names).1 there)

theorem Distinct.append (h : Distinct entries) (fresh : Toml.lookup key entries = none)
    (hn : n.Distinct) : Distinct (entries ++ [(key, n)]) := by
  rw [lookup_eq_find?, Dict.find?_eq_none_iff] at fresh
  constructor
  · rw [List.map_append, List.nodup_append_comm]
    exact List.nodup_cons.2 ⟨fresh, h.names⟩
  · intro e he
    rcases List.mem_append.1 he with he | he
    · exact h.each e he
    · cases List.mem_singleton.1 he
      exact hn

theorem names_replace {old : Node} (there : Toml.lookup key entries = some old) :
    (replace key n entries).map (·.1) = entries.map (·.1) := by
  induction entries with
  | nil => cases there
  | cons e rest ih =>
    rw [Toml.lookup] at there
    rw [replace]
    split at there
    case isTrue same => rw [if_pos same, List.map_cons, List.map_cons, same]
    case isFalse other => rw [if_neg other, List.map_cons, List.map_cons, ih there]

theorem mem_replace {e : String × Node} (h : e ∈ replace key n entries) :
    e = (key, n) ∨ e ∈ entries := by
  induction entries with
  | nil => exact .inl (List.mem_singleton.1 h)
  | cons first rest ih =>
    rw [replace] at h
    split at h
    case isTrue => exact (List.mem_cons.1 h).imp_right (List.mem_cons_of_mem _)
    case isFalse =>
      rcases List.mem_cons.1 h with rfl | h
      · exact .inr List.mem_cons_self
      · exact (ih h).imp_right (List.mem_cons_of_mem _)

theorem Distinct.replace (h : Distinct entries) {old : Node}
    (there : Toml.lookup key entries = some old) (hn : n.Distinct) :
    Distinct (replace key n entries) := by
  refine ⟨by rw [names_replace there]; exact h.names, fun e he => ?_⟩
  rcases mem_replace he with rfl | he
  · exact hn
  · exact h.each e he

/-! ## Operations -/

def Keeps (f : Entries → Option Entries) : Prop :=
  ∀ {entries out : Entries}, Distinct entries → f entries = some out → Distinct out

theorem keeps_assign {v : Value} (hv : v.Distinct) (path : List String) :
    Keeps (assign v path) := by
  intro entries out h assigned
  fun_induction assign v path entries generalizing out with
  | case1 => cases assigned
  | case2 => cases assigned
  | case3 entries key fresh =>
    cases assigned
    exact h.append fresh (.value hv)
  | case4 entries key path _ fresh ih =>
    obtain ⟨inner, done, rfl⟩ := Option.map_eq_some_iff.1 assigned
    exact h.append fresh ((ih distinct_nil done).table _)
  | case5 => cases assigned
  | case6 key path entries _ origin inner _ there ih =>
    obtain ⟨inner', done, rfl⟩ := Option.map_eq_some_iff.1 assigned
    exact h.replace there ((ih (.of_table (h.lookup there)) done).table _)
  | case7 => cases assigned

theorem distinct_changeLast {f : Entries → Option Entries} (keeps : Keeps f)
    (h : ∀ es ∈ elements, Distinct es) (changed : changeLast f elements = some made) :
    ∀ es ∈ made, Distinct es := by
  fun_induction changeLast f elements generalizing made with
  | case1 => cases changed
  | case2 es =>
    obtain ⟨es', done, rfl⟩ := Option.map_eq_some_iff.1 changed
    simpa using keeps (h es List.mem_cons_self) done
  | case3 es rest _ ih =>
    obtain ⟨rest', done, rfl⟩ := Option.map_eq_some_iff.1 changed
    obtain ⟨first, others⟩ := List.forall_mem_cons.1 h
    exact List.forall_mem_cons.2 ⟨first, ih others done⟩

theorem keeps_descend {f : String → Entries → Option Entries} (keeps : ∀ key, Keeps (f key))
    (path : List String) : Keeps (descend f path) := by
  induction path with
  | nil => intro entries out _ done; cases done
  | cons key path ih =>
    intro entries out h changed
    cases path with
    | nil => exact keeps key h changed
    | cons next path =>
      rw [descend] at changed
      · split at changed
        case h_1 fresh =>
          obtain ⟨inner, done, rfl⟩ := Option.map_eq_some_iff.1 changed
          exact h.append fresh ((ih distinct_nil done).table _)
        case h_2 origin inner there =>
          obtain ⟨inner', done, rfl⟩ := Option.map_eq_some_iff.1 changed
          exact h.replace there ((ih (.of_table (h.lookup there)) done).table _)
        case h_3 elements there =>
          obtain ⟨elements', done, rfl⟩ := Option.map_eq_some_iff.1 changed
          have each := distinct_changeLast ih (.of_tables (h.lookup there)) done
          exact h.replace there (distinct_tables each)
        case h_4 => cases changed
      · simp

theorem keeps_openTable (path : List String) : Keeps (openTable path) := by
  refine keeps_descend (fun key entries out h opened => ?_) path
  split at opened
  case h_1 fresh =>
    cases opened
    exact h.append fresh (distinct_nil.table _)
  case h_2 inner there =>
    cases opened
    exact h.replace there ((Distinct.of_table (h.lookup there)).table _)
  case h_3 => cases opened

theorem keeps_openElement (path : List String) : Keeps (openElement path) := by
  refine keeps_descend (fun key entries out h opened => ?_) path
  split at opened
  case h_1 fresh =>
    cases opened
    exact h.append fresh (distinct_tables (by simp [distinct_nil]))
  case h_2 elements there =>
    cases opened
    refine h.replace there (distinct_tables fun es hes => ?_)
    rcases List.mem_append.1 hes with hes | hes
    · exact Distinct.of_tables (h.lookup there) es hes
    · cases List.mem_singleton.1 hes
      exact distinct_nil
  case h_3 => cases opened

theorem keeps_assignUnder {v : Value} (hv : v.Distinct) (header path : List String) :
    Keeps (assignUnder header path v) := by
  intro entries out h assigned
  cases header with
  | nil => exact keeps_assign hv path h assigned
  | cons first rest =>
    refine keeps_descend (fun key entries out h changed => ?_) (first :: rest) h assigned
    split at changed
    case h_1 origin inner there =>
      obtain ⟨inner', done, rfl⟩ := Option.map_eq_some_iff.1 changed
      have kept := keeps_assign hv path (.of_table (h.lookup there)) done
      exact h.replace there (kept.table _)
    case h_2 elements there =>
      obtain ⟨elements', done, rfl⟩ := Option.map_eq_some_iff.1 changed
      have each := distinct_changeLast (keeps_assign hv path) (.of_tables (h.lookup there)) done
      exact h.replace there (distinct_tables each)
    case h_3 => cases changed

/-! ## Readers -/

theorem distinct_word {cs rest : List Char} {v : Value} (h : word cs = some (v, rest)) :
    v.Distinct := by
  simp only [word] at h
  split at h
  · cases h; exact .boolean _
  split at h
  · cases h; exact .boolean _
  split at h
  · split at h
    · split at h <;> cases h <;> exact .scalar _
    · cases h; exact .scalar _
  split at h <;> cases h
  exact .scalar _

theorem distinct_read (fuel : Nat) :
    (∀ cs rest v, value fuel cs = some (v, rest) → v.Distinct) ∧
    (∀ cs rest vs, items fuel cs = some (vs, rest) → ∀ v ∈ vs, v.Distinct) ∧
    ∀ entries cs rest es, Distinct entries → members fuel entries cs = some (es, rest) →
      Distinct es := by
  induction fuel with
  | zero =>
    refine ⟨fun _ _ _ h => ?_, fun _ _ _ h => ?_, fun _ _ _ _ _ h => ?_⟩ <;> cases h
  | succ fuel ih =>
    obtain ⟨ihValue, ihItems, ihMembers⟩ := ih
    refine ⟨fun cs rest v h => ?_, fun cs rest vs h => ?_, fun entries cs rest es known h => ?_⟩
    · simp only [value] at h
      split at h
      case h_5 rest' =>
        obtain ⟨⟨vs, _⟩, done, made⟩ := Option.map_eq_some_iff.1 h
        cases made
        exact .array (ihItems _ _ _ done)
      case h_6 rest' =>
        split at h
        · cases h
          exact .table List.nodup_nil (by simp)
        · obtain ⟨⟨es, _⟩, done, made⟩ := Option.map_eq_some_iff.1 h
          cases made
          exact (Distinct.table (ihMembers _ _ _ _ distinct_nil done) .dotted).toValue
      case h_7 => exact distinct_word h
      all_goals
        obtain ⟨_, _, made⟩ := Option.map_eq_some_iff.1 h
        cases made
        exact .text _
    · simp only [items] at h
      split at h
      · cases h
      · cases h
        simp
      split at h
      · cases h
      rename_i v more read
      split at h
      · obtain ⟨⟨vs', _⟩, done, made⟩ := Option.map_eq_some_iff.1 h
        cases made
        exact List.forall_mem_cons.2 ⟨ihValue _ _ _ read, ihItems _ _ _ done⟩
      · cases h
        simpa using ihValue _ _ _ read
      · cases h
    · simp only [members] at h
      split at h
      · split at h
        · cases h
        rename_i v more read
        split at h
        · cases h
        rename_i next assigned
        have kept := keeps_assign (ihValue _ _ _ read) _ known assigned
        split at h
        · exact ihMembers _ _ _ _ kept h
        · cases h
          exact kept
        · cases h
      · cases h

theorem distinct_value {fuel : Nat} {cs rest : List Char} {v : Value}
    (h : value fuel cs = some (v, rest)) : v.Distinct := (distinct_read fuel).1 _ _ _ h

theorem keeps_document (fuel : Nat) (header : List String) (cs : List Char) :
    Keeps fun entries => document fuel header entries cs := by
  induction fuel generalizing header cs with
  | zero => intro entries out _ h; cases h
  | succ fuel ih =>
    intro entries out known h
    simp only [document] at h
    split at h
    · cases h
      exact known
    · split at h
      · split at h
        · rename_i opened
          exact ih _ _ (keeps_openElement _ known opened) h
        · cases h
      · cases h
    · split at h
      · split at h
        · rename_i opened
          exact ih _ _ (keeps_openTable _ known opened) h
        · cases h
      · cases h
    · split at h
      · exact ih _ _ known h
      split at h
      · split at h
        · cases h
        rename_i read
        split at h
        · rename_i assigned
          exact ih _ _ (keeps_assignUnder (distinct_value read) _ _ known assigned) h
        · cases h
      · cases h

theorem distinct_parse {text : String} {entries : List (String × Value)}
    (h : parse text = some entries) : (Value.table entries).Distinct := by
  obtain ⟨built, done, rfl⟩ := Option.map_eq_some_iff.1 h
  exact ((keeps_document _ _ _ distinct_nil done).table .dotted).toValue

end LogConsole.Toml
