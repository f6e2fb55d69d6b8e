import LogConsole.Dict
import Mathlib.Data.List.Induction
import Mathlib.Data.List.Nodup
import Mathlib.Data.String.Basic

/-!
# LogConsole.Proofs.Dict

What is found in a map that has been filled entry by entry.

* `foldl_insert_get?` — entries that are put into a map count before what it held;
* `get?_ofList`       — of entries of the same name the last one counts;
* `find?_map_keys`    — look-up among values that depend on nothing but their name;
* `Sorted`            — what keeps the keys increasing, and so makes a map the function it is
  (`Sorted.ext`), whatever the order in which it has been filled (`ofList_perm`).
-/

namespace LogConsole

namespace Dict

variable {α : Type}

theorem foldl_insert_get? (entries : List (String × α)) (key : String) :
    ∀ d : Dict α, (entries.foldl (fun d e => d.insert e.1 e.2) d).get? key
      = ((ofList entries).get? key).or (d.get? key) := by
  induction entries with
  | nil => intro d; rfl
  | cons e rest ih =>
    intro d
    rw [List.foldl_cons, ofList, List.foldl_cons, ih, ih (empty.insert e.1 e.2), get?_insert,
      get?_insert, get?_empty]
    split <;> simp

/-- Later entries count before earlier ones. -/
theorem get?_ofList_append (xs ys : List (String × α)) (key : String) :
    (ofList (xs ++ ys)).get? key = ((ofList ys).get? key).or ((ofList xs).get? key) := by
  rw [ofList, List.foldl_append]
  exact foldl_insert_get? ys key (ofList xs)

theorem get?_ofList_singleton (name key : String) (value : α) :
    (ofList [(name, value)]).get? key = if name = key then some value else none := by
  simp [ofList, get?_insert]

/-- Of entries of the same name the last one counts. -/
theorem get?_ofList (entries : List (String × α)) (key : String) :
    (ofList entries).get? key = (entries.filter (·.1 == key)).getLast?.map (·.2) := by
  induction entries using List.reverseRecOn with
  | nil => rfl
  | append_singleton before e ih =>
    rw [get?_ofList_append, get?_ofList_singleton, ih, List.filter_append]
    by_cases same : e.1 = key
    · simp [same]
    · simp [same]

theorem get?_ofList_eq_none {entries : List (String × α)} {key : String}
    (h : ∀ e ∈ entries, e.1 ≠ key) : (ofList entries).get? key = none := by
  have others : entries.filter (·.1 == key) = [] := List.filter_eq_nil_iff.2 (by simpa using h)
  rw [get?_ofList, others]
  rfl

/-- Look-up among values that depend on nothing but their name. -/
theorem find?_map_keys {β : Type} (f : String → β) (entries : List (String × α)) (key : String) :
    find? key (entries.map fun e => (e.1, f e.1)) = (find? key entries).map fun _ => f key := by
  induction entries with
  | nil => rfl
  | cons e rest ih =>
    rw [List.map_cons, find?, find?, ih]
    split
    case isTrue same => rw [same, Option.map_some]
    case isFalse => rfl

/-! ## Order -/

/-- The keys increase, so that no key is there twice. -/
def Sorted (d : Dict α) : Prop := d.toList.Pairwise fun a b => a.1 < b.1

theorem sorted_empty : (empty : Dict α).Sorted := List.Pairwise.nil

theorem mem_put {key : String} {value : α} {entries : List (String × α)} {e : String × α}
    (h : e ∈ put key value entries) : e = (key, value) ∨ e ∈ entries := by
  induction entries with
  | nil => simpa [put] using h
  | cons first rest ih =>
    rw [put] at h
    split at h
    case isTrue => exact (List.mem_cons.1 h).imp_right (List.mem_cons_of_mem _)
    case isFalse =>
      split at h
      case isTrue => exact List.mem_cons.1 h
      case isFalse =>
        rcases List.mem_cons.1 h with rfl | h
        · exact .inr List.mem_cons_self
        · exact (ih h).imp_right (List.mem_cons_of_mem _)

theorem Sorted.insert {d : Dict α} (sorted : d.Sorted) (key : String) (value : α) :
    (d.insert key value).Sorted := by
  obtain ⟨entries⟩ := d
  change (put key value entries).Pairwise _
  change entries.Pairwise _ at sorted
  induction entries with
  | nil => simp [put]
  | cons first rest ih =>
    obtain ⟨hfirst, hrest⟩ := List.pairwise_cons.1 sorted
    rw [put]
    split
    case isTrue same => exact List.pairwise_cons.2 ⟨fun e he => same ▸ hfirst e he, hrest⟩
    case isFalse other =>
      split
      case isTrue less =>
        refine List.pairwise_cons.2 ⟨fun e he => ?_, sorted⟩
        rcases List.mem_cons.1 he with rfl | he
        · exact less
        · exact lt_trans less (hfirst e he)
      case isFalse notLess =>
        refine List.pairwise_cons.2 ⟨fun e he => ?_, ih hrest⟩
        rcases mem_put he with rfl | he
        · exact lt_of_le_of_ne (not_lt.1 notLess) other
        · exact hfirst e he

theorem sorted_ofList (entries : List (String × α)) : (ofList entries).Sorted := by
  have key (d : Dict α) (sorted : d.Sorted) :
      (entries.foldl (fun d e => d.insert e.1 e.2) d).Sorted := by
    induction entries generalizing d with
    | nil => exact sorted
    | cons e rest ih => exact ih _ (sorted.insert e.1 e.2)
  exact key empty sorted_empty

theorem find?_eq_none_iff {key : String} {entries : List (String × α)} :
    find? key entries = none ↔ key ∉ entries.map (·.1) := by
  induction entries with
  | nil => simp [find?]
  | cons e rest ih =>
    rw [find?, List.map_cons, List.mem_cons, not_or, ← ih]
    split
    case isTrue same => simp [same]
    case isFalse other => simp [Ne.symm other]

theorem contains_iff {d : Dict α} {key : String} :
    d.contains key ↔ key ∈ d.toList.map (·.1) := by
  rw [contains, Option.isSome_iff_ne_none, ne_eq, get?, find?_eq_none_iff, not_not]
  rfl

/-- In a list in which no key is there twice, what is found is what is there. -/
theorem find?_eq_some_iff {key : String} {value : α} {entries : List (String × α)}
    (distinct : (entries.map (·.1)).Nodup) :
    find? key entries = some value ↔ (key, value) ∈ entries := by
  induction entries with
  | nil => simp [find?]
  | cons e rest ih =>
    obtain ⟨k, v⟩ := e
    obtain ⟨fresh, distinct⟩ := List.nodup_cons.1 distinct
    rw [find?, List.mem_cons, ← ih distinct, Prod.mk.injEq]
    split
    case isTrue same =>
      subst same
      have gone : find? k rest = none := find?_eq_none_iff.2 fresh
      simp [gone, eq_comm]
    case isFalse other => simp [Ne.symm other]

theorem Sorted.nodup {d : Dict α} (sorted : d.Sorted) : (d.toList.map (·.1)).Nodup :=
  List.pairwise_map.2 (sorted.imp fun less => less.ne)

theorem Sorted.get?_eq_some_iff {d : Dict α} (sorted : d.Sorted) {key : String} {value : α} :
    d.get? key = some value ↔ (key, value) ∈ d.toList := find?_eq_some_iff sorted.nodup

/-- A map is what is found in it. -/
theorem Sorted.ext {d e : Dict α} (hd : d.Sorted) (he : e.Sorted)
    (h : ∀ key, d.get? key = e.get? key) : d = e := by
  have perm : d.toList.Perm e.toList := by
    refine (List.perm_ext_iff_of_nodup ?_ ?_).2 fun entry => ?_
    · exact hd.nodup.of_map
    · exact he.nodup.of_map
    · rw [← hd.get?_eq_some_iff, ← he.get?_eq_some_iff, h]
  have same : d.toList = e.toList :=
    perm.eq_of_pairwise (fun a b _ _ hab hba => (lt_asymm hab hba).elim) hd he
  cases d; cases e; exact congrArg _ same

theorem get?_ofList_eq_some_iff {entries : List (String × α)}
    (distinct : (entries.map (·.1)).Nodup) {key : String} {value : α} :
    (ofList entries).get? key = some value ↔ (key, value) ∈ entries := by
  rw [← find?_eq_some_iff distinct]
  induction entries with
  | nil => rfl
  | cons e rest ih =>
    obtain ⟨fresh, distinct⟩ := List.nodup_cons.1 distinct
    rw [← List.singleton_append, get?_ofList_append, get?_ofList_singleton, List.singleton_append,
      find?]
    split
    case isTrue same =>
      subst same
      have gone : (ofList rest).get? e.1 = none :=
        get?_ofList_eq_none fun o ho own => fresh (List.mem_map.2 ⟨o, ho, own⟩)
      simp [gone]
    case isFalse => rw [Option.or_none, ih distinct]

theorem Sorted.ofList_toList {d : Dict α} (sorted : d.Sorted) : ofList d.toList = d := by
  refine (sorted_ofList _).ext sorted fun key => Option.ext fun value => ?_
  rw [get?_ofList_eq_some_iff sorted.nodup, sorted.get?_eq_some_iff]

/-- Entries with different keys make the same map in every order. -/
theorem ofList_perm {first second : List (String × α)} (distinct : (first.map (·.1)).Nodup)
    (perm : first.Perm second) : ofList first = ofList second := by
  have distinct' : (second.map (·.1)).Nodup := (perm.map _).nodup_iff.1 distinct
  refine (sorted_ofList _).ext (sorted_ofList _) fun key => Option.ext fun value => ?_
  rw [get?_ofList_eq_some_iff distinct, get?_ofList_eq_some_iff distinct', perm.mem_iff]

end Dict

end LogConsole
