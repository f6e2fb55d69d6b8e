import LogConsole.Proofs.Sql.ReadOnly
import LogConsole.Proofs.Sql.Reading
import LogConsole.Proofs.Sql.Regular
import Mathlib.Data.List.Basic
import Mathlib.Data.List.Pairwise

/-!
# LogConsole.Proofs.Sql.Creation

Which tables and views have been made.

* `Made`              — a table or view by its name, with the statement that made it;
* `Statement.makes`   — what has been made after a statement that succeeds, by the statement alone;
* `Legal made`        — names that there can be at one time;
* `Quiet p`           — a statement that makes and removes none;
* `ofStatement_makes` — what a statement that succeeds does to a database is what it says;
* `History texts db`  — a database on which statements have been run, in any order, of which `texts`
  have succeeded;
* `History.after?`    — such a database by computation;
* `History.run`, `History.runAllFrom` — both ways of running statements go on with a history;
* `History.made`      — what is in the database is what they have made.

The engine keeps a statement that makes something as it has been written from the name on.
-/

namespace LogConsole.Sql

/-- A table or view, and the statement that made it. -/
structure Made where
  name : String
  text : String
  deriving DecidableEq

/-! ## What a statement says -/

namespace Made

/-- Adds a table or view, unless there is one of that name and that is allowed for. -/
def add (ifMissing : Bool) (m : Made) (made : List Made) : List Made :=
  if ifMissing && made.any (fun n => sameName n.name m.name) then made else made ++ [m]

def remove (name : String) (made : List Made) : List Made :=
  made.filter fun m => !sameName m.name name

end Made

/-- What has been made after a statement that succeeds. -/
def Statement.makes (made : List Made) : Statement → List Made
  | .createTable ifMissing _ d => Made.add ifMissing ⟨d.name, d.text⟩ made
  | .createView ifMissing _ name _ _ text => Made.add ifMissing ⟨name, text⟩ made
  | .dropTable _ name => Made.remove name made
  | .dropView _ name => Made.remove name made
  | _ => made

/-- Names that there can be at one time: each once, and none that the engine keeps for itself. -/
structure Legal (made : List Made) : Prop where
  apart : made.Pairwise fun m n => sameName m.name n.name = false
  free : ∀ m ∈ made, Prepared.checkReserved m.name = .ok ()

theorem legal_nil : Legal [] := ⟨.nil, by simp⟩

theorem sameName_comm (a b : String) : sameName a b = sameName b a := by
  rw [sameName, sameName, Bool.beq_comm]

theorem sameName_congr_right {a b : String} (h : sameName a b = true) (c : String) :
    sameName c a = sameName c b := by
  rw [sameName_comm c a, sameName_comm c b, sameName_congr h]

theorem Legal.eq {made : List Made} (h : Legal made) {m n : Made} (hm : m ∈ made) (hn : n ∈ made)
    (same : sameName m.name n.name = true) : m = n := by
  by_contra other
  have symmetric : Std.Symm fun m n : Made => sameName m.name n.name = false :=
    ⟨fun m n apart => by rwa [sameName_comm]⟩
  exact Bool.noConfusion ((h.apart.forall hm hn other).symm.trans same)

theorem Legal.remove {made : List Made} (h : Legal made) (name : String) :
    Legal (Made.remove name made) :=
  ⟨h.apart.filter _, fun m hm => h.free m (List.mem_of_mem_filter hm)⟩

theorem Legal.append {made : List Made} (h : Legal made) {m : Made}
    (free : Prepared.checkReserved m.name = .ok ())
    (new : ∀ n ∈ made, sameName n.name m.name = false) : Legal (made ++ [m]) := by
  refine ⟨List.pairwise_append.2 ⟨h.apart, List.pairwise_singleton _ _, fun n hn k hk => ?_⟩, ?_⟩
  · rw [List.mem_singleton.1 hk]
    exact new n hn
  · rw [List.forall_mem_append]
    exact ⟨h.free, by simpa using free⟩

/-! ## What a database holds -/

namespace Entry

def made? : Entry → Option Made
  | .table t => some ⟨t.name, t.text⟩
  | .view v => some ⟨v.name, v.text⟩
  | .index _ => none

end Entry

namespace Database

/-- The tables and views of a database. -/
def made (db : Database) : List Made := db.entries.filterMap Entry.made?

variable {db : Database} {name : String}

theorem mem_made_of_table? {t : Table} (h : db.table? name = some t) :
    ⟨t.name, t.text⟩ ∈ db.made ∧ sameName t.name name = true := by
  obtain ⟨e, he, hit⟩ := List.exists_of_findSome?_eq_some h
  cases e with
  | table u =>
    simp only [Entry.asTable?] at hit
    split at hit
    case isTrue same =>
      cases hit
      exact ⟨List.mem_filterMap.2 ⟨_, he, rfl⟩, same⟩
    case isFalse => cases hit
  | index i => cases hit
  | view v => cases hit

theorem mem_made_of_view? {v : View} (h : db.view? name = some v) :
    ⟨v.name, v.text⟩ ∈ db.made ∧ sameName v.name name = true := by
  obtain ⟨e, he, hit⟩ := List.exists_of_findSome?_eq_some h
  cases e with
  | view u =>
    simp only [Entry.asView?] at hit
    split at hit
    case isTrue same =>
      cases hit
      exact ⟨List.mem_filterMap.2 ⟨_, he, rfl⟩, same⟩
    case isFalse => cases hit
  | index i => cases hit
  | table t => cases hit

/-- Where neither a table nor a view is found, there is none of the name. -/
theorem unnamed (table : db.table? name = none) (view : db.view? name = none) :
    ∀ m ∈ db.made, sameName m.name name = false := by
  intro m hm
  obtain ⟨e, he, made⟩ := List.mem_filterMap.1 hm
  cases e with
  | table t =>
    cases made
    have passed := List.findSome?_eq_none_iff.1 table _ he
    simpa [Entry.asTable?] using passed
  | view v =>
    cases made
    have passed := List.findSome?_eq_none_iff.1 view _ he
    simpa [Entry.asView?] using passed
  | index i => cases made

theorem made_addAll (entries : List Entry) (db : Database) :
    (entries.foldl Database.add db).made = db.made ++ entries.filterMap Entry.made? := by
  induction entries generalizing db with
  | nil => simp
  | cons e rest ih =>
    rw [List.foldl_cons, ih, made, made, Database.add, List.filterMap_append, List.append_assoc,
      ← List.filterMap_append, List.singleton_append]

theorem made_removeAll (db : Database) (name : String) :
    (db.removeAll name).made = Made.remove name db.made := by
  rw [made, removeAll, made, Made.remove, List.filter_filterMap, List.filterMap_filter]
  refine List.filterMap_congr fun e _ => ?_
  cases e with
  | table t | view t =>
    cases h : sameName t.name name <;> simp [Entry.made?, Entry.tableName, Option.filter, h]
  | index i => simp [Entry.made?]

theorem made_removeIndex (db : Database) (name : String) :
    (db.removeIndex name).made = db.made := by
  rw [made, removeIndex, made, List.filterMap_filter]
  refine List.filterMap_congr fun e _ => ?_
  cases e with
  | table t => rfl
  | view v => rfl
  | index i => simp [Entry.made?]

/-- A table with other rows is the same table. -/
theorem made_changeTable (legal : Legal db.made) {t new : Table} (found : db.table? name = some t)
    (rest : new = { t with rows := new.rows }) :
    (db.changeTable name fun _ => new).made = db.made := by
  obtain ⟨there, named⟩ := mem_made_of_table? found
  rw [made, changeTable, made, List.filterMap_map]
  refine List.filterMap_congr fun e he => ?_
  cases e with
  | table u =>
    cases same : sameName u.name name with
    | true =>
      have both : sameName u.name t.name = true := by
        rw [sameName_congr same, sameName_comm, named]
      have own : (⟨u.name, u.text⟩ : Made) = ⟨t.name, t.text⟩ :=
        legal.eq (List.mem_filterMap.2 ⟨_, he, rfl⟩) there both
      simp only [Function.comp_apply, same, if_true]
      rw [rest]
      exact congrArg some own.symm
    | false => simp only [Function.comp_apply, same, Bool.false_eq_true, if_false]
  | index i => rfl
  | view v => rfl

end Database

/-! ## Statements that make and remove nothing -/

namespace Action

/-- It leaves alone what has been made. -/
def Quiet (a : Action) : Prop := ∀ db parameters, Legal db.made →
  (a.run db parameters).database.made = db.made

theorem ChangesRows.quiet {outputs : List Term} {a : Action} (runs : ChangesRows outputs a) :
    Quiet a := by
  intro db parameters legal
  obtain ⟨name, change, run, rest⟩ := runs db parameters
  rw [run]
  obtain ⟨e, h⟩ | ⟨t, new, rows, made, ht, hc, -, h⟩ :=
    changing_cases db parameters name outputs change
  · rw [h]; rfl
  · rw [h]
    exact Database.made_changeTable legal ht (rest hc)

theorem quiet_removeIndex (name : String) : Quiet (.removeIndex name) :=
  fun db _ _ => Database.made_removeIndex db name

theorem quiet_addIndex (i : Index) : Quiet (.add [.index i]) := by
  intro db parameters _
  simp only [run]
  split
  · rfl
  · rw [Database.made_addAll]
    exact List.append_nil _

theorem quiet_of_still {a : Action} (still : ∀ db parameters, (a.run db parameters).database = db) :
    Quiet a := fun db parameters _ => by rw [still]

end Action

namespace Prepared

/-- It leaves alone what has been made. -/
def Quiet (p : Prepared) : Prop := p.action.Quiet

theorem yields_insert_quiet {a : InsertAction} {outputs : List String} :
    Yields Quiet (.ok { action := .insert a, columns := outputs } : Except SqlError Prepared) :=
  .pure (Action.changesRows_insert a).quiet

theorem quiet_nothing : Quiet {} := Action.quiet_of_still (a := .nothing) fun _ _ => rfl

theorem insertion_quiet (db : Database) (i : Insertion) : Yields Quiet (insertion db i) := by
  simp only [insertion]
  refine .bind fun t => .bind fun places => ?_
  -- every way through the checks that are left ends with an insertion
  repeat' first
    | exact .error _
    | exact yields_insert_quiet
    | refine Yields.bind fun _ => ?_
    | split

theorem updating_quiet (db : Database) (name : String) (sets : List (String × Expr))
    (filter : Option Expr) (returning : List ResultColumn) :
    Yields Quiet (updating db name sets filter returning) :=
  .bind fun _ => .bind fun _ => .bind fun _ => .bind fun _ => .bind fun _ =>
    .pure (Action.changesRows_update _ _ _ _).quiet

theorem deleting_quiet (db : Database) (name : String) (filter : Option Expr)
    (returning : List ResultColumn) : Yields Quiet (deleting db name filter returning) :=
  .bind fun _ => .bind fun _ => .bind fun _ => .bind fun _ =>
    .pure (Action.changesRows_delete _ _ _).quiet

theorem creatingIndex_quiet (db : Database) (ifMissing unique : Bool) (name table : String)
    (columns : List (String × Nat)) (text : String) :
    Yields Quiet (creatingIndex db ifMissing unique name table columns text) := by
  unfold creatingIndex
  split
  · split
    · exact .error _
    · split <;> exact .error _
  · refine .bind fun _ => ?_
    split
    · exact .error _
    · split
      · split
        · exact .pure quiet_nothing
        · exact .error _
      · exact .bind fun places => .pure (Action.quiet_addIndex _)

theorem droppingIndex_quiet (db : Database) (ifThere : Bool) (name : String) :
    Yields Quiet (droppingIndex db ifThere name) := by
  unfold droppingIndex
  repeat' split
  all_goals first
    | exact .error _
    | exact .pure quiet_nothing
    | exact .pure (Action.quiet_removeIndex _)

/-! ## Statements that make or remove something -/

section Making

variable {db : Database} {name : String} {p : Prepared}

/-- What is asked of a new name. -/
theorem checkNew_ok {offset : Nat} {ifMissing there : Bool}
    (h : checkNew db name offset ifMissing = .ok there) :
    checkReserved name = .ok () ∧
    ((there = true ∧ ifMissing = true ∧ ∃ m ∈ db.made, sameName m.name name = true) ∨
      (there = false ∧ ∀ m ∈ db.made, sameName m.name name = false)) := by
  unfold checkNew at h
  cases free : checkReserved name with
  | error e =>
    rw [free] at h
    cases h
  | ok u =>
    rw [free] at h
    refine ⟨rfl, ?_⟩
    change (if (db.table? name).isSome then _ else _) = Except.ok there at h
    split at h
    case isTrue some =>
      split at h
      case isTrue allowed =>
        cases h
        obtain ⟨t, ht⟩ := Option.isSome_iff_exists.1 some
        exact .inl ⟨rfl, allowed, _, Database.mem_made_of_table? ht⟩
      case isFalse => cases h
    case isFalse noTable =>
      split at h
      case isTrue some =>
        split at h
        case isTrue allowed =>
          cases h
          obtain ⟨v, hv⟩ := Option.isSome_iff_exists.1 some
          exact .inl ⟨rfl, allowed, _, Database.mem_made_of_view? hv⟩
        case isFalse => cases h
      case isFalse noView =>
        split at h
        · cases h
        · cases h
          rw [Option.not_isSome_iff_eq_none] at noTable noView
          exact .inr ⟨rfl, Database.unnamed noTable noView⟩

/-- What a statement that succeeds does to what has been made. -/
def Makes (db : Database) (next : List Made) (p : Prepared) : Prop :=
  ∀ parameters, (p.run db parameters).rows.failure = none →
    (p.run db parameters).database.made = next ∧ Legal next

theorem Quiet.makes (quiet : p.Quiet) (legal : Legal db.made) : Makes db db.made p :=
  fun parameters _ => ⟨quiet db parameters legal, legal⟩

/-- Entries that are added under a name that is not taken. -/
theorem makes_add {ifMissing : Bool} {m : Made} {entries : List Entry} (legal : Legal db.made)
    (free : checkReserved m.name = .ok ()) (new : ∀ n ∈ db.made, sameName n.name m.name = false)
    (one : entries.filterMap Entry.made? = [m]) :
    Makes db (Made.add ifMissing m db.made) { action := .add entries } := by
  intro parameters success
  have unnamed : db.made.any (fun n => sameName n.name m.name) = false := by
    simpa using new
  have next : Made.add ifMissing m db.made = db.made ++ [m] := by
    rw [Made.add, unnamed, Bool.and_false, if_neg (by decide)]
  rw [next]
  refine ⟨?_, legal.append free new⟩
  simp only [run, Action.run] at success ⊢
  split at success
  · cases success
  · rw [Database.made_addAll, one]

/-- A name that is taken, where that is allowed for. -/
theorem makes_there {m : Made} (legal : Legal db.made)
    (there : ∃ n ∈ db.made, sameName n.name m.name = true) :
    Makes db (Made.add true m db.made) {} := by
  have named : db.made.any (fun n => sameName n.name m.name) = true := List.any_eq_true.2 there
  rw [Made.add, named, Bool.and_self, if_pos rfl]
  exact quiet_nothing.makes legal

theorem made?_tableEntries (d : TableDef) :
    (tableEntries d).filterMap Entry.made? = [⟨d.name, d.text⟩] := by
  have indexes (keys : List (List Nat × Nat)) : (keys.map fun k => Entry.index
      { name := "sqlite_autoindex_" ++ d.name ++ "_" ++ toString (k.2 + 1),
        table := d.name, columns := k.1, unique := true, text := none }).filterMap Entry.made?
        = [] := by
    rw [List.filterMap_map]
    exact List.filterMap_eq_nil_iff.2 fun _ _ => rfl
  exact congrArg (⟨d.name, d.text⟩ :: ·) (indexes _)

theorem creatingTable_makes (legal : Legal db.made) (ifMissing : Bool) (offset : Nat)
    (d : TableDef) : Yields (Makes db (Made.add ifMissing ⟨d.name, d.text⟩ db.made))
      (creatingTable db ifMissing offset d) := by
  refine .bind_of (fun _ => checkNew_ok) fun there checked => ?_
  obtain ⟨free, ⟨rfl, rfl, named⟩ | ⟨rfl, unnamed⟩⟩ := checked
  · exact .pure (makes_there legal named)
  · rw [if_neg (by decide)]
    split
    · exact .error _
    · exact .pure (makes_add legal free unnamed (made?_tableEntries d))

theorem creatingView_makes (legal : Legal db.made) (ifMissing : Bool) (offset : Nat)
    (columns : List String) (s : Select) (text : String) :
    Yields (Makes db (Made.add ifMissing ⟨name, text⟩ db.made))
      (creatingView db ifMissing offset name columns s text) := by
  refine .bind_of (fun _ => checkNew_ok) fun there checked => ?_
  obtain ⟨free, ⟨rfl, rfl, named⟩ | ⟨rfl, unnamed⟩⟩ := checked
  · exact .pure (makes_there legal named)
  · exact .pure (makes_add legal free unnamed rfl)

theorem remove_unnamed {made : List Made} (unnamed : ∀ m ∈ made, sameName m.name name = false) :
    Made.remove name made = made :=
  List.filter_eq_self.2 fun m hm => by simp [unnamed m hm]

theorem remove_congr {other : String} (same : sameName other name = true) (made : List Made) :
    Made.remove other made = Made.remove name made :=
  List.filter_congr fun m _ => by rw [sameName_congr_right same]

theorem makes_removeTable {t : Table} (legal : Legal db.made) (found : db.table? name = some t) :
    Makes db (Made.remove name db.made) { action := .removeTable t.name } := by
  intro parameters success
  refine ⟨?_, legal.remove name⟩
  obtain ⟨-, named⟩ := Database.mem_made_of_table? found
  simp only [run, Action.run] at success ⊢
  split
  case h_1 failed =>
    rw [failed] at success
    cases failed.symm.trans success
  case h_2 => rw [Database.made_removeAll, remove_congr named]

theorem makes_removeView {v : View} (legal : Legal db.made) (found : db.view? name = some v) :
    Makes db (Made.remove name db.made) { action := .removeView v.name } := by
  intro parameters success
  refine ⟨?_, legal.remove name⟩
  obtain ⟨-, named⟩ := Database.mem_made_of_view? found
  simp only [run, Action.run]
  rw [Database.made_removeAll, remove_congr named]

theorem makes_nothing (legal : Legal db.made) (table : db.table? name = none)
    (view : db.view? name = none) : Makes db (Made.remove name db.made) {} := by
  rw [remove_unnamed (Database.unnamed table view)]
  exact quiet_nothing.makes legal

theorem droppingTable_makes (legal : Legal db.made) (ifThere : Bool) :
    Yields (Makes db (Made.remove name db.made)) (droppingTable db ifThere name) := by
  unfold droppingTable
  split
  case h_1 found => exact .pure (makes_removeTable legal found)
  case h_2 table =>
    split
    · exact .error _
    case h_2 view =>
      split
      · exact .error _
      · split
        · exact .pure (makes_nothing legal table view)
        · exact .error _

theorem droppingView_makes (legal : Legal db.made) (ifThere : Bool) :
    Yields (Makes db (Made.remove name db.made)) (droppingView db ifThere name) := by
  unfold droppingView
  split
  case h_1 found => exact .pure (makes_removeView legal found)
  case h_2 view =>
    split
    · exact .error _
    case h_2 table =>
      split
      · exact .pure (makes_nothing legal table view)
      · exact .error _

/-- What a statement does to what has been made is what it says. -/
theorem ofStatement_makes (legal : Legal db.made) (s : Statement) :
    Yields (Makes db (s.makes db.made)) (ofStatement db s) := by
  have quiet {x : Except SqlError Prepared} (h : Yields Quiet x) : Yields (Makes db db.made) x :=
    fun p hp => (h p hp).makes legal
  have still (p : Prepared)
      (h : ∀ db parameters, (p.action.run db parameters).database.made = db.made) :
      Yields (Makes db db.made) (.ok p : Except SqlError Prepared) :=
    quiet (.pure fun db parameters _ => h db parameters)
  cases s with
  | select s => exact .bind fun q => still _ fun _ _ => rfl
  | createTable ifMissing offset d => exact creatingTable_makes legal ifMissing offset d
  | createIndex ifMissing unique name table columns text =>
    exact quiet (creatingIndex_quiet db ifMissing unique name table columns text)
  | createView ifMissing offset name columns s text =>
    exact creatingView_makes legal ifMissing offset columns s text
  | insert i => exact quiet (insertion_quiet db i)
  | update table sets filter returning =>
    exact quiet (updating_quiet db table sets filter returning)
  | delete table filter returning => exact quiet (deleting_quiet db table filter returning)
  | dropTable ifThere name => exact droppingTable_makes legal ifThere
  | dropView ifThere name => exact droppingView_makes legal ifThere
  | dropIndex ifThere name => exact quiet (droppingIndex_quiet db ifThere name)
  | readVersion => exact still _ fun _ _ => rfl
  | setVersion n => exact still _ fun _ _ => rfl
  | otherSetting => exact still _ fun _ _ => rfl

end Making

end Prepared

/-- A statement that fails leaves the database as it is. -/
theorem Action.run_failed {a : Action} {db : Database} {parameters : List Value} {e : String}
    (failed : (a.run db parameters).rows.failure = some e) :
    (a.run db parameters).database = db := by
  have changing {outputs : List Term} (runs : ChangesRows outputs a) :
      (a.run db parameters).database = db := by
    obtain ⟨name, change, run, -⟩ := runs db parameters
    rw [run] at failed ⊢
    obtain ⟨e, h⟩ | ⟨t, new, rows, made, -, -, -, h⟩ :=
      changing_cases db parameters name outputs change
    · rw [h]; rfl
    · rw [h] at failed
      cases failed
  cases a with
  | query p => rfl
  | insert a => exact changing (changesRows_insert a)
  | update name assignments filter outputs =>
    exact changing (changesRows_update name assignments filter outputs)
  | delete name filter outputs => exact changing (changesRows_delete name filter outputs)
  | add entries =>
    simp only [run] at failed ⊢
    split at failed
    · rfl
    · cases failed
  | removeTable name =>
    simp only [run] at failed ⊢
    split
    case h_1 =>
      unfold Outcome.checked at *
      split
      · rfl
      · simp_all
    case h_2 success => simp_all
  | removeView | removeIndex | readVersion | setVersion | nothing => cases failed

/-! ## Texts -/

/-- The first statement of a text. -/
def statementOf? (text : String) : Option Statement :=
  (readFirst text.toList).bind fun first => first.1.map (·.statement)

/-- What cannot be read is refused. -/
theorem prepareFirst_of_unread {text : String} (h : readFirst text.toList = none) (db : Database) :
    ∃ e, prepareFirst db text = .error e := by
  simp only [readFirst, firstLexemes] at h
  simp only [prepareFirst, tokenize_eq, dropWhile_token]
  cases hd : (lexemes text.toList).1.dropWhile Lexeme.isSeparator with
  | nil =>
    rw [hd] at h
    cases h
  | cons l more =>
    rw [hd, List.take_succ_cons] at h
    dsimp only at h
    rw [← List.take_succ_cons] at h
    split at h
    case h_2 => cases h
    case h_1 e refused =>
      simp only [List.map_cons]
      rw [← List.map_cons, takeWhile_token, List.length_map, ← List.map_take]
      simp only [refused]
      split
      · exact ⟨_, rfl⟩
      · exact ⟨_, rfl⟩

theorem readFirst_of_prepareFirst {db : Database} {text rest : String} {p : Prepared}
    (h : prepareFirst db text = .ok (some p, rest)) :
    ∃ r after, readFirst text.toList = some (some r, after) ∧ r.prepare db = .ok p := by
  cases read : readFirst text.toList with
  | none =>
    obtain ⟨e, refused⟩ := prepareFirst_of_unread read db
    rw [refused] at h
    cases h
  | some first =>
    obtain ⟨r, after⟩ := first
    rw [prepareFirst_of_readFirst read] at h
    cases r with
    | none => cases h
    | some r =>
      refine ⟨r, after, rfl, ?_⟩
      cases prepared : r.prepare db with
      | error e =>
        simp only [prepared] at h
        cases h
      | ok q =>
        simp only [prepared] at h
        cases h
        rfl

theorem statement_of_prepareFirst {db : Database} {text rest : String} {p : Prepared}
    (h : prepareFirst db text = .ok (some p, rest)) :
    ∃ s q, statementOf? text = some s ∧ Prepared.ofStatement db s = .ok q ∧
      p.action = q.action := by
  obtain ⟨r, after, read, prepared⟩ := readFirst_of_prepareFirst h
  refine ⟨r.statement, ?_⟩
  rw [Read.prepare] at prepared
  split at prepared
  · cases prepared
  · split at prepared
    · cases prepared
    case h_2 q hq =>
      cases prepared
      exact ⟨q, by rw [statementOf?, read]; rfl, hq, rfl⟩

/-! ## Histories -/

/-- What has been made by texts one after the other. -/
def makesAll (texts : List String) : List Made :=
  texts.foldl (fun made text => ((statementOf? text).map (·.makes made)).getD made) []

/-- A database on which statements have been run, and the texts of those that have succeeded. -/
inductive History : List String → Database → Prop
  | start : History [] {}
  | succeeded {texts : List String} {db : Database} {text rest : String} {p : Prepared}
      {parameters : List Value} (before : History texts db)
      (prepared : prepareFirst db text = .ok (some p, rest))
      (success : (p.run db parameters).rows.failure = none) :
      History (texts ++ [text]) (p.run db parameters).database
  | failed {texts : List String} {db : Database} {text rest e : String} {p : Prepared}
      {parameters : List Value} (before : History texts db)
      (prepared : prepareFirst db text = .ok (some p, rest))
      (failure : (p.run db parameters).rows.failure = some e) :
      History texts (p.run db parameters).database

/-- The database after a statement that succeeds and has no parameters. -/
def after? (db : Database) (text : String) : Option Database :=
  match prepareFirst db text with
  | .ok (some p, _) =>
    match (p.run db []).rows.failure with
    | some _ => none
    | none => some (p.run db []).database
  | _ => none

theorem History.after? {texts more : List String} {db last : Database} (before : History texts db)
    (h : more.foldlM Sql.after? db = some last) : History (texts ++ more) last := by
  induction more generalizing texts db with
  | nil =>
    cases h
    rwa [List.append_nil]
  | cons text more ih =>
    obtain ⟨next, one, others⟩ := Option.bind_eq_some_iff.1 h
    unfold Sql.after? at one
    split at one
    case h_1 p rest prepared =>
      split at one
      · cases one
      case h_2 success =>
        cases one
        rw [← List.singleton_append, ← List.append_assoc]
        exact ih (before.succeeded prepared success) others
    case h_2 => cases one

theorem prepareFirst_of_prepare {db : Database} {text : String} {p : Prepared}
    (h : prepare db text = .ok (some p)) : ∃ rest, prepareFirst db text = .ok (some p, rest) := by
  rw [prepare, prepareFrom] at h
  split at h
  · cases h
  case h_2 found rest first =>
    refine ⟨rest, ?_⟩
    rw [first]
    split at h
    · cases h
      rfl
    · split at h <;> cases h
      rfl

/-- Whether or not it succeeds, a statement goes on with the history. -/
theorem History.run {texts : List String} {db : Database} (before : History texts db)
    {text : String} {p : Prepared} (prepared : prepare db text = .ok (some p))
    (parameters : List Value) :
    ∃ more, History (texts ++ more) (p.run db parameters).database := by
  obtain ⟨rest, first⟩ := prepareFirst_of_prepare prepared
  cases outcome : (p.run db parameters).rows.failure with
  | none => exact ⟨[text], before.succeeded first outcome⟩
  | some e => exact ⟨[], by rw [List.append_nil]; exact before.failed first outcome⟩

/-- Statements that are run up to the first failure go on with it, too. -/
theorem History.runAllFrom {texts : List String} {db : Database} (before : History texts db)
    (fuel : Nat) (text : String) :
    ∃ more, History (texts ++ more) (Sql.runAllFrom fuel db text).2 := by
  induction fuel generalizing texts db text with
  | zero => exact ⟨[], by rwa [List.append_nil]⟩
  | succ fuel ih =>
    rw [Sql.runAllFrom]
    split
    · exact ⟨[], by rwa [List.append_nil]⟩
    · exact ⟨[], by rwa [List.append_nil]⟩
    case h_3 p rest prepared =>
      dsimp only
      split
      case h_1 e failure =>
        exact ⟨[], by rw [List.append_nil]; exact before.failed prepared failure⟩
      case h_2 success =>
        obtain ⟨more, after⟩ := ih (before.succeeded prepared success) rest
        exact ⟨text :: more, by rwa [← List.singleton_append, ← List.append_assoc]⟩

/-- What is in the database is what has been made. -/
theorem History.made {texts : List String} {db : Database} (h : History texts db) :
    db.made = makesAll texts ∧ Legal db.made := by
  induction h with
  | start => exact ⟨rfl, legal_nil⟩
  | succeeded _ prepared success ih =>
    obtain ⟨same, legal⟩ := ih
    obtain ⟨s, q, read, made, action⟩ := statement_of_prepareFirst prepared
    rw [Prepared.run, action] at success ⊢
    obtain ⟨next, legal⟩ := Prepared.ofStatement_makes legal s q made _ success
    rw [makesAll, List.foldl_append, ← makesAll, ← same, List.foldl_cons, List.foldl_nil, read]
    exact ⟨next, next ▸ legal⟩
  | failed _ _ failure ih => rwa [Prepared.run, Action.run_failed failure]

end LogConsole.Sql
