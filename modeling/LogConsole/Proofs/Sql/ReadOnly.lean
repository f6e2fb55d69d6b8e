import LogConsole.Sql.Prepared

/-!
# LogConsole.Proofs.Sql.ReadOnly

A statement that is prepared as read-only leaves the database as it is.

* `Yields P x`      — whatever `x` ends with has the property `P`, unless it fails;
* `Prepared.Honest` — a statement that is said to leave the database as it is does so;
* `ofStatement_honest`, `run_readOnly` — all statements are, whatever text they come from.

Most kinds of statements are prepared as writing, also where they come to nothing: of those only
the flag is looked at.
-/

namespace LogConsole.Sql

def Yields {ε α : Type} (P : α → Prop) (x : Except ε α) : Prop := ∀ a, x = .ok a → P a

namespace Yields

variable {ε α β : Type} {P : α → Prop}

theorem pure {a : α} (h : P a) : Yields P (.ok a : Except ε α) := by
  intro b hb
  cases hb
  exact h

theorem error (e : ε) : Yields P (.error e) := by
  intro a ha
  cases ha

theorem bind {x : Except ε β} {f : β → Except ε α} (h : ∀ b, Yields P (f b)) :
    Yields P (x >>= f) := by
  intro a ha
  cases x with
  | error e => cases ha
  | ok b => exact h b a ha

end Yields

/-! ## Statements -/

namespace Prepared

/-- A statement that is said to leave the database as it is does so. -/
def Honest (p : Prepared) : Prop :=
  p.readOnly = true → ∀ db parameters, (p.run db parameters).database = db

theorem Honest.of_writing {p : Prepared} (h : p.readOnly = false) : p.Honest := by
  intro hr
  rw [h] at hr
  cases hr

theorem yields_writing {p : Prepared} (h : p.readOnly = false) :
    Yields Honest (.ok p : Except SqlError Prepared) := .pure (.of_writing h)

theorem insertion_honest (db : Database) (i : Insertion) : Yields Honest (insertion db i) := by
  simp only [insertion]
  refine .bind fun t => .bind fun places => ?_
  -- every way through the checks that are left ends with the same writing statement
  repeat' first
    | exact yields_writing rfl
    | refine Yields.bind fun _ => ?_
    | split

theorem updating_honest (db : Database) (name : String) (sets : List (String × Expr))
    (filter : Option Expr) (returning : List ResultColumn) :
    Yields Honest (updating db name sets filter returning) :=
  .bind fun _ => .bind fun _ => .bind fun _ => .bind fun _ => .bind fun _ => yields_writing rfl

theorem deleting_honest (db : Database) (name : String) (filter : Option Expr)
    (returning : List ResultColumn) : Yields Honest (deleting db name filter returning) :=
  .bind fun _ => .bind fun _ => .bind fun _ => .bind fun _ => yields_writing rfl

theorem creatingTable_honest (db : Database) (ifMissing : Bool) (offset : Nat) (d : TableDef) :
    Yields Honest (creatingTable db ifMissing offset d) := by
  refine .bind fun there => ?_
  split
  · exact yields_writing rfl
  · split
    · exact .error _
    · exact yields_writing rfl

theorem creatingIndex_honest (db : Database) (ifMissing unique : Bool) (name table : String)
    (columns : List (String × Nat)) (text : String) :
    Yields Honest (creatingIndex db ifMissing unique name table columns text) := by
  unfold creatingIndex
  split
  · split
    · exact .error _
    · split <;> exact .error _
  · refine .bind fun _ => ?_
    split
    · exact .error _
    · split
      · split
        · exact yields_writing rfl
        · exact .error _
      · exact .bind fun _ => yields_writing rfl

theorem creatingView_honest (db : Database) (ifMissing : Bool) (offset : Nat) (name : String)
    (columns : List String) (s : Select) (text : String) :
    Yields Honest (creatingView db ifMissing offset name columns s text) := by
  refine .bind fun there => ?_
  split <;> exact yields_writing rfl

theorem droppingTable_honest (db : Database) (ifThere : Bool) (name : String) :
    Yields Honest (droppingTable db ifThere name) := by
  unfold droppingTable
  repeat' split
  all_goals first | exact yields_writing rfl | exact .error _

theorem droppingView_honest (db : Database) (ifThere : Bool) (name : String) :
    Yields Honest (droppingView db ifThere name) := by
  unfold droppingView
  repeat' split
  all_goals first | exact yields_writing rfl | exact .error _

theorem droppingIndex_honest (db : Database) (ifThere : Bool) (name : String) :
    Yields Honest (droppingIndex db ifThere name) := by
  unfold droppingIndex
  repeat' split
  all_goals first | exact yields_writing rfl | exact .error _

theorem ofStatement_honest (db : Database) (s : Statement) : Yields Honest (ofStatement db s) := by
  cases s with
  | select s => exact .bind fun q => .pure fun _ _ _ => rfl
  | createTable ifMissing offset d => exact creatingTable_honest db ifMissing offset d
  | createIndex ifMissing unique name table columns text =>
    exact creatingIndex_honest db ifMissing unique name table columns text
  | createView ifMissing offset name columns s text =>
    exact creatingView_honest db ifMissing offset name columns s text
  | insert i => exact insertion_honest db i
  | update table sets filter returning => exact updating_honest db table sets filter returning
  | delete table filter returning => exact deleting_honest db table filter returning
  | dropTable ifThere name => exact droppingTable_honest db ifThere name
  | dropView ifThere name => exact droppingView_honest db ifThere name
  | dropIndex ifThere name => exact droppingIndex_honest db ifThere name
  | readVersion => exact .pure fun _ _ _ => rfl
  | setVersion n => exact yields_writing rfl
  | otherSetting => exact .pure fun _ _ _ => rfl

end Prepared

/-! ## Texts -/

theorem prepareFirst_honest {db : Database} {text rest : String} {p : Prepared}
    (h : prepareFirst db text = .ok (some p, rest)) : p.Honest := by
  simp only [prepareFirst] at h
  split at h
  · cases h
  · split at h
    · cases h
    · split at h
      · cases h
      · split at h
        · cases h
        · rename_i q hq
          cases h
          exact Prepared.ofStatement_honest _ _ q hq

theorem prepareFrom_honest {db : Database} {text : String} {p : Prepared} (fuel : Nat)
    (h : prepareFrom db fuel text = .ok (some p)) : p.Honest := by
  cases fuel with
  | zero => cases h
  | succ fuel =>
    simp only [prepareFrom] at h
    split at h
    · cases h
    · rename_i q rest hq
      have key : q = some p := by
        split at h
        · cases h; rfl
        · split at h <;> cases h
          rfl
      subst key
      exact prepareFirst_honest hq

/-- A statement that is prepared as read-only leaves every database as it is. -/
theorem run_readOnly {db : Database} {text : String} {p : Prepared}
    (h : prepare db text = .ok (some p)) (readOnly : p.readOnly = true) (db' : Database)
    (parameters : List Value) : (p.run db' parameters).database = db' :=
  prepareFrom_honest _ h readOnly db' parameters

end LogConsole.Sql
