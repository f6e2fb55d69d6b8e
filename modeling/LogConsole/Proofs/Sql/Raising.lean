import LogConsole.Sql.Prepared

/-!
# LogConsole.Proofs.Sql.Raising

Statements that come to a call of `raise_error`.

* `Term.Raises`     — the evaluation of an expression comes to such a call;
* `Plan.Raises`, `Action.Raises` — so does that of a statement, with all that is evaluated before
  it having a value;
* `eval_of_raises`  — the expression fails with what the function says, and
  `raises_of_eval` — it fails in no other way;
* `Plan.run_of_raises`, `Action.run_of_raises` — the statement fails with what the function says.

What is evaluated before what is part of the relations: rows one after the other, for each row the
condition, then the results, then the keys of the order.
-/

namespace LogConsole.Sql

/-! ## Expressions -/

namespace Term

/-- All of them have a value. -/
def Succeed (b : Bindings) (ts : List Term) : Prop := ∃ vs, evalAll b ts = .ok vs

/-- The evaluation comes to a call of `raise_error` with these arguments. -/
inductive Raises (b : Bindings) (args : List Value) : Term → Prop where
  | call {ts : List Term} (h : evalAll b ts = .ok args) : Raises b args (.call .raiseError ts)
  | argument {f : Function} {before after : List Term} {t : Term} (hb : Succeed b before)
      (h : Raises b args t) : Raises b args (.call f (before ++ t :: after))
  | operand {op : UnaryOp} {a : Term} (h : Raises b args a) : Raises b args (.unary op a)
  | left {op : BinaryOp} {affinity : Affinity} {l r : Term} (h : Raises b args l) :
      Raises b args (.binary op affinity l r)
  | right {op : BinaryOp} {affinity : Affinity} {l r : Term} {v : Value}
      (hl : eval b l = .ok v) (undecided : op.decides v = false) (h : Raises b args r) :
      Raises b args (.binary op affinity l r)
  | tested {negative : Bool} {a : Term} (h : Raises b args a) : Raises b args (.isNull negative a)
  | pattern {negative : Bool} {a p : Term} (h : Raises b args p) : Raises b args (.like negative a p)
  | matched {negative : Bool} {a p : Term} {v : Value} (hp : eval b p = .ok v)
      (h : Raises b args a) : Raises b args (.like negative a p)
  | sought {negative : Bool} {affinity : Affinity} {a : Term} {items : List Term}
      (h : Raises b args a) : Raises b args (.inList negative affinity a items)
  | item {negative : Bool} {affinity : Affinity} {a t : Term} {before after : List Term} {v : Value}
      (ha : eval b a = .ok v) (hb : Succeed b before) (h : Raises b args t) :
      Raises b args (.inList negative affinity a (before ++ t :: after))

/-- One of them comes to such a call, and those before it have a value. -/
def RaisesAmong (b : Bindings) (args : List Value) (ts : List Term) : Prop :=
  ∃ before t after, ts = before ++ t :: after ∧ Succeed b before ∧ Raises b args t

variable {b : Bindings} {args : List Value}

theorem evalAll_append {ts us : List Term} {vs : List Value} (h : evalAll b ts = .ok vs) :
    evalAll b (ts ++ us) = (evalAll b us).map (vs ++ ·) := by
  induction ts generalizing vs with
  | nil =>
    cases h
    cases hu : evalAll b us <;> simp [hu, Except.map]
  | cons t ts ih =>
    simp only [evalAll] at h
    split at h
    · cases h
    · rename_i v hv
      split at h
      · cases h
      · rename_i ws hws
        cases h
        simp only [List.cons_append, evalAll, hv, ih hws]
        cases evalAll b us <;> rfl

theorem evalAll_append_error {ts : List Term} (us : List Term) {e : String}
    (h : evalAll b ts = .error e) : evalAll b (ts ++ us) = .error e := by
  induction ts with
  | nil => cases h
  | cons t ts ih =>
    simp only [evalAll] at h
    split at h
    · rename_i ht
      cases h
      simp only [List.cons_append, evalAll, ht]
    · rename_i v hv
      split at h
      · rename_i hts
        cases h
        simp only [List.cons_append, evalAll, hv, ih hts]
      · cases h

theorem succeed_append {ts us : List Term} :
    Succeed b (ts ++ us) ↔ Succeed b ts ∧ Succeed b us := by
  constructor
  · rintro ⟨ws, h⟩
    cases ht : evalAll b ts with
    | error e =>
      rw [evalAll_append_error us ht] at h
      cases h
    | ok vs =>
      rw [evalAll_append ht] at h
      refine ⟨⟨vs, ht⟩, ?_⟩
      cases hu : evalAll b us with
      | error e => rw [hu] at h; cases h
      | ok us => exact ⟨us, hu⟩
  · rintro ⟨⟨vs, hv⟩, ws, hw⟩
    exact ⟨vs ++ ws, by rw [evalAll_append hv, hw]; rfl⟩

theorem evalAll_fails {before after : List Term} {t : Term} {e : String} (hb : Succeed b before)
    (ht : eval b t = .error e) : evalAll b (before ++ t :: after) = .error e := by
  obtain ⟨vs, hvs⟩ := hb
  rw [evalAll_append hvs]
  simp only [evalAll, ht]
  rfl

theorem eval_of_raises {t : Term} (h : Raises b args t) :
    eval b t = .error (Function.raised args) := by
  induction h with
  | call h => simp only [eval, h]; rfl
  | argument hb _ ih => simp only [eval, evalAll_fails hb ih]
  | operand _ ih => simp only [eval, ih]
  | left _ ih => simp only [eval, ih]
  | right hl hd _ ih => simp only [eval, hl, hd, ih]; rfl
  | tested _ ih => simp only [eval, ih]
  | pattern _ ih => simp only [eval, ih]
  | matched hp _ ih => simp only [eval, hp, ih]
  | sought _ ih => simp only [eval, ih]
  | item ha hb _ ih => simp only [eval, ha, evalAll_fails hb ih]

theorem evalAll_of_raises {ts : List Term} (h : RaisesAmong b args ts) :
    evalAll b ts = .error (Function.raised args) := by
  obtain ⟨before, t, after, rfl, hb, ht⟩ := h
  exact evalAll_fails hb (eval_of_raises ht)

theorem RaisesAmong.head {t : Term} {ts : List Term} (h : Raises b args t) :
    RaisesAmong b args (t :: ts) :=
  ⟨[], t, ts, rfl, ⟨[], by rw [evalAll]⟩, h⟩

theorem RaisesAmong.tail {t : Term} {ts : List Term} {v : Value} (ht : eval b t = .ok v)
    (h : RaisesAmong b args ts) : RaisesAmong b args (t :: ts) := by
  obtain ⟨before, u, after, rfl, ⟨vs, hb⟩, hu⟩ := h
  exact ⟨t :: before, u, after, rfl, ⟨v :: vs, by simp only [evalAll, ht, hb]⟩, hu⟩

mutual

/-- No other function fails. -/
theorem raises_of_eval {e : String} : ∀ t : Term, eval b t = .error e →
    ∃ args, e = Function.raised args ∧ Raises b args t
  | .value _, h | .parameter _, h | .column _, h | .total _, h => by simp [eval] at h
  | .unary op a, h => by
    simp only [eval] at h
    split at h
    · cases h
      obtain ⟨args, he, ha⟩ := raises_of_eval a ‹_›
      exact ⟨args, he, .operand ha⟩
    · cases h
  | .binary op affinity l r, h => by
    simp only [eval] at h
    split at h
    · cases h
      obtain ⟨args, he, hl⟩ := raises_of_eval l ‹_›
      exact ⟨args, he, .left hl⟩
    · rename_i v hv
      split at h
      · cases h
      · rename_i hd
        split at h
        · cases h
          obtain ⟨args, he, hr⟩ := raises_of_eval r ‹_›
          exact ⟨args, he, .right hv (by simpa using hd) hr⟩
        · cases h
  | .isNull negative a, h => by
    simp only [eval] at h
    split at h
    · cases h
      obtain ⟨args, he, ha⟩ := raises_of_eval a ‹_›
      exact ⟨args, he, .tested ha⟩
    · cases h
  | .like negative a p, h => by
    simp only [eval] at h
    split at h
    · cases h
      obtain ⟨args, he, hp⟩ := raises_of_eval p ‹_›
      exact ⟨args, he, .pattern hp⟩
    · rename_i v hv
      split at h
      · cases h
        obtain ⟨args, he, ha⟩ := raises_of_eval a ‹_›
        exact ⟨args, he, .matched hv ha⟩
      · cases h
  | .inList negative affinity a items, h => by
    simp only [eval] at h
    split at h
    · cases h
      obtain ⟨args, he, ha⟩ := raises_of_eval a ‹_›
      exact ⟨args, he, .sought ha⟩
    · rename_i v hv
      split at h
      · cases h
        obtain ⟨args, he, before, t, after, rfl, hb, ht⟩ := raises_of_evalAll items ‹_›
        exact ⟨args, he, .item hv hb ht⟩
      · cases h
  | .call f ts, h => by
    simp only [eval] at h
    split at h
    · cases h
      obtain ⟨args, he, before, t, after, rfl, hb, ht⟩ := raises_of_evalAll ts ‹_›
      exact ⟨args, he, .argument hb ht⟩
    · rename_i vs hvs
      cases f with
      | raiseError =>
        cases h
        exact ⟨vs, rfl, .call hvs⟩
      | typeName => cases h
      | least => cases h
      | greatest => cases h

theorem raises_of_evalAll {e : String} : ∀ ts : List Term, evalAll b ts = .error e →
    ∃ args, e = Function.raised args ∧ RaisesAmong b args ts
  | [], h => by simp [evalAll] at h
  | t :: rest, h => by
    simp only [evalAll] at h
    split at h
    · cases h
      obtain ⟨args, he, ht⟩ := raises_of_eval t ‹_›
      exact ⟨args, he, .head ht⟩
    · rename_i v hv
      split at h
      · cases h
        obtain ⟨args, he, hr⟩ := raises_of_evalAll rest ‹_›
        exact ⟨args, he, .tail hv hr⟩
      · cases h

end

theorem holds_of_raises {condition : Option Term} (h : RaisesAmong b args condition.toList) :
    holds b condition = .error (Function.raised args) := by
  obtain ⟨before, t, after, hc, -, ht⟩ := h
  cases condition with
  | none => simp at hc
  | some u =>
    -- a condition is one expression at most, with nothing before it
    obtain ⟨rfl, hu⟩ : before = [] ∧ u = t := by
      rcases before with - | ⟨_, - | _⟩ <;> simp_all
    subst hu
    simp only [holds, eval_of_raises ht]

end Term

/-! ## Queries -/

section Rows

variable {f : List Value → Except String (Option (List Value))} {failure : Option String}

variable (failure) in
/-- Rows that do not fail come before what becomes of the others. -/
theorem filterMapFrom_append {before : List (List Value)} (rest : List (List Value))
    (hb : ∀ row ∈ before, ∃ made, f row = .ok made) :
    ∃ made, Rows.filterMapFrom f failure (before ++ rest)
      = ⟨made ++ (Rows.filterMapFrom f failure rest).rows,
        (Rows.filterMapFrom f failure rest).failure⟩ := by
  induction before with
  | nil => exact ⟨[], rfl⟩
  | cons row before ih =>
    obtain ⟨made, hm⟩ := ih fun r hr => hb r (List.mem_cons_of_mem _ hr)
    obtain ⟨one, h1⟩ := hb row List.mem_cons_self
    cases one with
    | none => exact ⟨made, by simp only [List.cons_append, Rows.filterMapFrom, h1, hm]⟩
    | some one =>
      exact ⟨one :: made, by simp only [List.cons_append, Rows.filterMapFrom, h1, hm, Rows.cons]⟩

theorem filterMapFrom_fails {before after : List (List Value)} {row : List Value} {e : String}
    (hb : ∀ row ∈ before, ∃ made, f row = .ok made) (h : f row = .error e) :
    (Rows.filterMapFrom f failure (before ++ row :: after)).failure = some e := by
  obtain ⟨made, hm⟩ := filterMapFrom_append failure (row :: after) hb
  rw [hm]
  simp only [Rows.filterMapFrom, h, Rows.fail]

theorem filterMapFrom_failure {rows : List (List Value)}
    (hb : ∀ row ∈ rows, ∃ made, f row = .ok made) :
    (Rows.filterMapFrom f failure rows).failure = failure := by
  obtain ⟨made, hm⟩ := filterMapFrom_append failure [] hb
  rw [List.append_nil] at hm
  rw [hm, Rows.filterMapFrom]

end Rows

namespace Plan

variable {ps args : List Value} {b : List Value → Bindings} {order : List SortKey}
  {outputs : List Term} {failure : Option String} {e : String}

/-- What is evaluated for a row that comes out: the results, then the keys of the order. -/
def shown (order : List SortKey) (outputs : List Term) : List Term :=
  outputs ++ order.map (·.term)

theorem keyed_ok {rows : List (List Value)}
    (hb : ∀ row ∈ rows, Term.Succeed (b row) (shown order outputs)) :
    ∃ made, keyed b order outputs rows = .ok made := by
  induction rows with
  | nil => exact ⟨[], rfl⟩
  | cons row rows ih =>
    obtain ⟨more, hm⟩ := ih fun r hr => hb r (List.mem_cons_of_mem _ hr)
    obtain ⟨⟨made, h1⟩, keys, h2⟩ := Term.succeed_append.1 (hb row List.mem_cons_self)
    exact ⟨(keys, made) :: more, by simp only [keyed, h1, h2, hm]⟩

theorem keyed_fails {before after : List (List Value)} {row : List Value}
    (hb : ∀ row ∈ before, Term.Succeed (b row) (shown order outputs))
    (h : Term.evalAll (b row) (shown order outputs) = .error e) :
    keyed b order outputs (before ++ row :: after) = .error e := by
  induction before with
  | nil =>
    simp only [List.nil_append, keyed]
    cases ht : Term.evalAll (b row) outputs with
    | error e' =>
      rw [shown, Term.evalAll_append_error _ ht] at h
      cases h
      rfl
    | ok made =>
      rw [shown, Term.evalAll_append ht] at h
      cases hk : Term.evalAll (b row) (order.map (·.term)) with
      | error e' =>
        rw [hk] at h
        cases h
        rfl
      | ok keys =>
        rw [hk] at h
        cases h
  | cons first before ih =>
    have more := ih fun r hr => hb r (List.mem_cons_of_mem _ hr)
    obtain ⟨⟨made, h1⟩, keys, h2⟩ := Term.succeed_append.1 (hb first List.mem_cons_self)
    simp only [List.cons_append, keyed, h1, h2, more]

/-- The results without an order, row by row. -/
theorem shown_nil (outputs : List Term) : shown [] outputs = outputs := List.append_nil _

theorem finish_fails {before after : List (List Value)} {row : List Value}
    (hb : ∀ row ∈ before, Term.Succeed (b row) (shown order outputs))
    (h : Term.evalAll (b row) (shown order outputs) = .error e) :
    (finish b order outputs ⟨before ++ row :: after, failure⟩).failure = some e := by
  cases order with
  | nil =>
    rw [shown_nil] at hb h
    refine filterMapFrom_fails (fun r hr => ?_) (by rw [h]; rfl)
    obtain ⟨vs, hv⟩ := hb r hr
    exact ⟨some vs, by rw [hv]; rfl⟩
  | cons key order => simp only [finish, keyed_fails hb h, Rows.fail]

theorem finish_failure {rows : List (List Value)}
    (hb : ∀ row ∈ rows, Term.Succeed (b row) (shown order outputs)) :
    (finish b order outputs ⟨rows, some e⟩).failure = some e := by
  cases order with
  | nil =>
    rw [shown_nil] at hb
    refine filterMapFrom_failure fun r hr => ?_
    obtain ⟨vs, hv⟩ := hb r hr
    exact ⟨some vs, by rw [hv]; rfl⟩
  | cons key order =>
    obtain ⟨made, hm⟩ := keyed_ok hb
    simp only [finish, hm, Rows.fail]

/-- The rows among some that a condition holds for. -/
def kept (ps : List Value) (filter : Option Term) (rows : List (List Value)) : List (List Value) :=
  rows.filter fun row => Term.holds ⟨ps, row, []⟩ filter matches .ok true

variable (failure) in
theorem filterRows_append {filter : Option Term} {before : List (List Value)}
    (rest : List (List Value))
    (hb : ∀ row ∈ before, ∃ h, Term.holds ⟨ps, row, []⟩ filter = .ok h) :
    filterRows ps filter ⟨before ++ rest, failure⟩
      = ⟨kept ps filter before ++ (filterRows ps filter ⟨rest, failure⟩).rows,
        (filterRows ps filter ⟨rest, failure⟩).failure⟩ := by
  induction before with
  | nil => rfl
  | cons row before ih =>
    have more := ih fun r hr => hb r (List.mem_cons_of_mem _ hr)
    obtain ⟨h, hh⟩ := hb row List.mem_cons_self
    simp only [filterRows, Rows.filterMap] at more ⊢
    cases h <;> simp [Rows.filterMapFrom, hh, more, kept, Rows.cons]

theorem filterRows_fails {filter : Option Term} {before after : List (List Value)}
    {row : List Value} (hb : ∀ row ∈ before, ∃ h, Term.holds ⟨ps, row, []⟩ filter = .ok h)
    (h : Term.holds ⟨ps, row, []⟩ filter = .error e) :
    filterRows ps filter ⟨before ++ row :: after, failure⟩
      = ⟨kept ps filter before, some e⟩ := by
  rw [filterRows_append failure _ hb]
  simp [filterRows, Rows.filterMap, Rows.filterMapFrom, h, Rows.fail]

theorem filterRows_all {filter : Option Term} {rows : List (List Value)}
    (hb : ∀ row ∈ rows, ∃ h, Term.holds ⟨ps, row, []⟩ filter = .ok h) :
    filterRows ps filter ⟨rows, failure⟩ = ⟨kept ps filter rows, failure⟩ := by
  have h := filterRows_append failure [] hb
  simpa [filterRows, Rows.filterMap, Rows.filterMapFrom] using h

/-- A row goes through a query: its condition is decided, and if it holds all is evaluated. -/
def Goes (ps : List Value) (filter : Option Term) (order : List SortKey) (outputs : List Term)
    (row : List Value) : Prop :=
  ∃ h, Term.holds ⟨ps, row, []⟩ filter = .ok h ∧
    (h = true → Term.Succeed ⟨ps, row, []⟩ (shown order outputs))

theorem Goes.decided {filter : Option Term} {row : List Value} (h : Goes ps filter order outputs row) :
    ∃ h, Term.holds ⟨ps, row, []⟩ filter = .ok h := by
  obtain ⟨h, hh, -⟩ := h
  exact ⟨h, hh⟩

theorem Goes.kept {filter : Option Term} {rows : List (List Value)}
    (hb : ∀ row ∈ rows, Goes ps filter order outputs row) :
    ∀ row ∈ kept ps filter rows, Term.Succeed ⟨ps, row, []⟩ (shown order outputs) := by
  intro row hr
  obtain ⟨hm, hk⟩ := List.mem_filter.1 hr
  obtain ⟨h, hh, hs⟩ := hb row hm
  rw [hh] at hk
  cases h with
  | true => exact hs rfl
  | false => cases hk

end Plan

namespace Total

variable {ps args : List Value}

/-- What is counted or picked has a value in all rows. -/
def Succeeds (ps : List Value) (rows : List (List Value)) (t : Total) : Prop :=
  ∃ vs, t.args ps rows = .ok vs

/-- The evaluation comes to a call of `raise_error` in one of the rows. -/
def Raises (ps args : List Value) (rows : List (List Value)) (t : Total) : Prop :=
  ∃ a before row after, t.arg = some a ∧ rows = before ++ row :: after ∧
    (∀ r ∈ before, ∃ v, a.eval ⟨ps, r, []⟩ = .ok v) ∧ Term.Raises ⟨ps, row, []⟩ args a

theorem args_of_raises {rows : List (List Value)} {t : Total} (h : t.Raises ps args rows) :
    t.args ps rows = .error (Function.raised args) := by
  obtain ⟨a, before, row, after, ha, rfl, hb, h⟩ := h
  induction before with
  | nil => simp only [List.nil_append, Total.args, ha, Term.eval_of_raises h]
  | cons first before ih =>
    obtain ⟨v, hv⟩ := hb first List.mem_cons_self
    simp only [List.cons_append, Total.args, ha, hv,
      ih fun r hr => hb r (List.mem_cons_of_mem _ hr)]

theorem totalsOf_fails {rows : List (List Value)} {row : List Value} {before after : List Total}
    {t : Total} {e : String} (hb : ∀ u ∈ before, u.Succeeds ps rows)
    (h : t.args ps rows = .error e) :
    totalsOf ps rows row (before ++ t :: after) = .error e := by
  induction before generalizing row with
  | nil => simp only [List.nil_append, totalsOf, h]
  | cons u before ih =>
    obtain ⟨vs, hv⟩ := hb u List.mem_cons_self
    simp only [List.cons_append, totalsOf, hv, ih fun u hu => hb u (List.mem_cons_of_mem _ hu)]

end Total

namespace Plan

variable {ps args : List Value} {totals : List Total} {order : List SortKey} {outputs : List Term}
  {e : String}

/-- What the results of a group are made from: its totals, then the columns of one of its rows. -/
def groupBindings (ps : List Value) (totals : List Total) (line : List Value) : Bindings :=
  ⟨ps, line.drop totals.length, line.take totals.length⟩

/-- The line of a group, if its totals have values. -/
def lineOf? (ps : List Value) (totals : List Total) (group : List (List Value)) :
    Except String (List Value) :=
  (totalsOf ps group (group.headD []) totals).map fun (made, row) => made ++ row

def GroupGoes (ps : List Value) (totals : List Total) (order : List SortKey) (outputs : List Term)
    (group : List (List Value)) : Prop :=
  ∃ line, lineOf? ps totals group = .ok line ∧
    Term.Succeed (groupBindings ps totals line) (shown order outputs)

/-- The evaluation of a group comes to a call of `raise_error`, in a total or in a result. -/
inductive GroupRaises (ps args : List Value) (totals : List Total) (order : List SortKey)
    (outputs : List Term) (group : List (List Value)) : Prop where
  | total {before after : List Total} {t : Total} (ht : totals = before ++ t :: after)
      (hb : ∀ u ∈ before, u.Succeeds ps group) (h : t.Raises ps args group)
  | result {line : List Value} (hl : lineOf? ps totals group = .ok line)
      (h : Term.RaisesAmong (groupBindings ps totals line) args (shown order outputs))

theorem totalRows_cons (group : List (List Value)) (rest : List (List (List Value))) :
    totalRows ps totals (group :: rest) =
      match lineOf? ps totals group with
      | .error e => .fail e
      | .ok line => Rows.cons line (totalRows ps totals rest) := by
  simp only [totalRows, List.foldr_cons, lineOf?]
  cases totalsOf ps group (group.headD []) totals <;> rfl

/-- Groups that go through come out as lines before what comes of the others. -/
theorem totalRows_append {before : List (List (List Value))} (rest : List (List (List Value)))
    (hb : ∀ g ∈ before, GroupGoes ps totals order outputs g) :
    ∃ lines, totalRows ps totals (before ++ rest)
        = ⟨lines ++ (totalRows ps totals rest).rows, (totalRows ps totals rest).failure⟩ ∧
      ∀ line ∈ lines, Term.Succeed (groupBindings ps totals line) (shown order outputs) := by
  induction before with
  | nil => exact ⟨[], rfl, by simp⟩
  | cons g before ih =>
    obtain ⟨lines, hl, hs⟩ := ih fun g hg => hb g (List.mem_cons_of_mem _ hg)
    obtain ⟨line, h1, h2⟩ := hb g List.mem_cons_self
    refine ⟨line :: lines, ?_, ?_⟩
    · rw [List.cons_append, totalRows_cons, h1, hl]
      rfl
    · intro l hm
      rcases List.mem_cons.1 hm with rfl | hm
      · exact h2
      · exact hs l hm

theorem finish_groups_fails {before after : List (List (List Value))} {group : List (List Value)}
    (hb : ∀ g ∈ before, GroupGoes ps totals order outputs g)
    (h : GroupRaises ps args totals order outputs group) :
    (finish (groupBindings ps totals) order outputs
      (totalRows ps totals (before ++ group :: after))).failure = some (Function.raised args) := by
  obtain ⟨lines, hl, hs⟩ := totalRows_append (group :: after) hb
  rw [hl, totalRows_cons]
  cases h with
  | @total tb ta t ht htb h =>
    have hline : lineOf? ps totals group = .error (Function.raised args) := by
      rw [lineOf?, ht, Total.totalsOf_fails htb (Total.args_of_raises h)]
      rfl
    rw [hline]
    exact finish_failure (by simpa [Rows.fail] using hs)
  | @result line hline h =>
    rw [hline]
    exact finish_fails hs (Term.evalAll_of_raises h)

/-- The run of a query comes to a call of `raise_error` with these arguments. -/
inductive Raises (db : Database) (ps args : List Value) : Plan → Prop where
  | value {before after : List (List Term)} {row : List Term}
      (hb : ∀ r ∈ before, Term.Succeed ⟨ps, [], []⟩ r) (h : Term.RaisesAmong ⟨ps, [], []⟩ args row) :
      Raises db ps args (.values (before ++ row :: after))
  | row {source : Plan} {filter : Option Term} {order : List SortKey} {outputs : List Term}
      {before after : List (List Value)} {row : List Value}
      (hs : (source.run db ps).rows = before ++ row :: after)
      (hb : ∀ r ∈ before, Goes ps filter order outputs r)
      (h : Term.RaisesAmong ⟨ps, row, []⟩ args filter.toList ∨
        Term.holds ⟨ps, row, []⟩ filter = .ok true ∧
          Term.RaisesAmong ⟨ps, row, []⟩ args (shown order outputs)) :
      Raises db ps args (.select source filter order outputs)
  | source {source : Plan} {filter : Option Term} {order : List SortKey} {outputs : List Term}
      (hb : ∀ r ∈ (source.run db ps).rows, Goes ps filter order outputs r)
      (h : Raises db ps args source) : Raises db ps args (.select source filter order outputs)
  | groupFilter {source : Plan} {filter : Option Term} {keys : List Term} {totals : List Total}
      {order : List SortKey} {outputs : List Term} {before after : List (List Value)}
      {row : List Value} (hs : (source.run db ps).rows = before ++ row :: after)
      (hb : ∀ r ∈ before, ∃ h, Term.holds ⟨ps, r, []⟩ filter = .ok h)
      (h : Term.RaisesAmong ⟨ps, row, []⟩ args filter.toList) :
      Raises db ps args (.group source filter keys totals order outputs)
  | groupSource {source : Plan} {filter : Option Term} {keys : List Term} {totals : List Total}
      {order : List SortKey} {outputs : List Term}
      (hb : ∀ r ∈ (source.run db ps).rows, ∃ h, Term.holds ⟨ps, r, []⟩ filter = .ok h)
      (h : Raises db ps args source) :
      Raises db ps args (.group source filter keys totals order outputs)
  | groupKey {source : Plan} {filter : Option Term} {keys : List Term} {totals : List Total}
      {order : List SortKey} {outputs : List Term} {before after : List (List Value)}
      {row : List Value}
      (hs : filterRows ps filter (source.run db ps) = ⟨before ++ row :: after, none⟩)
      (hb : ∀ r ∈ before, Term.Succeed ⟨ps, r, []⟩ keys)
      (h : Term.RaisesAmong ⟨ps, row, []⟩ args keys) :
      Raises db ps args (.group source filter keys totals order outputs)
  | group {source : Plan} {filter : Option Term} {keys : List Term} {totals : List Total}
      {order : List SortKey} {outputs : List Term} {before after : List (List (List Value))}
      {group : List (List Value)}
      (hs : groupRows ps keys (filterRows ps filter (source.run db ps))
        = .ok (before ++ group :: after))
      (hb : ∀ g ∈ before, GroupGoes ps totals order outputs g)
      (h : GroupRaises ps args totals order outputs group) :
      Raises db ps args (.group source filter keys totals order outputs)
  | first {a b : Plan} (h : Raises db ps args a) : Raises db ps args (.unionAll a b)
  | second {a b : Plan} (ha : (a.run db ps).failure = none) (h : Raises db ps args b) :
      Raises db ps args (.unionAll a b)
  | sorted {a : Plan} {order : List SortKey} (h : Raises db ps args a) :
      Raises db ps args (.sort a order)
  | sortKey {a : Plan} {order : List SortKey} {before after : List (List Value)} {row : List Value}
      (hs : a.run db ps = ⟨before ++ row :: after, none⟩)
      (hb : ∀ r ∈ before, Term.Succeed ⟨ps, r, []⟩ (order.map (·.term)))
      (h : Term.RaisesAmong ⟨ps, row, []⟩ args (order.map (·.term))) :
      Raises db ps args (.sort a order)

theorem valueRows_fails {before after : List (List Term)} {row : List Term}
    (hb : ∀ r ∈ before, Term.Succeed ⟨ps, [], []⟩ r)
    (h : Term.evalAll ⟨ps, [], []⟩ row = .error e) :
    (valueRows ps (before ++ row :: after)).failure = some e := by
  induction before with
  | nil => simp only [List.nil_append, valueRows, h, Rows.fail]
  | cons first before ih =>
    obtain ⟨vs, hv⟩ := hb first List.mem_cons_self
    simp only [List.cons_append, valueRows, hv, Rows.cons,
      ih fun r hr => hb r (List.mem_cons_of_mem _ hr)]

/-- Rows are the list of what came out and the failure. -/
theorem rows_eta {r : Rows} {rows : List (List Value)} (h : r.rows = rows) :
    r = ⟨rows, r.failure⟩ := by
  cases r
  cases h
  rfl

theorem rows_failed {r : Rows} (h : r.failure = some e) : r = ⟨r.rows, some e⟩ := by
  rw [← h]

theorem groupRows_failure (keys : List Term) {r : Rows} (h : r.failure = some e) :
    groupRows ps keys r = .error e := by
  simp only [groupRows, h]

theorem groupRows_fails {keys : List Term} {before after : List (List Value)} {row : List Value}
    (hb : ∀ r ∈ before, Term.Succeed ⟨ps, r, []⟩ keys)
    (h : Term.RaisesAmong ⟨ps, row, []⟩ args keys) :
    groupRows ps keys ⟨before ++ row :: after, none⟩ = .error (Function.raised args) := by
  have terms : shown (keys.map fun t => ⟨t, false⟩) [] = keys := by
    simp [shown, Function.comp_def]
  have failed : keyed (fun row => ⟨ps, row, []⟩) (keys.map fun t => ⟨t, false⟩) []
      (before ++ row :: after) = .error (Function.raised args) :=
    keyed_fails (by rwa [terms]) (by rw [terms]; exact Term.evalAll_of_raises h)
  cases keys with
  | nil =>
    obtain ⟨_, _, _, hk, -⟩ := h
    simp at hk
  | cons key keys => simp only [groupRows, failed]

/-- A query whose run comes to a call of `raise_error` fails with what that says. -/
theorem run_of_raises {db : Database} {p : Plan} (h : p.Raises db ps args) :
    (p.run db ps).failure = some (Function.raised args) := by
  induction h with
  | value hb h => exact valueRows_fails hb (Term.evalAll_of_raises h)
  | row hs hb h =>
    rw [run, rows_eta hs]
    rcases h with h | ⟨hk, h⟩
    · rw [filterRows_fails (fun r hr => (hb r hr).decided) (Term.holds_of_raises h)]
      exact finish_failure (Goes.kept hb)
    · rw [filterRows_append _ _ fun r hr => (hb r hr).decided]
      simp only [filterRows, Rows.filterMap, Rows.filterMapFrom, hk, if_true, Rows.cons]
      exact finish_fails (Goes.kept hb) (Term.evalAll_of_raises h)
  | source hb _ ih =>
    rw [run, rows_failed ih, filterRows_all fun r hr => (hb r hr).decided]
    exact finish_failure (Goes.kept hb)
  | groupFilter hs hb h =>
    rw [run, rows_eta hs, filterRows_fails hb (Term.holds_of_raises h), groupRows_failure _ rfl]
    rfl
  | groupSource hb _ ih =>
    rw [run, rows_failed ih, filterRows_all hb, groupRows_failure _ rfl]
    rfl
  | groupKey hs hb h =>
    rw [run, hs, groupRows_fails hb h]
    rfl
  | group hs hb h =>
    rw [run, hs]
    exact finish_groups_fails hb h
  | first _ ih => simp only [run, Rows.andThen, ih]
  | second ha _ ih => simp only [run, Rows.andThen, ha, ih]
  | sorted _ ih => simp only [run, ih, Rows.fail]
  | @sortKey a order before after row hs hb h =>
    have terms : shown order [] = order.map (·.term) := List.nil_append _
    have failed : keyed (fun row => ⟨ps, row, []⟩) order [] (before ++ row :: after)
        = .error (Function.raised args) :=
      keyed_fails (by rwa [terms]) (by rw [terms]; exact Term.evalAll_of_raises h)
    simp only [run, hs, failed, Rows.fail]

end Plan

end LogConsole.Sql
