import LogConsole.Sql.Prepared

/-!
# LogConsole.Proofs.Sql.Reading

A text is read the same way whatever the database holds.

* `Lexeme`, `lexemesFrom` — the tokens of a text as lists of characters;
* `Read`       — the first statement of a text: what it checks before it is read to its end, what
  it says, and the parameters it names;
* `readFirst`, `readAll` — the statements of a list of characters;
* `Read.prepare`, `Read.run` — such a statement against a database;
* `prepare_of_readFirst`, `prepare_error_of_readFirst`, `runAll_of_readAll` — reading first and
  looking at the database later is what `prepare` and `runAll` do.
-/

namespace LogConsole.Sql

/-! ## Lexemes -/

structure Lexeme where
  kind : TokenKind
  chars : List Char
  gap : List Char
  start : Nat
  deriving DecidableEq

namespace Lexeme

def token (l : Lexeme) : Token := ⟨l.kind, String.ofList l.chars, String.ofList l.gap, l.start⟩

def isSeparator (l : Lexeme) : Bool := l.kind == .symbol && l.chars == [';']

theorem isSeparator_token (l : Lexeme) : Sql.isSeparator l.token = l.isSeparator := by
  have h : (String.ofList l.chars = ";") ↔ l.chars = [';'] := by
    rw [← String.toList_inj, String.toList_ofList]
    exact Iff.rfl
  rw [Bool.eq_iff_iff]
  simp only [Sql.isSeparator, isSeparator, token, Bool.and_eq_true, beq_iff_eq, h]

end Lexeme

/-- The tokens of `Lexer.tokensFrom`, with the characters left as they are. -/
def lexemesFrom : Nat → List Char → Nat → List Char → List Lexeme × List Char
  | _, gap, _, [] => ([], gap)
  | 0, gap, _, _ => ([], gap)
  | fuel + 1, gap, start, cs =>
    match Lexer.lexeme cs with
    | (none, n) =>
      lexemesFrom fuel (gap ++ cs.take n) (start + Text.Utf8.size (cs.take n)) (cs.drop n)
    | (some kind, n) =>
      let (lexemes, last) := lexemesFrom fuel [] (start + Text.Utf8.size (cs.take n)) (cs.drop n)
      (⟨kind, cs.take n, gap, start⟩ :: lexemes, last)

theorem tokensFrom_eq (fuel : Nat) (gap : List Char) (start : Nat) (cs : List Char) :
    Lexer.tokensFrom fuel gap start cs
      = ((lexemesFrom fuel gap start cs).1.map Lexeme.token,
        String.ofList (lexemesFrom fuel gap start cs).2) := by
  induction fuel generalizing gap start cs with
  | zero => cases cs <;> rfl
  | succ fuel ih =>
    cases cs with
    | nil => rfl
    | cons c cs =>
      simp only [Lexer.tokensFrom, lexemesFrom]
      rcases Lexer.lexeme (c :: cs) with ⟨_ | kind, n⟩
      · exact ih _ _ _
      · simp only [ih]
        rfl

def lexemes (cs : List Char) : List Lexeme × List Char :=
  let cs := cs.takeWhile (· != '\x00')
  lexemesFrom cs.length [] 0 cs

theorem tokenize_eq (text : String) :
    tokenize text = ((lexemes text.toList).1.map Lexeme.token,
      String.ofList (lexemes text.toList).2) :=
  tokensFrom_eq _ _ _ _

/-- The characters of some lexemes and of what comes after them. -/
def charsFrom (lexemes : List Lexeme) (last : List Char) : List Char :=
  (lexemes.flatMap fun l => l.gap ++ l.chars) ++ last

theorem textFrom_eq (lexemes : List Lexeme) (last : List Char) :
    textFrom (lexemes.map Lexeme.token) (String.ofList last)
      = String.ofList (charsFrom lexemes last) := by
  simp only [textFrom, charsFrom, String.ofList_append]
  congr 1
  induction lexemes with
  | nil => rfl
  | cons l lexemes ih =>
    rw [List.map_cons, List.map_cons, String.join_cons, ih, List.flatMap_cons, String.ofList_append,
      String.ofList_append]
    rfl

/-! ## Statements -/

structure Read where
  /-- Of a new table: whether it may be there already, its name, and the offset of that. -/
  head : Option (Bool × String × Nat)
  statement : Statement
  parameters : List (Option String)

def newHead (r : Reading) : Option (Bool × String × Nat) :=
  match Parser.newTable r with
  | .error _ => none
  | .ok ((ifMissing, t), _) => some (ifMissing, Parser.plainText t, t.start)

/-- The lexemes of the first statement with its separator, and the blanks at the end. -/
def firstLexemes (cs : List Char) : List Lexeme × List Char :=
  let (ls, last) := lexemes cs
  let all := ls.dropWhile Lexeme.isSeparator
  (all.take ((all.takeWhile fun l => !l.isSeparator).length + 1), last)

/-- The characters after the first statement. -/
def afterFirst (cs : List Char) : List Char :=
  let (ls, last) := lexemes cs
  let all := ls.dropWhile Lexeme.isSeparator
  let length := (all.takeWhile fun l => !l.isSeparator).length + 1
  if all.length < length then [] else charsFrom (all.drop length) last

/-- The first statement of some characters, if they hold one, and the characters after it. -/
def readFirst (cs : List Char) : Option (Option Read × List Char) :=
  match firstLexemes cs with
  | ([], _) => some (none, [])
  | (l :: more, last) =>
    let reading : Reading := ⟨(l :: more).map Lexeme.token, [], String.ofList last⟩
    match Parser.statement reading with
    | .error _ => none
    | .ok (s, after) => some (some ⟨newHead reading, s, after.parameters⟩, afterFirst cs)

/-- Characters that start with the same lexemes start with the same statement. -/
theorem readFirst_congr {cs ds rest : List Char} {r : Read} (h : firstLexemes cs = firstLexemes ds)
    (hd : readFirst ds = some (some r, rest)) : readFirst cs = some (some r, afterFirst cs) := by
  simp only [readFirst] at hd ⊢
  rw [h]
  split at hd
  · cases hd
  · split at hd
    · cases hd
    · cases hd
      rfl

namespace Read

def checkHead (db : Database) (r : Read) : Except SqlError Unit :=
  match r.head with
  | none => .ok ()
  | some (ifMissing, name, offset) =>
    (Prepared.checkNew db name offset ifMissing).map fun _ => ()

def prepare (db : Database) (r : Read) : Except SqlError Prepared :=
  match r.checkHead db with
  | .error e => .error e
  | .ok () =>
    match Prepared.ofStatement db r.statement with
    | .error e => .error e
    | .ok p => .ok { p with parameters := r.parameters }

/-- The database after the statement, unless it fails. -/
def run (db : Database) (r : Read) : Option Database :=
  match r.prepare db with
  | .error _ => none
  | .ok p =>
    let outcome := p.run db []
    match outcome.rows.failure with
    | some _ => none
    | none => some outcome.database

end Read

theorem dropWhile_token (ls : List Lexeme) :
    (ls.map Lexeme.token).dropWhile isSeparator
      = (ls.dropWhile Lexeme.isSeparator).map Lexeme.token := by
  rw [List.dropWhile_map]
  congr 1
  have h : isSeparator ∘ Lexeme.token = Lexeme.isSeparator :=
    funext fun l => l.isSeparator_token
  rw [h]

theorem takeWhile_token (ls : List Lexeme) :
    (ls.map Lexeme.token).takeWhile (fun t => !isSeparator t)
      = (ls.takeWhile fun l => !l.isSeparator).map Lexeme.token := by
  rw [List.takeWhile_map]
  congr 1
  have h : (fun t => !isSeparator t) ∘ Lexeme.token = fun l => !l.isSeparator :=
    funext fun l => congrArg not l.isSeparator_token
  rw [h]

theorem checkHead_eq (db : Database) (reading : Reading) (s : Statement)
    (parameters : List (Option String)) :
    Prepared.checkHead db reading = Read.checkHead db ⟨newHead reading, s, parameters⟩ := by
  simp only [Prepared.checkHead, Read.checkHead, newHead]
  cases Parser.newTable reading <;> rfl

theorem prepareFirst_of_readFirst {db : Database} {text : String} {r : Option Read}
    {rest : List Char} (h : readFirst text.toList = some (r, rest)) :
    prepareFirst db text =
      match r with
      | none => .ok (none, "")
      | some r => (r.prepare db).map fun p => (some p, String.ofList rest) := by
  simp only [readFirst, firstLexemes, afterFirst] at h
  simp only [prepareFirst, tokenize_eq, dropWhile_token]
  cases hd : (lexemes text.toList).1.dropWhile Lexeme.isSeparator with
  | nil =>
    rw [hd] at h
    cases h
    rfl
  | cons l more =>
    rw [hd, List.take_succ_cons] at h
    dsimp only at h
    rw [← List.take_succ_cons] at h
    split at h
    · cases h
    · rename_i s after hs
      cases h
      simp only [List.map_cons]
      rw [← List.map_cons, takeWhile_token, List.length_map, ← List.map_take, ← List.map_drop]
      simp only [hs, checkHead_eq db _ s after.parameters, Read.prepare, List.length_map]
      cases Read.checkHead db _ with
      | error e => rfl
      | ok _ =>
        cases Prepared.ofStatement db s with
        | error e => rfl
        | ok p =>
          simp only [Except.map]
          split
          · rfl
          · rw [textFrom_eq]

theorem prepare_of_readFirst {db : Database} {text : String} {r : Read} {p : Prepared}
    (h : readFirst text.toList = some (some r, [])) (hp : r.prepare db = .ok p) :
    prepare db text = .ok (some p) := by
  have hf : prepareFirst db text = .ok (some p, "") := by
    rw [prepareFirst_of_readFirst h]
    simp only [hp]
    rfl
  simp only [prepare, prepareFrom, hf]
  rfl

theorem prepare_error_of_readFirst {db : Database} {text : String} {r : Read} {e : SqlError}
    {rest : List Char} (h : readFirst text.toList = some (some r, rest))
    (hp : r.prepare db = .error e) : prepare db text = .error (e.display text) := by
  have hf : prepareFirst db text = .error e := by
    rw [prepareFirst_of_readFirst h]
    simp only [hp]
    rfl
  simp only [prepare, prepareFrom, hf]

/-! ## Texts -/

/-- The statements of some characters; `fuel` bounds how many there are. -/
def readAll : Nat → List Char → Option (List Read)
  | 0, _ => none
  | fuel + 1, cs =>
    match readFirst cs with
    | none => none
    | some (none, _) => some []
    | some (some r, rest) => (readAll fuel rest).map (r :: ·)

theorem readAll_cons {fuel : Nat} {cs rest : List Char} {r : Read} {rs : List Read}
    (h : readFirst cs = some (some r, rest)) (hrest : readAll fuel rest = some rs) :
    readAll (fuel + 1) cs = some (r :: rs) := by
  rw [readAll, h]
  simp only [hrest, Option.map_some]

/-- The database after some statements, unless one of them fails. -/
def runReads (db : Database) : List Read → Option Database
  | [] => some db
  | r :: rest => (r.run db).bind fun db => runReads db rest

theorem runAllFrom_of_readAll {fuel n : Nat} {db db' : Database} {text : String} {rs : List Read}
    (hn : fuel ≤ n) (h : readAll fuel text.toList = some rs) (hr : runReads db rs = some db') :
    runAllFrom n db text = (.ok (), db') := by
  induction fuel generalizing n db text rs with
  | zero => cases h
  | succ fuel ih =>
    obtain ⟨n, rfl⟩ : ∃ m, n = m + 1 := ⟨n - 1, by omega⟩
    simp only [readAll] at h
    split at h
    · cases h
    · rename_i hf
      cases h
      cases hr
      simp only [runAllFrom, prepareFirst_of_readFirst hf]
    · rename_i r rest hf
      obtain ⟨rs, hrest, rfl⟩ := Option.map_eq_some_iff.1 h
      simp only [runReads, Option.bind_eq_some_iff] at hr
      obtain ⟨next, hrun, hr⟩ := hr
      simp only [Read.run] at hrun
      split at hrun
      · cases hrun
      · rename_i p hp
        split at hrun
        · cases hrun
        · rename_i hok
          cases hrun
          simp only [runAllFrom, prepareFirst_of_readFirst hf, hp, Except.map, hok]
          exact ih (by omega) (by rw [String.toList_ofList]; exact hrest) hr

/-- A text whose statements all succeed. -/
theorem runAll_of_readAll {fuel : Nat} {db db' : Database} {text : String} {rs : List Read}
    (hn : fuel ≤ text.length) (h : readAll fuel text.toList = some rs)
    (hr : runReads db rs = some db') : runAll db text = (.ok (), db') :=
  runAllFrom_of_readAll (Nat.le_succ_of_le hn) h hr

end LogConsole.Sql
