import LogConsole.Expansion
import LogConsole.Proofs.Text.Span

/-!
# LogConsole.Proofs.Expansion.Grammar

The grammar of texts with variable references, and the expansion of a text along it.

* `Piece`       — what a text is made of: quotations in single quotes, backslash pairs, the three
  forms of a reference, and plain characters, a double quote being one of them;
* `Piece.Fits`  — where a piece may be read, by what follows it and whether double quotes are open;
* `Reading`     — a text in pieces, up to its end or to a `${` that is never closed;
* `next`        — the piece that a text starts with. It is the only one that fits there
  (`next_eq_some_iff`), so that a text has exactly one reading;
* `Reading.expansion` — the values of the pieces one after the other.

`expand_along_reading` is the result: the expansion of a text is that of its reading, and the
reading is the same for every look-up.
-/

namespace LogConsole

theorem Text.Utf8.size_append (a b : List Char) : size (a ++ b) = size a + size b := by
  induction a with
  | nil => simp [size]
  | cons c a ih => simp only [List.cons_append, size, ih, Nat.add_assoc]

namespace Expansion

open Text (span_append of_span)

/-- A stretch of a text that is read at once. -/
inductive Piece where
  /-- A quotation in single quotes; one that is not closed ends the text. -/
  | quoted (body : List Char) (closed : Bool)
  /-- A backslash and the character after it. -/
  | escaped (c : Char)
  | braced (name : List Char)
  | count
  | named (name : List Char)
  | plain (c : Char)
  deriving DecidableEq, Repr

namespace Piece

def spelling : Piece → List Char
  | .quoted body closed => '\'' :: (body ++ if closed then ['\''] else [])
  | .escaped c => ['\\', c]
  | .braced name => '$' :: '\x7b' :: (name ++ ['\x7d'])
  | .count => ['$', '#']
  | .named name => '$' :: name
  | .plain c => [c]

/-- The variable that a piece refers to. -/
def name? : Piece → Option (List Char)
  | .braced name => some name
  | .count => some ['#']
  | .named name => some name
  | _ => none

/-- What stands for a piece in the expanded text. -/
def value (lookup : String → Option String) (p : Piece) : List Char :=
  match p.name? with
  | some name => ((lookup (String.ofList name)).getD "").toList
  | none => p.spelling

/-- Whether what follows a piece is in double quotes. -/
def after (inDouble : Bool) : Piece → Bool
  | .plain c => if c = '"' then !inDouble else inDouble
  | _ => inDouble

/-- That a piece may be read before `rest`. A name is as long as it can be, and a character is
plain only where nothing else starts with it. -/
def Fits (inDouble : Bool) (rest : List Char) : Piece → Prop
  | .quoted body closed => inDouble = false ∧ '\'' ∉ body ∧ (closed = false → rest = [])
  | .escaped _ => True
  | .braced name => '\x7d' ∉ name
  | .count => True
  | .named name =>
    name ≠ [] ∧ (∀ c ∈ name, isNameChar c = true) ∧ ∀ c ∈ rest.head?, isNameChar c = false
  | .plain c =>
    (c = '\'' → inDouble = true) ∧ (c = '\\' → rest = []) ∧
      (c = '$' → ∀ d ∈ rest.head?, d ≠ '\x7b' ∧ d ≠ '#' ∧ isNameChar d = false)

end Piece

/-- The quotation that is open between two pieces. -/
def quotesOf (inDouble : Bool) : Quotes := if inDouble then .double else .none

theorem quotesOf_ne_single (inDouble : Bool) : quotesOf inDouble ≠ .single := by
  cases inDouble <;> decide

/-! ## Cutting a text -/

section Cut

variable {c : Char} {cs : List Char}

theorem not_mem_cons_iff {d : Char} : d ∉ c :: cs ↔ c ≠ d ∧ d ∉ cs := by
  rw [List.mem_cons, not_or, ne_comm]

theorem splitBrace_append {name : List Char} (h : '\x7d' ∉ name) (rest : List Char) :
    splitBrace (name ++ '\x7d' :: rest) = some (name, rest) := by
  induction name with
  | nil => simp [splitBrace]
  | cons c name ih =>
    obtain ⟨hc, hname⟩ := not_mem_cons_iff.1 h
    simp [splitBrace, hc, ih hname]

theorem splitBrace_eq_none {name : List Char} (h : '\x7d' ∉ name) : splitBrace name = none := by
  induction name with
  | nil => rfl
  | cons c name ih =>
    obtain ⟨hc, hname⟩ := not_mem_cons_iff.1 h
    simp [splitBrace, hc, ih hname]

theorem of_splitBrace_some {name rest : List Char} (h : splitBrace cs = some (name, rest)) :
    cs = name ++ '\x7d' :: rest ∧ '\x7d' ∉ name := by
  induction cs generalizing name with
  | nil => simp [splitBrace] at h
  | cons c cs ih =>
    simp only [splitBrace] at h
    split at h
    · next hc =>
      cases h
      simp [hc]
    · next hc =>
      split at h
      · next more _ hs =>
        cases h
        obtain ⟨hcs, hmore⟩ := ih hs
        exact ⟨by rw [hcs]; rfl, not_mem_cons_iff.2 ⟨hc, hmore⟩⟩
      · cases h

theorem of_splitBrace_none (h : splitBrace cs = none) : '\x7d' ∉ cs := by
  induction cs with
  | nil => simp
  | cons c cs ih =>
    simp only [splitBrace] at h
    split at h
    · cases h
    · next hc =>
      split at h
      · cases h
      · next hs => exact not_mem_cons_iff.2 ⟨hc, ih hs⟩

end Cut

/-! ## The expansion, piece by piece -/

section Steps

variable (lookup : String → Option String) {inDouble : Bool} {rest : List Char}

theorem expandFrom_nil (quotes : Quotes) (pos : Nat) :
    expandFrom lookup quotes pos [] = .ok [] := by
  rw [expandFrom]

/-- A quotation in single quotes is copied, whatever is in it. -/
theorem expandFrom_in_single {body : List Char} (h : '\'' ∉ body) (rest : List Char) :
    ∀ pos, expandFrom lookup .single pos (body ++ rest)
      = (expandFrom lookup .single (pos + Text.Utf8.size body) rest).map (body ++ ·) := by
  induction body with
  | nil =>
    intro pos
    simp only [List.nil_append, Text.Utf8.size, Nat.add_zero]
    cases expandFrom lookup .single pos rest <;> rfl
  | cons c body ih =>
    intro pos
    obtain ⟨hc, hbody⟩ := not_mem_cons_iff.1 h
    rw [List.cons_append, expandFrom.eq_def]
    simp only [hc, false_and, if_false, ne_eq, not_true_eq_false, and_false]
    rw [ih hbody, Text.Utf8.size, Nat.add_assoc]
    cases expandFrom lookup .single (pos + (c.utf8Size + Text.Utf8.size body)) rest <;> rfl

theorem expandFrom_single_end (pos : Nat) (rest : List Char) :
    expandFrom lookup .single pos ('\'' :: rest)
      = (expandFrom lookup .none (pos + 1) rest).map ('\'' :: ·) := by
  rw [expandFrom.eq_def]
  simp
  cases expandFrom lookup .none (pos + 1) rest <;> rfl

theorem expandFrom_quoted {body : List Char} {closed : Bool} (hbody : '\'' ∉ body)
    (hend : closed = false → rest = []) (pos : Nat) :
    expandFrom lookup .none pos ((Piece.quoted body closed).spelling ++ rest)
      = (expandFrom lookup .none (pos + Text.Utf8.size (Piece.quoted body closed).spelling)
          rest).map ((Piece.quoted body closed).spelling ++ ·) := by
  have hsize : '\''.utf8Size = 1 := rfl
  simp only [Piece.spelling, List.cons_append, List.append_assoc]
  rw [expandFrom.eq_def]
  simp [expandFrom_in_single lookup hbody]
  cases closed with
  | false =>
    rw [hend rfl]
    simp [expandFrom_nil, Except.map]
  | true =>
    have hpos : pos + 1 + Text.Utf8.size body + 1 = pos + (1 + (Text.Utf8.size body + 1)) := by
      omega
    simp [expandFrom_single_end, Text.Utf8.size, Text.Utf8.size_append, hsize, hpos]
    cases expandFrom lookup .none (pos + (1 + (Text.Utf8.size body + 1))) rest <;> rfl

theorem expandFrom_escaped (c : Char) (pos : Nat) :
    expandFrom lookup (quotesOf inDouble) pos ('\\' :: c :: rest)
      = (expandFrom lookup (quotesOf inDouble) (pos + 1 + c.utf8Size) rest).map
        ('\\' :: c :: ·) := by
  rw [expandFrom.eq_def]
  simp [quotesOf_ne_single inDouble]
  cases expandFrom lookup (quotesOf inDouble) (pos + 1 + c.utf8Size) rest <;> rfl

theorem expandFrom_braced {name : List Char} (h : '\x7d' ∉ name) (pos : Nat) :
    expandFrom lookup (quotesOf inDouble) pos ('$' :: '\x7b' :: (name ++ '\x7d' :: rest))
      = (expandFrom lookup (quotesOf inDouble) (pos + 3 + Text.Utf8.size name) rest).map
        (((lookup (String.ofList name)).getD "").toList ++ ·) := by
  rw [expandFrom.eq_def]
  simp [quotesOf_ne_single inDouble]
  split
  · next hs =>
    rw [splitBrace_append h] at hs
    cases hs
  · next hs =>
    rw [splitBrace_append h] at hs
    cases hs
    cases expandFrom lookup (quotesOf inDouble) (pos + 3 + Text.Utf8.size name) rest <;> rfl

theorem expandFrom_unclosed {name : List Char} (h : '\x7d' ∉ name) (pos : Nat) :
    expandFrom lookup (quotesOf inDouble) pos ('$' :: '\x7b' :: name)
      = .error (.unterminatedBrace pos) := by
  rw [expandFrom.eq_def]
  simp [quotesOf_ne_single inDouble]
  split
  · rfl
  · next hs =>
    rw [splitBrace_eq_none h] at hs
    cases hs

theorem expandFrom_count (pos : Nat) :
    expandFrom lookup (quotesOf inDouble) pos ('$' :: '#' :: rest)
      = (expandFrom lookup (quotesOf inDouble) (pos + 2) rest).map
        (((lookup "#").getD "").toList ++ ·) := by
  rw [expandFrom.eq_def]
  simp [quotesOf_ne_single inDouble]
  cases expandFrom lookup (quotesOf inDouble) (pos + 2) rest <;> rfl

theorem isNameChar_ne {c : Char} (h : isNameChar c = true) : c ≠ '\x7b' ∧ c ≠ '#' := by
  constructor <;>
  · rintro rfl
    revert h
    decide

theorem expandFrom_named {name : List Char} (hne : name ≠ [])
    (hname : ∀ c ∈ name, isNameChar c = true) (hrest : ∀ c ∈ rest.head?, isNameChar c = false)
    (pos : Nat) :
    expandFrom lookup (quotesOf inDouble) pos ('$' :: (name ++ rest))
      = (expandFrom lookup (quotesOf inDouble) (pos + 1 + Text.Utf8.size name) rest).map
        (((lookup (String.ofList name)).getD "").toList ++ ·) := by
  obtain ⟨htake, hdrop⟩ := span_append rest hname hrest
  obtain ⟨d, more, rfl⟩ := List.exists_cons_of_ne_nil hne
  have hd : isNameChar d = true := hname d List.mem_cons_self
  rw [List.cons_append] at htake hdrop ⊢
  rw [expandFrom.eq_def]
  simp [quotesOf_ne_single inDouble, isNameChar_ne hd, hd, htake, hdrop]
  cases expandFrom lookup (quotesOf inDouble) (pos + 1 + Text.Utf8.size (d :: more)) rest <;> rfl

theorem expandFrom_plain {c : Char} (h : (Piece.plain c).Fits inDouble rest) (pos : Nat) :
    expandFrom lookup (quotesOf inDouble) pos (c :: rest)
      = (expandFrom lookup (quotesOf ((Piece.plain c).after inDouble)) (pos + c.utf8Size) rest).map
        (c :: ·) := by
  obtain ⟨hquote, hback, hdollar⟩ := h
  have hsingle := quotesOf_ne_single inDouble
  rw [expandFrom.eq_def]
  by_cases hq : c = '\''
  · subst hq
    rw [hquote rfl]
    simp [quotesOf, Piece.after]
    cases expandFrom lookup .double (pos + '\''.utf8Size) rest <;> rfl
  by_cases hd : c = '"'
  · subst hd
    have hsize : '"'.utf8Size = 1 := rfl
    have hafter : (if quotesOf inDouble = .double then Quotes.none else Quotes.double)
        = quotesOf (!inDouble) := by
      cases inDouble <;> rfl
    simp [hsingle, Piece.after, hafter, hsize]
    cases expandFrom lookup (quotesOf (!inDouble)) (pos + 1) rest <;> rfl
  by_cases hb : c = '\\'
  · subst hb
    rw [hback rfl]
    simp [hsingle, expandFrom_nil, Except.map]
  by_cases hv : c = '$'
  · subst hv
    have hsize : '$'.utf8Size = 1 := rfl
    cases rest with
    | nil => simp [hsingle, expandFrom_nil, Except.map]
    | cons d rest =>
      obtain ⟨hbrace, hcount, hname⟩ := hdollar rfl d rfl
      simp [hsingle, hbrace, hcount, hname, hsize, Piece.after]
      cases expandFrom lookup (quotesOf inDouble) (pos + 1) (d :: rest) <;> rfl
  · simp [hq, hd, hb, hv, Piece.after]
    cases expandFrom lookup (quotesOf inDouble) (pos + c.utf8Size) rest <;> rfl

/-- A piece is replaced by its value, and what follows it is expanded on its own. -/
theorem expandFrom_piece {p : Piece} (h : p.Fits inDouble rest) (pos : Nat) :
    expandFrom lookup (quotesOf inDouble) pos (p.spelling ++ rest)
      = (expandFrom lookup (quotesOf (p.after inDouble)) (pos + Text.Utf8.size p.spelling)
          rest).map (p.value lookup ++ ·) := by
  cases p with
  | quoted body closed =>
    obtain ⟨rfl, hbody, hend⟩ := h
    exact expandFrom_quoted lookup hbody hend pos
  | escaped c =>
    have hpos : pos + Text.Utf8.size (Piece.escaped c).spelling = pos + 1 + c.utf8Size := by
      rw [Nat.add_assoc]
      rfl
    rw [hpos]
    exact expandFrom_escaped lookup c pos
  | braced name =>
    have hspell : (Piece.braced name).spelling ++ rest
        = '$' :: '\x7b' :: (name ++ '\x7d' :: rest) := by
      simp [Piece.spelling]
    have hpos : pos + Text.Utf8.size (Piece.braced name).spelling
        = pos + 3 + Text.Utf8.size name := by
      have hsize : '$'.utf8Size = 1 ∧ '\x7b'.utf8Size = 1 ∧ '\x7d'.utf8Size = 1 := ⟨rfl, rfl, rfl⟩
      simp only [Piece.spelling, Text.Utf8.size, Text.Utf8.size_append, hsize]
      omega
    rw [hspell, hpos]
    exact expandFrom_braced lookup h pos
  | count => exact expandFrom_count lookup pos
  | named name =>
    obtain ⟨hne, hname, hrest⟩ := h
    have hpos : pos + Text.Utf8.size (Piece.named name).spelling
        = pos + 1 + Text.Utf8.size name := by
      rw [Nat.add_assoc]
      rfl
    rw [hpos]
    exact expandFrom_named lookup hne hname hrest pos
  | plain c => exact expandFrom_plain lookup h pos

end Steps

/-! ## The piece that a text starts with -/

/-- The quotation after its first quote, and what follows it. -/
def quotation (cs : List Char) : Piece × List Char :=
  match cs.dropWhile (· != '\'') with
  | [] => (.quoted cs false, [])
  | _ :: rest => (.quoted (cs.takeWhile (· != '\'')) true, rest)

/-- What a `$` starts, and what follows it; none if that is a name in braces without an end. -/
def reference : List Char → Option (Piece × List Char)
  | [] => some (.plain '$', [])
  | c :: cs =>
    if c = '\x7b' then (splitBrace cs).map fun cut => (.braced cut.1, cut.2)
    else if c = '#' then some (.count, cs)
    else if isNameChar c then
      some (.named ((c :: cs).takeWhile isNameChar), (c :: cs).dropWhile isNameChar)
    else some (.plain '$', c :: cs)

/-- The first piece of a text, and what follows it; none at the end of the text and at a
reference that is never closed. -/
def next (inDouble : Bool) : List Char → Option (Piece × List Char)
  | [] => none
  | c :: cs =>
    if c = '\'' ∧ inDouble = false then some (quotation cs)
    else if c = '\\' then
      match cs with
      | [] => some (.plain c, [])
      | d :: rest => some (.escaped d, rest)
    else if c = '$' then reference cs
    else some (.plain c, cs)

section Next

variable {inDouble : Bool} {cs rest : List Char} {p : Piece}

theorem quotation_append {body : List Char} {closed : Bool} (hbody : '\'' ∉ body)
    (hend : closed = false → rest = []) :
    quotation ((body ++ if closed then ['\''] else []) ++ rest)
      = (.quoted body closed, rest) := by
  have hkeep : ∀ c ∈ body, (c != '\'') = true := by
    intro c hc
    exact bne_iff_ne.2 (fun he => hbody (he ▸ hc))
  cases closed with
  | false =>
    obtain ⟨-, hdrop⟩ := span_append [] hkeep (by simp)
    rw [List.append_nil] at hdrop
    simp [quotation, hend rfl, hdrop]
  | true =>
    obtain ⟨htake, hdrop⟩ := span_append ('\'' :: rest) hkeep (by simp)
    simp [quotation, htake, hdrop]

theorem fits_of_quotation (h : quotation cs = (p, rest)) :
    '\'' :: cs = p.spelling ++ rest ∧ p.Fits false rest := by
  have hcs := List.takeWhile_append_dropWhile (p := (· != '\'')) (l := cs)
  obtain ⟨htake, hdrop⟩ := of_span (· != '\'') cs
  have hbody : '\'' ∉ cs.takeWhile (· != '\'') := fun hm => bne_iff_ne.1 (htake _ hm) rfl
  unfold quotation at h
  split at h
  · next hnil =>
    cases h
    rw [hnil, List.append_nil] at hcs
    rw [hcs] at hbody
    exact ⟨by simp [Piece.spelling], rfl, hbody, fun _ => rfl⟩
  · next d more hcons =>
    cases h
    rw [hcons] at hdrop hcs
    have hd : d = '\'' := by simpa using hdrop d rfl
    subst hd
    refine ⟨?_, rfl, hbody, fun he => by cases he⟩
    simp [Piece.spelling, hcs]

theorem fits_of_reference (h : reference cs = some (p, rest)) :
    '$' :: cs = p.spelling ++ rest ∧ p.Fits inDouble rest := by
  cases cs with
  | nil =>
    cases h
    refine ⟨rfl, ?_, fun _ => rfl, ?_⟩
    · intro he; cases he
    · intro _ d hd; cases hd
  | cons c cs =>
    simp only [reference] at h
    split at h
    · next hbrace =>
      subst hbrace
      obtain ⟨⟨name, more⟩, hs, he⟩ := Option.map_eq_some_iff.1 h
      cases he
      obtain ⟨rfl, hname⟩ := of_splitBrace_some hs
      exact ⟨by simp [Piece.spelling], hname⟩
    · next hbrace =>
      split at h
      · next hcount =>
        cases h
        exact ⟨by rw [hcount]; rfl, trivial⟩
      · next hcount =>
        split at h
        · next hc =>
          cases h
          obtain ⟨htake, hdrop⟩ := of_span isNameChar (c :: cs)
          refine ⟨?_, ?_, htake, hdrop⟩
          · rw [Piece.spelling, List.cons_append, List.takeWhile_append_dropWhile]
          · simp [List.takeWhile, hc]
        · next hc =>
          cases h
          refine ⟨rfl, ?_, ?_, ?_⟩
          · intro he; cases he
          · intro he; cases he
          · intro _ d hd
            cases hd
            exact ⟨hbrace, hcount, Bool.eq_false_iff.2 hc⟩

/-- What fits at the head of a text is what is read there. -/
theorem next_of_fits (h : p.Fits inDouble rest) :
    next inDouble (p.spelling ++ rest) = some (p, rest) := by
  cases p with
  | quoted body closed =>
    obtain ⟨rfl, hbody, hend⟩ := h
    simp only [Piece.spelling, List.cons_append, next]
    rw [if_pos ⟨trivial, trivial⟩, quotation_append hbody hend]
  | escaped c => simp [Piece.spelling, next]
  | braced name => simp [Piece.spelling, next, reference, splitBrace_append h]
  | count => simp [Piece.spelling, next, reference]
  | named name =>
    obtain ⟨hne, hname, hrest⟩ := h
    obtain ⟨htake, hdrop⟩ := span_append rest hname hrest
    obtain ⟨d, more, rfl⟩ := List.exists_cons_of_ne_nil hne
    have hd : isNameChar d = true := hname d List.mem_cons_self
    rw [List.cons_append] at htake hdrop
    simp [Piece.spelling, next, reference, isNameChar_ne hd, hd, htake, hdrop]
  | plain c =>
    obtain ⟨hquote, hback, hdollar⟩ := h
    have hq : ¬(c = '\'' ∧ inDouble = false) := by
      rintro ⟨hc, hout⟩
      rw [hquote hc] at hout
      cases hout
    by_cases hb : c = '\\'
    · subst hb
      rw [hback rfl]
      rfl
    by_cases hv : c = '$'
    · subst hv
      cases rest with
      | nil => rfl
      | cons d rest =>
        obtain ⟨hbrace, hcount, hname⟩ := hdollar rfl d rfl
        simp [Piece.spelling, next, reference, hbrace, hcount, hname]
    · simp [Piece.spelling, next, hq, hb, hv]

/-- What is read at the head of a text fits there. -/
theorem fits_of_next (h : next inDouble cs = some (p, rest)) :
    cs = p.spelling ++ rest ∧ p.Fits inDouble rest := by
  cases cs with
  | nil => cases h
  | cons c cs =>
    simp only [next] at h
    split at h
    · next hq =>
      obtain ⟨rfl, rfl⟩ := hq
      exact fits_of_quotation (Option.some.inj h)
    · next hq =>
      have hquote : c = '\'' → inDouble = true := by
        intro hc
        cases inDouble with
        | false => exact absurd ⟨hc, rfl⟩ hq
        | true => rfl
      split at h
      · next hb =>
        subst hb
        split at h
        · cases h
          exact ⟨rfl, hquote, fun _ => rfl, fun he => by cases he⟩
        · cases h
          exact ⟨rfl, trivial⟩
      · next hb =>
        split at h
        · next hv =>
          subst hv
          exact fits_of_reference h
        · next hv =>
          cases h
          exact ⟨rfl, hquote, fun he => absurd he hb, fun he => absurd he hv⟩

/-- There is one piece that a text can start with. -/
theorem next_eq_some_iff :
    next inDouble cs = some (p, rest) ↔ cs = p.spelling ++ rest ∧ p.Fits inDouble rest := by
  refine ⟨fits_of_next, ?_⟩
  rintro ⟨rfl, h⟩
  exact next_of_fits h

end Next

/-! ## Readings -/

/-- What a reading leaves: nothing, or a reference that is never closed. -/
def unread : Option (List Char) → List Char
  | none => []
  | some name => '$' :: '\x7b' :: name

theorem next_unread {unclosed : Option (List Char)} (h : ∀ name ∈ unclosed, '\x7d' ∉ name)
    (inDouble : Bool) : next inDouble (unread unclosed) = none := by
  cases unclosed with
  | none => rfl
  | some name => simp [unread, next, reference, splitBrace_eq_none (h name rfl)]

theorem of_next_none {inDouble : Bool} {cs : List Char} (h : next inDouble cs = none) :
    ∃ unclosed, cs = unread unclosed ∧ ∀ name ∈ unclosed, '\x7d' ∉ name := by
  cases cs with
  | nil => exact ⟨none, rfl, nofun⟩
  | cons c cs =>
    simp only [next] at h
    split at h
    · cases h
    · split at h
      · split at h <;> cases h
      · split at h
        · next hv =>
          subst hv
          cases cs with
          | nil => cases h
          | cons d name =>
            simp only [reference] at h
            split at h
            · next hbrace =>
              subst hbrace
              refine ⟨some name, rfl, ?_⟩
              rintro _ ⟨⟩
              exact of_splitBrace_none (Option.map_eq_none_iff.1 h)
            · split at h
              · cases h
              · split at h <;> cases h
        · cases h

def spell (pieces : List Piece) : List Char := pieces.flatMap Piece.spelling

theorem spell_cons (p : Piece) (ps : List Piece) : spell (p :: ps) = p.spelling ++ spell ps := rfl

/-- That each piece fits before the ones after it and `tail`. -/
def AllFit (tail : List Char) : Bool → List Piece → Prop
  | _, [] => True
  | inDouble, p :: pieces =>
    p.Fits inDouble (spell pieces ++ tail) ∧ AllFit tail (p.after inDouble) pieces

/-- A text in pieces; `inDouble` if it starts in double quotes. -/
@[ext] structure Reading (inDouble : Bool) (text : List Char) where
  pieces : List Piece
  /-- The text after a `${` that is never closed: the reading ends there. -/
  unclosed : Option (List Char)
  spells : spell pieces ++ unread unclosed = text
  allFit : AllFit (unread unclosed) inDouble pieces
  never : ∀ name ∈ unclosed, '\x7d' ∉ name

namespace Reading

variable {inDouble : Bool} {text : List Char}

def cons {p : Piece} {rest : List Char} (h : p.Fits inDouble rest)
    (r : Reading (p.after inDouble) rest) : Reading inDouble (p.spelling ++ rest) where
  pieces := p :: r.pieces
  unclosed := r.unclosed
  spells := by rw [spell_cons, List.append_assoc, r.spells]
  allFit := ⟨by rw [r.spells]; exact h, r.allFit⟩
  never := r.never

theorem spelling_ne_nil (p : Piece) : p.spelling ≠ [] := by
  cases p <;> simp [Piece.spelling]

/-- Every text can be read, piece by piece. -/
theorem exists_reading (inDouble : Bool) (text : List Char) : Nonempty (Reading inDouble text) := by
  induction hn : text.length using Nat.strong_induction_on generalizing inDouble text with
  | _ n ih =>
    cases h : next inDouble text with
    | none =>
      obtain ⟨unclosed, rfl, never⟩ := of_next_none h
      exact ⟨⟨[], unclosed, rfl, trivial, never⟩⟩
    | some cut =>
      obtain ⟨p, rest⟩ := cut
      obtain ⟨rfl, hp⟩ := next_eq_some_iff.1 h
      have hlt : rest.length < n := by
        have hpos := List.length_pos_iff.2 (spelling_ne_nil p)
        rw [← hn, List.length_append]
        omega
      obtain ⟨r⟩ := ih rest.length hlt (p.after inDouble) rest rfl
      exact ⟨r.cons hp⟩

theorem unread_inj {t u : Option (List Char)} (h : unread t = unread u) : t = u := by
  cases t <;> cases u <;> simp_all [unread]

theorem next_spell_cons {tail : List Char} {p : Piece} {ps : List Piece}
    (h : AllFit tail inDouble (p :: ps)) :
    next inDouble (spell (p :: ps) ++ tail) = some (p, spell ps ++ tail) := by
  rw [spell_cons, List.append_assoc]
  exact next_eq_some_iff.2 ⟨rfl, h.1⟩

/-- Pieces that spell the same text are the same, since each is the only one to start there. -/
theorem pieces_unique {t u : Option (List Char)} (ht : ∀ name ∈ t, '\x7d' ∉ name)
    (hu : ∀ name ∈ u, '\x7d' ∉ name) {ps qs : List Piece} {inDouble : Bool}
    (hp : AllFit (unread t) inDouble ps) (hq : AllFit (unread u) inDouble qs)
    (h : spell ps ++ unread t = spell qs ++ unread u) : ps = qs ∧ t = u := by
  induction ps generalizing qs inDouble with
  | nil =>
    cases qs with
    | nil => exact ⟨rfl, unread_inj h⟩
    | cons q qs =>
      have hn := next_unread ht inDouble
      have hs := next_spell_cons hq
      rw [← h] at hs
      rw [show spell [] ++ unread t = unread t from rfl, hn] at hs
      cases hs
  | cons p ps ih =>
    have hs := next_spell_cons hp
    cases qs with
    | nil =>
      have hn := next_unread hu inDouble
      rw [h, show spell [] ++ unread u = unread u from rfl, hn] at hs
      cases hs
    | cons q qs =>
      rw [h, next_spell_cons hq] at hs
      obtain ⟨rfl, hrest⟩ := Prod.mk.inj (Option.some.inj hs)
      obtain ⟨rfl, htu⟩ := ih hp.2 hq.2 hrest.symm
      exact ⟨rfl, htu⟩

theorem unique (r r' : Reading inDouble text) : r' = r := by
  have same := r'.spells.trans r.spells.symm
  obtain ⟨hp, hu⟩ := pieces_unique r'.never r.never r'.allFit r.allFit same
  exact Reading.ext hp hu

/-- The values of the pieces in order, or the place of the reference that is never closed. -/
def expansion (lookup : String → Option String) (r : Reading inDouble text) :
    Except ExpansionError String :=
  match r.unclosed with
  | none => .ok (String.ofList (r.pieces.flatMap (Piece.value lookup)))
  | some _ => .error (.unterminatedBrace (Text.Utf8.size (spell r.pieces)))

/-- The expansion of pieces, whatever stands after them. -/
theorem expandFrom_spell (lookup : String → Option String) {tail : List Char} {ps : List Piece}
    {inDouble : Bool} (h : AllFit tail inDouble ps) (pos : Nat) :
    ∃ outer, expandFrom lookup (quotesOf inDouble) pos (spell ps ++ tail)
      = (expandFrom lookup (quotesOf outer) (pos + Text.Utf8.size (spell ps)) tail).map
        (ps.flatMap (Piece.value lookup) ++ ·) := by
  induction ps generalizing inDouble pos with
  | nil =>
    refine ⟨inDouble, ?_⟩
    simp only [spell, List.flatMap_nil, List.nil_append, Text.Utf8.size, Nat.add_zero]
    cases expandFrom lookup (quotesOf inDouble) pos tail <;> rfl
  | cons p ps ih =>
    obtain ⟨outer, hps⟩ := ih h.2 (pos + Text.Utf8.size p.spelling)
    refine ⟨outer, ?_⟩
    have hsize : pos + Text.Utf8.size p.spelling + Text.Utf8.size (spell ps)
        = pos + Text.Utf8.size (p.spelling ++ spell ps) := by
      rw [Text.Utf8.size_append, Nat.add_assoc]
    rw [spell_cons, List.append_assoc, expandFrom_piece lookup h.1, hps, hsize]
    cases expandFrom lookup (quotesOf outer) (pos + Text.Utf8.size (p.spelling ++ spell ps))
        tail with
    | ok out => simp [Except.map, List.flatMap_cons]
    | error e => rfl

theorem expand_eq_expansion {text : String} (r : Reading false text.toList)
    (lookup : String → Option String) : expand lookup text = r.expansion lookup := by
  obtain ⟨pieces, unclosed, spells, allFit, never⟩ := r
  obtain ⟨outer, hrun⟩ := expandFrom_spell lookup allFit 0
  rw [spells, Nat.zero_add] at hrun
  rw [expand, expansion, show Quotes.none = quotesOf false from rfl, hrun]
  cases unclosed with
  | none => simp [unread, expandFrom_nil, Except.map]
  | some name => simp [unread, expandFrom_unclosed lookup (never name rfl), Except.map]

theorem spell_pieces {inDouble : Bool} {text : List Char} (r : Reading inDouble text)
    (closed : r.unclosed = none) : spell r.pieces = text := by
  have h := r.spells
  rwa [closed, unread, List.append_nil] at h

/-- A reading without references is not changed by any look-up. -/
theorem expansion_of_plain {text : String} (r : Reading false text.toList)
    (plain : ∀ p ∈ r.pieces, p.name? = none) (closed : r.unclosed = none)
    (lookup : String → Option String) : r.expansion lookup = .ok text := by
  have hvalues : r.pieces.flatMap (Piece.value lookup) = spell r.pieces := by
    rw [spell, List.flatMap_def, List.flatMap_def]
    refine congrArg List.flatten (List.map_congr_left ?_)
    intro p hp
    rw [Piece.value, plain p hp]
  simp [expansion, closed, hvalues, r.spell_pieces closed]

theorem expansion_eq_error_iff (r : Reading inDouble text) (lookup : String → Option String)
    (e : ExpansionError) :
    r.expansion lookup = .error e ↔
      ∃ name, r.unclosed = some name ∧
        e = .unterminatedBrace (Text.Utf8.size (spell r.pieces)) := by
  unfold expansion
  cases r.unclosed with
  | none => simp
  | some name => simp [eq_comm]

end Reading

/-- Every text has exactly one reading, and for every look-up its expansion goes along it: each
reference is replaced by its value, everything else is copied. It fails if and only if the reading
ends in a reference that is never closed, at the place of that reference; and without references
the text is left as it is. -/
theorem expand_along_reading (text : String) :
    ∃ r : Reading false text.toList,
      (∀ r' : Reading false text.toList, r' = r) ∧
      (∀ lookup, expand lookup text = r.expansion lookup) ∧
      (∀ lookup e, expand lookup text = .error e ↔
        ∃ name, r.unclosed = some name
          ∧ e = .unterminatedBrace (Text.Utf8.size (spell r.pieces))) ∧
      ((∀ p ∈ r.pieces, p.name? = none) → r.unclosed = none →
        ∀ lookup, expand lookup text = .ok text) := by
  obtain ⟨r⟩ := Reading.exists_reading false text.toList
  refine ⟨r, r.unique, r.expand_eq_expansion, ?_, ?_⟩
  · intro lookup e
    rw [r.expand_eq_expansion lookup]
    exact r.expansion_eq_error_iff lookup e
  · intro plain closed lookup
    rw [r.expand_eq_expansion lookup]
    exact r.expansion_of_plain plain closed lookup

end Expansion

end LogConsole
