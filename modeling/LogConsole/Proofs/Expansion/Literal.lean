import LogConsole.Proofs.Expansion.Grammar
import LogConsole.Words

/-!
# LogConsole.Proofs.Expansion.Literal

Texts that are read as one word, and as the same for every look-up.

* `Literal`                  — nothing in the text is a quote, a separator or a reference, and it
  does not start as a comment does;
* `splitExpanded_of_literal` — such a text is its own only word;
* `literal_of_splitExpanded` — and no other text is, where the variables have no values.

The converse goes by lengths. Neither the expansion nor the splitting makes a text longer, and a
character with a meaning of its own is always lost (`Words.total_add_owed_le`).
-/

namespace LogConsole

namespace Words

variable {c : Char} {cs word : List Char} {ws : List String}

/-- That a character stands for itself outside of quotes. -/
def IsLiteral (c : Char) : Prop :=
  isSeparator c = false ∧ c ≠ '\'' ∧ c ≠ '"' ∧ c ≠ '\\'

instance (c : Char) : Decidable (IsLiteral c) := by
  unfold IsLiteral
  infer_instance

theorem plainStep_literal (h : IsLiteral c) (word : List Char) :
    plainStep word c = .inl (.plain (c :: word)) := by
  obtain ⟨hsep, hquote, hdouble, hback⟩ := h
  simp [plainStep, hsep, hquote, hdouble, hback]

namespace State

/-- How many characters of the word that is being read have been kept. -/
def held : State → Nat
  | .between => 0
  | .comment => 0
  | .plain word => word.length
  | .single word => word.length
  | .double word => word.length
  | .escape word => word.length
  | .doubleEscape word => word.length

/-- How many characters are still to be read and dropped: the end of a quotation. -/
def owed : State → Nat
  | .single _ => 1
  | .double _ => 1
  | _ => 0

end State

/-- A character without a meaning of its own is kept; any other one is not. -/
theorem plainStep_cases (word : List Char) (c : Char) :
    (IsLiteral c ∧ plainStep word c = .inl (.plain (c :: word))) ∨
      (¬IsLiteral c ∧ ∃ state, plainStep word c = .inl state ∧ state.held = word.length) ∨
      (isSeparator c = true ∧ plainStep word c = .inr (String.ofList word.reverse)) := by
  by_cases hsep : isSeparator c = true
  · exact .inr (.inr ⟨hsep, by rw [plainStep, if_pos hsep]⟩)
  by_cases hl : IsLiteral c
  · exact .inl ⟨hl, plainStep_literal hl word⟩
  refine .inr (.inl ⟨hl, ?_⟩)
  rw [plainStep, if_neg hsep]
  by_cases hquote : c = '\''
  · exact ⟨.single word, if_pos hquote, rfl⟩
  rw [if_neg hquote]
  by_cases hdouble : c = '"'
  · exact ⟨.double word, if_pos hdouble, rfl⟩
  rw [if_neg hdouble]
  by_cases hback : c = '\\'
  · exact ⟨.escape word, if_pos hback, rfl⟩
  exact absurd ⟨by simpa using hsep, hquote, hdouble, hback⟩ hl

/-- How many characters the words have together. -/
def total : List String → Nat
  | [] => 0
  | w :: ws => w.length + total ws

theorem total_cons (w : String) (ws : List String) : total (w :: ws) = w.length + total ws := rfl

theorem length_doubleEscapeStep_le (word : List Char) (c : Char) :
    (doubleEscapeStep word c).length ≤ word.length + 2 := by
  unfold doubleEscapeStep
  split
  · omega
  · split <;> simp

/-- The words have no more characters than the text. -/
theorem total_add_owed_le {state : State} (h : splitFrom state cs = some ws) :
    total ws + state.owed ≤ state.held + cs.length := by
  induction cs generalizing state ws with
  | nil =>
    cases state <;> simp [splitFrom] at h <;> subst h <;> simp [total, State.owed, State.held]
  | cons c cs ih =>
    rw [List.length_cons]
    cases state with
    | between =>
      simp only [splitFrom] at h
      simp only [State.owed, State.held]
      split at h
      · have := ih h
        simp only [State.owed, State.held] at this
        omega
      · split at h
        · have := ih h
          simp only [State.owed, State.held] at this
          omega
        · rcases plainStep_cases [] c with ⟨-, hs⟩ | ⟨-, state, hs, hheld⟩ | ⟨hsep, -⟩
          · rw [hs] at h
            have := ih h
            simp only [State.owed, State.held, List.length_cons, List.length_nil] at this
            omega
          · rw [hs] at h
            have := ih h
            rw [hheld, List.length_nil] at this
            omega
          · contradiction
    | comment =>
      simp only [splitFrom] at h
      have := ih h
      split at this <;> simp only [State.owed, State.held] at this ⊢ <;> omega
    | plain word =>
      simp only [splitFrom] at h
      simp only [State.owed, State.held]
      rcases plainStep_cases word c with ⟨-, hs⟩ | ⟨-, state, hs, hheld⟩ | ⟨-, hs⟩
      · rw [hs] at h
        have := ih h
        simp only [State.owed, State.held, List.length_cons] at this
        omega
      · rw [hs] at h
        have := ih h
        rw [hheld] at this
        omega
      · rw [hs] at h
        obtain ⟨more, hmore, rfl⟩ := Option.map_eq_some_iff.1 h
        have := ih hmore
        simp only [State.owed, State.held] at this
        rw [total_cons, String.length_ofList, List.length_reverse]
        omega
    | single word =>
      simp only [splitFrom] at h
      have := ih h
      split at this <;> simp only [State.owed, State.held, List.length_cons] at this ⊢ <;> omega
    | double word =>
      simp only [splitFrom] at h
      have := ih h
      split at this
      · simp only [State.owed, State.held] at this ⊢
        omega
      · split at this <;> simp only [State.owed, State.held, List.length_cons] at this ⊢ <;> omega
    | escape word =>
      simp only [splitFrom] at h
      have := ih h
      simp only [State.owed, State.held] at this ⊢
      split at this
      · omega
      · rw [List.length_cons] at this
        omega
    | doubleEscape word =>
      have := ih h
      have hlen := length_doubleEscapeStep_le word c
      simp only [State.owed, State.held] at this ⊢
      omega

/-- A text of one word that is not shorter than the text has no characters with a meaning. -/
theorem literal_of_total_plain (h : splitFrom (.plain word) cs = some ws)
    (hlen : word.length + cs.length ≤ total ws) : ∀ c ∈ cs, IsLiteral c := by
  induction cs generalizing word ws with
  | nil => simp
  | cons c cs ih =>
    rw [List.length_cons] at hlen
    simp only [splitFrom] at h
    rcases plainStep_cases word c with ⟨hc, hs⟩ | ⟨-, state, hs, hheld⟩ | ⟨-, hs⟩
    · rw [hs] at h
      have hcs := ih h (by rw [List.length_cons]; omega)
      intro d hd
      rcases List.mem_cons.1 hd with rfl | hd
      · exact hc
      · exact hcs d hd
    · rw [hs] at h
      have := total_add_owed_le h
      rw [hheld] at this
      omega
    · rw [hs] at h
      obtain ⟨more, hmore, rfl⟩ := Option.map_eq_some_iff.1 h
      have := total_add_owed_le hmore
      simp only [State.owed, State.held] at this
      rw [total_cons, String.length_ofList, List.length_reverse] at hlen
      omega

theorem literal_of_total (h : splitFrom .between cs = some ws) (hlen : cs.length ≤ total ws) :
    (∀ c ∈ cs, IsLiteral c) ∧ cs.head? ≠ some '#' := by
  cases cs with
  | nil => simp
  | cons c cs =>
    rw [List.length_cons] at hlen
    simp only [splitFrom] at h
    split at h
    · have := total_add_owed_le h
      simp only [State.owed, State.held] at this
      omega
    · split at h
      · have := total_add_owed_le h
        simp only [State.owed, State.held] at this
        omega
      · next hhash =>
        rcases plainStep_cases [] c with ⟨hc, hs⟩ | ⟨-, state, hs, hheld⟩ | ⟨hsep, -⟩
        · rw [hs] at h
          have hcs := literal_of_total_plain h (by rw [List.length_singleton]; omega)
          refine ⟨?_, by simpa using hhash⟩
          intro d hd
          rcases List.mem_cons.1 hd with rfl | hd
          · exact hc
          · exact hcs d hd
        · rw [hs] at h
          have := total_add_owed_le h
          rw [hheld, List.length_nil] at this
          omega
        · contradiction

theorem splitFrom_literal (h : ∀ c ∈ cs, IsLiteral c) :
    ∀ word, splitFrom (.plain word) cs = some [String.ofList (word.reverse ++ cs)] := by
  induction cs with
  | nil => intro word; simp [splitFrom]
  | cons c cs ih =>
    intro word
    simp only [splitFrom, plainStep_literal (h c List.mem_cons_self)]
    rw [ih (fun d hd => h d (List.mem_cons_of_mem c hd))]
    simp

/-- A text of characters without a meaning is one word, unless it is empty or a comment. -/
theorem split_literal {text : String} (hne : text ≠ "") (h : ∀ c ∈ text.toList, IsLiteral c)
    (hhash : text.toList.head? ≠ some '#') : split text = some [text] := by
  unfold split
  cases htext : text.toList with
  | nil => exact absurd (String.toList_eq_nil_iff.1 htext) hne
  | cons c cs =>
    rw [htext] at h hhash
    have hc := h c List.mem_cons_self
    have hword := splitFrom_literal (fun d hd => h d (List.mem_cons_of_mem c hd)) [c]
    have hc' : c ≠ '#' := by simpa using hhash
    have hself : String.ofList ([c].reverse ++ cs) = text := by
      rw [List.reverse_singleton, List.singleton_append, ← htext, String.ofList_toList]
    simp only [splitFrom, hc.1, hc', plainStep_literal hc, hword, hself]
    rfl

end Words

namespace Expansion

open Words (IsLiteral)

variable {c : Char} {cs : List Char}

/-- That no `$` starts a reference. -/
def NoReference (cs : List Char) : Prop :=
  ∀ c rest, '$' :: c :: rest <:+ cs → c ≠ '\x7b' ∧ c ≠ '#' ∧ isNameChar c = false

theorem noReference_cons :
    NoReference (c :: cs) ↔
      (c = '$' → ∀ d ∈ cs.head?, d ≠ '\x7b' ∧ d ≠ '#' ∧ isNameChar d = false) ∧
        NoReference cs := by
  constructor
  · intro h
    refine ⟨?_, fun d rest hs => h d rest (hs.trans (List.suffix_cons c cs))⟩
    rintro rfl d hd
    obtain ⟨rest, rfl⟩ := List.head?_eq_some_iff.1 hd
    exact h d rest (List.suffix_refl _)
  · rintro ⟨hhead, htail⟩ d rest hs
    rcases List.suffix_cons_iff.1 hs with he | hs
    · obtain ⟨rfl, rfl⟩ := List.cons_eq_cons.1 he
      exact hhead rfl d rfl
    · exact htail d rest hs

/-- Literal characters without a reference among them are copied. -/
theorem expandFrom_literal (lookup : String → Option String) (hl : ∀ c ∈ cs, IsLiteral c)
    (hr : NoReference cs) : ∀ pos, expandFrom lookup .none pos cs = .ok cs := by
  induction cs with
  | nil => intro pos; exact expandFrom_nil lookup .none pos
  | cons c cs ih =>
    intro pos
    obtain ⟨hhead, htail⟩ := noReference_cons.1 hr
    obtain ⟨-, hquote, hdouble, hback⟩ := hl c List.mem_cons_self
    have hfits : (Piece.plain c).Fits false cs :=
      ⟨fun he => absurd he hquote, fun he => absurd he hback, hhead⟩
    have hstep := expandFrom_plain lookup hfits pos
    have hafter : (Piece.plain c).after false = false := if_neg hdouble
    rw [hafter] at hstep
    rw [show Quotes.none = quotesOf false from rfl, hstep,
      show quotesOf false = Quotes.none from rfl,
      ih (fun d hd => hl d (List.mem_cons_of_mem c hd)) htail]
    rfl

/-! ## Where the variables have no values -/

/-- The look-up that finds nothing. -/
def nothing (_name : String) : Option String := none

theorem length_value_nothing (p : Piece) :
    (p.value nothing).length ≤ p.spelling.length ∧
      (p.spelling.length ≤ (p.value nothing).length → p.name? = none) := by
  cases hname : p.name? with
  | none =>
    rw [Piece.value, hname]
    exact ⟨Nat.le_refl _, fun _ => rfl⟩
  | some name =>
    have hpos := List.length_pos_iff.2 (Reading.spelling_ne_nil p)
    have hvalue : p.value nothing = [] := by
      rw [Piece.value, hname]
      rfl
    rw [hvalue, List.length_nil]
    exact ⟨Nat.zero_le _, fun h => by omega⟩

theorem length_values_nothing (ps : List Piece) :
    (ps.flatMap (Piece.value nothing)).length ≤ (spell ps).length ∧
      ((spell ps).length ≤ (ps.flatMap (Piece.value nothing)).length →
        ∀ p ∈ ps, p.name? = none) := by
  induction ps with
  | nil => exact ⟨Nat.le_refl _, fun _ => nofun⟩
  | cons p ps ih =>
    obtain ⟨hle, hnone⟩ := length_value_nothing p
    rw [spell_cons, List.flatMap_cons, List.length_append, List.length_append]
    refine ⟨by omega, ?_⟩
    intro h q hq
    rcases List.mem_cons.1 hq with rfl | hq
    · exact hnone (by omega)
    · exact ih.2 (by omega) q hq

/-- Pieces that spell literal characters and refer to nothing are characters, none of which starts
a reference. -/
theorem noReference_of_allFit {inDouble : Bool} {ps : List Piece}
    (hfit : AllFit [] inDouble ps) (hnames : ∀ p ∈ ps, p.name? = none)
    (hl : ∀ c ∈ spell ps, IsLiteral c) : NoReference (spell ps) := by
  induction ps generalizing inDouble with
  | nil =>
    intro c rest hs
    exact absurd (List.suffix_nil.1 hs) nofun
  | cons p ps ih =>
    obtain ⟨hp, hps⟩ := hfit
    rw [spell_cons] at hl ⊢
    have hrest := ih hps (fun q hq => hnames q (List.mem_cons_of_mem p hq))
      (fun c hc => hl c (List.mem_append_right _ hc))
    have hpiece : ∀ c ∈ p.spelling, IsLiteral c := fun c hc => hl c (List.mem_append_left _ hc)
    have hname := hnames p List.mem_cons_self
    cases p with
    | quoted body closed => exact absurd rfl (hpiece '\'' List.mem_cons_self).2.1
    | escaped c => exact absurd rfl (hpiece '\\' List.mem_cons_self).2.2.2
    | braced name => cases hname
    | count => cases hname
    | named name => cases hname
    | plain c =>
      rw [List.append_nil] at hp
      exact noReference_cons.2 ⟨hp.2.2, hrest⟩

/-- Without values an expansion is not longer than the text, and shorter if there is a reference. -/
theorem expand_nothing {text out : String} (h : expand nothing text = .ok out) :
    out.length ≤ text.length ∧
      (text.length ≤ out.length → out = text ∧
        ((∀ c ∈ text.toList, IsLiteral c) → NoReference text.toList)) := by
  obtain ⟨r⟩ := Reading.exists_reading false text.toList
  rw [r.expand_eq_expansion] at h
  cases hu : r.unclosed with
  | some name =>
    simp only [Reading.expansion, hu] at h
    cases h
  | none =>
    have hplain := fun names => r.expansion_of_plain names hu nothing
    rw [h] at hplain
    simp only [Reading.expansion, hu, Except.ok.injEq] at h
    obtain ⟨hle, hnone⟩ := length_values_nothing r.pieces
    have hspell := r.spell_pieces hu
    have hout : out.length = (r.pieces.flatMap (Piece.value nothing)).length := by
      rw [← h, String.length_ofList]
    rw [hspell, String.length_toList, ← hout] at hle hnone
    refine ⟨hle, fun hlen => ⟨Except.ok.inj (hplain (hnone hlen)), ?_⟩⟩
    intro hl
    have hfit := r.allFit
    rw [hu] at hfit
    rw [← hspell] at hl ⊢
    exact noReference_of_allFit hfit (hnone hlen) hl

end Expansion

/-- That a text is read as one word, itself, whatever the variables are. -/
structure Literal (text : String) : Prop where
  nonempty : text ≠ ""
  characters : ∀ c ∈ text.toList, Words.IsLiteral c
  noComment : text.toList.head? ≠ some '#'
  noReference : Expansion.NoReference text.toList

theorem splitExpanded_of_literal {text : String} (h : Literal text)
    (lookup : String → Option String) : splitExpanded lookup text = .ok [text] := by
  have hexpand : expand lookup text = .ok text := by
    rw [expand, Expansion.expandFrom_literal lookup h.characters h.noReference]
    simp
  simp only [splitExpanded, hexpand, Words.split_literal h.nonempty h.characters h.noComment]

/-- Only a literal text has a single word that is not shorter than the text, where the variables
have no values. -/
theorem literal_of_splitExpanded {text word : String}
    (h : splitExpanded Expansion.nothing text = .ok [word]) :
    word.length ≤ text.length ∧ (text.length ≤ word.length → word = text ∧ Literal text) := by
  simp only [splitExpanded] at h
  cases hexpand : expand Expansion.nothing text with
  | error e =>
    rw [hexpand] at h
    cases h
  | ok out =>
    rw [hexpand] at h
    obtain ⟨hle, hself⟩ := Expansion.expand_nothing hexpand
    cases hsplit : Words.split out with
    | none =>
      simp only [hsplit] at h
      cases h
    | some ws =>
      simp only [hsplit] at h
      cases h
      have htotal : word.length ≤ out.length := by
        simpa [Words.total, Words.State.owed, Words.State.held, String.length_toList] using
          Words.total_add_owed_le hsplit
      refine ⟨Nat.le_trans htotal hle, fun hlen => ?_⟩
      obtain ⟨rfl, href⟩ := hself (Nat.le_trans hlen htotal)
      obtain ⟨hchars, hhash⟩ := Words.literal_of_total hsplit
        (by simpa [Words.total, String.length_toList] using hlen)
      have hne : out ≠ "" := by
        rintro rfl
        cases hsplit
      have hone := Words.split_literal hne hchars hhash
      rw [hsplit] at hone
      cases hone
      exact ⟨rfl, hne, hchars, hhash, href hchars⟩

end LogConsole
