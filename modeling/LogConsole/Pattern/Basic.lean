import LogConsole.Pattern.CharSet

/-!
# LogConsole.Pattern.Basic

Search patterns, and the texts they are found in.

* `Place`     — a place in a text: the characters before and after it;
* `Look`      — conditions on places: ends of the text or of a line, ends of words;
* `Pattern`   — regular expressions over characters and places;
* `nullable`  — whether a pattern matches nothing at a place;
* `residues`  — the patterns one of which must match the rest of a match, once a character at a
  place is read. A pattern has finitely many residues of any order;
* `isFoundIn` — whether a pattern matches some part of a text, by following all residues.
-/

namespace LogConsole

structure Place where
  before : Option Char
  after : Option Char
  deriving DecidableEq, Repr

inductive Look where
  | textStart | textEnd
  | lineStart | lineEnd
  /-- Ends of lines that may be closed by a carriage return and a line feed. -/
  | longLineStart | longLineEnd
  | boundary (ascii : Bool) | noBoundary (ascii : Bool)
  | wordStart (ascii : Bool) | wordEnd (ascii : Bool)
  | wordStartHalf (ascii : Bool) | wordEndHalf (ascii : Bool)
  deriving DecidableEq, Repr

namespace Look

def inWord (ascii : Bool) : Option Char → Bool
  | some c => if ascii then Text.isAsciiWord c else Text.isWord c
  | none => false

def holds (p : Place) : Look → Bool
  | .textStart => p.before.isNone
  | .textEnd => p.after.isNone
  | .lineStart => p.before.isNone || p.before == some '\n'
  | .lineEnd => p.after.isNone || p.after == some '\n'
  | .longLineStart =>
    p.before.isNone || p.before == some '\n' || (p.before == some '\r' && p.after != some '\n')
  | .longLineEnd =>
    p.after.isNone || p.after == some '\r' || (p.after == some '\n' && p.before != some '\r')
  | .boundary ascii => inWord ascii p.before != inWord ascii p.after
  | .noBoundary ascii => inWord ascii p.before == inWord ascii p.after
  | .wordStart ascii => !inWord ascii p.before && inWord ascii p.after
  | .wordEnd ascii => inWord ascii p.before && !inWord ascii p.after
  | .wordStartHalf ascii => !inWord ascii p.before
  | .wordEndHalf ascii => !inWord ascii p.after

end Look

inductive Pattern where
  | empty
  | set (s : CharSet)
  | look (l : Look)
  | seq (a b : Pattern)
  | alt (a b : Pattern)
  /-- From `low` to `high` times, or without limit. -/
  | rep (low : Nat) (high : Option Nat) (a : Pattern)
  deriving DecidableEq, Repr, Inhabited

namespace Pattern

def nullable (p : Place) : Pattern → Bool
  | .empty => true
  | .set _ => false
  | .look l => l.holds p
  | .seq a b => a.nullable p && b.nullable p
  | .alt a b => a.nullable p || b.nullable p
  | .rep low _ a => low == 0 || a.nullable p

/-- `a` and then `b`. -/
def andThen (b : Pattern) : Pattern → Pattern
  | .empty => b
  | a => .seq a b

/-- One repetition less; none if no repetition is left. -/
def fewer (low : Nat) (high : Option Nat) (a : Pattern) : Option Pattern :=
  match high with
  | none => some (.rep (low - 1) none a)
  | some 0 => none
  | some (n + 1) => some (.rep (low - 1) (some n) a)

/-- Repetitions that match nothing at a place are as good as made. -/
def residues (p : Place) (c : Char) : Pattern → List Pattern
  | .empty => []
  | .set s => if s.contains c then [.empty] else []
  | .look _ => []
  | .seq a b =>
    (a.residues p c).map (andThen b) ++ (if a.nullable p then b.residues p c else [])
  | .alt a b => a.residues p c ++ b.residues p c
  | .rep low high a =>
    match fewer (if a.nullable p then 0 else low) high a with
    | some rest => (a.residues p c).map (andThen rest)
    | none => []

/-- Leaves out repeated patterns. -/
def distinct (ps : List Pattern) : List Pattern :=
  ps.foldr (fun p acc => if acc.contains p then acc else p :: acc) []

/-- Whether the pattern matches from here on, or one of `begun` matches the rest of what it
has begun to. -/
def isFoundFrom (pattern : Pattern) (begun : List Pattern) (before : Option Char) :
    List Char → Bool
  | [] => (pattern :: begun).any fun q => q.nullable ⟨before, none⟩
  | c :: rest =>
    let place : Place := ⟨before, some c⟩
    let states := pattern :: begun
    states.any (fun q => q.nullable place)
      || isFoundFrom pattern (distinct (states.flatMap fun q => q.residues place c)) (some c) rest

def isFoundIn (pattern : Pattern) (text : String) : Bool :=
  isFoundFrom pattern [] none text.toList

end Pattern

end LogConsole
