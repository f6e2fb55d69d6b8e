import LogConsole.Text.CategoryTable

/-!
# LogConsole.Text.Category

General categories of characters, and the character classes built on them.

* `Category`, `categoryOf` — the category of a character, by bisection in the table;
* `isDigit`                — decimal digits of every script;
* `isWord`                 — letters, marks, decimal digits, connectors and joiners;
* `fold`, `orbit`          — simple case folding, and the characters that fold alike;
* `Script`, `inScript`     — the scripts most texts are written in.

`isDigit` and `isWord` answer for ASCII without the table.
-/

namespace LogConsole.Text

inductive Category where
  | Lu | Ll | Lt | Lm | Lo | Mn | Mc | Me | Nd | Nl | No | Pc | Pd | Ps | Pe | Pi | Pf | Po
  | Sm | Sc | Sk | So | Zs | Zl | Zp | Cc | Cf | Cs | Co | Cn
  deriving DecidableEq, Repr

namespace Category

/-- In the order of the letters of the table. -/
def all : List Category :=
  [.Lu, .Ll, .Lt, .Lm, .Lo, .Mn, .Mc, .Me, .Nd, .Nl, .No, .Pc, .Pd, .Ps, .Pe, .Pi, .Pf, .Po,
   .Sm, .Sc, .Sk, .So, .Zs, .Zl, .Zp, .Cc, .Cf, .Cs, .Co, .Cn]

def ofLetter? (c : Char) : Option Category :=
  if 'A' ≤ c && c ≤ 'Z' then all[c.toNat - 'A'.toNat]?
  else if 'a' ≤ c && c ≤ 'd' then all[c.toNat - 'a'.toNat + 26]?
  else none

def isLetter : Category → Bool
  | .Lu | .Ll | .Lt | .Lm | .Lo => true
  | _ => false

def isMark : Category → Bool
  | .Mn | .Mc | .Me => true
  | _ => false

def isNumber : Category → Bool
  | .Nd | .Nl | .No => true
  | _ => false

def isPunctuation : Category → Bool
  | .Pc | .Pd | .Ps | .Pe | .Pi | .Pf | .Po => true
  | _ => false

def isSymbol : Category → Bool
  | .Sm | .Sc | .Sk | .So => true
  | _ => false

def isSeparator : Category → Bool
  | .Zs | .Zl | .Zp => true
  | _ => false

def isOther : Category → Bool
  | .Cc | .Cf | .Cs | .Co | .Cn => true
  | _ => false

end Category

/-- Reads the runs of `categoryRuns`: `start` is the first code point of the next run and
`count` the digits read for it. -/
def readRuns (start count : Nat) : List Char → List (Nat × Category)
  | [] => []
  | c :: rest =>
    if '0' ≤ c && c ≤ '9' then readRuns start (count * 10 + (c.toNat - '0'.toNat)) rest
    else
      match Category.ofLetter? c with
      | some k => (start, k) :: readRuns (start + (if count = 0 then 1 else count)) 0 rest
      | none => readRuns start count rest

def categoryStarts : Array (Nat × Category) := (readRuns 0 0 categoryRuns.toList).toArray

/-- The last entry whose start is at most `n`, between `lo` and `hi` (exclusive). -/
def bisect (table : Array (Nat × Category)) (n : Nat) : Nat → Nat → Nat → Category
  | 0, _, _ => .Cn
  | fuel + 1, lo, hi =>
    if hi ≤ lo + 1 then
      match table[lo]? with
      | some (_, k) => k
      | none => .Cn
    else
      let mid := (lo + hi) / 2
      match table[mid]? with
      | some (start, _) => if start ≤ n then bisect table n fuel mid hi else bisect table n fuel lo mid
      | none => .Cn

def categoryOf (c : Char) : Category :=
  bisect categoryStarts c.toNat 32 0 categoryStarts.size

def isAsciiDigit (c : Char) : Bool := '0' ≤ c && c ≤ '9'

def isAsciiLetter (c : Char) : Bool := ('a' ≤ c && c ≤ 'z') || ('A' ≤ c && c ≤ 'Z')

/-- Letters, digits and the underscore of ASCII. -/
def isAsciiWord (c : Char) : Bool := isAsciiLetter c || isAsciiDigit c || c == '_'

def isDigit (c : Char) : Bool :=
  if c.toNat < 128 then isAsciiDigit c else categoryOf c == .Nd

/-- Symbols that count as letters: circled and squared Latin letters. -/
def isEnclosedLetter (c : Char) : Bool :=
  let n := c.toNat
  (0x24B6 ≤ n && n ≤ 0x24E9) || (0x1F130 ≤ n && n ≤ 0x1F149) || (0x1F150 ≤ n && n ≤ 0x1F169)
    || (0x1F170 ≤ n && n ≤ 0x1F189)

def isAlphabetic (c : Char) : Bool :=
  if c.toNat < 128 then isAsciiLetter c
  else
    let k := categoryOf c
    k.isLetter || k == .Nl || isEnclosedLetter c

def isWord (c : Char) : Bool :=
  if c.toNat < 128 then isAsciiWord c
  else
    let k := categoryOf c
    k.isLetter || k.isMark || k == .Nd || k == .Nl || k == .Pc || isEnclosedLetter c
      || c.toNat == 0x200C || c.toNat == 0x200D

/-- A run of simple case foldings. -/
structure FoldRun where
  start : Nat
  count : Nat
  stride : Nat
  delta : Int
  deriving Repr

def foldTable : List FoldRun :=
  (foldRuns.splitOn ";").filterMap fun run =>
    match run.splitOn "," with
    | [a, n, s, d] =>
      match a.toNat?, n.toNat?, s.toNat?, d.toInt? with
      | some a, some n, some s, some d => some ⟨a, n, s, d⟩
      | _, _, _, _ => none
    | _ => none

def FoldRun.image? (r : FoldRun) (n : Nat) : Option Nat :=
  if r.start ≤ n && n < r.start + r.count * r.stride && (n - r.start) % r.stride == 0 then
    some ((n : Int) + r.delta).toNat
  else none

/-- The simple case folding of a character. -/
def fold (c : Char) : Char :=
  match foldTable.findSome? (fun r => r.image? c.toNat) with
  | some n => Char.ofNat n
  | none => c

/-- The code points that a run folds to `n`. -/
def FoldRun.sources (r : FoldRun) (n : Nat) : List Nat :=
  let m := (n : Int) - r.delta
  if 0 ≤ m && (r.image? m.toNat).isSome then [m.toNat] else []

/-- The characters that fold as `c` does. -/
def orbit (c : Char) : List Char :=
  let target := fold c
  target :: (foldTable.flatMap fun r => r.sources target.toNat).map Char.ofNat

inductive Script where
  | Han | Latin | Greek | Cyrillic | Hiragana | Katakana | Hangul | Arabic | Hebrew | Thai
  | Devanagari
  deriving DecidableEq, Repr

namespace Script

def ofName? : String → Option Script
  | "han" | "hani" => some .Han
  | "latin" | "latn" => some .Latin
  | "greek" | "grek" => some .Greek
  | "cyrillic" | "cyrl" => some .Cyrillic
  | "hiragana" | "hira" => some .Hiragana
  | "katakana" | "kana" => some .Katakana
  | "hangul" | "hang" => some .Hangul
  | "arabic" | "arab" => some .Arabic
  | "hebrew" | "hebr" => some .Hebrew
  | "thai" => some .Thai
  | "devanagari" | "deva" => some .Devanagari
  | _ => none

/-- First and last code points of the script's blocks. -/
def blocks : Script → List (Nat × Nat)
  | .Han =>
    [(0x2E80, 0x2E99), (0x2E9B, 0x2EF3), (0x2F00, 0x2FD5), (0x3005, 0x3005), (0x3007, 0x3007),
     (0x3021, 0x3029), (0x3038, 0x303B), (0x3400, 0x4DBF), (0x4E00, 0x9FFF), (0xF900, 0xFA6D),
     (0xFA70, 0xFAD9), (0x16FE2, 0x16FE3), (0x16FF0, 0x16FF1), (0x20000, 0x2A6DF),
     (0x2A700, 0x2B739), (0x2B740, 0x2B81D), (0x2B820, 0x2CEA1), (0x2CEB0, 0x2EBE0),
     (0x2EBF0, 0x2EE5D), (0x2F800, 0x2FA1D), (0x30000, 0x3134A), (0x31350, 0x323AF)]
  | .Latin =>
    [(0x41, 0x5A), (0x61, 0x7A), (0xAA, 0xAA), (0xBA, 0xBA), (0xC0, 0xD6), (0xD8, 0xF6),
     (0xF8, 0x2B8), (0x2E0, 0x2E4), (0x1D00, 0x1D25), (0x1D2C, 0x1D5C), (0x1D62, 0x1D65),
     (0x1D6B, 0x1D77), (0x1D79, 0x1DBE), (0x1E00, 0x1EFF), (0x2071, 0x2071), (0x207F, 0x207F),
     (0x2090, 0x209C), (0x212A, 0x212B), (0x2132, 0x2132), (0x214E, 0x214E), (0x2160, 0x2188),
     (0x2C60, 0x2C7F), (0xA722, 0xA787), (0xA78B, 0xA7DC), (0xA7F2, 0xA7FF), (0xAB30, 0xAB5A),
     (0xAB5C, 0xAB64), (0xAB66, 0xAB69), (0xFB00, 0xFB06), (0xFF21, 0xFF3A), (0xFF41, 0xFF5A)]
  | .Greek =>
    [(0x370, 0x373), (0x375, 0x377), (0x37A, 0x37D), (0x37F, 0x37F), (0x384, 0x384),
     (0x386, 0x386), (0x388, 0x3E1), (0x3F0, 0x3FF), (0x1D26, 0x1D2A), (0x1F00, 0x1FFE),
     (0x2126, 0x2126), (0xAB65, 0xAB65)]
  | .Cyrillic =>
    [(0x400, 0x484), (0x487, 0x52F), (0x1C80, 0x1C8A), (0x1D2B, 0x1D2B), (0x1D78, 0x1D78),
     (0x2DE0, 0x2DFF), (0xA640, 0xA69F), (0xFE2E, 0xFE2F)]
  | .Hiragana => [(0x3041, 0x3096), (0x309D, 0x309F), (0x1B001, 0x1B11F), (0x1B150, 0x1B152)]
  | .Katakana =>
    [(0x30A1, 0x30FA), (0x30FD, 0x30FF), (0x31F0, 0x31FF), (0x32D0, 0x32FE), (0x3300, 0x3357),
     (0xFF66, 0xFF6F), (0xFF71, 0xFF9D), (0x1B000, 0x1B000)]
  | .Hangul =>
    [(0x1100, 0x11FF), (0x302E, 0x302F), (0x3131, 0x318E), (0x3200, 0x321E), (0x3260, 0x327E),
     (0xA960, 0xA97C), (0xAC00, 0xD7A3), (0xD7B0, 0xD7C6), (0xD7CB, 0xD7FB), (0xFFA0, 0xFFDC)]
  | .Arabic =>
    [(0x600, 0x604), (0x606, 0x60B), (0x60D, 0x61A), (0x61C, 0x61E), (0x620, 0x63F),
     (0x641, 0x64A), (0x656, 0x66F), (0x671, 0x6DC), (0x6DE, 0x6FF), (0x750, 0x77F),
     (0x8A0, 0x8E1), (0x8E3, 0x8FF), (0xFB50, 0xFDFF), (0xFE70, 0xFEFC)]
  | .Hebrew => [(0x591, 0x5C7), (0x5D0, 0x5EA), (0x5EF, 0x5F4), (0xFB1D, 0xFB4F)]
  | .Thai => [(0xE01, 0xE3A), (0xE40, 0xE5B)]
  | .Devanagari => [(0x900, 0x950), (0x955, 0x963), (0x966, 0x97F), (0xA8E0, 0xA8FF)]

end Script

def inScript (s : Script) (c : Char) : Bool :=
  categoryOf c != .Cn && s.blocks.any fun (a, b) => a ≤ c.toNat && c.toNat ≤ b

end LogConsole.Text
