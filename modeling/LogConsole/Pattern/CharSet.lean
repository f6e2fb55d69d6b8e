import LogConsole.Text.Blank
import LogConsole.Text.Category

/-!
# LogConsole.Pattern.CharSet

Sets of characters, as search patterns describe them.

* `CharSet`          — ranges, the classes and properties of Unicode, and their combinations;
* `contains`         — membership;
* `CharSet.property?` — a set by the name of a property; case, blanks, hyphens and underscores in
  the name do not matter;
* `CharSet.posix?`   — the ASCII sets written `[:name:]`.
-/

namespace LogConsole

/-- A general category, or a group of them. -/
inductive CategoryGroup where
  | one (k : Text.Category)
  | letter | casedLetter | mark | number | punctuation | symbol | separator | other
  deriving DecidableEq, Repr

namespace CategoryGroup

def contains (g : CategoryGroup) (k : Text.Category) : Bool :=
  match g with
  | .one k' => k == k'
  | .letter => k.isLetter
  | .casedLetter => k == .Lu || k == .Ll || k == .Lt
  | .mark => k.isMark
  | .number => k.isNumber
  | .punctuation => k.isPunctuation
  | .symbol => k.isSymbol
  | .separator => k.isSeparator
  | .other => k.isOther

end CategoryGroup

inductive CharSet where
  | nothing
  | any
  | range (low high : Nat)
  | digit
  | word
  | space
  | alphabetic
  | category (g : CategoryGroup)
  | script (s : Text.Script)
  | union (a b : CharSet)
  | inter (a b : CharSet)
  | compl (a : CharSet)
  /-- The characters that differ from one in the set at most in case. -/
  | folded (a : CharSet)
  /-- The same with the letters of ASCII only. -/
  | asciiFolded (a : CharSet)
  deriving DecidableEq, Repr

namespace CharSet

/-- An ASCII letter in the other case. -/
def otherCase (c : Char) : Char :=
  if 'a' ≤ c && c ≤ 'z' then Char.ofNat (c.toNat - 32)
  else if 'A' ≤ c && c ≤ 'Z' then Char.ofNat (c.toNat + 32)
  else c

def contains : CharSet → Char → Bool
  | .nothing, _ => false
  | .any, _ => true
  | .range low high, c => low ≤ c.toNat && c.toNat ≤ high
  | .digit, c => Text.isDigit c
  | .word, c => Text.isWord c
  | .space, c => Text.isBlank c
  | .alphabetic, c => Text.isAlphabetic c
  | .category g, c => g.contains (Text.categoryOf c)
  | .script s, c => Text.inScript s c
  | .union a b, c => a.contains c || b.contains c
  | .inter a b, c => a.contains c && b.contains c
  | .compl a, c => !a.contains c
  | .folded a, c => (Text.orbit c).any fun d => a.contains d
  | .asciiFolded a, c => a.contains c || a.contains (otherCase c)

def char (c : Char) : CharSet := .range c.toNat c.toNat

def between (a b : Char) : CharSet := .range a.toNat b.toNat

def unionAll : List CharSet → CharSet
  | [] => .nothing
  | [s] => s
  | s :: rest => .union s (unionAll rest)

def asciiDigit : CharSet := between '0' '9'

def asciiWord : CharSet :=
  unionAll [between 'a' 'z', between 'A' 'Z', asciiDigit, char '_']

def asciiSpace : CharSet := .union (.range 9 13) (char ' ')

def posix? : String → Option CharSet
  | "alnum" => some (unionAll [asciiDigit, between 'A' 'Z', between 'a' 'z'])
  | "alpha" => some (unionAll [between 'A' 'Z', between 'a' 'z'])
  | "ascii" => some (.range 0 127)
  | "blank" => some (.union (char '\t') (char ' '))
  | "cntrl" => some (.union (.range 0 31) (.range 127 127))
  | "digit" => some asciiDigit
  | "graph" => some (between '!' '~')
  | "lower" => some (between 'a' 'z')
  | "print" => some (between ' ' '~')
  | "punct" =>
    some (unionAll [between '!' '/', between ':' '@', between '[' '\x60', between '\x7b' '~'])
  | "space" => some asciiSpace
  | "upper" => some (between 'A' 'Z')
  | "word" => some asciiWord
  | "xdigit" => some (unionAll [asciiDigit, between 'A' 'F', between 'a' 'f'])
  | _ => none

/-- Groups and categories by their short and long names. -/
def group? : String → Option CategoryGroup
  | "l" | "letter" => some .letter
  | "lc" | "casedletter" => some .casedLetter
  | "lu" | "uppercaseletter" => some (.one .Lu)
  | "ll" | "lowercaseletter" => some (.one .Ll)
  | "lt" | "titlecaseletter" => some (.one .Lt)
  | "lm" | "modifierletter" => some (.one .Lm)
  | "lo" | "otherletter" => some (.one .Lo)
  | "m" | "mark" | "combiningmark" => some .mark
  | "mn" | "nonspacingmark" => some (.one .Mn)
  | "mc" | "spacingmark" => some (.one .Mc)
  | "me" | "enclosingmark" => some (.one .Me)
  | "n" | "number" => some .number
  | "nd" | "decimalnumber" | "digit" => some (.one .Nd)
  | "nl" | "letternumber" => some (.one .Nl)
  | "no" | "othernumber" => some (.one .No)
  | "p" | "punctuation" | "punct" => some .punctuation
  | "pc" | "connectorpunctuation" => some (.one .Pc)
  | "pd" | "dashpunctuation" => some (.one .Pd)
  | "ps" | "openpunctuation" => some (.one .Ps)
  | "pe" | "closepunctuation" => some (.one .Pe)
  | "pi" | "initialpunctuation" => some (.one .Pi)
  | "pf" | "finalpunctuation" => some (.one .Pf)
  | "po" | "otherpunctuation" => some (.one .Po)
  | "s" | "symbol" => some .symbol
  | "sm" | "mathsymbol" => some (.one .Sm)
  | "sc" | "currencysymbol" => some (.one .Sc)
  | "sk" | "modifiersymbol" => some (.one .Sk)
  | "so" | "othersymbol" => some (.one .So)
  | "z" | "separator" => some .separator
  | "zs" | "spaceseparator" => some (.one .Zs)
  | "zl" | "lineseparator" => some (.one .Zl)
  | "zp" | "paragraphseparator" => some (.one .Zp)
  | "c" | "other" => some .other
  | "cc" | "control" | "cntrl" => some (.one .Cc)
  | "cf" | "format" => some (.one .Cf)
  | "co" | "privateuse" => some (.one .Co)
  | "cn" | "unassigned" => some (.one .Cn)
  | _ => none

/-- The letters and digits of a name in small letters, without a leading `is`. -/
def looseName (name : List Char) : String :=
  let cs := (name.filter fun c => c != ' ' && c != '_' && c != '-').map fun c =>
    if 'A' ≤ c && c ≤ 'Z' then Char.ofNat (c.toNat + 32) else c
  match cs with
  | 'i' :: 's' :: rest => if rest.isEmpty then String.ofList cs else String.ofList rest
  | _ => String.ofList cs

def simpleProperty? (name : String) : Option CharSet :=
  match name with
  | "any" => some .any
  | "assigned" => some (.compl (.category (.one .Cn)))
  | "ascii" => some (.range 0 127)
  | "alphabetic" | "alpha" => some .alphabetic
  | "whitespace" | "wspace" | "space" => some .space
  | "lowercase" | "lower" => some (.category (.one .Ll))
  | "uppercase" | "upper" => some (.category (.one .Lu))
  | _ =>
    match group? name with
    | some g => some (.category g)
    | none => (Text.Script.ofName? name).map .script

/-- The set that `name` or `name=value` describes. -/
def property? (description : List Char) : Option CharSet :=
  let isMark := fun c => c == '=' || c == ':'
  match description.dropWhile fun c => !isMark c with
  | [] => simpleProperty? (looseName description)
  | _ :: value =>
    match looseName (description.takeWhile fun c => !isMark c) with
    | "gc" | "generalcategory" => (group? (looseName value)).map .category
    | "sc" | "script" | "scx" | "scriptextensions" =>
      (Text.Script.ofName? (looseName value)).map .script
    | _ => none

end CharSet

end LogConsole
