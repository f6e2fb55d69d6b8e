import LogConsole.Number.Text

/-!
# LogConsole.Toml.Scalar

The written forms of TOML's bare keys, numbers and times.

* `isInteger` — decimal integers of 64 bits, and hexadecimal, octal and binary ones. A single
  underscore may stand between two digits;
* `isFloat`   — numbers with a fraction or an exponent, infinities and NaN;
* `isDate`, `isClock`, `isMoment` — dates, times with or without an offset, and both.
-/

namespace LogConsole.Toml

/-- Characters of a key without quotes. -/
def isBare (c : Char) : Bool :=
  ('a' ≤ c && c ≤ 'z') || ('A' ≤ c && c ≤ 'Z') || ('0' ≤ c && c ≤ '9') || c == '_' || c == '-'

/-- Characters of a value of one word. -/
def isWordChar (c : Char) : Bool :=
  ('a' ≤ c && c ≤ 'z') || ('A' ≤ c && c ≤ 'Z') || ('0' ≤ c && c ≤ '9')
    || c == '_' || c == '-' || c == '+' || c == '.' || c == ':'

/-! ## Numbers -/

/-- Digits with single underscores between them; `after` says that a digit came before. -/
def isDigits (digit : Char → Bool) (after : Bool) : List Char → Bool
  | [] => after
  | c :: rest => if c = '_' then after && isDigits digit false rest
    else digit c && isDigits digit true rest

def isDecimalDigit (c : Char) : Bool := '0' ≤ c && c ≤ '9'

def isHexDigit (c : Char) : Bool :=
  isDecimalDigit c || ('a' ≤ c && c ≤ 'f') || ('A' ≤ c && c ≤ 'F')

def isDecimal (cs : List Char) : Bool := isDigits isDecimalDigit false cs

def dropSign : List Char → List Char
  | '+' :: rest => rest
  | '-' :: rest => rest
  | cs => cs

/-- A whole number without superfluous zeros in front. -/
def isWhole (cs : List Char) : Bool :=
  match cs with
  | ['0'] => true
  | '0' :: _ => false
  | cs => isDecimal cs

def fitsInt64 (cs : List Char) : Bool :=
  match Number.readInt? (cs.filter (· != '_')) with
  | some n => Number.inInt64 n
  | none => false

def isInteger (cs : List Char) : Bool :=
  match cs with
  | '0' :: 'x' :: rest => isDigits isHexDigit false rest
  | '0' :: 'o' :: rest => isDigits (fun c => '0' ≤ c && c ≤ '7') false rest
  | '0' :: 'b' :: rest => isDigits (fun c => c == '0' || c == '1') false rest
  | cs => isWhole (dropSign cs) && fitsInt64 cs

def isExponentMark (c : Char) : Bool := c == 'e' || c == 'E'

/-- Nothing, or an exponent. -/
def isExponent : List Char → Bool
  | [] => true
  | c :: rest => isExponentMark c && isDecimal (dropSign rest)

def isFloat (cs : List Char) : Bool :=
  let cs := dropSign cs
  if cs = "inf".toList || cs = "nan".toList then true
  else
    let whole := cs.takeWhile fun c => isDecimalDigit c || c == '_'
    let rest := cs.dropWhile fun c => isDecimalDigit c || c == '_'
    isWhole whole &&
      match rest with
      | '.' :: rest =>
        isDecimal (rest.takeWhile fun c => !isExponentMark c)
          && isExponent (rest.dropWhile fun c => !isExponentMark c)
      | [] => false
      | rest => isExponent rest

/-! ## Times -/

/-- The number that two digits write. -/
def twoDigits (a b : Char) : Option Nat :=
  if isDecimalDigit a && isDecimalDigit b then some (Number.digitsValue [a, b]) else none

def monthLength (year month : Nat) : Nat :=
  if month == 2 then
    if (year % 4 == 0 && year % 100 != 0) || year % 400 == 0 then 29 else 28
  else if month == 4 || month == 6 || month == 9 || month == 11 then 30
  else 31

def isDate : List Char → Bool
  | [y1, y2, y3, y4, '-', m1, m2, '-', d1, d2] =>
    match twoDigits y1 y2, twoDigits y3 y4, twoDigits m1 m2, twoDigits d1 d2 with
    | some a, some b, some m, some d =>
      1 ≤ m && m ≤ 12 && 1 ≤ d && d ≤ monthLength (a * 100 + b) m
    | _, _, _, _ => false
  | _ => false

def below (limit : Nat) (a b : Char) : Bool :=
  match twoDigits a b with
  | some n => n < limit
  | none => false

/-- Nothing, `Z`, or a signed number of hours and minutes. -/
def isOffset : List Char → Bool
  | [] => true
  | ['Z'] => true
  | ['z'] => true
  | [s, h1, h2, ':', m1, m2] => (s == '+' || s == '-') && below 24 h1 h2 && below 60 m1 m2
  | _ => false

def isClock : List Char → Bool
  | h1 :: h2 :: ':' :: m1 :: m2 :: ':' :: s1 :: s2 :: rest =>
    below 24 h1 h2 && below 60 m1 m2 && below 61 s1 s2 &&
      match rest with
      | '.' :: d :: rest => isDecimalDigit d && isOffset (rest.dropWhile isDecimalDigit)
      | rest => isOffset rest
  | _ => false

/-- A time without an offset. -/
def isLocalClock (cs : List Char) : Bool :=
  isClock cs && cs.all fun c => isDecimalDigit c || c == ':' || c == '.'

def isMoment (cs : List Char) : Bool :=
  isLocalClock cs || isDate cs ||
    match cs.drop 10 with
    | c :: rest => isDate (cs.take 10) && (c == 'T' || c == 't') && isClock rest
    | [] => false

def isScalar (cs : List Char) : Bool := isInteger cs || isFloat cs || isMoment cs

end LogConsole.Toml
