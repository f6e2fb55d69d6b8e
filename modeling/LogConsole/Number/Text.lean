import LogConsole.Number.Shortest

/-!
# LogConsole.Number.Text

The written forms of numbers.

* `plain`      — a binary64 number with no exponent and no superfluous digit: `1`, `0.1`, `-0`,
  `inf`, `NaN`;
* `jsonNumber?` — the same digits with a point or an exponent: `1.0`, `0.1`, `1e+21`, `1e-7`;
* `readInt64?`, `readFloat?` — the numbers that a cell's text can be read back as;
* `floatOfDecimal` — the binary64 number nearest to a decimal.
-/

namespace LogConsole.Number

def zeros (n : Nat) : String := String.ofList (List.replicate n '0')

/-- Positional notation of `digits · 10 ^ exponent`; a whole number ends in `whole`. -/
def positional (d : Decimal) (whole : String) : String :=
  let ds := toString d.digits
  if 0 ≤ d.exponent then ds ++ zeros d.exponent.toNat ++ whole
  else
    let places := (-d.exponent).toNat
    if places < ds.length then
      let cs := ds.toList
      String.ofList (cs.take (ds.length - places)) ++ "."
        ++ String.ofList (cs.drop (ds.length - places))
    else "0." ++ zeros (places - ds.length) ++ ds

def scientific (d : Decimal) : String :=
  let ds := (toString d.digits).toList
  let e := d.exponent + (ds.length : Int) - 1
  let mantissa :=
    match ds with
    | [] => "0"
    | [c] => String.singleton c
    | c :: rest => String.singleton c ++ "." ++ String.ofList rest
  mantissa ++ "e" ++ (if e < 0 then "-" else "+") ++ toString e.natAbs

def signOf (f : Float) : String := if isNegative f then "-" else ""

def plain (f : Float) : String :=
  match Binary.ofFloat? f with
  | some b => signOf f ++ positional (shortest .up b) ""
  | none =>
    if isNaN f then "NaN"
    else if isFinite f then signOf f ++ "0"
    else signOf f ++ "inf"

/-- Exponents from -5 to 15 of the leading digit are written positionally; none for a number
that is not finite. -/
def jsonNumber? (f : Float) : Option String :=
  match Binary.ofFloat? f with
  | some b =>
    let d := shortest .toEven b
    let lead := d.exponent + ((toString d.digits).length : Int) - 1
    some (signOf f ++ (if -5 ≤ lead && lead < 16 then positional d ".0" else scientific d))
  | none => if isFinite f then some (signOf f ++ "0.0") else none

def digitsValue (cs : List Char) : Nat :=
  cs.foldl (fun n c => n * 10 + (c.toNat - '0'.toNat)) 0

def isDigitChar (c : Char) : Bool := '0' ≤ c && c ≤ '9'

def infinity : Float := Float.ofBits 0x7FF0000000000000

def nan : Float := Float.ofBits 0x7FF8000000000000

def applySign (negative : Bool) (f : Float) : Float := if negative then -f else f

/-- The binary64 number nearest to `digits · 10 ^ exponent`. -/
def floatOfDecimal (digits : Nat) (exponent : Int) : Float :=
  if digits == 0 then 0.0
  else
    let lead := exponent + countDigits digits
    if 400 < lead then infinity
    else if lead < -400 then 0.0
    else if 0 ≤ exponent then Float.ofScientific (digits * tenTo exponent.toNat) false 0
    else Float.ofScientific digits true (-exponent).toNat

/-- The sign in front of a number, and what follows it. -/
def takeSign : List Char → Bool × List Char
  | '-' :: rest => (true, rest)
  | '+' :: rest => (false, rest)
  | cs => (false, cs)

def readInt? (cs : List Char) : Option Int :=
  let (negative, ds) := takeSign cs
  if ds.isEmpty || !ds.all isDigitChar then none
  else some (if negative then -(digitsValue ds : Int) else digitsValue ds)

def inInt64 (n : Int) : Bool := -9223372036854775808 ≤ n && n ≤ 9223372036854775807

def readInt64? (s : String) : Option Int64 :=
  match readInt? s.toList with
  | some n => if inInt64 n then some (Int64.ofInt n) else none
  | none => none

/-- The exponent part of a number: nothing, or `e` with a signed run of digits. -/
def readExponent? : List Char → Option Int
  | [] => some 0
  | c :: rest => if c == 'e' || c == 'E' then readInt? rest else none

def readDecimal? (cs : List Char) : Option (Nat × Int) :=
  let whole := cs.takeWhile isDigitChar
  let rest := cs.dropWhile isDigitChar
  match rest with
  | '.' :: rest =>
    let places := rest.takeWhile isDigitChar
    if whole.isEmpty && places.isEmpty then none
    else
      match readExponent? (rest.dropWhile isDigitChar) with
      | some e => some (digitsValue (whole ++ places), e - places.length)
      | none => none
  | rest =>
    if whole.isEmpty then none
    else
      match readExponent? rest with
      | some e => some (digitsValue whole, e)
      | none => none

def lowerAscii (c : Char) : Char :=
  if 'A' ≤ c && c ≤ 'Z' then Char.ofNat (c.toNat + 32) else c

/-- A signed decimal number with an optional exponent, or the name of a number that is not
finite. -/
def readFloat? (s : String) : Option Float :=
  let (negative, cs) := takeSign s.toList
  let name := String.ofList (cs.map lowerAscii)
  if name == "inf" || name == "infinity" then some (applySign negative infinity)
  else if name == "nan" then some (applySign negative nan)
  else
    match readDecimal? cs with
    | some (m, e) => some (applySign negative (floatOfDecimal m e))
    | none => none

end LogConsole.Number
