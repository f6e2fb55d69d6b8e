import LogConsole.Sql.Syntax

/-!
# LogConsole.Sql.Arithmetic

The operators on values.

* `realText`       — a real number as text: up to 15 significant digits, with a point;
* `Value.toText`, `Value.toNumber` — the text and the number that a value is taken for. The
  number of a text is the longest number it starts with, or zero;
* `compare`        — the order of values: null, numbers, texts, byte strings;
* `Truth`          — true, false or unknown, and how conditions are joined;
* `like`           — patterns with `%` for any text and `_` for any character; the case of ASCII
  letters does not matter;
* `applyBinary`, `applyUnary` — the operators.

Integer arithmetic that leaves 64 bits goes on in real numbers. What is no number is null.
-/

namespace LogConsole.Sql

/-! ## Texts and numbers -/

/-- The first `n` digits of a number, rounded, and its decimal exponent. -/
def roundDigits (n : Nat) (b : Number.Binary) : Nat × Int :=
  let (num, den) := Number.scale2 b.mantissa b.exponent
  let k := Number.decimalSize num den
  let (one, s) := Number.scale10 1 (k - n)
  let d := (2 * num * s + den * one) / (2 * den * one)
  if Number.tenTo n ≤ d then (d / 10, k) else (d, k - 1)

/-- The digits without zeros at their end, but with at least one digit. -/
def significant (digits : String) : List Char :=
  match (digits.toList.reverse.dropWhile (· == '0')).reverse with
  | [] => ['0']
  | cs => cs

/-- Digits with a point after the first. -/
def pointed : List Char → List Char
  | [] => []
  | [c] => [c, '.', '0']
  | c :: rest => c :: '.' :: rest

def exponentText (e : Int) : String :=
  let n := toString e.natAbs
  "e" ++ (if e < 0 then "-" else "+") ++ (if n.length < 2 then "0" ++ n else n)

/-- Exponents from -5 to 14 of the leading digit are written positionally. -/
def magnitudeText (b : Number.Binary) : String :=
  let (digits, e) := roundDigits 15 b
  let cs := significant (toString digits)
  if e < -4 || 15 ≤ e then String.ofList (pointed cs) ++ exponentText e
  else if e < 0 then "0." ++ Number.zeros (-e - 1).toNat ++ String.ofList cs
  else
    let whole := e.toNat + 1
    if cs.length ≤ whole then
      String.ofList cs ++ Number.zeros (whole - cs.length) ++ ".0"
    else String.ofList (cs.take whole) ++ "." ++ String.ofList (cs.drop whole)

def realText (f : Float) : String :=
  match Number.Binary.ofFloat? f with
  | some b => Number.signOf f ++ magnitudeText b
  | none => if Number.isFinite f then "0.0" else if Number.isNegative f then "-Inf" else "Inf"

namespace Value

def ofInt (n : Int) : Value :=
  if Number.inInt64 n then .integer (Int64.ofInt n) else .real (Float.ofInt n)

/-- A real number, or null for what is no number. -/
def ofFloat (f : Float) : Value := if Number.isNaN f then .null else .real f

def isNull : Value → Bool
  | .null => true
  | _ => false

def toText : Value → String
  | .null => ""
  | .integer n => toString n.toInt
  | .real f => realText f
  | .text s => s
  | .blob bytes => Text.Utf8.decodeLossy bytes

/-- What a number at the head of a text is: its value, whether it is a whole number, and what
follows it. -/
def leadingNumber (cs : List Char) : Option (Value × List Char) :=
  let cs := cs.dropWhile Lexer.isBlank
  let (negative, cs) := Number.takeSign cs
  let whole := cs.takeWhile Lexer.isDigit
  let rest := cs.drop whole.length
  let (places, rest, pointed) :=
    match rest with
    | '.' :: more =>
      let places := more.takeWhile Lexer.isDigit
      if whole.isEmpty && places.isEmpty then ([], rest, false)
      else (places, more.drop places.length, true)
    | _ => ([], rest, false)
  if whole.isEmpty && places.isEmpty then none
  else
    let size := Lexer.exponentLength rest
    if pointed || 0 < size then
      let exponent := (Number.readExponent? (rest.take size)).getD 0
      let f := Number.floatOfDecimal (Number.digitsValue (whole ++ places))
        (exponent - places.length)
      some (.real (Number.applySign negative f), rest.drop size)
    else
      let n : Int := Number.digitsValue whole
      some (ofInt (if negative then -n else n), rest)

/-- The number that a value is taken for. -/
def toNumber : Value → Value
  | .null => .null
  | .integer n => .integer n
  | .real f => .real f
  | .text s => ((leadingNumber s.toList).map (·.1)).getD (.integer 0)
  | .blob bytes => ((leadingNumber (Text.Utf8.decodeLossy bytes).toList).map (·.1)).getD (.integer 0)

/-- The number that a whole text writes. -/
def wholeNumber? (s : String) : Option Value :=
  match leadingNumber s.toList with
  | some (v, rest) => if (rest.dropWhile Lexer.isBlank).isEmpty then some v else none
  | none => none

def toFloat : Value → Float
  | .integer n => n.toFloat
  | .real f => f
  | _ => 0.0

/-- The integer that a real number exactly is. -/
def exactInt? (f : Float) : Option Int :=
  match Number.Binary.ofFloat? f with
  | some b =>
    let (num, den) := Number.scale2 b.mantissa b.exponent
    if num % den == 0 then
      let n : Int := num / den
      some (if Number.isNegative f then -n else n)
    else none
  | none => if Number.isFinite f then some 0 else none

/-- The integer nearest to a number towards zero, within 64 bits. -/
def truncate : Value → Int
  | .integer n => n.toInt
  | .real f =>
    match Number.Binary.ofFloat? f with
    | some b =>
      let (num, den) := Number.scale2 b.mantissa b.exponent
      let n : Int := num / den
      max (-9223372036854775808) (min 9223372036854775807 (if Number.isNegative f then -n else n))
    | none =>
      if Number.isFinite f || Number.isNaN f then 0
      else if Number.isNegative f then -9223372036854775808
      else 9223372036854775807
  | _ => 0

/-- The whole number at the head of a text, within 64 bits; zero if there is none. -/
def leadingInt (cs : List Char) : Int :=
  let (negative, cs) := Number.takeSign (cs.dropWhile Lexer.isBlank)
  let n : Int := Number.digitsValue (cs.takeWhile Lexer.isDigit)
  max (-9223372036854775808) (min 9223372036854775807 (if negative then -n else n))

/-- The integer that a value is taken for. -/
def toInt : Value → Int
  | .text s => leadingInt s.toList
  | .blob bytes => leadingInt (Text.Utf8.decodeLossy bytes).toList
  | v => v.truncate

end Value

/-! ## Order -/

/-- The magnitude of a number as a fraction of whole numbers; none if it is infinite. -/
def fraction? : Value → Option (Int × Nat)
  | .integer n => some (n.toInt, 1)
  | .real f =>
    match Number.Binary.ofFloat? f with
    | some b =>
      let (num, den) := Number.scale2 b.mantissa b.exponent
      some (if Number.isNegative f then -(num : Int) else num, den)
    | none => if Number.isFinite f then some (0, 1) else none
  | _ => none

def compareNumbers (a b : Value) : Ordering :=
  match fraction? a, fraction? b with
  | some (n, d), some (m, e) => Ord.compare (n * e) (m * d)
  | none, some _ => if Number.isNegative a.toFloat then .lt else .gt
  | some _, none => if Number.isNegative b.toFloat then .gt else .lt
  | none, none =>
    Ord.compare (Number.isNegative b.toFloat) (Number.isNegative a.toFloat)

/-- The rank of a value's kind. -/
def Value.rank : Value → Nat
  | .null => 0
  | .integer _ => 1
  | .real _ => 1
  | .text _ => 2
  | .blob _ => 3

def compareText (s t : String) : Ordering :=
  if s < t then .lt else if s = t then .eq else .gt

def compareBytes : List UInt8 → List UInt8 → Ordering
  | [], [] => .eq
  | [], _ :: _ => .lt
  | _ :: _, [] => .gt
  | a :: as, b :: bs => if a < b then .lt else if b < a then .gt else compareBytes as bs

def compare (a b : Value) : Ordering :=
  match a, b with
  | .text s, .text t => compareText s t
  | .blob s, .blob t => compareBytes s t
  | .null, .null => .eq
  | a, b => if a.rank = b.rank then compareNumbers a b else Ord.compare a.rank b.rank

/-! ## Conditions -/

/-- True, false, or none for unknown. -/
abbrev Truth := Option Bool

def Truth.toValue : Truth → Value
  | some b => Value.ofBool b
  | none => .null

def Value.truth (v : Value) : Truth :=
  match v.toNumber with
  | .integer n => some (n != 0)
  | .real f => some (!(f == 0.0))
  | _ => none

def Truth.and : Truth → Truth → Truth
  | some false, _ => some false
  | _, some false => some false
  | some true, some true => some true
  | _, _ => none

def Truth.or : Truth → Truth → Truth
  | some true, _ => some true
  | _, some true => some true
  | some false, some false => some false
  | _, _ => none

/-- Compares unless one of the values is null. -/
def compareWith (test : Ordering → Bool) (a b : Value) : Value :=
  if a.isNull || b.isNull then .null else Value.ofBool (test (compare a b))

/-! ## Patterns -/

def sameLetter (a b : Char) : Bool := a == b || Number.lowerAscii a == Number.lowerAscii b

/-- Whether some end of the text matches. -/
def matchesSomeEnd (test : List Char → Bool) : List Char → Bool
  | [] => test []
  | c :: rest => test (c :: rest) || matchesSomeEnd test rest

def likeChars : List Char → List Char → Bool
  | [], cs => cs.isEmpty
  | p :: ps, cs =>
    if p = '%' then matchesSomeEnd (likeChars ps) cs
    else
      match cs with
      | [] => false
      | c :: rest => (p = '_' || sameLetter p c) && likeChars ps rest

def like (pattern text : String) : Bool := likeChars pattern.toList text.toList

def likeValue (pattern text : Value) : Value :=
  if pattern.isNull || text.isNull then .null
  else Value.ofBool (like pattern.toText text.toText)

/-! ## Operators -/

/-- An operation that is exact on integers if its result fits. -/
def arithmetic (exact : Int → Int → Int) (rounded : Float → Float → Float) (a b : Value) : Value :=
  match a.toNumber, b.toNumber with
  | .null, _ => .null
  | _, .null => .null
  | .integer n, .integer m =>
    let r := exact n.toInt m.toInt
    if Number.inInt64 r then .integer (Int64.ofInt r)
    else .ofFloat (rounded n.toFloat m.toFloat)
  | x, y => .ofFloat (rounded x.toFloat y.toFloat)

def divide (a b : Value) : Value :=
  match a.toNumber, b.toNumber with
  | .null, _ => .null
  | _, .null => .null
  | .integer n, .integer m =>
    if m == 0 then .null
    else
      let r := n.toInt.tdiv m.toInt
      if Number.inInt64 r then .integer (Int64.ofInt r) else .ofFloat (n.toFloat / m.toFloat)
  | x, y => if y.toFloat == 0.0 then .null else .ofFloat (x.toFloat / y.toFloat)

def remainder (a b : Value) : Value :=
  match a.toNumber, b.toNumber with
  | .null, _ => .null
  | _, .null => .null
  | x, y =>
    let m := b.toInt
    if m == 0 then .null
    else
      let r := a.toInt.tmod m
      match x, y with
      | .integer _, .integer _ => .integer (Int64.ofInt r)
      | _, _ => .real (Float.ofInt r)

def concat (a b : Value) : Value :=
  if a.isNull || b.isNull then .null else .text (a.toText ++ b.toText)

/-- An operation on the bits of two integers. -/
def bitwise (f : Int64 → Int64 → Int64) (a b : Value) : Value :=
  if a.isNull || b.isNull then .null
  else .integer (f (Int64.ofInt a.toInt) (Int64.ofInt b.toInt))

/-- A shift to the left; a negative amount shifts to the right. -/
def shift (n m : Int64) : Int64 :=
  let k := m.toInt
  if 64 ≤ k then 0
  else if 0 ≤ k then n <<< m
  else if k ≤ -64 then if n < 0 then -1 else 0
  else n >>> (-m)

def applyBinary (op : BinaryOp) (a b : Value) : Value :=
  match op with
  | .concat => concat a b
  | .mul => arithmetic (· * ·) (· * ·) a b
  | .div => divide a b
  | .rem => remainder a b
  | .add => arithmetic (· + ·) (· + ·) a b
  | .sub => arithmetic (· - ·) (· - ·) a b
  | .bitAnd => bitwise (· &&& ·) a b
  | .bitOr => bitwise (· ||| ·) a b
  | .shiftLeft => bitwise shift a b
  | .shiftRight => bitwise (fun n m => shift n (-m)) a b
  | .less => compareWith (· == .lt) a b
  | .lessEq => compareWith (· != .gt) a b
  | .greater => compareWith (· == .gt) a b
  | .greaterEq => compareWith (· != .lt) a b
  | .eq => compareWith (· == .eq) a b
  | .ne => compareWith (· != .eq) a b
  | .is => Value.ofBool (compare a b == .eq)
  | .isNot => Value.ofBool (compare a b != .eq)
  | .and => (Truth.and a.truth b.truth).toValue
  | .or => (Truth.or a.truth b.truth).toValue

def negate (v : Value) : Value :=
  match v.toNumber with
  | .integer n => Value.ofInt (-n.toInt)
  | .real f => .ofFloat (-f)
  | _ => .null

def applyUnary (op : UnaryOp) (v : Value) : Value :=
  match op with
  | .negate => negate v
  | .plus => v
  | .bitNot => if v.isNull then .null else .integer (-(Int64.ofInt v.toInt) - 1)
  | .not => Truth.toValue (v.truth.map (!·))

end LogConsole.Sql
