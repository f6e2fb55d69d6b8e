import LogConsole.Json.Value
import LogConsole.Text.Category
import LogConsole.Text.Utf8

/-!
# LogConsole.Json.Reader

Reading JSON text as values of a known shape, from left to right and without a tree between.

* `Fault`   — malformed text, text that ends too early, or a well-formed value of the wrong
  shape; the first fault met from the left is the one reported;
* `Reader`  — reads a value off the front of a text;
* `string`, `int32`, `int64`, `float64`, `boolean`, `list`, `variant`, `tree` — the elementary
  readers;
* `Shape`   — a record read from an object or from an array of its members in order; members
  that it does not name are skipped, and none may come twice;
* `whole`   — a reader for a complete text.
-/

namespace LogConsole.Json

inductive Fault where
  | malformed
  | truncated
  | mismatch (message : String)
  deriving DecidableEq, Repr

abbrev Reader (α : Type) := List Char → Except Fault (α × List Char)

def isJsonBlank (c : Char) : Bool := c == ' ' || c == '\n' || c == '\t' || c == '\r'

def skip (cs : List Char) : List Char := cs.dropWhile isJsonBlank

/-- The rest of a literal name. -/
def literal : List Char → List Char → Except Fault (List Char)
  | [], rest => .ok rest
  | _ :: _, [] => .error .truncated
  | e :: es, c :: rest => if e = c then literal es rest else .error .malformed

/-! ## Strings -/

def hexValue? (c : Char) : Option Nat :=
  if '0' ≤ c && c ≤ '9' then some (c.toNat - 48)
  else if 'a' ≤ c && c ≤ 'f' then some (c.toNat - 87)
  else if 'A' ≤ c && c ≤ 'F' then some (c.toNat - 55)
  else none

def hex4? (a b c d : Char) : Option Nat :=
  match hexValue? a, hexValue? b, hexValue? c, hexValue? d with
  | some a, some b, some c, some d => some (((a * 16 + b) * 16 + c) * 16 + d)
  | _, _, _, _ => none

def simpleEscape? (c : Char) : Option Char :=
  match c with
  | '"' => some '"'
  | '\\' => some '\\'
  | '/' => some '/'
  | 'b' => some '\x08'
  | 'f' => some '\x0c'
  | 'n' => some '\n'
  | 'r' => some '\r'
  | 't' => some '\t'
  | _ => none

/-- What is wrong with an escape of four digits that has fewer than four characters left. -/
def shortHex (cs : List Char) : Fault :=
  if 4 ≤ Text.Utf8.size cs then .malformed else .truncated

def isLeading (n : Nat) : Bool := 0xD800 ≤ n && n ≤ 0xDBFF

def isTrailing (n : Nat) : Bool := 0xDC00 ≤ n && n ≤ 0xDFFF

/-- The rest of a string after its opening quotation mark; `acc` holds the characters read,
last first. Two escapes that form a surrogate pair are one character; a surrogate alone is
malformed. -/
def stringFrom (acc : List Char) : List Char → Except Fault (String × List Char)
  | [] => .error .truncated
  | '"' :: rest => .ok (String.ofList acc.reverse, rest)
  | '\\' :: 'u' :: a :: b :: c :: d :: rest =>
    match hex4? a b c d with
    | none => .error .malformed
    | some n =>
      if isTrailing n then .error .malformed
      else if isLeading n then
        match rest with
        | [] => .error .truncated
        | '\\' :: 'u' :: e :: f :: g :: h :: rest =>
          match hex4? e f g h with
          | some m =>
            if isTrailing m then
              stringFrom (Char.ofNat (0x10000 + (n - 0xD800) * 1024 + (m - 0xDC00)) :: acc) rest
            else .error .malformed
          | none => .error .malformed
        | '\\' :: 'u' :: rest => .error (shortHex rest)
        | ['\\'] => .error .truncated
        | _ => .error .malformed
      else stringFrom (Char.ofNat n :: acc) rest
  | '\\' :: 'u' :: rest => .error (shortHex rest)
  | ['\\'] => .error .truncated
  | '\\' :: c :: rest =>
    match simpleEscape? c with
    | some c => stringFrom (c :: acc) rest
    | none => .error .malformed
  | c :: rest => if c.toNat < 0x20 then .error .malformed else stringFrom (c :: acc) rest

/-- Passes over a string after its opening quotation mark; surrogates need not be paired. -/
def skipStringFrom : List Char → Except Fault (List Char)
  | [] => .error .truncated
  | '"' :: rest => .ok rest
  | '\\' :: 'u' :: a :: b :: c :: d :: rest =>
    match hex4? a b c d with
    | some _ => skipStringFrom rest
    | none => .error .malformed
  | '\\' :: 'u' :: rest => .error (shortHex rest)
  | ['\\'] => .error .truncated
  | '\\' :: c :: rest =>
    match simpleEscape? c with
    | some _ => skipStringFrom rest
    | none => .error .malformed
  | c :: rest => if c.toNat < 0x20 then .error .malformed else skipStringFrom rest

/-! ## Numbers -/

/-- A number as read: whole numbers that fit 64 bits stay whole. -/
inductive Numeral where
  | int (n : Int)
  | real (f : Float)

def maxWord : Nat := 18446744073709551615

/-- `significand · 10 ^ exponent` in binary64 arithmetic: one multiplication or division by a
power of ten, after divisions by 1e308 for exponents below -308. Too large is malformed. -/
def scaleFloat : Nat → Float → Int → Except Fault Float
  | 0, f, _ => .ok f
  | fuel + 1, f, e =>
    if e.natAbs ≤ 308 then
      if 0 ≤ e then
        let g := f * Float.ofScientific 1 false e.toNat
        if Number.isFinite g then .ok g else .error .malformed
      else .ok (f / Float.ofScientific 1 false (-e).toNat)
    else if f == 0.0 then .ok f
    else if 0 ≤ e then .error .malformed
    else scaleFloat fuel (f / Float.ofScientific 1 false 308) (e + 308)

def realOfParts (negative : Bool) (significand : Nat) (exponent : Int) : Except Fault Float :=
  match scaleFloat 4 (Float.ofNat significand) (if exponent < -2000 then -2000 else exponent) with
  | .ok f => .ok (if negative then -f else f)
  | .error e => .error e

/-- The digits of an exponent after the first; `none` once it exceeds 31 bits. -/
def exponentDigits (n : Nat) : List Char → Option Nat × List Char
  | [] => (some n, [])
  | c :: rest =>
    if Number.isDigitChar c then
      let n' := n * 10 + (c.toNat - 48)
      if 2147483647 < n' then (none, rest.dropWhile Number.isDigitChar) else exponentDigits n' rest
    else (some n, c :: rest)

/-- The rest of a number after `e`. -/
def exponentPart (negative : Bool) (significand : Nat) (exponent : Int) (cs : List Char) :
    Except Fault (Numeral × List Char) :=
  let (down, cs) := Number.takeSign cs
  match cs with
  | [] => .error .truncated
  | c :: rest =>
    if Number.isDigitChar c then
      match exponentDigits (c.toNat - 48) rest with
      | (some n, rest) =>
        match realOfParts negative significand (if down then exponent - n else exponent + n) with
        | .ok f => .ok (.real f, rest)
        | .error e => .error e
      | (none, rest) =>
        if significand != 0 && !down then .error .malformed
        else .ok (.real (if negative then -0.0 else 0.0), rest)
    else .error .malformed

/-- Adds digits to a significand while it fits 64 bits; the count of digits added. -/
def fractionDigits (significand count : Nat) : List Char → Nat × Nat × List Char
  | [] => (significand, count, [])
  | c :: rest =>
    if Number.isDigitChar c then
      let s := significand * 10 + (c.toNat - 48)
      if maxWord < s then (significand, count, (c :: rest).dropWhile Number.isDigitChar)
      else fractionDigits s (count + 1) rest
    else (significand, count, c :: rest)

/-- The end of a number: an exponent or nothing. -/
def numberEnd (negative : Bool) (significand : Nat) (exponent : Int) (cs : List Char) :
    Except Fault (Numeral × List Char) :=
  match cs with
  | 'e' :: rest => exponentPart negative significand exponent rest
  | 'E' :: rest => exponentPart negative significand exponent rest
  | rest =>
    match realOfParts negative significand exponent with
    | .ok f => .ok (.real f, rest)
    | .error e => .error e

/-- The rest of a number after its point. -/
def fractionPart (negative : Bool) (significand : Nat) (exponent : Int) (cs : List Char) :
    Except Fault (Numeral × List Char) :=
  match cs with
  | [] => .error .truncated
  | c :: _ =>
    if Number.isDigitChar c then
      let (s, count, rest) := fractionDigits significand 0 cs
      numberEnd negative s (exponent - count) rest
    else .error .malformed

/-- The digits of a whole part; the third component counts those that no longer fit. -/
def wholeDigits (significand : Nat) : List Char → Nat × Nat × List Char
  | [] => (significand, 0, [])
  | c :: rest =>
    if Number.isDigitChar c then
      let s := significand * 10 + (c.toNat - 48)
      if maxWord < s then
        let cs := c :: rest
        (significand, (cs.takeWhile Number.isDigitChar).length, cs.dropWhile Number.isDigitChar)
      else wholeDigits s rest
    else (significand, 0, c :: rest)

def wholeEnd (negative : Bool) (significand dropped : Nat) (cs : List Char) :
    Except Fault (Numeral × List Char) :=
  match cs with
  | '.' :: rest => fractionPart negative significand dropped rest
  | 'e' :: rest => exponentPart negative significand dropped rest
  | 'E' :: rest => exponentPart negative significand dropped rest
  | rest =>
    if dropped != 0 then numberEnd negative significand dropped rest
    else if !negative then .ok (.int significand, rest)
    else if significand == 0 || 9223372036854775808 < significand then
      .ok (.real (-(Float.ofNat significand)), rest)
    else .ok (.int (-(significand : Int)), rest)

/-- A number after its sign. -/
def number (negative : Bool) : List Char → Except Fault (Numeral × List Char)
  | [] => .error .truncated
  | '0' :: rest =>
    match rest with
    | c :: _ => if Number.isDigitChar c then .error .malformed else wholeEnd negative 0 0 rest
    | [] => wholeEnd negative 0 0 rest
  | c :: rest =>
    if Number.isDigitChar c then
      let (s, dropped, rest) := wholeDigits (c.toNat - 48) rest
      wholeEnd negative s dropped rest
    else .error .malformed

/-! ## Values of the wrong shape -/

/-- Whether a quoted excerpt shows the character as it is. -/
def isPrintable (c : Char) : Bool :=
  if c.toNat < 128 then 0x20 ≤ c.toNat && c.toNat != 127
  else
    let k := Text.categoryOf c
    !(k.isOther || k.isSeparator || k == .Mn || k == .Me)

def excerptChar (c : Char) : List Char :=
  if c = '"' then ['\\', '"']
  else if c = '\\' then ['\\', '\\']
  else if c = '\n' then ['\\', 'n']
  else if c = '\r' then ['\\', 'r']
  else if c = '\t' then ['\\', 't']
  else if c = '\x00' then ['\\', '0']
  else if isPrintable c then [c]
  else ['\\', 'u', '\x7b'] ++ Nat.toDigits 16 c.toNat ++ ['\x7d']

def excerpt (s : String) : String :=
  "\"" ++ String.ofList (s.toList.flatMap excerptChar) ++ "\""

def describeNumeral : Numeral → String
  | .int n => "integer `" ++ toString n ++ "`"
  | .real f => "floating point `" ++ String.ofList (realText f) ++ "`"

def invalidType (found expected : String) : Fault :=
  .mismatch ("invalid type: " ++ found ++ ", expected " ++ expected)

/-- The fault of a value that is not what `expected` names. The value must be readable up to
the point where its type is known. -/
def wrongType (expected : String) (cs : List Char) : Fault :=
  match skip cs with
  | [] => .truncated
  | 'n' :: rest =>
    match literal ['u', 'l', 'l'] rest with
    | .ok _ => invalidType "null" expected
    | .error e => e
  | 't' :: rest =>
    match literal ['r', 'u', 'e'] rest with
    | .ok _ => invalidType "boolean `true`" expected
    | .error e => e
  | 'f' :: rest =>
    match literal ['a', 'l', 's', 'e'] rest with
    | .ok _ => invalidType "boolean `false`" expected
    | .error e => e
  | '-' :: rest =>
    match number true rest with
    | .ok (n, _) => invalidType (describeNumeral n) expected
    | .error e => e
  | '"' :: rest =>
    match stringFrom [] rest with
    | .ok (s, _) => invalidType ("string " ++ excerpt s) expected
    | .error e => e
  | '[' :: _ => invalidType "sequence" expected
  | '\x7b' :: _ => invalidType "map" expected
  | c :: rest =>
    if Number.isDigitChar c then
      match number false (c :: rest) with
      | .ok (n, _) => invalidType (describeNumeral n) expected
      | .error e => e
    else .malformed

/-! ## Elementary readers -/

def string : Reader String := fun cs =>
  match skip cs with
  | '"' :: rest => stringFrom [] rest
  | [] => .error .truncated
  | _ => .error (wrongType "a string" cs)

/-- A number, or none if something else comes first. -/
def numeral? (cs : List Char) : Option (Except Fault (Numeral × List Char)) :=
  match skip cs with
  | '-' :: rest => some (number true rest)
  | c :: rest => if Number.isDigitChar c then some (number false (c :: rest)) else none
  | [] => none

/-- A whole number between `low` and `high`, of the type called `name`. -/
def intBetween (low high : Int) (name : String) : Reader Int := fun cs =>
  match numeral? cs with
  | some (.ok (.int n, rest)) =>
    if low ≤ n && n ≤ high then .ok (n, rest)
    else .error (.mismatch ("invalid value: integer `" ++ toString n ++ "`, expected " ++ name))
  | some (.ok (.real f, _)) => .error (invalidType (describeNumeral (.real f)) name)
  | some (.error e) => .error e
  | none => .error (wrongType name cs)

def int32 : Reader Int32 := fun cs =>
  match intBetween (-2147483648) 2147483647 "i32" cs with
  | .ok (n, rest) => .ok (Int32.ofInt n, rest)
  | .error e => .error e

def int64 : Reader Int64 := fun cs =>
  match intBetween (-9223372036854775808) 9223372036854775807 "i64" cs with
  | .ok (n, rest) => .ok (Int64.ofInt n, rest)
  | .error e => .error e

def Numeral.toFloat : Numeral → Float
  | .int n => Float.ofInt n
  | .real f => f

def float64 : Reader Float := fun cs =>
  match numeral? cs with
  | some (.ok (n, rest)) => .ok (n.toFloat, rest)
  | some (.error e) => .error e
  | none => .error (wrongType "f64" cs)

def boolean : Reader Bool := fun cs =>
  match skip cs with
  | 't' :: rest =>
    match literal ['r', 'u', 'e'] rest with
    | .ok rest => .ok (true, rest)
    | .error e => .error e
  | 'f' :: rest =>
    match literal ['a', 'l', 's', 'e'] rest with
    | .ok rest => .ok (false, rest)
    | .error e => .error e
  | _ => .error (wrongType "a boolean" cs)

/-- The value that stands for nothing. -/
def nothing (expected : String) : Reader Unit := fun cs =>
  match skip cs with
  | 'n' :: rest =>
    match literal ['u', 'l', 'l'] rest with
    | .ok rest => .ok ((), rest)
    | .error e => .error e
  | _ => .error (wrongType expected cs)

/-- Nothing, or a value. -/
def optional {α : Type} (item : Reader α) : Reader (Option α) := fun cs =>
  match skip cs with
  | 'n' :: rest =>
    match literal ['u', 'l', 'l'] rest with
    | .ok rest => .ok (none, rest)
    | .error e => .error e
  | _ =>
    match item cs with
    | .ok (a, rest) => .ok (some a, rest)
    | .error e => .error e

/-- Where the next element of an array starts; none at its end, which is not consumed. -/
def nextElement (first : Bool) (cs : List Char) : Except Fault (Option (List Char)) :=
  match skip cs with
  | [] => .error .truncated
  | ']' :: _ => .ok none
  | c :: rest =>
    if first then .ok (some (c :: rest))
    else if c = ',' then
      match skip rest with
      | [] => .error .truncated
      | ']' :: _ => .error .malformed
      | rest => .ok (some rest)
    else .error .malformed

/-- The end of an array. -/
def closeArray (cs : List Char) : Except Fault (List Char) :=
  match skip cs with
  | [] => .error .truncated
  | ']' :: rest => .ok rest
  | _ => .error .malformed

/-- At most `fuel` elements and the end of the array. -/
def elements {α : Type} (item : Reader α) : Nat → Bool → List Char →
    Except Fault (List α × List Char)
  | 0, _, _ => .error .malformed
  | fuel + 1, first, cs =>
    match nextElement first cs with
    | .error e => .error e
    | .ok none =>
      match closeArray cs with
      | .ok rest => .ok ([], rest)
      | .error e => .error e
    | .ok (some cs) =>
      match item cs with
      | .error e => .error e
      | .ok (a, rest) =>
        match elements item fuel false rest with
        | .ok (as, rest) => .ok (a :: as, rest)
        | .error e => .error e

def list {α : Type} (item : Reader α) : Reader (List α) := fun cs =>
  match skip cs with
  | '[' :: rest => elements item (rest.length + 1) true rest
  | _ => .error (wrongType "a sequence" cs)

/-- Where the next name of an object starts, after its quotation mark; none at the end, which
is not consumed. -/
def nextName (first : Bool) (cs : List Char) : Except Fault (Option (List Char)) :=
  match skip cs with
  | [] => .error .truncated
  | '\x7d' :: _ => .ok none
  | c :: rest =>
    if first then if c = '"' then .ok (some rest) else .error .malformed
    else if c = ',' then
      match skip rest with
      | [] => .error .truncated
      | '"' :: rest => .ok (some rest)
      | _ => .error .malformed
    else .error .malformed

def colon (cs : List Char) : Except Fault (List Char) :=
  match skip cs with
  | [] => .error .truncated
  | ':' :: rest => .ok rest
  | _ => .error .malformed

def closeObject (cs : List Char) : Except Fault (List Char) :=
  match skip cs with
  | [] => .error .truncated
  | '\x7d' :: rest => .ok rest
  | _ => .error .malformed

/-! ## Values of any shape -/

/-- Passes over the digits of a number after its sign, without looking at its size. -/
def skipNumber (cs : List Char) : Except Fault (List Char) :=
  let whole : Except Fault (List Char) :=
    match cs with
    | '0' :: rest =>
      match rest with
      | c :: _ => if Number.isDigitChar c then .error .malformed else .ok rest
      | [] => .ok rest
    | c :: rest =>
      if Number.isDigitChar c then .ok (rest.dropWhile Number.isDigitChar) else .error .malformed
    | [] => .error .malformed
  let skipExponent (cs : List Char) : Except Fault (List Char) :=
    match (Number.takeSign cs).2 with
    | c :: rest =>
      if Number.isDigitChar c then .ok (rest.dropWhile Number.isDigitChar) else .error .malformed
    | [] => .error .malformed
  let exponentOrEnd (cs : List Char) : Except Fault (List Char) :=
    match cs with
    | 'e' :: rest => skipExponent rest
    | 'E' :: rest => skipExponent rest
    | rest => .ok rest
  match whole with
  | .error e => .error e
  | .ok ('.' :: rest) =>
    match rest with
    | c :: _ =>
      if Number.isDigitChar c then exponentOrEnd (rest.dropWhile Number.isDigitChar)
      else .error .malformed
    | [] => .error .malformed
  | .ok rest => exponentOrEnd rest

mutual

/-- Passes over one value. -/
def skipValue : Nat → List Char → Except Fault (List Char)
  | 0, _ => .error .malformed
  | fuel + 1, cs =>
    match skip cs with
    | [] => .error .truncated
    | 'n' :: rest => literal ['u', 'l', 'l'] rest
    | 't' :: rest => literal ['r', 'u', 'e'] rest
    | 'f' :: rest => literal ['a', 'l', 's', 'e'] rest
    | '-' :: rest => skipNumber rest
    | '"' :: rest => skipStringFrom rest
    | '[' :: rest => skipElements fuel true rest
    | '\x7b' :: rest => skipMembers fuel true rest
    | c :: rest => if Number.isDigitChar c then skipNumber (c :: rest) else .error .malformed

def skipElements : Nat → Bool → List Char → Except Fault (List Char)
  | 0, _, _ => .error .malformed
  | fuel + 1, first, cs =>
    match nextElement first cs with
    | .error e => .error e
    | .ok none => closeArray cs
    | .ok (some cs) =>
      match skipValue fuel cs with
      | .error e => .error e
      | .ok rest => skipElements fuel false rest

def skipMembers : Nat → Bool → List Char → Except Fault (List Char)
  | 0, _, _ => .error .malformed
  | fuel + 1, first, cs =>
    match nextName first cs with
    | .error e => .error e
    | .ok none => closeObject cs
    | .ok (some cs) =>
      match skipStringFrom cs with
      | .error e => .error e
      | .ok rest =>
        match colon rest with
        | .error e => .error e
        | .ok rest =>
          match skipValue fuel rest with
          | .error e => .error e
          | .ok rest => skipMembers fuel false rest

end

mutual

/-- A value as a tree, nested at most `depth` deep. -/
def tree (depth : Nat) : Nat → List Char → Except Fault (Json × List Char)
  | 0, _ => .error .malformed
  | fuel + 1, cs =>
    match skip cs with
    | [] => .error .truncated
    | 'n' :: rest =>
      match literal ['u', 'l', 'l'] rest with
      | .ok rest => .ok (.null, rest)
      | .error e => .error e
    | 't' :: rest =>
      match literal ['r', 'u', 'e'] rest with
      | .ok rest => .ok (.bool true, rest)
      | .error e => .error e
    | 'f' :: rest =>
      match literal ['a', 'l', 's', 'e'] rest with
      | .ok rest => .ok (.bool false, rest)
      | .error e => .error e
    | '"' :: rest =>
      match stringFrom [] rest with
      | .ok (s, rest) => .ok (.str s, rest)
      | .error e => .error e
    | '[' :: rest =>
      match depth with
      | 0 => .error .malformed
      | depth + 1 =>
        match treeElements depth fuel true rest with
        | .ok (items, rest) => .ok (.arr items, rest)
        | .error e => .error e
    | '\x7b' :: rest =>
      match depth with
      | 0 => .error .malformed
      | depth + 1 =>
        match treeMembers depth fuel true rest with
        | .ok (members, rest) => .ok (.obj members, rest)
        | .error e => .error e
    | cs =>
      match numeral? cs with
      | some (.ok (.int n, rest)) => .ok (.int n, rest)
      | some (.ok (.real f, rest)) => .ok (.real f, rest)
      | some (.error e) => .error e
      | none => .error .malformed

def treeElements (depth : Nat) : Nat → Bool → List Char → Except Fault (List Json × List Char)
  | 0, _, _ => .error .malformed
  | fuel + 1, first, cs =>
    match nextElement first cs with
    | .error e => .error e
    | .ok none =>
      match closeArray cs with
      | .ok rest => .ok ([], rest)
      | .error e => .error e
    | .ok (some cs) =>
      match tree depth fuel cs with
      | .error e => .error e
      | .ok (j, rest) =>
        match treeElements depth fuel false rest with
        | .ok (js, rest) => .ok (j :: js, rest)
        | .error e => .error e

def treeMembers (depth : Nat) : Nat → Bool → List Char →
    Except Fault (List (String × Json) × List Char)
  | 0, _, _ => .error .malformed
  | fuel + 1, first, cs =>
    match nextName first cs with
    | .error e => .error e
    | .ok none =>
      match closeObject cs with
      | .ok rest => .ok ([], rest)
      | .error e => .error e
    | .ok (some cs) =>
      match stringFrom [] cs with
      | .error e => .error e
      | .ok (name, rest) =>
        match colon rest with
        | .error e => .error e
        | .ok rest =>
          match tree depth fuel rest with
          | .error e => .error e
          | .ok (j, rest) =>
            match treeMembers depth fuel false rest with
            | .ok (ms, rest) => .ok ((name, j) :: ms, rest)
            | .error e => .error e

end

/-! ## Names from a fixed list -/

def backticked (s : String) : String := "`" ++ s ++ "`"

def expectedNames (names : List String) : String :=
  match names with
  | [] => "there are no variants"
  | [a] => "expected " ++ backticked a
  | [a, b] => "expected " ++ backticked a ++ " or " ++ backticked b
  | names => "expected one of " ++ ", ".intercalate (names.map backticked)

/-- The index of a name in a list of names. -/
def pickName (names : List String) (name : String) : Except Fault Nat :=
  match names.findIdx? (· == name) with
  | some i => .ok i
  | none =>
    .error (.mismatch ("unknown variant " ++ backticked name ++ ", " ++ expectedNames names))

/-- One of `names`, as a string or as the only name of an object whose value is nothing; the
answer is its index. -/
def variant (names : List String) : Reader Nat := fun cs =>
  match skip cs with
  | '"' :: rest =>
    match stringFrom [] rest with
    | .error e => .error e
    | .ok (name, rest) =>
      match pickName names name with
      | .ok i => .ok (i, rest)
      | .error e => .error e
  | '\x7b' :: rest =>
    match skip rest with
    | '"' :: rest =>
      match stringFrom [] rest with
      | .error e => .error e
      | .ok (name, rest) =>
        match pickName names name with
        | .error e => .error e
        | .ok i =>
          match colon rest with
          | .error e => .error e
          | .ok rest =>
            match nothing "unit" rest with
            | .error e => .error e
            | .ok ((), rest) =>
              match closeObject rest with
              | .ok rest => .ok (i, rest)
              | .error e => .error e
    | _ => .error (wrongType "variant identifier" rest)
  | [] => .error .truncated
  | _ => .error .malformed

/-! ## Records -/

/-- How a record is read: `σ` is the record as far as it has been read. -/
structure Shape (σ : Type) where
  /-- What the record is called in messages. -/
  title : String
  /-- The members in their order. -/
  names : List String
  /-- Whether the member has been read. -/
  has : σ → String → Bool
  /-- Reads the value of a member. -/
  member : String → σ → Reader σ
  /-- Whether an array may end before the member. -/
  mayLack : String → Bool

namespace Shape

variable {σ : Type} (shape : Shape σ)

/-- The members of an object after its opening brace, at most `fuel` of them. -/
def members : Nat → Bool → σ → Reader σ
  | 0, _, _ => fun _ => .error .malformed
  | fuel + 1, first, acc => fun cs =>
    match nextName first cs with
    | .error e => .error e
    | .ok none =>
      match closeObject cs with
      | .ok rest => .ok (acc, rest)
      | .error e => .error e
    | .ok (some cs) =>
      match stringFrom [] cs with
      | .error e => .error e
      | .ok (name, rest) =>
        if shape.names.contains name then
          if shape.has acc name then .error (.mismatch ("duplicate field " ++ backticked name))
          else
            match colon rest with
            | .error e => .error e
            | .ok rest =>
              match shape.member name acc rest with
              | .error e => .error e
              | .ok (acc, rest) => members fuel false acc rest
        else
          match colon rest with
          | .error e => .error e
          | .ok rest =>
            match skipValue (rest.length + 1) rest with
            | .error e => .error e
            | .ok rest => members fuel false acc rest

/-- The members of an array after its opening bracket; `read` of them have been read. -/
def positions (read : Nat) (acc : σ) : List String → Reader σ
  | [] => fun cs =>
    match closeArray cs with
    | .ok rest => .ok (acc, rest)
    | .error e => .error e
  | name :: names => fun cs =>
    match nextElement (read == 0) cs with
    | .error e => .error e
    | .ok none =>
      if shape.mayLack name then positions read acc names cs
      else
        .error (.mismatch ("invalid length " ++ toString read ++ ", expected " ++ shape.title
          ++ " with " ++ toString shape.names.length ++ " elements"))
    | .ok (some cs) =>
      match shape.member name acc cs with
      | .error e => .error e
      | .ok (acc, rest) => positions (read + 1) acc names rest

def read (blank : σ) : Reader σ := fun cs =>
  match skip cs with
  | '[' :: rest => shape.positions 0 blank shape.names rest
  | '\x7b' :: rest => shape.members (rest.length + 1) true blank rest
  | _ => .error (wrongType shape.title cs)

end Shape

def missing (name : String) : Fault := .mismatch ("missing field " ++ backticked name)

/-- Reads a value that is the whole text but for blanks around it. -/
def whole {α : Type} (reader : Reader α) (text : String) : Except Fault α :=
  match reader text.toList with
  | .error e => .error e
  | .ok (a, rest) =>
    match skip rest with
    | [] => .ok a
    | _ => .error .malformed

end LogConsole.Json
