/-!
# LogConsole.Number.Shortest

The shortest decimal that reads back as a given binary64 number.

* `Binary`    — a positive finite number `mantissa · 2 ^ exponent` with its rounding interval;
* `Binary.ofFloat?` — taken from the bits of a `Float`;
* `Decimal`   — `digits · 10 ^ exponent`;
* `shortest`  — on the grids of 1, 2, … 17 significant digits, the first one with a point in the
  rounding interval; of two such points the nearer, and of two equally near the one that `tie`
  picks.

All arithmetic is on natural numbers.
-/

namespace LogConsole.Number

def twoTo (n : Nat) : Nat := Nat.pow 2 n

def tenTo (n : Nat) : Nat := Nat.pow 10 n

/-- A positive number `mantissa · 2 ^ exponent`. `narrow` says that the next smaller number is
only half as far away as the next larger one. -/
structure Binary where
  mantissa : Nat
  exponent : Int
  narrow : Bool
  deriving DecidableEq, Repr

/-- A number `digits · 10 ^ exponent`. -/
structure Decimal where
  digits : Nat
  exponent : Int
  deriving DecidableEq, Repr

/-- Which of two equally near decimals is chosen. -/
inductive Tie where
  | up
  | toEven
  deriving DecidableEq, Repr

def expBits (f : Float) : Nat := (f.toBits.toNat / twoTo 52) % 2048

def fractionBits (f : Float) : Nat := f.toBits.toNat % twoTo 52

def isNegative (f : Float) : Bool := f.toBits.toNat / twoTo 63 == 1

def isFinite (f : Float) : Bool := expBits f != 2047

def isNaN (f : Float) : Bool := expBits f == 2047 && fractionBits f != 0

/-- The magnitude of a finite number other than zero. -/
def Binary.ofFloat? (f : Float) : Option Binary :=
  let e := expBits f
  let m := fractionBits f
  if e == 2047 then none
  else if e == 0 then if m == 0 then none else some ⟨m, -1074, false⟩
  else some ⟨m + twoTo 52, (e : Int) - 1075, m == 0 && e != 1⟩

/-- `a · 2 ^ e` as a fraction. -/
def scale2 (a : Nat) (e : Int) : Nat × Nat :=
  if 0 ≤ e then (a * twoTo e.toNat, 1) else (a, twoTo (-e).toNat)

/-- `a · 10 ^ e` as a fraction. -/
def scale10 (a : Nat) (e : Int) : Nat × Nat :=
  if 0 ≤ e then (a * tenTo e.toNat, 1) else (a, tenTo (-e).toNat)

def countDigits (n : Nat) : Nat := (Nat.toDigits 10 n).length

/-- The `k` with `10 ^ (k - 1) ≤ num / den < 10 ^ k`. -/
def decimalSize (num den : Nat) : Int :=
  if den ≤ num then countDigits (num / den)
  else
    let k : Int := 1 - countDigits (den / num)
    if den ≤ num * tenTo (-k).toNat then k + 1 else k

/-- Whether `d · 10 ^ e` lies in the rounding interval `[low, high] / den`, whose ends count
only if `closed`. -/
def inInterval (low high den : Nat) (closed : Bool) (d : Nat) (e : Int) : Bool :=
  let (n, s) := scale10 d e
  let x := n * den
  if closed then low * s ≤ x && x ≤ high * s else low * s < x && x < high * s

/-- Drops the zeros at the end of the digits; at most `fuel` of them. -/
def dropZeros : Nat → Decimal → Decimal
  | 0, d => d
  | fuel + 1, d =>
    if d.digits != 0 && d.digits % 10 == 0 then dropZeros fuel ⟨d.digits / 10, d.exponent + 1⟩
    else d

/-- The nearest admissible point of the grid with step `10 ^ e`, if there is one. -/
def onGrid (tie : Tie) (value low high den : Nat) (closed : Bool) (e : Int) : Option Nat :=
  let (one, s) := scale10 1 e
  let d := value * s / (den * one)
  let lower := inInterval low high den closed d e
  let upper := inInterval low high den closed (d + 1) e
  if lower && upper then
    let below := value * s - d * one * den
    let above := (d + 1) * one * den - value * s
    if below < above then some d
    else if above < below then some (d + 1)
    else
      match tie with
      | .up => some (d + 1)
      | .toEven => some (if d % 2 == 0 then d else d + 1)
  else if lower then some d
  else if upper then some (d + 1)
  else none

/-- Tries the grids of `n`, `n + 1`, … significant digits, `fuel` of them. -/
def firstGrid (tie : Tie) (value low high den : Nat) (closed : Bool) (k : Int) :
    Nat → Nat → Decimal
  | 0, _ => ⟨0, 0⟩
  | fuel + 1, n =>
    match onGrid tie value low high den closed (k - n) with
    | some d => dropZeros 20 ⟨d, k - n⟩
    | none => firstGrid tie value low high den closed k fuel (n + 1)

def shortest (tie : Tie) (b : Binary) : Decimal :=
  let (value, den) := scale2 (4 * b.mantissa) (b.exponent - 2)
  let unit := (scale2 1 (b.exponent - 2)).1
  let low := value - (if b.narrow then 1 else 2) * unit
  let high := value + 2 * unit
  firstGrid tie value low high den (b.mantissa % 2 == 0) (decimalSize value den) 17 1

end LogConsole.Number
