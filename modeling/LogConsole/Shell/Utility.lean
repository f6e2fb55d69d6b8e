import LogConsole.Disk
import LogConsole.Text.Utf8

/-!
# LogConsole.Shell.Utility

The commands that a shell command line may name.

* `Effect`      — what a command has printed and what it has made of the files, with its status;
* `escapes`     — text in which a backslash starts an escape;
* `printf`      — formatted output;
* `run?`        — the command of a name, with its arguments and its input; none if there is no
  such command.
-/

namespace LogConsole.Shell

structure Effect where
  disk : Disk
  output : List UInt8 := []
  errors : List UInt8 := []
  status : Nat := 0

namespace Effect

def print (e : Effect) (bytes : List UInt8) : Effect := { e with output := e.output ++ bytes }

/-- Reports a failure, and goes on. -/
def complain (e : Effect) (text : String) : Effect :=
  { e with errors := e.errors ++ Text.Utf8.encode (text ++ "\n"), status := 1 }

end Effect

/-- A failure text without the number of the failure. -/
def plainReason (e : IoError) : String :=
  match e with
  | .notFound => "No such file or directory"
  | .isDirectory => "Is a directory"
  | .notDirectory => "Not a directory"
  | .alreadyExists => "File exists"
  | .nameTooLong => "File name too long"
  | .noSpace => "No space left on device"
  | e => e.message

/-! ## Escapes -/

def bytesOf (c : Char) : List UInt8 := String.utf8EncodeChar c

def octal (cs : List Char) : Nat := cs.foldl (fun n c => n * 8 + (c.toNat - 48)) 0

def isOctal (c : Char) : Bool := '0' ≤ c && c ≤ '7'

/-- The bytes that an escape stands for, and how many characters it takes after the backslash. -/
def escape (cs : List Char) : List UInt8 × Nat :=
  match cs with
  | [] => ([92], 0)
  | c :: _ =>
    if isOctal c then
      let digits := (cs.take 3).takeWhile isOctal
      ([UInt8.ofNat (octal digits)], digits.length)
    else
      match c with
      | '\\' => ([92], 1)
      | 'a' => ([7], 1)
      | 'b' => ([8], 1)
      | 'f' => ([12], 1)
      | 'n' => ([10], 1)
      | 'r' => ([13], 1)
      | 't' => ([9], 1)
      | 'v' => ([11], 1)
      | _ => ([92], 0)

/-- The bytes of a text with its escapes, and whether output goes on after it: `\c` ends it. -/
def escapesFrom : Nat → List Char → List UInt8 × Bool
  | _, [] => ([], true)
  | 0, _ :: _ => ([], true)
  | fuel + 1, c :: rest =>
    if c = '\\' then
      match rest with
      | 'c' :: _ => ([], false)
      | rest =>
        let digits := match rest with
          | '0' :: d :: more => if isOctal d then d :: more else rest
          | _ => rest
        let (bytes, size) := escape digits
        let (more, on) := escapesFrom fuel (digits.drop size)
        (bytes ++ more, on)
    else
      let (more, on) := escapesFrom fuel rest
      (bytesOf c ++ more, on)

def escapes (s : String) : List UInt8 × Bool := escapesFrom s.length s.toList

/-! ## Formatted output -/

/-- A conversion: its flags, width and precision, and its letter. -/
structure Conversion where
  left : Bool := false
  zeros : Bool := false
  plus : Bool := false
  space : Bool := false
  width : Nat := 0
  precision : Option Nat := none
  letter : Char

def number (cs : List Char) : Nat := cs.foldl (fun n c => n * 10 + (c.toNat - 48)) 0

/-- The conversion after a percent sign, and what comes after it. -/
def conversion? (cs : List Char) : Option (Conversion × List Char) :=
  let isFlag (c : Char) : Bool := "-0+ #".toList.contains c
  let flags := cs.takeWhile isFlag
  let cs := cs.dropWhile isFlag
  let width := cs.takeWhile Char.isDigit
  let cs := cs.dropWhile Char.isDigit
  let (precision, cs) := match cs with
    | '.' :: rest => (some (number (rest.takeWhile Char.isDigit)), rest.dropWhile Char.isDigit)
    | _ => (none, cs)
  match cs with
  | letter :: rest =>
    some (⟨flags.contains '-', flags.contains '0', flags.contains '+', flags.contains ' ',
      number width, precision, letter⟩, rest)
  | [] => none

namespace Conversion

def pad (c : Conversion) (bytes : List UInt8) : List UInt8 :=
  let blanks := List.replicate (c.width - bytes.length) 32
  if c.left then bytes ++ blanks else blanks ++ bytes

def integer (c : Conversion) (sign : String) (digits : List Char) : List UInt8 :=
  let wanted := match c.precision with
    | some p => p
    | none => if c.zeros && !c.left then c.width - sign.length else 0
  let digits := List.replicate (wanted - digits.length) '0' ++ digits
  c.pad (Text.Utf8.encode (sign ++ String.ofList digits))

def signOf (c : Conversion) (n : Int) : String :=
  if n < 0 then "-" else if c.plus then "+" else if c.space then " " else ""

/-- The number that a text starts with, if it is nothing else. -/
def wholeNumber? (s : String) : Option Int :=
  match s.toList with
  | '"' :: c :: _ => some c.toNat
  | '\'' :: c :: _ => some c.toNat
  | '+' :: rest => (String.ofList rest).toNat?.map Int.ofNat
  | _ => s.toInt?

/-- What an argument is printed as, and whether output goes on after it; none if the argument has
the wrong form. -/
def apply (c : Conversion) (argument : String) : Option (List UInt8 × Bool) :=
  let cut (bytes : List UInt8) := match c.precision with
    | some p => bytes.take p
    | none => bytes
  match c.letter with
  | 's' => some (c.pad (cut (Text.Utf8.encode argument)), true)
  | 'b' =>
    let (bytes, on) := escapes argument
    some (c.pad (cut bytes), on)
  | 'c' => some (c.pad ((Text.Utf8.encode argument).take 1), true)
  | letter =>
    let n? := if argument.isEmpty then some 0 else wholeNumber? argument
    n?.bind fun n =>
      let unsigned := (UInt64.ofInt n).toNat
      match letter with
      | 'd' => some (c.integer (c.signOf n) (toString n.natAbs).toList, true)
      | 'i' => some (c.integer (c.signOf n) (toString n.natAbs).toList, true)
      | 'u' => some (c.integer "" (toString unsigned).toList, true)
      | 'x' => some (c.integer "" (Nat.toDigits 16 unsigned), true)
      | 'X' => some (c.integer "" ((Nat.toDigits 16 unsigned).map Char.toUpper), true)
      | 'o' => some (c.integer "" (Nat.toDigits 8 unsigned), true)
      | _ => none

end Conversion

/-- One pass over a format: what is printed, the arguments that are left, and whether output goes
on; `fuel` bounds the length of the format. -/
def formatOnce : Nat → Effect → List Char → List String → Effect × List String × Bool
  | _, e, [], args => (e, args, true)
  | 0, e, _, args => (e, args, true)
  | fuel + 1, e, c :: rest, args =>
    if c = '\\' then
      let (bytes, size) := escape rest
      formatOnce fuel (e.print bytes) (rest.drop size) args
    else if c = '%' then
      match rest with
      | '%' :: rest => formatOnce fuel (e.print [37]) rest args
      | _ =>
        match conversion? rest with
        | none => ({ e.complain "sh: 1: printf: %: missing directive" with status := 2 }, [], false)
        | some (conversion, rest) =>
          match conversion.apply (args.headD "") with
          | some (bytes, true) => formatOnce fuel (e.print bytes) rest args.tail
          | some (bytes, false) => (e.print bytes, [], false)
          | none =>
            if "diuxXo".toList.contains conversion.letter then
              let e := e.complain ("sh: 1: printf: " ++ args.headD "" ++ ": expected numeric value")
              formatOnce fuel (e.print (conversion.integer "" ['0'])) rest args.tail
            else
              ({ e.complain ("sh: 1: printf: %" ++ String.singleton conversion.letter
                  ++ ": invalid directive") with status := 2 }, [], false)
    else formatOnce fuel (e.print (bytesOf c)) rest args

/-- Uses a format until no arguments are left; `fuel` bounds their number. -/
def formatAll : Nat → Effect → String → List String → Effect
  | 0, e, _, _ => e
  | fuel + 1, e, format, args =>
    let (e, left, on) := formatOnce format.length e format.toList args
    if on && !left.isEmpty && left.length < args.length then formatAll fuel e format left else e

def printf (e : Effect) : List String → Effect
  | [] => { e.complain "sh: 1: printf: usage: printf format [arg ...]" with status := 2 }
  | format :: args => formatAll (args.length + 1) e format args

/-! ## Commands -/

def echo (e : Effect) (args : List String) : Effect :=
  let (newline, args) := match args with
    | "-n" :: rest => (false, rest)
    | args => (true, args)
  let (bytes, on) := escapes (" ".intercalate args)
  (e.print bytes).print (if newline && on then [10] else [])

def cat (e : Effect) (input : List UInt8) (files : List String) : Effect :=
  if files.isEmpty then e.print input
  else
    files.foldl (fun e f =>
      if f = "-" then e.print input
      else
        match e.disk.read f with
        | .ok bytes => e.print bytes
        | .error err => e.complain ("cat: " ++ f ++ ": " ++ plainReason err)) e

def touch (e : Effect) (files : List String) : Effect :=
  files.foldl (fun e f =>
    if e.disk.exists? f then e
    else
      match e.disk.openForWriting f with
      | .ok (disk, _) => { e with disk }
      | .error err => e.complain ("touch: cannot touch '" ++ f ++ "': " ++ plainReason err)) e

def removeAll (forced : Bool) (e : Effect) (files : List String) : Effect :=
  files.foldl (fun e f =>
    match e.disk.remove f with
    | .ok disk => { e with disk }
    | .error err =>
      if forced && err == .notFound then e
      else e.complain ("rm: cannot remove '" ++ f ++ "': " ++ plainReason err)) e

def remove (e : Effect) : List String → Effect
  | "-f" :: files => removeAll true e files
  | files => removeAll false e files

def makeDirs (parents : Bool) (e : Effect) (dirs : List String) : Effect :=
  dirs.foldl (fun e d =>
    match if parents then e.disk.makeDirs d else e.disk.makeDir d with
    | .ok disk => { e with disk }
    | .error err =>
      e.complain ("mkdir: cannot create directory '" ++ d ++ "': " ++ plainReason err)) e

def makeDirectory (e : Effect) : List String → Effect
  | "-p" :: dirs => makeDirs true e dirs
  | dirs => makeDirs false e dirs

/-- The numbers from `first` on, `count` of them. -/
def numberLines (first step : Int) (count : Nat) : List UInt8 :=
  (List.range count).flatMap fun (i : Nat) =>
    Text.Utf8.encode (toString (first + step * i) ++ "\n")

def seqNumbers (e : Effect) (first step last : Int) : Effect :=
  if step = 0 then e.complain "seq: invalid Zero increment value: '0'"
  else if 0 < step then e.print (numberLines first step ((last - first) / step + 1).toNat)
  else e.print (numberLines first step ((first - last) / (-step) + 1).toNat)

def seq (e : Effect) (args : List String) : Effect :=
  match args.mapM String.toInt? with
  | some [last] => seqNumbers e 1 1 last
  | some [first, last] => seqNumbers e first 1 last
  | some [first, step, last] => seqNumbers e first step last
  | _ => e.complain "seq: missing operand"

/-- The command of a name, other than those that the shell itself must know. -/
def run? (e : Effect) (input : List UInt8) (name : String) (args : List String) : Option Effect :=
  match name with
  | "echo" => some (echo e args)
  | "printf" => some (printf e args)
  | "cat" => some (cat e input args)
  | "touch" => some (touch e args)
  | "rm" => some (remove e args)
  | "mkdir" => some (makeDirectory e args)
  | "seq" => some (seq e args)
  | "true" | ":" | "sleep" => some e
  | "false" => some { e with status := 1 }
  | _ => none

end LogConsole.Shell
