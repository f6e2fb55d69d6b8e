/-!
# LogConsole.Text.Utf8

UTF-8 (RFC 3629) over lists of bytes.

* `head`        — the first character of a byte sequence, or how many of its first bytes are
  the longest start of a character that is cut short there;
* `size`        — the number of bytes of a text;
* `decode?`     — the characters of a well-formed sequence;
* `decodeLossy` — the same, with U+FFFD for each ill-formed stretch;
* `encode`      — the bytes of a text.
-/

namespace LogConsole.Text.Utf8

/-- What stands at the head of a byte sequence. -/
inductive Head where
  /-- A character and the number of its bytes. -/
  | char (c : Char) (size : Nat)
  /-- Bytes that start no character: the longest stretch that could have, at least one. -/
  | broken (size : Nat)
  deriving DecidableEq, Repr

def isTail (b : UInt8) : Bool := 0x80 ≤ b && b ≤ 0xBF

/-- The second byte that may follow the first byte of a character of three bytes. -/
def second3 (a b : UInt8) : Bool :=
  if a == 0xE0 then 0xA0 ≤ b && b ≤ 0xBF
  else if a == 0xED then 0x80 ≤ b && b ≤ 0x9F
  else isTail b

/-- The second byte that may follow the first byte of a character of four bytes. -/
def second4 (a b : UInt8) : Bool :=
  if a == 0xF0 then 0x90 ≤ b && b ≤ 0xBF
  else if a == 0xF4 then 0x80 ≤ b && b ≤ 0x8F
  else isTail b

def low (b : UInt8) : Nat := b.toNat % 64

/-- The head of `a :: rest`. -/
def head (a : UInt8) (rest : List UInt8) : Head :=
  if a < 0x80 then .char (Char.ofNat a.toNat) 1
  else if 0xC2 ≤ a && a ≤ 0xDF then
    match rest with
    | b :: _ =>
      if isTail b then .char (Char.ofNat ((a.toNat - 0xC0) * 64 + low b)) 2 else .broken 1
    | [] => .broken 1
  else if 0xE0 ≤ a && a ≤ 0xEF then
    match rest with
    | b :: rest =>
      if second3 a b then
        match rest with
        | c :: _ =>
          if isTail c then
            .char (Char.ofNat ((a.toNat - 0xE0) * 4096 + low b * 64 + low c)) 3
          else .broken 2
        | [] => .broken 2
      else .broken 1
    | [] => .broken 1
  else if 0xF0 ≤ a && a ≤ 0xF4 then
    match rest with
    | b :: rest =>
      if second4 a b then
        match rest with
        | c :: rest =>
          if isTail c then
            match rest with
            | d :: _ =>
              if isTail d then
                .char (Char.ofNat
                  ((a.toNat - 0xF0) * 262144 + low b * 4096 + low c * 64 + low d)) 4
              else .broken 3
            | [] => .broken 3
          else .broken 2
        | [] => .broken 2
      else .broken 1
    | [] => .broken 1
  else .broken 1

/-- Reads at most `fuel` heads; a sequence has no more heads than bytes. -/
def decodeFrom : Nat → List UInt8 → Option (List Char)
  | _, [] => some []
  | 0, _ :: _ => none
  | fuel + 1, a :: rest =>
    match head a rest with
    | .char c size => (decodeFrom fuel ((a :: rest).drop size)).map (c :: ·)
    | .broken _ => none

def decode? (bytes : List UInt8) : Option String :=
  (decodeFrom bytes.length bytes).map String.ofList

def decodeLossyFrom : Nat → List UInt8 → List Char
  | _, [] => []
  | 0, _ :: _ => []
  | fuel + 1, a :: rest =>
    match head a rest with
    | .char c size => c :: decodeLossyFrom fuel ((a :: rest).drop size)
    | .broken size => '\uFFFD' :: decodeLossyFrom fuel ((a :: rest).drop size)

def decodeLossy (bytes : List UInt8) : String :=
  String.ofList (decodeLossyFrom bytes.length bytes)

def size : List Char → Nat
  | [] => 0
  | c :: rest => c.utf8Size + size rest

def encode (s : String) : List UInt8 := s.toList.flatMap String.utf8EncodeChar

end LogConsole.Text.Utf8
