import LogConsole.Text.Lines
import LogConsole.Text.Utf8

/-!
# LogConsole.Proofs.Text.Utf8

A text is read back from its bytes, as a whole and line by line.

* `head_encodeChar`      — a character is what stands at the head of its bytes;
* `decode?_encode`       — the bytes of a text are read as that text;
* `mem_encodeChar_ascii` — a byte of the ASCII range is a character by itself, so that line ends
  stand where they stood in the text;
* `byteLines_encode`     — the lines of the bytes are the bytes of the lines.
-/

namespace LogConsole.Text

namespace Utf8

/-! ## Bytes -/

theorem toNat_byte {n : Nat} (h : n < 256) : (UInt8.ofNat n).toNat = n :=
  UInt8.toNat_ofNat_of_lt' h

theorem byte_between {n : Nat} (h : n < 256) (low high : UInt8) :
    (low ≤ UInt8.ofNat n && UInt8.ofNat n ≤ high) = decide (low.toNat ≤ n ∧ n ≤ high.toNat) := by
  rw [Bool.eq_iff_iff]
  simp only [Bool.and_eq_true, decide_eq_true_eq, UInt8.le_iff_toNat_le, toNat_byte h]

theorem byte_lt {n : Nat} (h : n < 256) (high : UInt8) : UInt8.ofNat n < high ↔ n < high.toNat := by
  rw [UInt8.lt_iff_toNat_lt, toNat_byte h]

theorem byte_eq {n : Nat} (h : n < 256) (b : UInt8) :
    (UInt8.ofNat n == b) = decide (n = b.toNat) := by
  rw [Bool.eq_iff_iff, beq_iff_eq, ← UInt8.toNat_inj, toNat_byte h, decide_eq_true_eq]

theorem isTail_byte (n : Nat) : isTail (UInt8.ofNat (n % 64 + 128)) = true := by
  rw [isTail, byte_between (by omega), decide_eq_true_eq]
  simp only [UInt8.toNat_ofNat]
  omega

theorem low_byte (n : Nat) : low (UInt8.ofNat (n % 64 + 128)) = n % 64 := by
  rw [low, toNat_byte (by omega)]
  omega

/-! ## Characters -/

variable {v : Nat}

/-- No shorter form would do for the character, and it is no surrogate. -/
theorem second3_bytes (long : 2047 < v) (short : v ≤ 65535) (valid : v.isValidChar) :
    second3 (UInt8.ofNat (v / 4096 % 16 + 224)) (UInt8.ofNat (v / 64 % 64 + 128)) = true := by
  rw [second3, isTail_byte, byte_eq (by omega), byte_eq (by omega), byte_between (by omega),
    byte_between (by omega)]
  simp only [decide_eq_true_eq, UInt8.toNat_ofNat]
  split
  · rw [decide_eq_true_eq]
    omega
  · split
    · rw [decide_eq_true_eq]
      rcases valid with low | high <;> omega
    · rfl

theorem second4_bytes (long : 65535 < v) (valid : v.isValidChar) :
    second4 (UInt8.ofNat (v / 262144 % 8 + 240)) (UInt8.ofNat (v / 4096 % 64 + 128)) = true := by
  have bound : v < 1114112 := by rcases valid with low | high <;> omega
  rw [second4, isTail_byte, byte_eq (by omega), byte_eq (by omega), byte_between (by omega),
    byte_between (by omega)]
  simp only [decide_eq_true_eq, UInt8.toNat_ofNat]
  split
  · rw [decide_eq_true_eq]
    omega
  · split
    · rw [decide_eq_true_eq]
      omega
    · rfl

theorem head_one (short : v ≤ 127) (rest : List UInt8) :
    head (UInt8.ofNat v) rest = .char (Char.ofNat v) 1 := by
  simp (disch := omega) only [head, byte_lt, toNat_byte, UInt8.toNat_ofNat]
  rw [if_pos (by omega)]

theorem head_two (long : 127 < v) (short : v ≤ 2047) (rest : List UInt8) :
    head (UInt8.ofNat (v / 64 % 32 + 192)) (UInt8.ofNat (v % 64 + 128) :: rest)
      = .char (Char.ofNat v) 2 := by
  have number : (v / 64 % 32 + 192 - 192) * 64 + v % 64 = v := by omega
  simp (disch := omega) only [head, byte_lt, byte_between, decide_eq_true_eq, toNat_byte,
    UInt8.toNat_ofNat, isTail_byte, low_byte, if_true]
  rw [if_neg (by omega), if_pos (by omega), number]

theorem head_three (long : 2047 < v) (short : v ≤ 65535) (valid : v.isValidChar)
    (rest : List UInt8) :
    head (UInt8.ofNat (v / 4096 % 16 + 224))
        (UInt8.ofNat (v / 64 % 64 + 128) :: UInt8.ofNat (v % 64 + 128) :: rest)
      = .char (Char.ofNat v) 3 := by
  have number : (v / 4096 % 16 + 224 - 224) * 4096 + v / 64 % 64 * 64 + v % 64 = v := by omega
  simp (disch := omega) only [head, byte_lt, byte_between, decide_eq_true_eq, toNat_byte,
    UInt8.toNat_ofNat, isTail_byte, low_byte, second3_bytes long short valid,
    if_true]
  rw [if_neg (by omega), if_neg (by omega), if_pos (by omega), number]

theorem head_four (long : 65535 < v) (valid : v.isValidChar) (rest : List UInt8) :
    head (UInt8.ofNat (v / 262144 % 8 + 240))
        (UInt8.ofNat (v / 4096 % 64 + 128) :: UInt8.ofNat (v / 64 % 64 + 128)
          :: UInt8.ofNat (v % 64 + 128) :: rest)
      = .char (Char.ofNat v) 4 := by
  have bound : v < 1114112 := by rcases valid with low | high <;> omega
  have number : (v / 262144 % 8 + 240 - 240) * 262144 + v / 4096 % 64 * 4096 + v / 64 % 64 * 64
      + v % 64 = v := by omega
  simp (disch := omega) only [head, byte_lt, byte_between, decide_eq_true_eq, toNat_byte,
    UInt8.toNat_ofNat, isTail_byte, low_byte, second4_bytes long valid, if_true]
  rw [if_neg (by omega), if_neg (by omega), if_neg (by omega), if_pos (by omega), number]

/-- A character is what stands at the head of its bytes, whatever comes after them. -/
theorem head_encodeChar (c : Char) :
    ∃ a rest, String.utf8EncodeChar c = a :: rest ∧
      ∀ more, head a (rest ++ more) = .char c (rest.length + 1) := by
  have back : Char.ofNat c.val.toNat = c := Char.ofNat_toNat c
  have valid : c.val.toNat.isValidChar := c.valid
  unfold String.utf8EncodeChar
  generalize c.val.toNat = v at back valid
  subst back
  dsimp only
  split
  · rename_i short
    exact ⟨_, _, rfl, head_one short⟩
  · rename_i long
    split
    · rename_i short
      exact ⟨_, _, rfl, head_two (Nat.lt_of_not_le long) short⟩
    · rename_i long
      split
      · rename_i short
        exact ⟨_, _, rfl, head_three (Nat.lt_of_not_le long) short valid⟩
      · rename_i long
        exact ⟨_, _, rfl, head_four (Nat.lt_of_not_le long) valid⟩

/-- A byte of the ASCII range stands in the bytes of one character only. -/
theorem mem_encodeChar_ascii {c : Char} {b : UInt8} (ascii : b.toNat ≤ 127)
    (h : b ∈ String.utf8EncodeChar c) : c.toNat = b.toNat := by
  have valid : c.val.toNat.isValidChar := c.valid
  change c.val.toNat = b.toNat
  unfold String.utf8EncodeChar at h
  generalize c.val.toNat = v at h valid
  have bound : v < 1114112 := by rcases valid with low | high <;> omega
  dsimp only at h
  split at h
  · rw [List.mem_singleton.1 h, toNat_byte (by omega)]
  · -- all other bytes are out of this range
    exfalso
    split at h
    · simp only [List.mem_cons, List.not_mem_nil, or_false, ← UInt8.toNat_inj] at h
      simp (disch := omega) only [toNat_byte] at h
      omega
    · split at h
      · simp only [List.mem_cons, List.not_mem_nil, or_false, ← UInt8.toNat_inj] at h
        simp (disch := omega) only [toNat_byte] at h
        omega
      · simp only [List.mem_cons, List.not_mem_nil, or_false, ← UInt8.toNat_inj] at h
        simp (disch := omega) only [toNat_byte] at h
        omega

/-! ## Texts -/

theorem encodeChar_ascii {c : Char} (h : c.toNat ≤ 127) :
    String.utf8EncodeChar c = [UInt8.ofNat c.toNat] := by
  unfold String.utf8EncodeChar
  exact if_pos h

theorem decodeFrom_encode (cs : List Char) :
    ∀ {fuel : Nat}, (cs.flatMap String.utf8EncodeChar).length ≤ fuel →
      decodeFrom fuel (cs.flatMap String.utf8EncodeChar) = some cs := by
  induction cs with
  | nil => intro fuel _; cases fuel <;> rfl
  | cons c cs ih =>
    intro fuel enough
    obtain ⟨a, rest, bytes, hd⟩ := head_encodeChar c
    rw [List.flatMap_cons, bytes, List.cons_append] at enough ⊢
    cases fuel with
    | zero => cases enough
    | succ fuel =>
      have left : (cs.flatMap String.utf8EncodeChar).length ≤ fuel := by
        simp only [List.length_cons, List.length_append] at enough
        omega
      have after : (a :: (rest ++ cs.flatMap String.utf8EncodeChar)).drop (rest.length + 1)
          = cs.flatMap String.utf8EncodeChar := by
        rw [List.drop_succ_cons, List.drop_left]
      simp only [decodeFrom, hd, after, ih left, Option.map_some]

theorem decode?_encode (s : String) : decode? (encode s) = some s := by
  rw [decode?, encode, decodeFrom_encode s.toList (Nat.le_refl _), Option.map_some,
    String.ofList_toList]

/-! ## Lines -/

/-- The bytes of a line that is being read; as the line, it starts with what was read last. -/
def readBytes (line : List Char) : List UInt8 :=
  (line.reverse.flatMap String.utf8EncodeChar).reverse

theorem readBytes_cons (c : Char) (line : List Char) :
    readBytes (c :: line) = (String.utf8EncodeChar c).reverse ++ readBytes line := by
  simp [readBytes]

theorem closeLine_readBytes (line : List Char) :
    closeLine 13 (readBytes line) = (closeLine '\r' line).flatMap String.utf8EncodeChar := by
  cases line with
  | nil => rfl
  | cons c line =>
    rw [readBytes_cons]
    by_cases hc : c = '\r'
    · subst hc
      simp [closeLine, encodeChar_ascii, readBytes]
    · have last : String.utf8EncodeChar c ≠ [] := by simp
      rw [← List.reverse_ne_nil_iff] at last
      obtain ⟨b, more, hb⟩ := List.exists_cons_of_ne_nil last
      have no : b ≠ 13 := by
        rintro rfl
        have there : 13 ∈ String.utf8EncodeChar c := List.mem_reverse.1 (by rw [hb]; simp)
        have number := mem_encodeChar_ascii (by decide) there
        exact hc (Char.toNat_inj.1 number)
      have bytes : String.utf8EncodeChar c = more.reverse ++ [b] := by
        rw [← List.reverse_reverse (String.utf8EncodeChar c), hb, List.reverse_cons]
      simp [closeLine, no, hc, readBytes, bytes]

end Utf8

theorem cutLinesFrom_append {α : Type} [DecidableEq α] {lf cr : α} {body : List α}
    (h : lf ∉ body) (line rest : List α) :
    cutLinesFrom lf cr line (body ++ rest) = cutLinesFrom lf cr (body.reverse ++ line) rest := by
  induction body generalizing line with
  | nil => rfl
  | cons c body ih =>
    have hc : c ≠ lf := fun e => h (by simp [e])
    have hb : lf ∉ body := fun e => h (by simp [e])
    simp [cutLinesFrom, hc, ih hb]

namespace Utf8

theorem cutLinesFrom_encode (cs : List Char) :
    ∀ line : List Char,
      cutLinesFrom 10 13 (readBytes line) (cs.flatMap String.utf8EncodeChar)
        = (cutLinesFrom '\n' '\r' line cs).map (·.flatMap String.utf8EncodeChar) := by
  induction cs with
  | nil =>
    intro line
    cases line with
    | nil => rfl
    | cons c line => simp [cutLinesFrom, readBytes]
  | cons c cs ih =>
    intro line
    rw [List.flatMap_cons]
    by_cases hc : c = '\n'
    · subst hc
      have next : cutLinesFrom 10 13 [] (cs.flatMap String.utf8EncodeChar) = _ := ih []
      rw [encodeChar_ascii (by decide)]
      simp [cutLinesFrom, closeLine_readBytes, next]
    · have no : 10 ∉ String.utf8EncodeChar c := fun there =>
        hc (Char.toNat_inj.1 (mem_encodeChar_ascii (by decide) there))
      rw [cutLinesFrom_append no, ← readBytes_cons, ih]
      simp [cutLinesFrom, hc]

/-- The lines of an encoded text are the lines of the text. -/
theorem byteLines_encode (s : String) : byteLines (encode s) = (lines s).map encode := by
  have cut := cutLinesFrom_encode s.toList []
  rw [byteLines, cutLines, encode, lines, List.map_map]
  refine cut.trans (List.map_congr_left fun line _ => ?_)
  rw [Function.comp_apply, encode, String.toList_ofList]

end Utf8

end LogConsole.Text
