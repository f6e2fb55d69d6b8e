import LogConsole.Proofs.Text.Utf8
import Mathlib.Data.List.Lex
import Mathlib.Data.String.Basic
import Mathlib.Order.Lattice

/-!
# LogConsole.Proofs.Text.ByteOrder

Texts are in the order of their bytes, compared one by one, exactly if they are in the order of
their code points: UTF-8 keeps the order.

* `encodeChar_append_lt`  — a smaller character has smaller bytes, whatever follows;
* `encode_lt_encode_iff` — the same of texts.
-/

namespace LogConsole.Text.Utf8

theorem byte_lt_byte {m n : Nat} (hm : m < 256) (hn : n < 256) :
    UInt8.ofNat m < UInt8.ofNat n ↔ m < n := by
  rw [byte_lt hm, toNat_byte hn]

theorem byte_inj {m n : Nat} (hm : m < 256) (hn : n < 256) :
    UInt8.ofNat m = UInt8.ofNat n ↔ m = n := by
  rw [← UInt8.toNat_inj, toNat_byte hm, toNat_byte hn]

/-- The bytes of a character come before those of a greater one, whatever follows. -/
theorem encodeChar_append_lt {c d : Char} (h : c < d) (xs ys : List UInt8) :
    String.utf8EncodeChar c ++ xs < String.utf8EncodeChar d ++ ys := by
  have validC : c.val.toNat.isValidChar := c.valid
  have validD : d.val.toNat.isValidChar := d.valid
  have less : c.val.toNat < d.val.toNat := UInt32.lt_iff_toNat_lt.1 h
  unfold String.utf8EncodeChar
  generalize c.val.toNat = v at validC less
  generalize d.val.toNat = w at validD less
  have boundV : v < 1114112 := by rcases validC with low | high <;> omega
  have boundW : w < 1114112 := by rcases validD with low | high <;> omega
  have third (n : Nat) : n / 4096 = n / 64 / 64 := by omega
  have fourth (n : Nat) : n / 262144 = n / 64 / 64 / 64 := by omega
  -- shorter forms have smaller first bytes; equally long ones are compared digit by digit
  dsimp only
  split_ifs <;>
    simp (disch := omega) only [List.cons_append, List.nil_append, List.cons_lt_cons_iff,
      byte_lt_byte, byte_inj, third, fourth] <;> omega

theorem flatMap_lt_iff (cs : List Char) :
    ∀ ds : List Char,
      cs.flatMap String.utf8EncodeChar < ds.flatMap String.utf8EncodeChar ↔ cs < ds := by
  induction cs with
  | nil =>
    intro ds
    cases ds with
    | nil => simp
    | cons d ds =>
      obtain ⟨a, rest, bytes, -⟩ := head_encodeChar d
      simp [List.flatMap_cons, bytes]
  | cons c cs ih =>
    intro ds
    cases ds with
    | nil => simp
    | cons d ds =>
      rw [List.flatMap_cons, List.flatMap_cons, List.cons_lt_cons_iff]
      rcases lt_trichotomy c d with less | rfl | more
      · simp [less, encodeChar_append_lt less]
      · have same (bs xs ys : List UInt8) : bs ++ xs < bs ++ ys ↔ xs < ys := by
          induction bs with
          | nil => rfl
          | cons b bs ih => simp [ih]
        simp [same, ih]
      · have back := List.lt_asymm (encodeChar_append_lt more (ds.flatMap String.utf8EncodeChar)
          (cs.flatMap String.utf8EncodeChar))
        simp only [back, more.not_gt, more.ne', false_and, or_self]

theorem encode_lt_encode_iff {a b : String} : encode a < encode b ↔ a < b := by
  rw [encode, encode, flatMap_lt_iff, String.lt_iff_toList_lt]

end LogConsole.Text.Utf8
