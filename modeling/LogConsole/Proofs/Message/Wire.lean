import Mathlib.Data.List.TakeWhile
import LogConsole.Message.Wire
import LogConsole.Proofs.Json.Printable

/-!
# LogConsole.Proofs.Message.Wire

Encoded messages are read back as they were, and a channel of C strings carries them whole.

* `Snippet.fills`, `Message.fills` — the members that are written, one after the other, give the
  draft that the message is made from; parts that are left out stay nothing;
* `Message.decode_encode`  — a message is read back from its encoded form;
* `Message.wire_printable` — the marked form has no control character;
* `Message.wire_carries`   — both together, for every message and every string in it.
-/

namespace LogConsole

open Json (Reads compactChars string_reads int32_reads list_reads variant_reads optional_reads)
open Json.Shape (Fills)

/-! ## Parts of a message -/

namespace Snippet

theorem fills (s : Snippet) :
    Fills Draft.shape {} [("source", .str s.source), ("line", .int s.line.toInt),
      ("column", .int s.column.toInt), ("content", .str s.content)]
      ⟨some s.source, some s.line, some s.column, some s.content⟩ := by
  refine .cons (b := ⟨some s.source, none, none, none⟩) rfl rfl ?_ <|
    .cons (b := ⟨some s.source, some s.line, none, none⟩) rfl rfl ?_ <|
    .cons (b := ⟨some s.source, some s.line, some s.column, none⟩) rfl rfl ?_ <|
    .single rfl rfl ?_
  · exact (string_reads _).map fun cs rest h => by simp [Draft.shape, Draft.member, h]
  · exact (int32_reads _).map fun cs rest h => by simp [Draft.shape, Draft.member, h]
  · exact (int32_reads _).map fun cs rest h => by simp [Draft.shape, Draft.member, h]
  · exact (string_reads _).map fun cs rest h => by simp [Draft.shape, Draft.member, h]

theorem reads (s : Snippet) : Reads read (compactChars s.toJson) s :=
  (Json.Shape.read_reads s.fills).map fun cs rest h => by simp [read, h, Draft.finish]

end Snippet

theorem Level.reads (l : Level) : Reads Level.read (compactChars (.str l.name)) l := by
  have place : ∃ i, (all.map name).findIdx? (· == l.name) = some i ∧ all.getD i .error = l := by
    cases l <;> exact ⟨_, rfl, rfl⟩
  obtain ⟨i, hi, hl⟩ := place
  exact (variant_reads hi).map fun cs rest h => by simp only [read, h, hl]

theorem ErrorKind.reads (k : ErrorKind) : Reads ErrorKind.read (compactChars k.toJson) k := by
  have place : ∃ i, (all.map tag).findIdx? (· == k.tag) = some i ∧ all.getD i .interrupted = k := by
    cases k <;> exact ⟨_, rfl, rfl⟩
  obtain ⟨i, hi, hk⟩ := place
  exact (variant_reads hi).map fun cs rest h => by simp only [read, h, hk]

namespace Message

/-- A list that is left out if it is empty. -/
def given {α : Type} (xs : List α) : Option (List α) := if xs.isEmpty then none else some xs

/-- A text that is left out if it is empty. -/
def givenText (s : String) : Option String := if s.isEmpty then none else some s

theorem given_empty {α : Type} {xs : List α} (h : xs.isEmpty = true) : given xs = none := by
  rw [given, if_pos h]

theorem given_some {α : Type} {xs : List α} (h : xs.isEmpty = false) : given xs = some xs := by
  rw [given, if_neg (by simp [h])]

theorem givenText_empty {s : String} (h : s.isEmpty = true) : givenText s = none := by
  rw [givenText, if_pos h]

theorem givenText_some {s : String} (h : s.isEmpty = false) : givenText s = some s := by
  rw [givenText, if_neg (by simp [h])]

theorem getD_given {α : Type} (xs : List α) : (given xs).getD [] = xs := by
  cases h : xs.isEmpty with
  | true => rw [given_empty h, Option.getD_none, List.isEmpty_iff.1 h]
  | false => rw [given_some h, Option.getD_some]

theorem getD_givenText (s : String) : (givenText s).getD "" = s := by
  cases h : s.isEmpty with
  | true => rw [givenText_empty h, Option.getD_none, String.isEmpty_iff.1 h]
  | false => rw [givenText_some h, Option.getD_some]

/-- The members of a written message give its draft, those that were left out as nothing. -/
theorem fills (m : Message) :
    Fills Draft.shape {}
      ([("level", .str m.level.name), ("message", .str m.text)]
        ++ (if m.snippets.isEmpty then [] else [("snippets", .arr (m.snippets.map (·.toJson)))])
        ++ (if m.reason.isEmpty then [] else [("reason", .str m.reason)])
        ++ (if m.notes.isEmpty then [] else [("notes", .arr (m.notes.map Json.str))])
        ++ (if m.help.isEmpty then [] else [("help", .str m.help)])
        ++ (match m.kind with
            | some k => [("kind", k.toJson)]
            | none => []))
      ⟨some m.level, some m.text, given m.snippets, givenText m.reason, given m.notes,
        givenText m.help, m.kind.map some⟩ := by
  have head : Fills Draft.shape {} [("level", .str m.level.name), ("message", .str m.text)]
      ⟨some m.level, some m.text, none, none, none, none, none⟩ := by
    refine .cons (b := ⟨some m.level, none, none, none, none, none, none⟩) rfl rfl ?_ <|
      .single rfl rfl ?_
    · exact m.level.reads.map fun cs rest h => by simp [Draft.shape, Draft.member, h]
    · exact (string_reads _).map fun cs rest h => by simp [Draft.shape, Draft.member, h]
  have snippets : Fills Draft.shape ⟨some m.level, some m.text, none, none, none, none, none⟩
      (if m.snippets.isEmpty then [] else [("snippets", .arr (m.snippets.map (·.toJson)))])
      ⟨some m.level, some m.text, given m.snippets, none, none, none, none⟩ := by
    refine .optionally (fun h => by rw [given_empty h]) fun h => .single rfl rfl ?_
    rw [given_some h]
    exact (list_reads Snippet.reads _).map fun cs rest h => by simp [Draft.shape, Draft.member, h]
  have reason : Fills Draft.shape ⟨some m.level, some m.text, given m.snippets, none, none, none, none⟩
      (if m.reason.isEmpty then [] else [("reason", .str m.reason)])
      ⟨some m.level, some m.text, given m.snippets, givenText m.reason, none, none, none⟩ := by
    refine .optionally (fun h => by rw [givenText_empty h]) fun h => .single rfl rfl ?_
    rw [givenText_some h]
    exact (string_reads _).map fun cs rest h => by simp [Draft.shape, Draft.member, h]
  have notes : Fills Draft.shape
      ⟨some m.level, some m.text, given m.snippets, givenText m.reason, none, none, none⟩
      (if m.notes.isEmpty then [] else [("notes", .arr (m.notes.map Json.str))])
      ⟨some m.level, some m.text, given m.snippets, givenText m.reason, given m.notes, none,
        none⟩ := by
    refine .optionally (fun h => by rw [given_empty h]) fun h => .single rfl rfl ?_
    rw [given_some h]
    exact (list_reads string_reads _).map fun cs rest h => by simp [Draft.shape, Draft.member, h]
  have help : Fills Draft.shape
      ⟨some m.level, some m.text, given m.snippets, givenText m.reason, given m.notes, none, none⟩
      (if m.help.isEmpty then [] else [("help", .str m.help)])
      ⟨some m.level, some m.text, given m.snippets, givenText m.reason, given m.notes,
        givenText m.help, none⟩ := by
    refine .optionally (fun h => by rw [givenText_empty h]) fun h => .single rfl rfl ?_
    rw [givenText_some h]
    exact (string_reads _).map fun cs rest h => by simp [Draft.shape, Draft.member, h]
  refine ((((head.append snippets).append reason).append notes).append help).append ?_
  cases m.kind with
  | none => exact .nil _
  | some k =>
    refine .single rfl rfl ?_
    exact (optional_reads k.reads (by simp [ErrorKind.toJson, compactChars, Json.quoted])).map
      fun cs rest h => by simp [Draft.shape, Draft.member, h]

theorem reads (m : Message) : Reads read (compactChars m.toJson) m := by
  refine (Json.Shape.read_reads m.fills).map fun cs rest h => ?_
  simp only [read, h, Draft.finish, getD_given, getD_givenText]
  obtain ⟨_, _, _, _, _, _, kind⟩ := m
  cases kind <;> rfl

theorem decode_encode (m : Message) : decode m.encode = .ok m := Json.whole_reads m.reads

/-! ## The marked form on its way -/

theorem wire_printable (m : Message) : Json.Printable m.wire.toList := by
  rw [wire, encode, Json.compact, String.toList_append, String.toList_ofList,
    Json.Printable.append]
  exact ⟨by decide, Json.compactChars_printable _⟩

end Message

/-- What a C string holds of a text: all before the first NUL. -/
def cString (text : String) : String := String.ofList (text.toList.takeWhile (· != '\x00'))

theorem cString_of_printable {text : String} (h : Json.Printable text.toList) :
    cString text = text := by
  have whole : text.toList.takeWhile (· != '\x00') = text.toList := by
    rw [List.takeWhile_eq_self_iff]
    rintro c hc
    have visible := h c hc
    rw [bne_iff_ne]
    rintro rfl
    exact absurd visible (by decide)
  rw [cString, whole, String.ofList_toList]

namespace Message

/-- Writing and reading are inverse for every message. Its marked form is the mark and a text that
is read as the message; nothing in it is below U+0020, so that a C string holds all of it. -/
theorem wire_carries (m : Message) :
    decode m.encode = .ok m ∧
    (∃ encoded, m.wire = errorMarker ++ encoded ∧ decode encoded = .ok m) ∧
    (∀ c ∈ m.wire.toList, 0x20 ≤ c.toNat) ∧
    cString m.wire = m.wire :=
  ⟨m.decode_encode, ⟨m.encode, rfl, m.decode_encode⟩, m.wire_printable,
    cString_of_printable m.wire_printable⟩

end Message

end LogConsole
