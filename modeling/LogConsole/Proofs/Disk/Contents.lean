import LogConsole.Proofs.Disk.Obstacles
import LogConsole.Proofs.Disk.Tree

/-!
# LogConsole.Proofs.Disk.Contents

What is written to a file is what is read from it.

* `Backed`           — every regular file has contents, and no operation takes them away;
* `Disk.Stays`       — nothing is in another place than before;
* `find_of_openForWriting` — the name under which a file has been opened leads to it;
* `read_of_write`    — what has been written to a regular file is read from it.
-/

namespace LogConsole

namespace Disk

variable {d e : Disk} {p : String} {l : Location} {n : Node}

/-! ## Places -/

theorem lookup_insertNode (l k : Location) (n : Node) (nodes : List (Location × Node)) :
    lookup k (insertNode l n nodes) = if l = k then some n else lookup k nodes := by
  induction nodes with
  | nil => rfl
  | cons entry rest ih =>
    obtain ⟨own, node⟩ := entry
    rw [insertNode]
    split
    case isTrue same =>
      subst same
      rw [lookup, lookup]
      split <;> rfl
    case isFalse other =>
      split
      case isTrue => rw [lookup]
      case isFalse =>
        rw [lookup, lookup, ih]
        split
        case isTrue here =>
          subst here
          rw [if_neg (Ne.symm other)]
        case isFalse => rfl

/-- Everything is where it was, and names start where they started. -/
structure Stays (d e : Disk) : Prop where
  base : e.base = d.base
  nodes : ∀ k n, d.nodeAt k = some n → e.nodeAt k = some n

theorem stays_addNode {nodes : List (Location × Node)} (free : d.nodeAt l = none)
    (added : nodes = insertNode l n d.nodes) (contents : List (List UInt8)) :
    Stays d { d with nodes, contents } := by
  refine ⟨rfl, fun k m there => ?_⟩
  have other : l ≠ k := by
    rintro rfl
    rw [free] at there
    cases there
  rw [nodeAt, added, lookup_insertNode, if_neg other]
  exact there

theorem Stays.follow (stays : Stays d e) {node : Node} {ss : List String}
    {found : Location × Node} (h : d.follow l node ss = .ok found) :
    e.follow l node ss = .ok found := by
  induction ss generalizing l node with
  | nil => exact h
  | cons s rest ih =>
    cases node with
    | dir =>
      rw [Disk.follow] at h ⊢
      split at h
      case isTrue here => rw [if_pos here]; exact ih h
      case isFalse notHere =>
        rw [if_neg notHere]
        split at h
        case isTrue up => rw [if_pos up]; exact ih h
        case isFalse notUp =>
          rw [if_neg notUp]
          split at h
          · cases h
          case isFalse short =>
            rw [if_neg short]
            split at h
            case h_1 there => rw [stays.nodes _ _ there]; exact ih h
            case h_2 => cases h
    | file | sink | full => cases h

theorem Stays.find (stays : Stays d e) {found : Location × Node} (h : d.find p = .ok found) :
    e.find p = .ok found := by
  have start : e.startOf p = d.startOf p := by
    rw [startOf, startOf, stays.base]
  rw [Disk.find] at h ⊢
  split at h
  · cases h
  case h_2 =>
    cases reached : d.follow (d.startOf p) .dir (names p) with
    | error err => rw [reached] at h; cases h
    | ok place =>
      rw [reached] at h
      rw [start, stays.follow reached]
      exact h

theorem stays_setContents (d : Disk) (id : Nat) (bytes : List UInt8) :
    Stays d (d.setContents id bytes) := ⟨rfl, fun _ _ there => there⟩

/-! ## Contents -/

def Backed (d : Disk) : Prop := ∀ e ∈ d.nodes, ∀ id, e.2 = .file id → id < d.contents.length

theorem backed_empty : Disk.empty.Backed := by
  intro e he id file
  simp only [Disk.empty, List.mem_cons, List.not_mem_nil, or_false] at he
  rcases he with rfl | rfl | rfl | rfl | rfl | rfl <;> cases file

theorem Backed.makeDir (backed : d.Backed) (h : d.makeDir p = .ok e) : e.Backed := by
  rw [Disk.makeDir] at h
  split at h
  · cases h
  · split at h
    · cases h
    · split at h
      · cases h
      · cases h
        intro entry he id file
        rcases mem_insertNode he with rfl | he
        · cases file
        · exact backed entry he id file

theorem Backed.makeDirs (backed : d.Backed) (h : d.makeDirs p = .ok e) : e.Backed :=
  makeDirs_keeps Backed.makeDir backed h

theorem Backed.addFile (backed : d.Backed) (l : Location) : (d.addFile l).1.Backed := by
  intro entry he id file
  rw [Disk.addFile, List.length_append, List.length_singleton]
  rcases mem_insertNode he with rfl | he
  · cases file
    exact Nat.lt_succ_self _
  · exact Nat.lt_succ_of_lt (backed entry he id file)

theorem Backed.setContents (backed : d.Backed) (id : Nat) (bytes : List UInt8) :
    (d.setContents id bytes).Backed := by
  intro entry he number file
  rw [Disk.setContents, List.length_set]
  exact backed entry he number file

theorem contentsOf_setContents {id : Nat} (there : id < d.contents.length) (bytes : List UInt8) :
    (d.setContents id bytes).contentsOf id = bytes := by
  simp [contentsOf, Disk.setContents, there]

/-! ## Opening -/

theorem of_findParent {last : String} (h : d.findParent p = .ok (l, last)) (here : last ≠ ".") :
    checkName p = .ok () ∧ last.utf8ByteSize ≤ maxName ∧ ∃ front, names p = front ++ [last] ∧
      d.follow (d.startOf p) .dir front = .ok (l, .dir) := by
  rw [findParent] at h
  split at h
  · cases h
  case h_2 checked =>
    split at h
    case h_1 =>
      cases h
      exact absurd rfl here
    case h_2 name hlast =>
      split at h
      · cases h
      case h_2 hfollow =>
        split at h
        · cases h
        case isFalse short =>
          cases h
          refine ⟨checked, Nat.le_of_not_lt short, _, ?_, hfollow⟩
          exact (List.dropLast_append_getLast? _ hlast).symm
      · cases h

theorem find_of_findParent {last : String} (parent : d.findParent p = .ok (l, last))
    (here : last ≠ ".") (up : last ≠ "..") (slash : endsInSlash p = false) (stays : Stays d e)
    (there : e.nodeAt (l ++ [last]) = some n) : e.find p = .ok (l ++ [last], n) := by
  obtain ⟨checked, short, front, spelled, reached⟩ := of_findParent parent here
  have start : e.startOf p = d.startOf p := by
    rw [startOf, startOf, stays.base]
  have followed : e.follow (e.startOf p) .dir (names p) = .ok (l ++ [last], n) := by
    rw [spelled, follow_append, start, stays.follow reached]
    change e.follow l .dir [last] = _
    rw [Disk.follow, if_neg here, if_neg up, if_neg (Nat.not_lt_of_le short), there]
    rfl
  rw [find, checked, followed]
  cases n <;> simp [slash]

/-- The name under which something has been opened leads to it. -/
theorem find_of_openForWriting (backed : d.Backed) (h : d.openForWriting p = .ok (e, n)) :
    ∃ l, e.find p = .ok (l, n) ∧ e.Backed ∧ n ≠ .dir ∧
      ∀ id, n = .file id → id < e.contents.length := by
  rw [Disk.openForWriting] at h
  split at h
  · cases h
  case h_2 parent last hparent =>
    split at h
    · cases h
    case isFalse hlast =>
      simp only [Bool.or_eq_true, decide_eq_true_eq, not_or, Bool.not_eq_true] at hlast
      obtain ⟨⟨here, up⟩, slash⟩ := hlast
      split at h
      · cases h
      case h_2 node notDir there =>
        cases h
        refine ⟨_, find_of_findParent hparent here up slash ⟨rfl, fun _ _ h => h⟩ there, backed,
          notDir, ?_⟩
        exact fun id file => backed _ (mem_of_lookup there) id file
      case h_3 free =>
        cases h
        have there : (d.addFile (parent ++ [last])).1.nodeAt (parent ++ [last])
            = some (.file d.contents.length) := by
          rw [nodeAt, Disk.addFile, lookup_insertNode, if_pos rfl]
        have kept : (d.addFile (parent ++ [last])).1.Backed := backed.addFile _
        refine ⟨_, find_of_findParent hparent here up slash (stays_addNode free rfl _) there, kept,
          by simp, ?_⟩
        exact fun id file => kept _ (mem_of_lookup there) id file

/-- What a name leads to once something has been written there: a file with those bytes, or a
device. -/
theorem read_of_write {bytes : List UInt8} (backed : d.Backed) (h : d.write p bytes = .ok e) :
    e.Backed ∧ ((∃ l id, e.find p = .ok (l, .file id) ∧ e.read p = .ok bytes) ∨
      (∃ l, e.find p = .ok (l, .sink)) ∨ ∃ l, e.find p = .ok (l, .full) ∧ bytes = []) := by
  rw [Disk.write, Disk.create] at h
  cases opened : d.openForWriting p with
  | error err => rw [opened] at h; cases h
  | ok result =>
    obtain ⟨o, n⟩ := result
    obtain ⟨l, found, kept, notDir, room⟩ := find_of_openForWriting backed opened
    rw [opened] at h
    cases n with
    | dir => exact absurd rfl notDir
    | sink =>
      cases h
      exact ⟨kept, .inr (.inl ⟨l, found⟩)⟩
    | full =>
      simp only at h
      split at h
      case isTrue empty =>
        cases h
        exact ⟨kept, .inr (.inr ⟨l, found, List.isEmpty_iff.1 empty⟩)⟩
      case isFalse => cases h
    | file id =>
      cases h
      have emptied : (o.setContents id []).Backed := kept.setContents id []
      have there : id < (o.setContents id []).contents.length := by
        rw [Disk.setContents, List.length_set]
        exact room id rfl
      have again := (stays_setContents _ id bytes).find ((stays_setContents o id []).find found)
      refine ⟨emptied.setContents id bytes, .inl ⟨l, id, again, ?_⟩⟩
      rw [Disk.read, again]
      exact congrArg Except.ok (contentsOf_setContents there bytes)

end Disk

end LogConsole
