import LogConsole.Proofs.Disk.Locations
import Mathlib.Data.List.Lex
import Mathlib.Data.List.Nodup
import Mathlib.Logic.Relation
import Mathlib.Data.String.Basic

/-!
# LogConsole.Proofs.Disk.Tree

Trees of files.

* `Disk.Tree`                — every location stands once, in order, and each of its names is one
  that a directory can have an entry under;
* `Disk.Rooted`              — every entry lies in a directory, from the root on;
* `Disk.Edit`, `edits_write`, … — the changes that a disk can undergo, and what every operation comes
  to as changes one after the other;
* `Tree.edit`, `Rooted.edit` — each change keeps both, so that `tree_of_edits` has them for all disks
  that are made from an empty one;
* `Disk.files`, `Disk.holds` — the regular files, and whether a search that starts from a directory
  comes to a location;
* `Tree.map_locationOf_walk` — a walk comes to each regular file below its directory, once and in
  order.

There are no links, so a regular file is its location.
-/

namespace LogConsole

theorem Location.before_iff_lt (a b : Location) : before a b = true ↔ a < b := by
  induction a generalizing b with
  | nil => cases b <;> simp [before]
  | cons s rest ih =>
    cases b with
    | nil => simp [before]
    | cons t more =>
      rw [before, List.cons_lt_cons_iff]
      split
      case isTrue h => simp [h, ih]
      case isFalse h => simp [h]

theorem Location.proper_into {l : Location} {s : String} (hl : ∀ t ∈ l, Path.Proper t)
    (hs : s ≠ "." → s ≠ ".." → Path.Proper s) : ∀ t ∈ l.into s, Path.Proper t := by
  rw [into]
  split
  case isTrue => exact hl
  case isFalse here =>
    split
    case isTrue => exact fun t ht => hl t (List.dropLast_subset l ht)
    case isFalse up => simpa [or_imp, forall_and] using ⟨hl, hs here up⟩

theorem Location.proper_foldl_into {l : Location} {ss : List String}
    (hl : ∀ t ∈ l, Path.Proper t) (hss : ∀ s ∈ ss, s ≠ "." → s ≠ ".." → Path.Proper s) :
    ∀ t ∈ ss.foldl into l, Path.Proper t := by
  induction ss generalizing l with
  | nil => exact hl
  | cons s rest ih =>
    obtain ⟨hs, hrest⟩ := List.forall_mem_cons.1 hss
    exact ih (proper_into hl hs) hrest

namespace Disk

/-- The table of a tree. -/
structure Tree (d : Disk) : Prop where
  sorted : d.nodes.Pairwise fun a b => a.1 < b.1
  proper : ∀ e ∈ d.nodes, ∀ s ∈ e.1, Path.Proper s
  base : ∀ s ∈ d.base, Path.Proper s

theorem tree_empty : Disk.empty.Tree where
  sorted := by decide
  proper := by decide
  base := by decide

/-! ## Entries -/

theorem mem_insertNode {l : Location} {n : Node} {nodes : List (Location × Node)}
    {e : Location × Node} (h : e ∈ insertNode l n nodes) : e = (l, n) ∨ e ∈ nodes := by
  induction nodes with
  | nil => simpa [insertNode] using h
  | cons entry rest ih =>
    rw [insertNode] at h
    split at h
    case isTrue =>
      rcases List.mem_cons.1 h with h | h
      · exact .inl h
      · exact .inr (List.mem_cons_of_mem _ h)
    case isFalse =>
      split at h
      case isTrue => simpa using h
      case isFalse =>
        rcases List.mem_cons.1 h with h | h
        · exact .inr (h ▸ List.mem_cons_self)
        · exact (ih h).imp_right (List.mem_cons_of_mem _)

theorem sorted_insertNode (l : Location) (n : Node) {nodes : List (Location × Node)}
    (sorted : nodes.Pairwise fun a b => a.1 < b.1) :
    (insertNode l n nodes).Pairwise fun a b => a.1 < b.1 := by
  induction nodes with
  | nil => simp [insertNode]
  | cons entry rest ih =>
    obtain ⟨hentry, hrest⟩ := List.pairwise_cons.1 sorted
    rw [insertNode]
    split
    case isTrue same =>
      subst same
      exact List.pairwise_cons.2 ⟨hentry, hrest⟩
    case isFalse other =>
      split
      case isTrue before =>
        have first := (Location.before_iff_lt l entry.1).1 before
        refine List.pairwise_cons.2 ⟨?_, sorted⟩
        intro e he
        rcases List.mem_cons.1 he with rfl | he
        · exact first
        · exact List.lt_trans first (hentry e he)
      case isFalse notBefore =>
        refine List.pairwise_cons.2 ⟨?_, ih hrest⟩
        intro e he
        rcases mem_insertNode he with rfl | he
        · have notFirst : ¬ l < entry.1 := fun h =>
            notBefore ((Location.before_iff_lt l entry.1).2 h)
          exact ((lt_trichotomy entry.1 l).resolve_right fun h => h.elim other notFirst)
        · exact hentry e he

/-- An entry that is added takes the place of no other. -/
theorem mem_insertNode_of_free {l : Location} {n : Node} {nodes : List (Location × Node)}
    (free : lookup l nodes = none) {e : Location × Node} :
    e ∈ insertNode l n nodes ↔ e = (l, n) ∨ e ∈ nodes := by
  refine ⟨mem_insertNode, fun h => ?_⟩
  induction nodes with
  | nil => simpa [insertNode] using h
  | cons entry rest ih =>
    rw [lookup] at free
    split at free
    case isTrue => cases free
    case isFalse other =>
      rw [insertNode, if_neg other]
      split
      case isTrue => simpa using h
      case isFalse =>
        have later := fun h => List.mem_cons_of_mem entry (ih free h)
        rcases h with rfl | h
        · exact later (.inl rfl)
        · rcases List.mem_cons.1 h with rfl | h
          · exact List.mem_cons_self
          · exact later (.inr h)

theorem mem_of_lookup {l : Location} {n : Node} {nodes : List (Location × Node)}
    (h : lookup l nodes = some n) : (l, n) ∈ nodes := by
  induction nodes with
  | nil => cases h
  | cons entry rest ih =>
    rw [lookup] at h
    split at h
    case isTrue same =>
      cases h
      exact same ▸ List.mem_cons_self
    case isFalse => exact List.mem_cons_of_mem _ (ih h)

theorem ne_of_lookup {l : Location} {nodes : List (Location × Node)} (h : lookup l nodes = none) :
    ∀ e ∈ nodes, e.1 ≠ l := by
  induction nodes with
  | nil => simp
  | cons entry rest ih =>
    rw [lookup] at h
    split at h
    case isTrue => cases h
    case isFalse other => exact List.forall_mem_cons.2 ⟨other, ih h⟩

variable {d e : Disk}

/-- A location has one entry. -/
theorem Tree.eq_of_mem (tree : d.Tree) {l : Location} {m n : Node} (hm : (l, m) ∈ d.nodes)
    (hn : (l, n) ∈ d.nodes) : m = n := by
  have distinct : (d.nodes.map Prod.fst).Nodup := List.pairwise_map.2 (tree.sorted.imp fun h => h.ne)
  exact (Prod.mk.inj (List.inj_on_of_nodup_map distinct hm hn rfl)).2

theorem Tree.nodeAt_eq_some_iff (tree : d.Tree) {l : Location} {n : Node} :
    d.nodeAt l = some n ↔ (l, n) ∈ d.nodes := by
  refine ⟨mem_of_lookup, fun h => ?_⟩
  cases there : d.nodeAt l with
  | none => exact absurd rfl (ne_of_lookup there _ h)
  | some m => rw [tree.eq_of_mem (mem_of_lookup there) h]

/-! ## Changes -/

/-- One change of a disk. -/
inductive Edit (d : Disk) : Disk → Prop where
  /-- The contents of the files do not matter to the tree. -/
  | contents (contents : List (List UInt8)) : Edit d { d with contents }
  | add {p last : String} {l : Location} (parent : d.findParent p = .ok (l, last))
      (here : last ≠ ".") (up : last ≠ "..") (free : d.nodeAt (l ++ [last]) = none) (n : Node) :
      Edit d { d with nodes := Disk.insertNode (l ++ [last]) n d.nodes }
  | remove {p : String} {l : Location} {n : Node} (found : d.find p = .ok (l, n))
      (file : n ≠ .dir) : Edit d { d with nodes := d.nodes.filter fun e => e.1 != l }

/-- Changes one after the other. -/
abbrev Edits : Disk → Disk → Prop := Relation.ReflTransGen Edit

theorem edits_setContents (d : Disk) (id : Nat) (bytes : List UInt8) :
    Edits d (d.setContents id bytes) := .single (.contents _)

theorem edits_makeDir {p : String} (h : d.makeDir p = .ok e) : Edits d e := by
  rw [Disk.makeDir] at h
  split at h
  · cases h
  case h_2 hparent =>
    split at h
    · cases h
    case isFalse hlast =>
      split at h
      · cases h
      case h_2 free =>
        cases h
        simp only [Bool.or_eq_true, decide_eq_true_eq, not_or] at hlast
        exact .single (.add hparent hlast.1 hlast.2 free .dir)

theorem edits_openForWriting {p : String} {n : Node} (h : d.openForWriting p = .ok (e, n)) :
    Edits d e := by
  rw [Disk.openForWriting] at h
  split at h
  · cases h
  case h_2 hparent =>
    split at h
    · cases h
    case isFalse hlast =>
      split at h
      · cases h
      · cases h
        exact .refl
      case h_3 free =>
        cases h
        simp only [Bool.or_eq_true, decide_eq_true_eq, not_or] at hlast
        exact .tail (.single (.add hparent hlast.1.1 hlast.1.2 free _)) (.contents _)

theorem edits_create {p : String} {n : Node} (h : d.create p = .ok (e, n)) : Edits d e := by
  rw [Disk.create] at h
  split at h
  · cases h
  case h_2 hopen =>
    cases h
    exact (edits_openForWriting hopen).trans (edits_setContents _ _ _)
  case h_3 hopen =>
    cases h
    exact edits_openForWriting hopen

theorem edits_write {p : String} {bytes : List UInt8} (h : d.write p bytes = .ok e) :
    Edits d e := by
  rw [Disk.write] at h
  split at h
  · cases h
  case h_2 hcreate =>
    cases h
    exact (edits_create hcreate).trans (edits_setContents _ _ _)
  case h_3 hcreate =>
    split at h
    · cases h
      exact edits_create hcreate
    · cases h
  case h_4 hcreate =>
    cases h
    exact edits_create hcreate

theorem edits_append {p : String} {bytes : List UInt8} (h : d.append p bytes = .ok e) :
    Edits d e := by
  rw [Disk.append] at h
  split at h
  · cases h
  case h_2 hopen =>
    cases h
    exact (edits_openForWriting hopen).trans (edits_setContents _ _ _)
  case h_3 hopen =>
    split at h
    · cases h
      exact edits_openForWriting hopen
    · cases h
  case h_4 hopen =>
    cases h
    exact edits_openForWriting hopen

/-- Directories are made one after the other. -/
theorem makeDirsFrom_steps {fuel : Nat} {p : String} (h : makeDirsFrom fuel d p = .ok e) :
    Relation.ReflTransGen (fun d e => ∃ q, d.makeDir q = .ok e) d e := by
  induction fuel generalizing d p e with
  | zero => cases h
  | succ fuel ih =>
    rw [Disk.makeDirsFrom] at h
    split at h
    · cases h
      exact .refl
    · split at h
      case h_1 made =>
        cases h
        exact .single ⟨_, made⟩
      case h_2 =>
        split at h
        · cases h
        · split at h
          · cases h
          case h_2 above =>
            split at h
            case h_1 made =>
              cases h
              exact (ih above).tail ⟨_, made⟩
            case h_2 =>
              split at h
              · cases h
                exact ih above
              · cases h
      case h_3 =>
        split at h
        · cases h
          exact .refl
        · cases h

/-- What making a directory keeps is kept by making several. -/
theorem makeDirs_keeps {P : Disk → Prop} {p : String}
    (keeps : ∀ {d e : Disk} {q : String}, P d → d.makeDir q = .ok e → P e) (holds : P d)
    (h : d.makeDirs p = .ok e) : P e := by
  have steps := makeDirsFrom_steps h
  clear h
  induction steps with
  | refl => exact holds
  | tail _ made ih => exact keeps ih made.choose_spec

theorem edits_makeDirs {p : String} (h : d.makeDirs p = .ok e) : Edits d e :=
  makeDirs_keeps (fun made h => made.trans (edits_makeDir h)) .refl h

theorem edits_remove {p : String} (h : d.remove p = .ok e) : Edits d e := by
  rw [Disk.remove] at h
  split at h
  · cases h
  · cases h
  case h_3 other found =>
    cases h
    exact .single (.remove found other)

/-! ## What changes keep -/

theorem Tree.proper_startOf (tree : d.Tree) (p : String) :
    ∀ s ∈ d.startOf p, Path.Proper s := by
  rw [startOf]
  split
  · simp
  · exact tree.base

/-- A name is made in a directory; the directory itself is made by no name. -/
theorem findParent_follow {p last : String} {l : Location}
    (h : d.findParent p = .ok (l, last)) (here : last ≠ ".") :
    last ∈ names p ∧ d.follow (d.startOf p) .dir (names p).dropLast = .ok (l, .dir) := by
  rw [findParent] at h
  split at h
  · cases h
  · split at h
    case h_1 =>
      cases h
      exact absurd rfl here
    case h_2 name hlast =>
      split at h
      · cases h
      case h_2 hfollow =>
        split at h
        · cases h
        · cases h
          exact ⟨List.mem_of_getLast? hlast, hfollow⟩
      · cases h

theorem Tree.edit (tree : d.Tree) (h : Edit d e) : e.Tree := by
  cases h with
  | contents => exact ⟨tree.sorted, tree.proper, tree.base⟩
  | @add p last l parent here up free n =>
    obtain ⟨own, hfollow⟩ := findParent_follow parent here
    have above := Location.proper_foldl_into (tree.proper_startOf p)
      fun s hs => proper_of_mem_names (p := p) (List.dropLast_subset _ hs)
    rw [← follow_eq_location hfollow] at above
    refine ⟨sorted_insertNode _ n tree.sorted, fun e he => ?_, tree.base⟩
    rcases mem_insertNode he with rfl | he
    · simpa [or_imp, forall_and] using ⟨above, proper_of_mem_names own here up⟩
    · exact tree.proper e he
  | remove =>
    exact ⟨tree.sorted.filter _, fun e he => tree.proper e (List.mem_of_mem_filter he), tree.base⟩

/-- Every entry lies in a directory, from the root on. -/
structure Rooted (d : Disk) : Prop where
  root : ([], .dir) ∈ d.nodes
  base : (d.base, .dir) ∈ d.nodes
  above : ∀ e ∈ d.nodes, (e.1.dropLast, .dir) ∈ d.nodes

theorem rooted_empty : Disk.empty.Rooted where
  root := by decide
  base := by decide
  above := by decide

/-- Names lead from entry to entry. -/
theorem Rooted.mem_of_follow (rooted : d.Rooted) {l k : Location} {node n : Node}
    {ss : List String} (start : (l, node) ∈ d.nodes) (h : d.follow l node ss = .ok (k, n)) :
    (k, n) ∈ d.nodes := by
  induction ss generalizing l node with
  | nil =>
    cases h
    exact start
  | cons s rest ih =>
    cases node with
    | dir =>
      rw [follow] at h
      split at h
      · exact ih start h
      · split at h
        · exact ih (rooted.above _ start) h
        · split at h
          · cases h
          · split at h
            case h_1 there => exact ih (mem_of_lookup there) h
            case h_2 => cases h
    | file | sink | full => simp [follow] at h

theorem Rooted.mem_startOf (rooted : d.Rooted) (p : String) : (d.startOf p, .dir) ∈ d.nodes := by
  rw [startOf]
  split
  · exact rooted.root
  · exact rooted.base

theorem Rooted.mem_of_find (rooted : d.Rooted) {p : String} {l : Location} {n : Node}
    (h : d.find p = .ok (l, n)) : (l, n) ∈ d.nodes := by
  rw [find] at h
  split at h
  · cases h
  · split at h
    · cases h
    case h_2 hfollow =>
      cases h
      exact rooted.mem_of_follow (rooted.mem_startOf p) hfollow
    case h_3 hfollow =>
      split at h
      · cases h
      · cases h
        exact rooted.mem_of_follow (rooted.mem_startOf p) hfollow

theorem Rooted.edit (rooted : d.Rooted) (tree : d.Tree) (h : Edit d e) : e.Rooted := by
  cases h with
  | contents => exact ⟨rooted.root, rooted.base, rooted.above⟩
  | @add p last l parent here up free n =>
    have dir := rooted.mem_of_follow (rooted.mem_startOf p) (findParent_follow parent here).2
    have stays {e : Location × Node} (h : e ∈ d.nodes) :
        e ∈ Disk.insertNode (l ++ [last]) n d.nodes := (mem_insertNode_of_free free).2 (.inr h)
    refine ⟨stays rooted.root, stays rooted.base, fun e he => stays ?_⟩
    rcases mem_insertNode he with rfl | old
    · rw [List.dropLast_concat]
      exact dir
    · exact rooted.above e old
  | @remove p l n found file =>
    -- no directory is removed
    have stays (k : Location) (h : (k, .dir) ∈ d.nodes) :
        (k, .dir) ∈ d.nodes.filter fun e => e.1 != l := by
      refine List.mem_filter.2 ⟨h, bne_iff_ne.2 ?_⟩
      rintro rfl
      exact file (tree.eq_of_mem (rooted.mem_of_find found) h)
    exact ⟨stays _ rooted.root, stays _ rooted.base, fun e he =>
      stays _ (rooted.above e (List.mem_of_mem_filter he))⟩

/-- What is made from an empty disk is a tree, whatever is done to it. -/
theorem tree_of_edits (h : Edits Disk.empty d) : d.Tree ∧ d.Rooted := by
  induction h with
  | refl => exact ⟨tree_empty, rooted_empty⟩
  | tail _ change ih => exact ⟨ih.1.edit change, ih.2.edit ih.1 change⟩

/-! ## Files and walks -/

/-- The regular files. -/
def files (d : Disk) : List Location :=
  d.nodes.filterMap fun e =>
    match e.2 with
    | .file _ => some e.1
    | _ => none

/-- Whether a search that starts from a directory comes to a location. -/
def holds (d : Disk) (dir : String) (l : Location) : Bool :=
  match d.find dir with
  | .ok (top, .dir) => top.isPrefixOf l && top != l
  | _ => false

theorem Tree.nodup_files (tree : d.Tree) : d.files.Nodup := by
  have ordered : d.files.Pairwise (· < ·) := by
    refine tree.sorted.filterMap _ ?_
    intro a b hab k hk l hl
    obtain ⟨ka, na⟩ := a
    obtain ⟨kb, nb⟩ := b
    cases na <;> cases nb <;> simp_all
  exact ordered.imp fun h => h.ne

theorem mem_files {l : Location} : l ∈ d.files ↔ ∃ id, (l, .file id) ∈ d.nodes := by
  rw [files, List.mem_filterMap]
  constructor
  · rintro ⟨⟨k, n⟩, he, hfile⟩
    cases n <;> simp only [Option.some.injEq, reduceCtorEq] at hfile
    case file id => exact ⟨id, hfile ▸ he⟩
  · rintro ⟨id, he⟩
    exact ⟨_, he, rfl⟩

theorem Tree.proper_files (tree : d.Tree) {l : Location} (h : l ∈ d.files) :
    ∀ s ∈ l, Path.Proper s := by
  obtain ⟨id, he⟩ := mem_files.1 h
  exact tree.proper _ he

theorem below?_eq_some {top l ss : Location} : below? top l = some ss ↔ l = top ++ ss := by
  induction top generalizing l with
  | nil => simp [below?]
  | cons s rest ih =>
    cases l with
    | nil => simp [below?]
    | cons t more =>
      rw [below?, List.cons_append, List.cons.injEq]
      split
      case isTrue h => simp [h, ih]
      case isFalse h => simp [Ne.symm h]

/-- The files below a location are those whose locations it starts. -/
theorem map_append_filesBelow (d : Disk) (top : Location) :
    (d.filesBelow top).map (top ++ ·) = d.files.filter fun l => top.isPrefixOf l && top != l := by
  rw [filesBelow, files, List.map_filterMap, List.filter_filterMap]
  refine List.filterMap_congr fun e _ => ?_
  obtain ⟨l, n⟩ := e
  cases n with
  | file =>
    cases hbelow : below? top l with
    | none =>
      have notPrefix : ¬ top <+: l := fun ⟨ss, hss⟩ => by
        simp [below?_eq_some.2 hss.symm] at hbelow
      simp [Option.filter_some, notPrefix]
    | some ss =>
      obtain rfl := below?_eq_some.1 hbelow
      cases ss <;> simp [Option.filter_some]
  | dir | sink | full => simp

theorem mem_filesBelow {top ss : Location} :
    ss ∈ d.filesBelow top ↔ top ++ ss ∈ d.files ∧ ss ≠ [] := by
  have cancel : (top ++ ·).Injective := fun _ _ => List.append_cancel_left
  rw [← List.mem_map_of_injective cancel, map_append_filesBelow, List.mem_filter]
  simp

/-- A walk comes to the files that its directory holds. -/
theorem Tree.map_locationOf_walk (tree : d.Tree) (dir : String) :
    (d.walk dir).map d.locationOf = d.files.filter (d.holds dir) := by
  unfold walk holds
  cases hfind : d.find dir with
  | error => simp
  | ok found =>
    obtain ⟨top, node⟩ := found
    cases node with
    | dir =>
      rw [← map_append_filesBelow, List.map_map]
      refine List.map_congr_left fun ss hss => ?_
      have proper := tree.proper_files (mem_filesBelow.1 hss).1
      rw [Function.comp_apply, locationOf_below, ← find_eq_location hfind]
      exact fun s hs => proper s (List.mem_append_right _ hs)
    | file | sink | full => simp

/-- What a walk comes to has a name in a directory. -/
theorem Tree.exists_join_of_mem_walk (tree : d.Tree) {dir p : String} (h : p ∈ d.walk dir) :
    ∃ parent s, Path.Proper s ∧ p = Path.join parent s := by
  unfold walk at h
  split at h
  case h_1 top _ =>
    obtain ⟨ss, hss, rfl⟩ := List.mem_map.1 h
    obtain ⟨file, nonempty⟩ := mem_filesBelow.1 hss
    obtain ⟨before, s, rfl⟩ := (List.eq_nil_or_concat ss).resolve_left nonempty
    refine ⟨before.foldl Path.join dir, s, tree.proper_files file s (by simp), ?_⟩
    rw [List.concat_eq_append, List.foldl_append, List.foldl_cons, List.foldl_nil]
  case h_2 => simp at h

end Disk

end LogConsole
