import LogConsole.Config
import LogConsole.Proofs.Expansion.Grammar
import LogConsole.Proofs.Text.ByteOrder
import LogConsole.Proofs.Toml.Distinct
import Mathlib.Data.List.Perm.Basic

/-!
# LogConsole.Proofs.Config.Globals

What the global variables are once a configuration has set them.

* `installFrom_cut`  — what a name gets depends on the names before it alone: those after it
  are set later, and no name is set twice;
* `sorted_of_decode` — a configuration that has been read is in the order of its names;
* `Config.reference` — the value of a reference, by what the scope holds at the end;
* `Installed`        — an equation for each name, in which the references are to names of smaller
  bytes. They determine the scope (`Installed.agree`);
* `globals_eq_of_perm` — documents that list the same variables in different orders are the same
  configuration of them.

`installed_globals` is the result: what is set solves the equations.
-/

namespace LogConsole

/-- Look-ups that give the same texts give the same expansions. -/
theorem expand_congr {first second : String → Option String}
    (same : ∀ name, (first name).getD "" = (second name).getD "") (text : String) :
    expand first text = expand second text := by
  obtain ⟨r⟩ := Expansion.Reading.exists_reading false text.toList
  have values : Expansion.Piece.value first = Expansion.Piece.value second := by
    funext p
    simp only [Expansion.Piece.value, same]
  rw [r.expand_eq_expansion, r.expand_eq_expansion, Expansion.Reading.expansion,
    Expansion.Reading.expansion, values]

namespace Config

open Text

variable {environment globals : Dict String} {name : String}

/-! ## One after the other -/

theorem installFrom_append (xs ys : List (String × String)) (globals : Dict String) :
    installFrom environment globals (xs ++ ys)
      = installFrom environment (installFrom environment globals xs) ys := by
  induction xs generalizing globals with
  | nil => rfl
  | cons e xs ih =>
    rw [List.cons_append, installFrom, installFrom]
    split
    · exact ih _
    · exact ih _

theorem get?_installFrom_of_not_mem {entries : List (String × String)}
    (other : name ∉ entries.map (·.1)) (globals : Dict String) :
    (installFrom environment globals entries).get? name = globals.get? name := by
  induction entries generalizing globals with
  | nil => rfl
  | cons e rest ih =>
    rw [List.map_cons, List.mem_cons, not_or] at other
    rw [installFrom]
    split
    · rw [ih other.2, Dict.get?_insert, if_neg (Ne.symm other.1)]
    · exact ih other.2 _

/-- A variable that is set stays set. -/
theorem get?_eq_none_of_installFrom {entries : List (String × String)}
    (h : (installFrom environment globals entries).get? name = none) :
    globals.get? name = none := by
  induction entries generalizing globals with
  | nil => exact h
  | cons e rest ih =>
    rw [installFrom] at h
    split at h
    · have unset := ih h
      rw [Dict.get?_insert] at unset
      split at unset
      · cases unset
      · exact unset
    · exact ih h

/-- Names that come later, or earlier, do not set a name. -/
theorem installFrom_cut {pre post : List (String × String)} {raw : String}
    (before : name ∉ pre.map (·.1)) (after : name ∉ post.map (·.1)) :
    (installFrom environment globals (pre ++ (name, raw) :: post)).get? name
      = match expand (lookupGlobal environment (installFrom environment globals pre)) raw with
        | .ok value => some value
        | .error _ => globals.get? name := by
  rw [installFrom_append, installFrom]
  cases expand (lookupGlobal environment (installFrom environment globals pre)) raw with
  | ok value => exact (get?_installFrom_of_not_mem after _).trans (Dict.get?_insert_self _ _ _)
  | error e =>
    exact (get?_installFrom_of_not_mem after _).trans (get?_installFrom_of_not_mem before _)

/-! ## What is set -/

/-- What a reference in the value of `name` stands for, with `after` the scope at the end: what
has been set before `name`, else what was there from the start, else the environment. -/
def reference (c : Config) (environment before after : Dict String) (name ref : String) :
    String :=
  let installed :=
    if c.globals.contains ref ∧ Utf8.encode ref < Utf8.encode name then after.get? ref else none
  ((installed.or (before.get? ref)).or (environment.get? ref)).getD ""

/-- That `after` is what a configuration makes of the scope `before`, by an equation for each
name. -/
structure Installed (c : Config) (environment before after : Dict String) : Prop where
  expanded : ∀ name raw value, c.globals.get? name = some raw →
    expand (fun ref => some (c.reference environment before after name ref)) raw = .ok value →
    after.get? name = some value
  failed : ∀ name raw e, c.globals.get? name = some raw →
    expand (fun ref => some (c.reference environment before after name ref)) raw = .error e →
    after.get? name = before.get? name
  other : ∀ name, c.globals.get? name = none → after.get? name = before.get? name

/-- A configured name, between the smaller ones and the greater ones. -/
structure Cut (c : Config) (name raw : String) (pre post : List (String × String)) : Prop where
  entries : c.globals.toList = pre ++ (name, raw) :: post
  smaller : ∀ e ∈ pre, e.1 < name
  greater : ∀ e ∈ post, name < e.1

namespace Cut

variable {c : Config} {raw : String} {pre post : List (String × String)}

theorem of_entries (sorted : c.globals.Sorted)
    (entries : c.globals.toList = pre ++ (name, raw) :: post) : Cut c name raw pre post := by
  rw [Dict.Sorted, entries, List.pairwise_append, List.pairwise_cons] at sorted
  obtain ⟨-, ⟨greater, -⟩, smaller⟩ := sorted
  exact ⟨entries, fun e he => smaller e he _ List.mem_cons_self, greater⟩

theorem exists_of_get? (sorted : c.globals.Sorted) (configured : c.globals.get? name = some raw) :
    ∃ pre post, Cut c name raw pre post := by
  obtain ⟨pre, post, entries⟩ := List.append_of_mem (sorted.get?_eq_some_iff.1 configured)
  exact ⟨pre, post, of_entries sorted entries⟩

theorem not_mem_pre (cut : Cut c name raw pre post) : name ∉ pre.map (·.1) := by
  intro h
  obtain ⟨e, he, own⟩ := List.mem_map.1 h
  exact (cut.smaller e he).ne own

theorem not_mem_post (cut : Cut c name raw pre post) : name ∉ post.map (·.1) := by
  intro h
  obtain ⟨e, he, own⟩ := List.mem_map.1 h
  exact (cut.greater e he).ne' own

/-- The names before it are those that its value may refer to. -/
theorem mem_pre_iff (cut : Cut c name raw pre post) (ref : String) :
    ref ∈ pre.map (·.1) ↔ c.globals.contains ref ∧ Utf8.encode ref < Utf8.encode name := by
  rw [Dict.contains_iff, cut.entries, Utf8.encode_lt_encode_iff, List.map_append, List.map_cons,
    List.mem_append, List.mem_cons]
  constructor
  · intro h
    obtain ⟨e, he, rfl⟩ := List.mem_map.1 h
    exact ⟨.inl h, cut.smaller e he⟩
  · rintro ⟨h | rfl | h, less⟩
    · exact h
    · exact (lt_irrefl _ less).elim
    · obtain ⟨e, he, rfl⟩ := List.mem_map.1 h
      exact (lt_asymm less (cut.greater e he)).elim

/-- The look-up in which a value is expanded, by the scope at the end. -/
theorem lookup_eq_reference (cut : Cut c name raw pre post) (ref : String) :
    (lookupGlobal environment (installFrom environment globals pre) ref).getD ""
      = c.reference environment globals (installFrom environment globals c.globals.toList)
          name ref := by
  simp only [reference, ← cut.mem_pre_iff, lookupGlobal]
  by_cases known : ref ∈ pre.map (·.1)
  · have later : ref ∉ ((name, raw) :: post).map (·.1) := by
      have less := Utf8.encode_lt_encode_iff.1 ((cut.mem_pre_iff ref).1 known).2
      intro h
      rcases List.mem_cons.1 h with rfl | h
      · exact lt_irrefl _ less
      · obtain ⟨e, he, rfl⟩ := List.mem_map.1 h
        exact lt_asymm less (cut.greater e he)
    rw [if_pos known, cut.entries, installFrom_append, get?_installFrom_of_not_mem later]
    cases found : (installFrom environment globals pre).get? ref with
    | some v => rfl
    | none => simp [get?_eq_none_of_installFrom found]
  · rw [if_neg known, get?_installFrom_of_not_mem known]
    cases globals.get? ref with
    | some v => rfl
    | none => simp

/-- What a name is set to, by the scope at the end. -/
theorem get?_installFrom (cut : Cut c name raw pre post) :
    (installFrom environment globals c.globals.toList).get? name
      = match expand (fun ref => some (c.reference environment globals
            (installFrom environment globals c.globals.toList) name ref)) raw with
        | .ok value => some value
        | .error _ => globals.get? name := by
  have same (ref : String) :
      (lookupGlobal environment (installFrom environment globals pre) ref).getD ""
        = (some (c.reference environment globals
            (installFrom environment globals c.globals.toList) name ref)).getD "" :=
    cut.lookup_eq_reference ref
  rw [← expand_congr same raw, cut.entries]
  exact installFrom_cut cut.not_mem_pre cut.not_mem_post

end Cut

theorem installed_installFrom {c : Config} (sorted : c.globals.Sorted)
    (environment before : Dict String) :
    Installed c environment before (installFrom environment before c.globals.toList) where
  expanded name raw value configured expands := by
    obtain ⟨pre, post, cut⟩ := Cut.exists_of_get? sorted configured
    rw [cut.get?_installFrom, expands]
  failed name raw e configured fails := by
    obtain ⟨pre, post, cut⟩ := Cut.exists_of_get? sorted configured
    rw [cut.get?_installFrom, fails]
  other name unknown := get?_installFrom_of_not_mem (Dict.find?_eq_none_iff.1 unknown) _

/-- The equations leave no choice: by induction on the names, in their order. -/
theorem Installed.agree {c : Config} (sorted : c.globals.Sorted)
    {before first second : Dict String} (hfirst : Installed c environment before first)
    (hsecond : Installed c environment before second) (name : String) :
    first.get? name = second.get? name := by
  have configured (pre : List (String × String)) : ∀ post, c.globals.toList = pre ++ post →
      ∀ name ∈ pre.map (·.1), first.get? name = second.get? name := by
    induction pre using List.reverseRecOn with
    | nil => intro post _ name h; cases h
    | append_singleton pre e ih =>
      intro post entries name h
      rw [List.append_assoc, List.singleton_append] at entries
      rw [List.map_append, List.mem_append, List.map_singleton, List.mem_singleton] at h
      rcases h with h | rfl
      · exact ih _ entries name h
      have cut := Cut.of_entries sorted entries
      have there : c.globals.get? e.1 = some e.2 :=
        sorted.get?_eq_some_iff.2 (entries ▸ List.mem_append_right _ List.mem_cons_self)
      have references : c.reference environment before first e.1
          = c.reference environment before second e.1 := by
        funext ref
        simp only [reference, ← cut.mem_pre_iff]
        split
        case isTrue smaller => rw [ih _ entries ref smaller]
        case isFalse => rfl
      cases expands :
        expand (fun ref => some (c.reference environment before first e.1 ref)) e.2 with
      | ok value =>
        rw [hfirst.expanded _ _ _ there expands,
          hsecond.expanded _ _ _ there (by rw [← references]; exact expands)]
      | error err =>
        rw [hfirst.failed _ _ _ there expands,
          hsecond.failed _ _ _ there (by rw [← references]; exact expands)]
  cases unknown : c.globals.get? name with
  | none => rw [hfirst.other name unknown, hsecond.other name unknown]
  | some raw =>
    refine configured _ [] (List.append_nil _).symm name ?_
    exact Dict.contains_iff.1 (by rw [Dict.contains, unknown]; rfl)

/-! ## The order of a document -/

/-- The entries of the table of global variables, as a document lists them. -/
def listedGlobals (text : String) : List (String × Toml.Value) :=
  match (Toml.parse text).bind (Toml.lookup "global_vars") with
  | some (.table listed) => listed
  | _ => []

theorem textEntries?_eq_some {entries : List (String × Toml.Value)}
    {texts : List (String × String)} (h : textEntries? entries = some texts) :
    entries = texts.map fun e => (e.1, .text e.2) := by
  fun_induction textEntries? entries generalizing texts with
  | case1 => cases h; rfl
  | case2 k s rest ih =>
    obtain ⟨others, done, rfl⟩ := Option.map_eq_some_iff.1 h
    rw [List.map_cons, ← ih done]
  | case3 => cases h

theorem fieldOr_of_ofEntries {entries : List (String × Toml.Value)} {c : Config}
    (h : ofEntries entries = some c) :
    fieldOr dict? Dict.empty entries "global_vars" = some c.globals := by
  simp only [ofEntries] at h
  split at h
  case h_1 found _ _ _ =>
    cases h
    exact found
  case h_2 => cases h

theorem listed_of_decode {text : String} {c : Config} (h : decode text = some c) :
    ((listedGlobals text).map (·.1)).Nodup ∧
      ∃ texts, textEntries? (listedGlobals text) = some texts ∧ c.globals = Dict.ofList texts := by
  rw [decode] at h
  split at h
  case h_2 => cases h
  case h_1 entries parsed =>
    have field := fieldOr_of_ofEntries h
    rw [fieldOr] at field
    rw [listedGlobals, parsed, Option.bind_some]
    cases there : Toml.lookup "global_vars" entries with
    | none =>
      rw [there] at field
      exact ⟨List.nodup_nil, [], rfl, (Option.some.inj field).symm⟩
    | some v =>
      rw [there] at field
      cases v with
      | table listed =>
        obtain ⟨texts, read, made⟩ := Option.map_eq_some_iff.1 field
        have whole := Toml.distinct_parse parsed
        cases whole with
        | table names each =>
          rw [Toml.lookup_eq_find?, Dict.find?_eq_some_iff names] at there
          cases each _ there with
          | table names => exact ⟨names, texts, read, made.symm⟩
      | _ => cases field

/-- A configuration that has been read is in the order of its names. -/
theorem sorted_of_decode {text : String} {c : Config} (h : decode text = some c) :
    c.globals.Sorted := by
  obtain ⟨-, texts, -, made⟩ := listed_of_decode h
  rw [made]
  exact Dict.sorted_ofList texts

theorem globals_eq_of_perm {first second : String} {c d : Config} (hc : decode first = some c)
    (hd : decode second = some d)
    (reordered : (listedGlobals first).Perm (listedGlobals second)) : c.globals = d.globals := by
  obtain ⟨distinct, texts, read, made⟩ := listed_of_decode hc
  obtain ⟨-, texts', read', made'⟩ := listed_of_decode hd
  rw [textEntries?_eq_some read] at reordered distinct
  rw [textEntries?_eq_some read'] at reordered
  have injective : Function.Injective fun e : String × String => (e.1, Toml.Value.text e.2) := by
    rintro ⟨a, b⟩ ⟨a', b'⟩ same
    cases same
    rfl
  rw [made, made']
  refine Dict.ofList_perm ?_ ((List.map_perm_map_iff injective).1 reordered)
  rwa [List.map_map] at distinct

/-- **The global variables of a configuration.** After a configuration has been installed, each
of its names whose value expands holds that expansion, a reference in it standing for the value
that a smaller configured name has got, else for the variable that was there before, else for
the variable of the environment, else for nothing; a name whose value does not expand, and a
name that is not configured, is as it was. This determines the scope, nothing else is changed,
and the order in which a document lists the names does not matter. -/
theorem installed_globals (c : Config) (sorted : c.globals.Sorted) (environment : Dict String)
    (ctx : Context) :
    let after := c.installGlobals environment ctx
    Installed c environment ctx.globals after.globals ∧
    (∀ scope, Installed c environment ctx.globals scope →
      ∀ name, scope.get? name = after.globals.get? name) ∧
    after = { ctx with globals := after.globals } ∧
    ∀ first second d, decode first = some c → decode second = some d →
      (listedGlobals first).Perm (listedGlobals second) →
      d.installGlobals environment ctx = after := by
  have holds := installed_installFrom sorted environment ctx.globals
  refine ⟨holds, fun scope other name => other.agree sorted holds name, rfl, ?_⟩
  intro first second d hc hd reordered
  rw [installGlobals, installGlobals, globals_eq_of_perm hc hd reordered]

/-- The values refer to a smaller name, to their own and to a greater one. -/
def sample : Config where
  globals := Dict.ofList
    [("base", "/srv/$USER"), ("later", "$later!"), ("logs", "$base/$later$zone"), ("torn", "$\x7bx"),
      ("zone", "z")]

def sampleText : String :=
  "[global_vars]\nlogs = '$base/$later$zone'\nbase = '/srv/$USER'\nlater = '$later!'\n"
    ++ "torn = '$\x7bx'\nzone = 'z'\n"

/-- The same lines in the order of the names. -/
def sampleTextInOrder : String :=
  "[global_vars]\nbase = '/srv/$USER'\nlater = '$later!'\nlogs = '$base/$later$zone'\n"
    ++ "torn = '$\x7bx'\nzone = 'z'\n"

theorem listedGlobals_sample :
    (listedGlobals sampleText).Perm (listedGlobals sampleTextInOrder) := by
  have first : listedGlobals sampleText = [("logs", .text "$base/$later$zone"),
      ("base", .text "/srv/$USER"), ("later", .text "$later!"), ("torn", .text "$\x7bx"),
      ("zone", .text "z")] := by cbv
  have second : listedGlobals sampleTextInOrder = [("base", .text "/srv/$USER"),
      ("later", .text "$later!"), ("logs", .text "$base/$later$zone"), ("torn", .text "$\x7bx"),
      ("zone", .text "z")] := by cbv
  rw [first, second]
  exact (@List.perm_middle _ _ [_, _] _).symm

theorem installed_globals_of_sample :
    let environment := Dict.ofList [("USER", "ann")]
    let ctx : Context := { globals := Dict.ofList [("later", "preset"), ("zone", "old")] }
    let after := sample.installGlobals environment ctx
    sample.globals.Sorted ∧ Installed sample environment ctx.globals after.globals ∧
      after.globals.toList = [("base", "/srv/ann"), ("later", "preset!"),
        ("logs", "/srv/ann/preset!old"), ("zone", "z")] ∧
      ∃ d, decode sampleTextInOrder = some d ∧ d.installGlobals environment ctx = after := by
  intro environment ctx after
  have first : decode sampleText = some sample := by decide +kernel
  have second : decode sampleTextInOrder = some sample := by decide +kernel
  have sorted : sample.globals.Sorted := sorted_of_decode first
  obtain ⟨holds, -, -, reordered⟩ := installed_globals sample sorted environment ctx
  exact ⟨sorted, holds, by decide +kernel, sample, second,
    reordered _ _ _ first second listedGlobals_sample⟩

end Config

end LogConsole
